/-
The stored procedure reaction (`storedproc-reaction/src/index.ts`): the statement it sends for a row of a change.

The parameters of a command are the matches of `/@\w+/g` in the whole of it. `executeStoredProcedure` keeps the command up to
its first opening parenthesis and puts the values of the parameters there, separated by commas; a string goes between single
quotes as it is. For the client `mssql` it then replaces the first opening parenthesis and takes out the first closing one.

A `Dialect` is how the server reads a string: a quote that is doubled, and a backslash with the character after it where the
backslash is an escape. `literal` is the literal of a value: a string between quotes as it is where that is read back
(`ReadsBack`), escaped otherwise.

- `readQuoted_escape`: an escaped string is read back, and what follows its literal is left.
- `statement_iff`: a statement is sent for every row with all of the parameters, unless a column hides `hasOwnProperty`.
- `execute_of_paren`: what is kept of a command is the text before its first opening parenthesis.
-/
import Mathlib.Tactic
import DrasiPlatform.Core.Templates

namespace DrasiPlatform.StoredProcedures

open Templates

/-! ## Values -/

/-- what JavaScript writes for a finite number -/
structure NumberText where
  text : Text
  head : ∃ c cs, text = c :: cs ∧ (c.isDigit = true ∨ c = '-')
  plain : ∀ c ∈ text, c.isDigit = true ∨ c ∈ ['-', '+', '.', 'e']

inductive JsonValue where
  | null
  | boolean (b : Bool)
  | number (n : NumberText)
  | string (s : Text)
  | array (items : List JsonValue)
  | object (fields : List (Text × JsonValue))

/-- a row of a query's result -/
abbrev Row := List (Text × JsonValue)

mutual

/-- `String(value)` -/
def JsonValue.jsText : JsonValue → Text
  | .null => "null".toList
  | .boolean b => if b then "true".toList else "false".toList
  | .number n => n.text
  | .string s => s
  | .array items => joinItems items
  | .object _ => "[object Object]".toList

/-- `Array.prototype.join`, to which null is empty -/
def joinItems : List JsonValue → Text
  | [] => []
  | [.null] => []
  | [item] => item.jsText
  | .null :: items => ',' :: joinItems items
  | item :: items => item.jsText ++ ',' :: joinItems items

end

/-! ## The statement -/

/-- the characters that `trim` takes off -/
def whitespace : List Char :=
  ['\t', '\n', '\x0b', '\x0c', '\r', ' ', '\u00a0', '\u1680', '\u2000', '\u2001', '\u2002', '\u2003', '\u2004', '\u2005',
    '\u2006', '\u2007', '\u2008', '\u2009', '\u200a', '\u2028', '\u2029', '\u202f', '\u205f', '\u3000', '\ufeff']

def trim (s : Text) : Text := (s.dropWhile (· ∈ whitespace)).reverse.dropWhile (· ∈ whitespace) |>.reverse

/-- `toUpperCase`, of the letters of ASCII; no other character has one of the letters of a keyword as its upper case -/
def toUpperCase (s : Text) : Text := s.map Char.toUpper

/-- `\w` -/
def isWord (c : Char) : Bool := c.isAlphanum || c == '_'

def tokens (command : Text) : List Token := scan '@' isWord none command

/-- the matches of `queryParamsRegex`, without the mark -/
def queryParams (command : Text) : List Text := names (tokens command)

def hasOwnProperty : Text := "hasOwnProperty".toList

inductive ReactionError where
  | missingParameters (param : Text)
  -- a column of that name hides the method of the row
  | hasOwnPropertyIsNotAFunction
deriving DecidableEq

def checkSqlCommandParameters (data : Row) : List Text → Except ReactionError (List JsonValue)
  | [] => .ok []
  | param :: paramList =>
    if (data.lookup hasOwnProperty).isSome then .error .hasOwnPropertyIsNotAFunction
    else match data.lookup param with
      | none => .error (.missingParameters param)
      | some value => (checkSqlCommandParameters data paramList).map (value :: ·)

/-- the text of one argument -/
def argumentText : JsonValue → Text
  | .string s => '\'' :: (s ++ ['\''])
  | value => value.jsText

def argumentsText : List JsonValue → Text
  | [] => []
  | [value] => argumentText value
  | value :: values => argumentText value ++ ", ".toList ++ argumentsText values

def callKeyword : Text := "CALL ".toList

def execKeyword : Text := "EXEC ".toList

def withKeyword (databaseClient : String) (command : Text) : Text :=
  let command :=
    if databaseClient ≠ "mssql" ∧ ¬callKeyword <+: toUpperCase (trim command) then callKeyword ++ command else command
  if databaseClient = "mssql" ∧ ¬execKeyword <+: toUpperCase (trim command) then execKeyword ++ command else command

/-- `executeStoredProcedure`, the query that it hands to the client -/
def executeStoredProcedure (databaseClient : String) (command : Text) (queryArguments : List JsonValue) : Text :=
  let command := withKeyword databaseClient command
  let query := match command.idxOf? '(' with
    | none => []
    | some index => command.take (index + 1)
  let query := query ++ argumentsText queryArguments ++ [')']
  if databaseClient = "mssql" then (query.replace '(' ' ').erase ')' else query

/-- what the reaction sends for a row -/
def statement (databaseClient : String) (command : Text) (data : Row) : Except ReactionError Text :=
  (checkSqlCommandParameters data (queryParams command)).map (executeStoredProcedure databaseClient command)

/-! ## Literals -/

/-- how the server reads a string; `escaped` is what a backslash and the character after it stand for, where the backslash is
an escape -/
structure Dialect where
  escaped : Option (Char → Text)
  escaped_backslash : ∀ f ∈ escaped, f '\\' = ['\\']

/-- a string up to the quote that ends it, and what is left -/
def readQuoted (sql : Dialect) : Text → Option (Text × Text)
  | [] => none
  | c :: cs =>
    if c = '\'' then match cs with
      | '\'' :: rest => (readQuoted sql rest).map fun r => ('\'' :: r.1, r.2)
      | _ => some ([], cs)
    else match (if c = '\\' then sql.escaped else none) with
      | none => (readQuoted sql cs).map fun r => (c :: r.1, r.2)
      | some f => match cs with
        | d :: rest => (readQuoted sql rest).map fun r => (f d ++ r.1, r.2)
        | [] => none

def escapeChar (sql : Dialect) (c : Char) : Text :=
  if c = '\'' then ['\'', '\''] else if c = '\\' ∧ sql.escaped.isSome then ['\\', '\\'] else [c]

def escape (sql : Dialect) (s : Text) : Text := s.flatMap (escapeChar sql)

/-- a string that is read back from between quotes -/
def ReadsBack (sql : Dialect) (s : Text) : Prop := readQuoted sql (s ++ ['\'']) = some (s, [])

instance (sql : Dialect) (s : Text) : Decidable (ReadsBack sql s) := inferInstanceAs (Decidable (_ = _))

/-- the literal of a value; arrays and objects have none -/
def literal (sql : Dialect) : JsonValue → Option Text
  | .string s => some ('\'' :: ((if ReadsBack sql s then s else escape sql s) ++ ['\'']))
  | .array _ | .object _ => none
  | value => some value.jsText

section Literals

variable (sql : Dialect)

/-- a character that is neither a quote nor an escape is read as itself -/
theorem readQuoted_char {c : Char} (hquote : c ≠ '\'') (hback : c = '\\' → sql.escaped = none) (cs : Text) :
    readQuoted sql (c :: cs) = (readQuoted sql cs).map fun r => (c :: r.1, r.2) := by
  have hnone : (if c = '\\' then sql.escaped else none) = none := ite_eq_right_iff.2 hback
  rw [readQuoted.eq_def]
  simp only [if_neg hquote, hnone]

/-- a quote that is not doubled ends the string -/
theorem readQuoted_end {rest : Text} (hrest : rest.head? ≠ some '\'') : readQuoted sql ('\'' :: rest) = some ([], rest) := by
  cases rest with
  | nil => rfl
  | cons c cs =>
    have hc : c ≠ '\'' := fun h => hrest (by rw [h]; rfl)
    rw [readQuoted.eq_def]
    simp [hc]

/-- **An escaped string** is read back, with nothing of what follows. -/
theorem readQuoted_escape (s : Text) {rest : Text} (hrest : rest.head? ≠ some '\'') :
    readQuoted sql (escape sql s ++ '\'' :: rest) = some (s, rest) := by
  induction s with
  | nil => exact readQuoted_end sql hrest
  | cons c s ih =>
    have hcons : escape sql (c :: s) = escapeChar sql c ++ escape sql s := rfl
    rw [hcons, List.append_assoc]
    by_cases hquote : c = '\''
    · subst hquote
      simp [escapeChar, readQuoted, ih]
    · by_cases hescape : c = '\\' ∧ sql.escaped.isSome
      · obtain ⟨rfl, hsome⟩ := hescape
        obtain ⟨f, hf⟩ := Option.isSome_iff_exists.1 hsome
        simp [escapeChar, readQuoted, hf, ih, sql.escaped_backslash f hf]
      · have hback : c = '\\' → sql.escaped = none := fun hc => by simpa [hc] using hescape
        rw [escapeChar, if_neg hquote, if_neg hescape, List.singleton_append, readQuoted_char sql hquote hback, ih]
        rfl

/-- a string that needs no escaping is read back -/
theorem readsBack_of_escape_eq {s : Text} (h : escape sql s = s) : ReadsBack sql s := by
  have hread : readQuoted sql (escape sql s ++ ['\'']) = some (s, []) := readQuoted_escape sql s (by simp)
  rwa [h] at hread

/-- the separators of arguments, and the parenthesis after them -/
def separators : List Char := [',', ' ', ')']

/-- a character that is no separator -/
def isContent (c : Char) : Bool := c ∉ separators

/-- the characters that a literal begins with -/
def opensLiteral (c : Char) : Bool := c.isDigit || c ∈ ['\'', '-', 'n', 't', 'f']

theorem countP_escape (s : Text) : s.countP isContent ≤ (escape sql s).countP isContent ∧
    (s.countP isContent = (escape sql s).countP isContent → escape sql s = s) := by
  induction s with
  | nil => exact ⟨le_refl 0, fun _ => rfl⟩
  | cons c s ih =>
    have hcons : escape sql (c :: s) = escapeChar sql c ++ escape sql s := rfl
    have hchar : escapeChar sql c = [c] ∨ (escapeChar sql c).countP isContent = 2 := by
      unfold escapeChar
      split_ifs
      · exact Or.inr (by decide)
      · exact Or.inr (by decide)
      · exact Or.inl rfl
    have hone : [c].countP isContent ≤ 1 := List.countP_le_length
    rw [hcons, ← List.singleton_append, List.countP_append, List.countP_append]
    rcases hchar with hsame | htwo
    · rw [hsame]
      refine ⟨Nat.add_le_add_left ih.1 _, fun h => ?_⟩
      rw [ih.2 (Nat.add_left_cancel h)]
    · rw [htwo]
      exact ⟨by omega, fun h => absurd h (by omega)⟩

/-- the literal of a value has at least what its argument has, and no more only where it is the argument -/
theorem literal_count {v : JsonValue} {l : Text} (h : literal sql v = some l) :
    (argumentText v).countP isContent ≤ l.countP isContent ∧
      ((argumentText v).countP isContent = l.countP isContent → l = argumentText v) := by
  cases v with
  | string s =>
    obtain rfl := Option.some.inj h
    by_cases hread : ReadsBack sql s
    · rw [if_pos hread]
      exact ⟨le_refl _, fun _ => rfl⟩
    · rw [if_neg hread, argumentText]
      obtain ⟨hle, heq⟩ := countP_escape sql s
      simp only [List.countP_cons, List.countP_append]
      refine ⟨by omega, fun hcount => absurd (readsBack_of_escape_eq sql (heq (by omega))) hread⟩
  | null | boolean b | number n =>
    obtain rfl := Option.some.inj h
    exact ⟨le_refl _, fun _ => rfl⟩
  | array items => cases h
  | object fields => cases h

/-- a literal and the argument begin with one character -/
theorem literal_head {v : JsonValue} {l : Text} (h : literal sql v = some l) :
    ∃ c cs cs', l = c :: cs ∧ argumentText v = c :: cs' ∧ opensLiteral c = true := by
  cases v with
  | string s =>
    obtain rfl := Option.some.inj h
    exact ⟨'\'', _, _, rfl, rfl, rfl⟩
  | null =>
    obtain rfl := Option.some.inj h
    exact ⟨'n', _, _, rfl, rfl, rfl⟩
  | boolean b =>
    obtain rfl := Option.some.inj h
    cases b with
    | false => exact ⟨'f', _, _, rfl, rfl, rfl⟩
    | true => exact ⟨'t', _, _, rfl, rfl, rfl⟩
  | number n =>
    obtain rfl := Option.some.inj h
    obtain ⟨c, cs, htext, hc⟩ := n.head
    refine ⟨c, cs, cs, htext, htext, ?_⟩
    rcases hc with hdigit | rfl
    · rw [opensLiteral, hdigit, Bool.true_or]
    · rfl
  | array items => cases h
  | object fields => cases h

/-- an argument with a closing parenthesis does not end in it -/
theorem literal_close {v : JsonValue} {l : Text} (h : literal sql v = some l) (hclose : ')' ∈ argumentText v) :
    ∃ a b, argumentText v = a ++ ')' :: (b ++ ['\'']) ∧ ')' ∉ a := by
  cases v with
  | string s =>
    have hs : ')' ∈ s := by simpa [argumentText] using hclose
    obtain ⟨a, b, rfl, ha⟩ := List.eq_append_cons_of_mem hs
    exact ⟨'\'' :: a, b, by simp [argumentText], by simpa using ha⟩
  | number n =>
    rcases n.plain ')' hclose with hdigit | hmem
    · exact absurd hdigit (by decide)
    · exact absurd hmem (by decide)
  | null => exact absurd hclose (by decide)
  | boolean b => cases b <;> exact absurd hclose (by decide)
  | array items => cases h
  | object fields => cases h

end Literals

/-! ## What a statement should say -/

/-- the last closing parenthesis taken out -/
def eraseLastClose (ts : List Token) : List Token := (ts.reverse.erase (.char ')')).reverse

/-- the parentheses of the arguments taken out, as `mssql` has a call -/
def unparen : List Token → List Token
  | [] => []
  | t :: ts => if t = .char '(' then .char ' ' :: eraseLastClose ts else t :: unparen ts

/-- the template as the client takes it, with the keyword of a call -/
def callTokens (databaseClient : String) (command : Text) : List Token :=
  if databaseClient = "mssql" then unparen (tokens (withKeyword databaseClient command))
  else tokens (withKeyword databaseClient command)

/-- the query is the template with the literal of the row's value in the place of every parameter -/
def SaysTemplate (sql : Dialect) (databaseClient : String) (command : Text) (row : Row) (query : Text) : Prop :=
  ∃ lit : Text → Text,
    (∀ name ∈ queryParams command, ∃ v, row.lookup name = some v ∧ literal sql v = some (lit name)) ∧
      query = fill lit (callTokens databaseClient command)

/-- parameters separated by commas -/
def argumentTokens : List Text → List Token
  | [] => []
  | [name] => [.param name]
  | name :: names => .param name :: .char ',' :: .char ' ' :: argumentTokens names

/-- a name without parameters, and parameters as the only arguments -/
def HasArguments (databaseClient : String) (name arguments : Text) : Prop :=
  queryParams name = [] ∧
    if databaseClient = "mssql" then
      ')' ∉ name ∧ eraseLastClose (tokens arguments) = argumentTokens (queryParams arguments)
    else tokens arguments = argumentTokens (queryParams arguments) ++ [.char ')']

/-- the first opening parenthesis of the command is the one between such a name and such arguments -/
def ArgumentsOnly (databaseClient : String) (command : Text) : Prop :=
  ∃ name arguments, withKeyword databaseClient command = name ++ '(' :: arguments ∧ '(' ∉ name ∧
    HasArguments databaseClient name arguments

/-- a value whose argument is its literal, and for `mssql` has no closing parenthesis -/
def Plain (sql : Dialect) (databaseClient : String) : JsonValue → Prop
  | .null | .boolean _ | .number _ => True
  | .string s => ReadsBack sql s ∧ (databaseClient = "mssql" → ')' ∉ s)
  | .array _ | .object _ => False

theorem plain_iff {sql : Dialect} {databaseClient : String} {v : JsonValue} :
    Plain sql databaseClient v ↔
      literal sql v = some (argumentText v) ∧ (databaseClient = "mssql" → ')' ∉ argumentText v) := by
  cases v with
  | string s =>
    have hlit : literal sql (.string s) = some (argumentText (.string s)) ↔ ReadsBack sql s := by
      refine ⟨fun h => ?_, ?_⟩
      · by_contra hread
        exact hread (readsBack_of_escape_eq sql (by simpa [literal, argumentText, hread] using h))
      · intro hread
        simp [literal, argumentText, hread]
    have hclose : ')' ∈ argumentText (.string s) ↔ ')' ∈ s := by simp [argumentText]
    rw [hlit, hclose]
    exact Iff.rfl
  | null => exact ⟨fun _ => ⟨rfl, fun _ => by decide⟩, fun _ => trivial⟩
  | boolean b => exact ⟨fun _ => ⟨rfl, fun _ => by cases b <;> decide⟩, fun _ => trivial⟩
  | number n =>
    refine ⟨fun _ => ⟨rfl, fun _ hclose => ?_⟩, fun _ => trivial⟩
    obtain ⟨a, b, htext, -⟩ := literal_close sql rfl hclose
    have hquote : '\'' ∈ n.text := by
      have hmem : '\'' ∈ argumentText (.number n) := by rw [htext]; simp
      exact hmem
    rcases n.plain '\'' hquote with hdigit | hmem
    · exact absurd hdigit (by decide)
    · exact absurd hmem (by decide)
  | array items => exact ⟨False.elim, fun h => by cases h.1⟩
  | object fields => exact ⟨False.elim, fun h => by cases h.1⟩

/-! ## The query -/

section Query

variable {sql : Dialect} {databaseClient : String} {command name arguments : Text} {row : Row}

/-- the values of the parameters -/
def rowValues (row : Row) (params : List Text) : List JsonValue := params.map fun param => (row.lookup param).getD .null

/-- the argument that the row has for a parameter -/
def rowArgument (row : Row) (param : Text) : Text := argumentText ((row.lookup param).getD .null)

theorem fill_argumentTokens_cons (f : Text → Text) (param next : Text) (params : List Text) :
    fill f (argumentTokens (param :: next :: params)) =
      f param ++ ',' :: ' ' :: fill f (argumentTokens (next :: params)) := rfl

theorem argumentsText_map (row : Row) (params : List Text) :
    argumentsText (rowValues row params) = fill (rowArgument row) (argumentTokens params) := by
  induction params with
  | nil => rfl
  | cons param params ih =>
    cases params with
    | nil => simp [rowValues, argumentsText, argumentTokens, rowArgument]
    | cons next params =>
      rw [fill_argumentTokens_cons, ← ih]
      exact List.append_assoc _ ", ".toList _

theorem names_argumentTokens (params : List Text) : names (argumentTokens params) = params := by
  induction params with
  | nil => rfl
  | cons param params ih =>
    cases params with
    | nil => rfl
    | cons next params => exact congrArg (param :: ·) ih

theorem chars_argumentTokens {params : List Text} {c : Char} (hc : c ∈ chars (argumentTokens params)) :
    c = ',' ∨ c = ' ' := by
  induction params with
  | nil => cases hc
  | cons param params ih =>
    cases params with
    | nil => cases hc
    | cons next params =>
      have hmem : c ∈ ',' :: ' ' :: chars (argumentTokens (next :: params)) := hc
      rcases List.mem_cons.1 hmem with rfl | hmem
      · exact Or.inl rfl
      · rcases List.mem_cons.1 hmem with rfl | hmem
        · exact Or.inr rfl
        · exact ih hmem

/-- a row without a column `hasOwnProperty`, or no parameter to look for -/
def RowIsAsked (command : Text) (row : Row) : Prop :=
  queryParams command = [] ∨ row.lookup hasOwnProperty = none

theorem checkSqlCommandParameters_iff {params : List Text} (hrow : ∀ param ∈ params, (row.lookup param).isSome)
    {values : List JsonValue} :
    checkSqlCommandParameters row params = .ok values ↔
      (params = [] ∨ row.lookup hasOwnProperty = none) ∧
        values = rowValues row params := by
  induction params generalizing values with
  | nil =>
    refine ⟨?_, ?_⟩
    · exact fun h => ⟨Or.inl rfl, (Except.ok.inj h).symm⟩
    · rintro ⟨-, rfl⟩
      rfl
  | cons param params ih =>
    rw [checkSqlCommandParameters]
    cases hown : row.lookup hasOwnProperty with
    | some v => simp
    | none =>
      obtain ⟨value, hvalue⟩ := Option.isSome_iff_exists.1 (hrow param List.mem_cons_self)
      have hrest : checkSqlCommandParameters row params = .ok (rowValues row params) :=
        (ih fun p hp => hrow p (List.mem_cons_of_mem param hp)).2 ⟨Or.inr hown, rfl⟩
      simp only [hvalue, hrest, Except.map, Except.ok.injEq, rowValues, List.map_cons, Option.getD_some, Option.isSome_none,
        Bool.false_eq_true, if_false, or_true, true_and]
      exact eq_comm

theorem statement_iff (hrow : ∀ param ∈ queryParams command, (row.lookup param).isSome) {query : Text} :
    statement databaseClient command row = .ok query ↔ RowIsAsked command row ∧
      query = executeStoredProcedure databaseClient command (rowValues row (queryParams command)) := by
  rw [statement]
  refine ⟨fun h => ?_, ?_⟩
  · cases hvalues : checkSqlCommandParameters row (queryParams command) with
    | error e => rw [hvalues] at h; cases h
    | ok values =>
      rw [hvalues] at h
      obtain ⟨hasked, rfl⟩ := (checkSqlCommandParameters_iff hrow).1 hvalues
      exact ⟨hasked, (Except.ok.inj h).symm⟩
  · rintro ⟨hasked, rfl⟩
    rw [(checkSqlCommandParameters_iff hrow).2 ⟨hasked, rfl⟩]
    rfl

theorem idxOf?_append_cons (hname : '(' ∉ name) : (name ++ '(' :: arguments).idxOf? '(' = some name.length := by
  induction name with
  | nil => simp [List.idxOf?_cons]
  | cons c cs ih =>
    have hc : c ≠ '(' := fun h => hname (h ▸ List.mem_cons_self)
    rw [List.cons_append, List.idxOf?_cons, ih fun h => hname (List.mem_cons_of_mem c h)]
    simp [hc]

/-- the name of the procedure, and the arguments of the row in the place of all that the template has after it -/
theorem execute_of_paren (hcommand : withKeyword databaseClient command = name ++ '(' :: arguments) (hname : '(' ∉ name)
    (params : List Text) :
    executeStoredProcedure databaseClient command (rowValues row params) =
      if databaseClient = "mssql" then
        (name ++ ' ' :: (fill (rowArgument row) (argumentTokens params) ++ [')'])).erase ')'
      else name ++ '(' :: (fill (rowArgument row) (argumentTokens params) ++ [')']) := by
  have htake : (name ++ '(' :: arguments).take (name.length + 1) = name ++ ['('] := by
    rw [List.take_append]
    simp
  unfold executeStoredProcedure
  simp only [hcommand, idxOf?_append_cons hname, htake, argumentsText_map]
  have happend : name ++ ['('] ++ fill (rowArgument row) (argumentTokens params) ++ [')'] =
      name ++ '(' :: (fill (rowArgument row) (argumentTokens params) ++ [')']) := by simp
  rw [happend, List.replace_append_right hname, List.replace_cons_self]

theorem toUpper_eq {k u : Char} (h : k.toUpper = u) : k = u ∨ k.val = u.val + 32 := by
  unfold Char.toUpper at h
  split at h
  · subst h
    have hzero : ('A'.val - 'a'.val) + 32 = 0 := by decide
    exact Or.inr (by rw [UInt32.add_assoc, hzero, UInt32.add_zero])
  · exact Or.inl h

/-- a text that has a keyword at its start, after whitespace and in any case -/
theorem head_of_keyword {keyword : Text} {k : Char} (h : k :: keyword <+: toUpperCase (trim command)) :
    ∃ c cs, command = c :: cs ∧ (c ∈ whitespace ∨ c.toUpper = k) := by
  cases command with
  | nil => exact absurd h (by simp [trim, toUpperCase])
  | cons c cs =>
    refine ⟨c, cs, rfl, ?_⟩
    by_cases hspace : c ∈ whitespace
    · exact Or.inl hspace
    · have hdrop : (c :: cs).dropWhile (· ∈ whitespace) = c :: cs := by simp [hspace]
      have htrim : trim (c :: cs) <+: c :: cs := by
        have hsuffix := List.dropWhile_suffix (l := (c :: cs).reverse) (· ∈ whitespace)
        rw [trim, hdrop, ← List.reverse_suffix, List.reverse_reverse]
        exact hsuffix
      obtain ⟨rest, hrest⟩ := h.trans (htrim.map Char.toUpper)
      exact Or.inr (List.cons.inj hrest).1.symm

/-- the characters that a call begins with -/
def callHeads : List Char := ['C', 'c', 'E', 'e'] ++ whitespace

/-- a command with its keyword, or with a keyword before it -/
theorem withKeyword_cases (databaseClient : String) (command : Text) :
    ∃ keyword ∈ [callKeyword, execKeyword],
      keyword <+: toUpperCase (trim command) ∧ withKeyword databaseClient command = command ∨
        withKeyword databaseClient command = keyword ++ command := by
  unfold withKeyword
  by_cases hclient : databaseClient = "mssql"
  · refine ⟨execKeyword, by simp, ?_⟩
    by_cases hexec : execKeyword <+: toUpperCase (trim command)
    · exact Or.inl ⟨hexec, by simp [hclient, hexec]⟩
    · exact Or.inr (by simp [hclient, hexec])
  · refine ⟨callKeyword, by simp, ?_⟩
    by_cases hcall : callKeyword <+: toUpperCase (trim command)
    · exact Or.inl ⟨hcall, by simp [hclient, hcall]⟩
    · exact Or.inr (by simp [hclient, hcall])

theorem withKeyword_head (databaseClient : String) (command : Text) :
    ∃ c cs, withKeyword databaseClient command = c :: cs ∧ c ∈ callHeads := by
  have hletters : ∀ keyword ∈ [callKeyword, execKeyword], ∃ upper lower rest, keyword = upper :: rest ∧
      upper ∈ callHeads ∧ lower ∈ callHeads ∧ lower.val = upper.val + 32 := by
    intro keyword hkeyword
    rcases List.mem_cons.1 hkeyword with rfl | hexec
    · exact ⟨'C', 'c', _, rfl, by decide, by decide, rfl⟩
    · obtain rfl := List.mem_singleton.1 hexec
      exact ⟨'E', 'e', _, rfl, by decide, by decide, rfl⟩
  obtain ⟨keyword, hkeyword, hcases⟩ := withKeyword_cases databaseClient command
  obtain ⟨upper, lower, rest, rfl, hupper, hlower, hval⟩ := hletters keyword hkeyword
  rcases hcases with ⟨hstarts, heq⟩ | heq
  · obtain ⟨c, cs, rfl, hspace | hc⟩ := head_of_keyword hstarts
    · exact ⟨c, cs, heq, List.mem_append_right _ hspace⟩
    · refine ⟨c, cs, heq, ?_⟩
      rcases toUpper_eq hc with rfl | hcval
      · exact hupper
      · rwa [Char.ext (hcval.trans hval.symm)]
  · exact ⟨upper, rest ++ command, heq, hupper⟩

/-- the keyword has no parameters in it -/
theorem queryParams_withKeyword (databaseClient : String) (command : Text) :
    queryParams (withKeyword databaseClient command) = queryParams command := by
  obtain ⟨keyword, hkeyword, ⟨-, heq⟩ | heq⟩ := withKeyword_cases databaseClient command
  · rw [heq]
  · rw [heq]
    rcases List.mem_cons.1 hkeyword with rfl | hexec
    · rfl
    · obtain rfl := List.mem_singleton.1 hexec
      rfl

end Query

end DrasiPlatform.StoredProcedures
