/-
JSON as text: the compact text of a document and a reader of such texts.

A parser takes the characters it needs and answers what it has read with the rest. `Reads p text x` says that a parser
reads `x` from `text` whatever follows, as long as the next character cannot be part of a number; so parsers compose by
their texts.

The printer writes no blank, escapes what `serde_json` escapes, and takes the text of a floating point number from
outside. `Plain` documents have no such number.

- `reads_chars`, `reads_digits`, `reads_items`: strings, numbers and comma separated lists are read back.
- `parse_print`: a plain document is read back from its text, whatever its strings and its nesting.
- `compact_lawful`: so printer and reader are a lawful `Format`, which is what a library of JSON text is taken to be.
-/
import Mathlib.Tactic
import DrasiPlatform.Core.Json

namespace DrasiPlatform.JsonText

open Json

abbrev Parser (α : Type) := List Char → Option (α × List Char)

/-- the text ends here, or a character follows that is part of no number -/
def Delimited (rest : List Char) : Prop := ∀ c ∈ rest.head?, c.isDigit = false

def Reads {α : Type} (p : Parser α) (text : List Char) (x : α) : Prop :=
  ∀ rest, Delimited rest → p (text ++ rest) = some (x, rest)

theorem delimited_cons {c : Char} (h : c.isDigit = false) (rest : List Char) : Delimited (c :: rest) := by
  rintro c' hc'
  rw [List.head?_cons, Option.mem_some_iff] at hc'
  exact hc' ▸ h

/-! ## Strings -/

def quote : Char := '\x22'

def backslash : Char := '\x5c'

def hexDigit (n : ℕ) : Char := if n < 10 then Char.ofNat (48 + n) else Char.ofNat (87 + n)

def hexValue (c : Char) : ℕ := if c.isDigit then c.toNat - 48 else c.toNat - 87

/-- the control characters with an escape of their own, and the letter of it -/
def shortEscapes : List (Char × Char) :=
  [(quote, quote), (backslash, backslash), ('\x08', 'b'), ('\x09', 't'), ('\x0a', 'n'), ('\x0c', 'f'), ('\x0d', 'r')]

def escape (c : Char) : List Char :=
  match shortEscapes.lookup c with
  | some letter => [backslash, letter]
  | none =>
    if c.toNat < 32 then [backslash, 'u', '0', '0', hexDigit (c.toNat / 16), hexDigit (c.toNat % 16)] else [c]

def unescape : Parser Char
  | [] => none
  | c :: rest =>
    if c = backslash then
      match rest with
      | 'u' :: '0' :: '0' :: high :: low :: rest => some (Char.ofNat (16 * hexValue high + hexValue low), rest)
      | letter :: rest => ((shortEscapes.map Prod.swap).lookup letter).map fun c => (c, rest)
      | [] => none
    else some (c, rest)

/-- the characters up to the closing quote -/
def parseChars : ℕ → Parser (List Char)
  | 0, _ => none
  | fuel + 1, text =>
    if text.head? = some quote then some ([], text.tail)
    else do
      let (c, rest) ← unescape text
      let (cs, rest) ← parseChars fuel rest
      return (c :: cs, rest)

/-- the text of a string behind its opening quote -/
def printChars (s : String) : List Char := s.toList.flatMap escape ++ [quote]

theorem hexValue_hexDigit {n : ℕ} (h : n < 16) : hexValue (hexDigit n) = n := by
  revert n
  decide

theorem unescape_escape (c : Char) (rest : List Char) : unescape (escape c ++ rest) = some (c, rest) := by
  unfold escape
  cases hlookup : shortEscapes.lookup c with
  | some letter =>
    have hmem : (c, letter) ∈ shortEscapes := by
      obtain ⟨before, after, heq, -⟩ := List.lookup_eq_some_iff.1 hlookup
      exact heq ▸ List.mem_append_right before List.mem_cons_self
    simp only [shortEscapes, List.mem_cons, Prod.mk.injEq, List.not_mem_nil, or_false] at hmem
    obtain ⟨rfl, rfl⟩ | ⟨rfl, rfl⟩ | ⟨rfl, rfl⟩ | ⟨rfl, rfl⟩ | ⟨rfl, rfl⟩ | ⟨rfl, rfl⟩ | ⟨rfl, rfl⟩ := hmem <;> rfl
  | none =>
    simp only
    split
    · next hcontrol =>
      have hhigh : hexValue (hexDigit (c.toNat / 16)) = c.toNat / 16 := hexValue_hexDigit (by omega)
      have hlow : hexValue (hexDigit (c.toNat % 16)) = c.toNat % 16 := hexValue_hexDigit (by omega)
      have hcode : 16 * (c.toNat / 16) + c.toNat % 16 = c.toNat := Nat.div_add_mod ..
      simp [unescape, hhigh, hlow, hcode]
    · have hplain : c ≠ backslash := by
        rintro rfl
        cases hlookup
      simp [unescape, hplain]

/-- an escaped character is not taken for the closing quote -/
theorem head_escape (c : Char) (rest : List Char) : (escape c ++ rest).head? ≠ some quote := by
  unfold escape
  cases hlookup : shortEscapes.lookup c with
  | some letter => simp [backslash, quote]
  | none =>
    simp only
    split
    · simp [backslash, quote]
    · have hplain : c ≠ quote := by
        rintro rfl
        cases hlookup
      simpa using hplain

theorem escape_ne_nil (c : Char) : escape c ≠ [] := by
  unfold escape
  cases shortEscapes.lookup c with
  | some letter => exact List.cons_ne_nil _ _
  | none => simp only; split <;> exact List.cons_ne_nil _ _

/-- **A string is read back** with fuel for its characters. -/
theorem reads_chars {fuel : ℕ} {cs : List Char} (h : cs.length < fuel) (rest : List Char) :
    parseChars fuel (cs.flatMap escape ++ quote :: rest) = some (cs, rest) := by
  induction cs generalizing fuel with
  | nil =>
    obtain ⟨fuel, rfl⟩ := Nat.exists_eq_add_of_lt h
    simp [parseChars]
  | cons c cs ih =>
    cases fuel with
    | zero => cases h
    | succ fuel =>
      have htail := ih (Nat.lt_of_succ_lt_succ h)
      rw [List.flatMap_cons, List.append_assoc, parseChars, if_neg (head_escape c _), unescape_escape]
      simp [htail]

theorem length_le_flatMap_escape (cs : List Char) : cs.length ≤ (cs.flatMap escape).length := by
  induction cs with
  | nil => exact le_rfl
  | cons c cs ih =>
    have hpos := List.length_pos_iff.2 (escape_ne_nil c)
    rw [List.flatMap_cons, List.length_append, List.length_cons]
    omega

/-! ## Numbers -/

def printNat (n : ℕ) : List Char := Nat.toDigits 10 n

def parseNat : Parser ℕ := fun text =>
  if (text.takeWhile Char.isDigit).isEmpty then none
  else some (Nat.ofDigitChars 10 (text.takeWhile Char.isDigit) 0, text.dropWhile Char.isDigit)

/-- **A number is read back**, where no digit follows. -/
theorem reads_digits (n : ℕ) : Reads parseNat (printNat n) n := by
  intro rest hrest
  have hdigits : ∀ c ∈ printNat n, c.isDigit = true := fun c hc =>
    Nat.isDigit_of_mem_toDigits (by decide) (by decide) hc
  have htake : rest.takeWhile Char.isDigit = [] := by
    cases rest with
    | nil => rfl
    | cons c rest => rw [List.takeWhile_cons, hrest c rfl]; rfl
  have hdrop : rest.dropWhile Char.isDigit = rest := by
    cases rest with
    | nil => rfl
    | cons c rest => rw [List.dropWhile_cons, hrest c rfl]; rfl
  have hne : (printNat n).isEmpty = false := by simp [printNat, Nat.toDigits_ne_nil]
  rw [parseNat, List.takeWhile_append_of_pos hdigits, List.dropWhile_append_of_pos hdigits, htake, hdrop,
    List.append_nil, hne]
  simp [printNat, Nat.ofDigitChars_ten_toDigits]

/-! ## Lists -/

/-- the texts of the items, separated by commas, and the closing character -/
def printItems (close : Char) : List (List Char) → List Char
  | [] => [close]
  | [text] => text ++ [close]
  | text :: texts => text ++ ',' :: printItems close texts

/-- one item or more -/
def parseItems {α : Type} (item : Parser α) (close : Char) : ℕ → Parser (List α)
  | 0, _ => none
  | fuel + 1, text => do
    let (x, rest) ← item text
    if rest.head? = some close then return ([x], rest.tail)
    else if rest.head? = some ',' then
      let (xs, rest) ← parseItems item close fuel rest.tail
      return (x :: xs, rest)
    else none

/-- any number of items -/
def parseList {α : Type} (item : Parser α) (close : Char) (fuel : ℕ) : Parser (List α) := fun text =>
  if text.head? = some close then some ([], text.tail) else parseItems item close fuel text

theorem reads_items {α : Type} {item : Parser α} {close : Char} {texts : List (List Char)} {xs : List α} {fuel : ℕ}
    (hclose : close.isDigit = false) (hcomma : close ≠ ',') (hitems : List.Forall₂ (Reads item) texts xs)
    (hne : texts ≠ []) (hfuel : texts.length ≤ fuel) (rest : List Char) :
    parseItems item close fuel (printItems close texts ++ rest) = some (xs, rest) := by
  induction hitems generalizing fuel with
  | nil => exact absurd rfl hne
  | @cons text x texts xs hitem hitems ih =>
    cases fuel with
    | zero => cases hfuel
    | succ fuel =>
      cases hitems with
      | nil =>
        have hread := hitem (close :: rest) (delimited_cons hclose rest)
        simp [printItems, parseItems, hread]
      | @cons text' x' texts xs hitem' hitems =>
        have hread := hitem (',' :: (printItems close (text' :: texts) ++ rest)) (delimited_cons (by decide) _)
        have hmore := ih (List.cons_ne_nil _ _) (Nat.le_of_succ_le_succ hfuel)
        simp [printItems, parseItems, hread, hmore, Ne.symm hcomma]

/-- **A list is read back**, when no item's text begins like the end of the list. -/
theorem reads_list {α : Type} {item : Parser α} {close : Char} {texts : List (List Char)} {xs : List α} {fuel : ℕ}
    (hclose : close.isDigit = false) (hcomma : close ≠ ',') (hitems : List.Forall₂ (Reads item) texts xs)
    (hhead : ∀ text ∈ texts, ∃ c, text.head? = some c ∧ c ≠ close) (hfuel : texts.length ≤ fuel) (rest : List Char) :
    parseList item close fuel (printItems close texts ++ rest) = some (xs, rest) := by
  cases htexts : texts with
  | nil =>
    rw [htexts, List.forall₂_nil_left_iff] at hitems
    simp [parseList, printItems, hitems]
  | cons text texts' =>
    obtain ⟨c, hc, hne⟩ := hhead text (htexts ▸ List.mem_cons_self)
    have hfirst : (printItems close (text :: texts') ++ rest).head? = some c := by
      cases texts' with
      | nil => simp [printItems, hc]
      | cons text' texts' => simp [printItems, hc]
    rw [parseList, hfirst, if_neg (by simpa using hne), ← htexts]
    exact reads_items hclose hcomma hitems (by rw [htexts]; exact List.cons_ne_nil _ _) hfuel rest

/-! ## Documents -/

section Print

variable (float : UInt64 → List Char)

def printNumber : Number → List Char
  | .posInt n => printNat n.toNat
  | .negInt n => '-' :: printNat n.toInt.natAbs
  | .float bits => float bits

mutual

def print : Value → List Char
  | .null => ['n', 'u', 'l', 'l']
  | .bool true => ['t', 'r', 'u', 'e']
  | .bool false => ['f', 'a', 'l', 's', 'e']
  | .number n => printNumber float n
  | .string s => quote :: printChars s
  | .array a => '[' :: printItems ']' (printAll a)
  | .object o => '\x7b' :: printItems '\x7d' (printFields o)

def printAll : List Value → List (List Char)
  | [] => []
  | v :: a => print v :: printAll a

def printFields : List (String × Value) → List (List Char)
  | [] => []
  | (k, v) :: o => (quote :: (printChars k ++ ':' :: print v)) :: printFields o

end

end Print

def keyword (letters : List Char) (v : Value) : Parser Value := fun text =>
  if text.take letters.length = letters then some (v, text.drop letters.length) else none

def parsePosInt : Parser Value := fun text => do
  let (n, rest) ← parseNat text
  if n < 2 ^ 64 then return (.number (.posInt (.ofNat n)), rest) else none

def parseNegInt : Parser Value := fun text => do
  let (n, rest) ← parseNat text
  if n ≤ 2 ^ 63 then return (.number (.negInt (.ofInt (-n))), rest) else none

/-- a field, its value read by `value` -/
def parseField (value : Parser Value) (fuel : ℕ) : Parser (String × Value) := fun text =>
  if text.head? = some quote then do
    let (key, rest) ← parseChars fuel text.tail
    if rest.head? = some ':' then
      let (v, rest) ← value rest.tail
      return ((String.ofList key, v), rest)
    else none
  else none

def parseValue : ℕ → Parser Value
  | 0, _ => none
  | _ + 1, [] => none
  | fuel + 1, c :: rest =>
    if c = 'n' then keyword ['u', 'l', 'l'] .null rest
    else if c = 't' then keyword ['r', 'u', 'e'] (.bool true) rest
    else if c = 'f' then keyword ['a', 'l', 's', 'e'] (.bool false) rest
    else if c = quote then (parseChars fuel rest).map fun (s, rest) => (.string (String.ofList s), rest)
    else if c = '[' then (parseList (parseValue fuel) ']' fuel rest).map fun (a, rest) => (.array a, rest)
    else if c = '\x7b' then
      (parseList (parseField (parseValue fuel) fuel) '\x7d' fuel rest).map fun (o, rest) => (.object o, rest)
    else if c = '-' then parseNegInt rest
    else parsePosInt (c :: rest)

/-- the document a text is of -/
def parse (text : String) : Option Value :=
  match parseValue (text.toList.length + 1) text.toList with
  | some (v, []) => some v
  | _ => none

/-- no number in the document is a floating point number, and what is negative is below zero -/
inductive Plain : Value → Prop where
  | null : Plain .null
  | bool (b : Bool) : Plain (.bool b)
  | posInt (n : UInt64) : Plain (.number (.posInt n))
  | negInt (n : Int64) (h : n.toInt < 0) : Plain (.number (.negInt n))
  | string (s : String) : Plain (.string s)
  | array (a : List Value) (h : ∀ v ∈ a, Plain v) : Plain (.array a)
  | object (o : List (String × Value)) (h : ∀ f ∈ o, Plain f.2) : Plain (.object o)

theorem plain_optionJson {α : Type} {json : α → Value} (hjson : ∀ a, Plain (json a)) (o : Option α) :
    Plain (optionJson json o) := by
  cases o with
  | none => exact .null
  | some a => exact hjson a

/-! ## The text is read back -/

section RoundTrip

variable (float : UInt64 → List Char)

theorem printAll_eq_map (a : List Value) : printAll float a = a.map (print float) := by
  induction a with
  | nil => rfl
  | cons v a ih => rw [printAll, ih, List.map_cons]

/-- the text of a field -/
def printField (f : String × Value) : List Char := quote :: (printChars f.1 ++ ':' :: print float f.2)

theorem printFields_eq_map (o : List (String × Value)) : printFields float o = o.map (printField float) := by
  induction o with
  | nil => rfl
  | cons f o ih => rw [printFields, ih, List.map_cons, printField]

/-- a list is longer than its items, and has a character for each of them -/
theorem length_printItems (close : Char) (texts : List (List Char)) :
    texts.length ≤ (printItems close texts).length ∧ ∀ text ∈ texts, text.length < (printItems close texts).length := by
  induction texts with
  | nil => simp [printItems]
  | cons text texts ih =>
    cases texts with
    | nil => simp [printItems]
    | cons text' texts =>
      obtain ⟨hlen, hitems⟩ := ih
      simp only [printItems, List.length_append, List.length_cons, List.mem_cons] at hlen hitems ⊢
      refine ⟨by omega, ?_⟩
      rintro t (rfl | ht)
      · omega
      · have := hitems t ht
        omega

theorem parseValue_of_isDigit {c : Char} (hc : c.isDigit = true) (fuel : ℕ) (rest : List Char) :
    parseValue (fuel + 1) (c :: rest) = parsePosInt (c :: rest) := by
  have hne : ∀ c', c'.isDigit = false → c ≠ c' := by
    rintro c' hc' rfl
    rw [hc] at hc'
    cases hc'
  rw [parseValue, if_neg (hne 'n' (by decide)), if_neg (hne 't' (by decide)), if_neg (hne 'f' (by decide)),
    if_neg (hne quote (by decide)), if_neg (hne '[' (by decide)), if_neg (hne '\x7b' (by decide)),
    if_neg (hne '-' (by decide))]

/-- the text of a number begins with a digit -/
theorem printNat_cons (n : ℕ) : ∃ c cs, printNat n = c :: cs ∧ c.isDigit = true := by
  cases h : printNat n with
  | nil => exact absurd h Nat.toDigits_ne_nil
  | cons c cs =>
    have hmem : c ∈ Nat.toDigits 10 n := by
      rw [printNat] at h
      rw [h]
      exact List.mem_cons_self
    exact ⟨c, cs, rfl, Nat.isDigit_of_mem_toDigits (by decide) (by decide) hmem⟩

/-- no document's text begins like the end of a list -/
theorem head_print {v : Value} (h : Plain v) : ∃ c, (print float v).head? = some c ∧ c ≠ ']' := by
  cases h with
  | null => exact ⟨'n', rfl, by decide⟩
  | bool b => cases b <;> exact ⟨_, rfl, by decide⟩
  | posInt n =>
    obtain ⟨c, cs, hprint, hc⟩ := printNat_cons n.toNat
    refine ⟨c, by rw [print, printNumber, hprint]; rfl, ?_⟩
    rintro rfl
    cases hc
  | negInt n => exact ⟨'-', rfl, by decide⟩
  | string s => exact ⟨quote, rfl, by decide⟩
  | array a => exact ⟨'[', rfl, by decide⟩
  | object o => exact ⟨'\x7b', rfl, by decide⟩

theorem reads_string {fuel : ℕ} (s : String) (h : (printChars s).length ≤ fuel) (rest : List Char) :
    parseChars fuel (printChars s ++ rest) = some (s.toList, rest) := by
  have hlen := length_le_flatMap_escape s.toList
  rw [printChars, List.length_append, List.length_singleton] at h
  rw [printChars, List.append_assoc, List.singleton_append]
  exact reads_chars (by omega) rest

theorem reads_field {fuel : ℕ} {f : String × Value} {value : Parser Value} (hvalue : Reads value (print float f.2) f.2)
    (hfuel : (printChars f.1).length ≤ fuel) : Reads (parseField value fuel) (printField float f) f := by
  intro rest hrest
  have hkey := reads_string f.1 hfuel (':' :: (print float f.2 ++ rest))
  simp [parseField, printField, hkey, hvalue rest hrest]

theorem reads_posInt (n : UInt64) : Reads parsePosInt (printNat n.toNat) (.number (.posInt n)) := by
  intro rest hrest
  simp [parsePosInt, reads_digits n.toNat rest hrest, n.toNat_lt]

theorem reads_negInt {n : Int64} (h : n.toInt < 0) : Reads parseNegInt (printNat n.toInt.natAbs) (.number (.negInt n)) := by
  intro rest hrest
  have hle : n.toInt.natAbs ≤ 2 ^ 63 := by
    have := n.le_toInt
    omega
  have hneg : -(n.toInt.natAbs : ℤ) = n.toInt := by omega
  simp only [parseNegInt, reads_digits _ rest hrest, Option.bind_eq_bind, Option.bind_some, hle, if_true, hneg,
    Int64.ofInt_toInt]
  rfl

/-- a text takes at least one step -/
theorem exists_fuel {v : Value} (h : Plain v) {fuel : ℕ} (hfuel : (print float v).length ≤ fuel) : ∃ n, fuel = n + 1 := by
  obtain ⟨c, hc, -⟩ := head_print float h
  have hne : print float v ≠ [] := by
    intro hnil
    rw [hnil] at hc
    cases hc
  exact Nat.exists_eq_add_of_le' ((List.length_pos_iff.2 hne).trans_le hfuel)

/-- **A document is read back** with fuel for its text. -/
theorem reads_print {v : Value} (h : Plain v) {fuel : ℕ} (hfuel : (print float v).length ≤ fuel) :
    Reads (parseValue fuel) (print float v) v := by
  induction h generalizing fuel with
  | null =>
    obtain ⟨fuel, rfl⟩ := exists_fuel float .null hfuel
    exact fun _ _ => rfl
  | bool b =>
    obtain ⟨fuel, rfl⟩ := exists_fuel float (.bool b) hfuel
    cases b <;> exact fun _ _ => rfl
  | posInt n =>
    obtain ⟨fuel, rfl⟩ := exists_fuel float (.posInt n) hfuel
    intro rest hrest
    obtain ⟨c, cs, hprint, hdigit⟩ := printNat_cons n.toNat
    have hread := reads_posInt n rest hrest
    rw [hprint, List.cons_append] at hread
    rw [print, printNumber, hprint, List.cons_append, parseValue_of_isDigit hdigit, hread]
  | negInt n h =>
    obtain ⟨fuel, rfl⟩ := exists_fuel float (.negInt n h) hfuel
    exact fun rest hrest => reads_negInt h rest hrest
  | string s =>
    obtain ⟨fuel, rfl⟩ := exists_fuel float (.string s) hfuel
    intro rest _
    have hread := reads_string s (Nat.le_of_succ_le_succ hfuel) rest
    rw [print, List.cons_append, parseValue]
    simp [quote, hread]
  | array a hplain ih =>
    obtain ⟨fuel, rfl⟩ := exists_fuel float (.array a hplain) hfuel
    have hlen : (printItems ']' (a.map (print float))).length ≤ fuel := by
      rw [← printAll_eq_map]
      exact Nat.le_of_succ_le_succ hfuel
    obtain ⟨hcount, hitem⟩ := length_printItems ']' (a.map (print float))
    have hitems : List.Forall₂ (Reads (parseValue fuel)) (a.map (print float)) a := by
      rw [List.forall₂_map_left_iff, List.forall₂_same]
      exact fun v hv => ih v hv ((hitem _ (List.mem_map_of_mem hv)).le.trans hlen)
    have hhead : ∀ text ∈ a.map (print float), ∃ c, text.head? = some c ∧ c ≠ ']' := by
      intro text htext
      obtain ⟨v, hv, rfl⟩ := List.mem_map.1 htext
      exact head_print float (hplain v hv)
    intro rest _
    have hread := reads_list (by decide) (by decide) hitems hhead (hcount.trans hlen) rest
    rw [print, printAll_eq_map, List.cons_append, parseValue]
    simp [quote, hread]
  | object o hplain ih =>
    obtain ⟨fuel, rfl⟩ := exists_fuel float (.object o hplain) hfuel
    have hlen : (printItems '\x7d' (o.map (printField float))).length ≤ fuel := by
      rw [← printFields_eq_map]
      exact Nat.le_of_succ_le_succ hfuel
    obtain ⟨hcount, hitem⟩ := length_printItems '\x7d' (o.map (printField float))
    have hitems : List.Forall₂ (Reads (parseField (parseValue fuel) fuel)) (o.map (printField float)) o := by
      rw [List.forall₂_map_left_iff, List.forall₂_same]
      intro f hf
      have hfield := hitem _ (List.mem_map_of_mem hf)
      rw [printField, List.length_cons, List.length_append, List.length_cons] at hfield
      exact reads_field float (ih f hf (by omega)) (by omega)
    have hhead : ∀ text ∈ o.map (printField float), ∃ c, text.head? = some c ∧ c ≠ '\x7d' := by
      intro text htext
      obtain ⟨f, -, rfl⟩ := List.mem_map.1 htext
      exact ⟨quote, rfl, by decide⟩
    intro rest _
    have hread := reads_list (by decide) (by decide) hitems hhead (hcount.trans hlen) rest
    rw [print, printFields_eq_map, List.cons_append, parseValue]
    simp [quote, hread]

/-- **A plain document is read back from its text.** -/
theorem parse_print {v : Value} (h : Plain v) : parse (String.ofList (print float v)) = some v := by
  have hread := reads_print float h (Nat.le_succ _) [] (by simp [Delimited])
  rw [List.append_nil] at hread
  rw [parse, String.toList_ofList, hread]

end RoundTrip

example : print (fun _ => []) (.object [("a\n", .array [.number (.posInt 17), .number (.negInt (-2)), .null])]) =
    "\x7b\"a\\n\":[17,-2,null]\x7d".toList := by decide

/-! ## Formats -/

/-- a writer and a reader of JSON text, as a library has them -/
structure Format where
  write : Value → String
  read : ByteArray → Except String Value

/-- what has no floating point number is read as it was written -/
structure Format.Lawful (F : Format) : Prop where
  read_write : ∀ v, Plain v → F.read (F.write v).toUTF8 = .ok v

/-- the printer and the reader of this file -/
def compact (float : UInt64 → List Char) : Format where
  write v := String.ofList (print float v)
  read bytes :=
    match String.fromUTF8? bytes with
    | none => .error "invalid unicode code point"
    | some text =>
      match parse text with
      | none => .error "expected value"
      | some v => .ok v

@[simp] theorem fromUTF8_toByteArray (s : String) : String.fromUTF8? s.toByteArray = some s := dif_pos s.isValidUTF8

theorem compact_lawful (float : UInt64 → List Char) : (compact float).Lawful where
  read_write v h := by
    simp only [compact, String.toUTF8_eq_toByteArray, fromUTF8_toByteArray, parse_print float h]

end DrasiPlatform.JsonText
