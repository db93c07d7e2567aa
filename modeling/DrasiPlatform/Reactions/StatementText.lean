/-
Does a stored procedure call say what its template says (`StoredProcedures`)?

The query should be the command, with the keyword of a call, and with the literal of the row's value in the place of every
parameter; `mssql` has it without the parentheses. The reaction rebuilds it from the name of the procedure and the values.
The two texts are compared from their fronts, where a literal begins otherwise than a parameter or a separator does, and by
what they have besides separators, of which escaping adds some and dropping an argument takes some away.

- `statement_says_template_iff`: the statement is the template with a literal for every parameter exactly when the command is
  a name with the parameters as its only arguments (`ArgumentsOnly`), and every value has a literal that is the value as
  it is, for `mssql` one without a closing parenthesis.
Witness `value_ends_its_literal`: values that end their literal or keep it open, and a command with an argument of its own.
-/
import Mathlib.Tactic
import DrasiPlatform.Reactions.StoredProcedures

namespace DrasiPlatform.StoredProcedures

open Templates

/-! ## Literals and arguments -/

section Statement

variable {sql : Dialect} {databaseClient : String} {command name arguments : Text} {row : Row} {lit : Text → Text}
  {ts ts' : List Token}

/-- the row has the parameters, with the literals `lit` -/
def HasLiterals (sql : Dialect) (row : Row) (lit : Text → Text) (params : List Text) : Prop :=
  ∀ param ∈ params, ∃ v, row.lookup param = some v ∧ literal sql v = some (lit param)

theorem rowArgument_of_lookup {param : Text} {v : JsonValue} (h : row.lookup param = some v) :
    rowArgument row param = argumentText v := by
  rw [rowArgument, h, Option.getD_some]

theorem opensLiteral_ne {c d : Char} (hc : opensLiteral c = true) (hd : opensLiteral d = false) : c ≠ d :=
  fun h => by rw [h, hd] at hc; cases hc

theorem separators_do_not_open {c : Char} (hc : c ∈ separators) : opensLiteral c = false := by
  have hall : separators.all (fun c => opensLiteral c == false) = true := by decide
  exact beq_iff_eq.1 (List.all_eq_true.1 hall c hc)

/-- where the query has as much content as the template, the literals are the arguments, with separators between them -/
theorem arguments_of_count (hnames : names ts = names ts') (hlit : HasLiterals sql row lit (names ts))
    (hts' : ∀ c ∈ chars ts', c ∈ separators)
    (hcount : (fill lit ts).countP isContent = (fill (rowArgument row) ts').countP isContent) :
    (∀ c ∈ chars ts, c ∈ separators) ∧ ∀ param ∈ names ts, lit param = rowArgument row param := by
  have hsep : (chars ts').countP isContent = 0 := List.countP_eq_zero.2 fun c hc => by simp [isContent, hts' c hc]
  have hle : ∀ param ∈ names ts, (rowArgument row param).countP isContent ≤ (lit param).countP isContent := by
    intro param hparam
    obtain ⟨v, hv, hl⟩ := hlit param hparam
    rw [rowArgument_of_lookup hv]
    exact (literal_count sql hl).1
  obtain ⟨hzero, heq⟩ := texts_agree_of_count hnames hsep hle hcount
  refine ⟨fun c hc => ?_, ?_⟩
  · have hnot := List.countP_eq_zero.1 hzero c hc
    simpa [isContent] using hnot
  · intro param hparam
    obtain ⟨v, hv, hl⟩ := hlit param hparam
    have hparamEq := heq param hparam
    rw [rowArgument_of_lookup hv] at hparamEq ⊢
    exact (literal_count sql hl).2 hparamEq

/-- the arguments begin as literals do -/
theorem argument_heads (hlit : HasLiterals sql row lit (names ts)) :
    ∀ param ∈ names ts, ∃ c cs, rowArgument row param = c :: cs ∧ ¬c ∈ separators := by
  intro param hparam
  obtain ⟨v, hv, hl⟩ := hlit param hparam
  obtain ⟨c, cs, cs', -, htext, hc⟩ := literal_head sql hl
  refine ⟨c, cs', (rowArgument_of_lookup hv).trans htext, fun hsep => ?_⟩
  exact opensLiteral_ne hc (separators_do_not_open hsep) rfl

theorem literal_heads (hlit : HasLiterals sql row lit (names ts)) :
    ∀ param ∈ names ts, ∃ c cs, lit param = c :: cs ∧ c ≠ '@' := by
  intro param hparam
  obtain ⟨v, -, hl⟩ := hlit param hparam
  obtain ⟨c, cs, -, htext, -, hc⟩ := literal_head sql hl
  exact ⟨c, cs, htext, opensLiteral_ne hc (by decide)⟩

/-! ## One parenthesis too few -/

theorem shifted_ne {c d : Char} {l x y : Text} (h : c :: (l ++ x) = l ++ d :: y) : c = d := by
  induction l generalizing c with
  | nil => exact (List.cons.inj h).1
  | cons b l ih =>
    obtain ⟨rfl, htail⟩ := List.cons.inj h
    exact ih htail

/-- a closing parenthesis in the name is missing from the query -/
theorem fill_ne_shifted (hlit : HasLiterals sql row lit (names ts)) {x y : Text} :
    ')' :: (fill lit ts ++ ' ' :: x) ≠ source '@' ts ++ ' ' :: y := by
  induction ts with
  | nil => exact fun h => absurd (List.cons.inj h).1 (by decide)
  | cons t ts ih =>
    cases t with
    | char c =>
      intro h
      obtain ⟨rfl, htail⟩ := List.cons.inj h
      exact ih hlit htail
    | param param => exact fun h => absurd (List.cons.inj h).1 (by decide)

theorem fill_ne_erase (hlit : HasLiterals sql row lit (names ts)) (hclose : ')' ∈ source '@' ts) {x y : Text} :
    fill lit ts ++ ' ' :: x ≠ (source '@' ts).erase ')' ++ ' ' :: y := by
  induction ts with
  | nil => cases hclose
  | cons t ts ih =>
    cases t with
    | char c =>
      intro h
      rw [fill_char, source_char] at h
      by_cases hc : c = ')'
      · subst hc
        have hrest : HasLiterals sql row lit (names ts) := hlit
        rw [List.erase_cons_head] at h
        exact fill_ne_shifted hrest h
      · rw [source_char, List.mem_cons] at hclose
        rw [List.erase_cons_tail (by simpa using hc)] at h
        exact ih hlit (hclose.resolve_left (Ne.symm hc)) (List.cons.inj h).2
    | param param =>
      intro h
      obtain ⟨c, cs, htext, hc⟩ := literal_heads hlit param List.mem_cons_self
      rw [fill_param, htext, source_param, List.erase_cons_tail (by decide)] at h
      exact hc (List.cons.inj h).1

/-- an argument that has lost its parenthesis, the one before the quote that ends it at the latest -/
theorem argument_ne_erase {param : Text} {v : JsonValue} (hv : row.lookup param = some v)
    (hl : literal sql v = some (lit param)) (hin : ')' ∈ rowArgument row param) {x y : Text} :
    rowArgument row param ++ y ≠ (rowArgument row param ++ x).erase ')' := by
  intro h
  rw [rowArgument_of_lookup hv] at hin
  obtain ⟨a, b, hsplit, ha⟩ := literal_close sql hl hin
  rw [rowArgument_of_lookup hv, hsplit, List.append_assoc, List.append_assoc, List.erase_append_right _ ha,
    List.cons_append, List.cons_append, List.erase_cons_head, List.append_assoc, List.append_assoc] at h
  exact absurd (shifted_ne (List.append_cancel_left h)) (by decide)

/-- a closing parenthesis in an argument is missing from the query -/
theorem fill_ne_erase_argument (hlit : HasLiterals sql row lit (names ts)) (hnames : names ts = names ts')
    (hts : ∀ c ∈ chars ts, c ∈ separators) (hts' : ∀ c ∈ chars ts', c = ',' ∨ c = ' ')
    (hclose : ∃ param ∈ names ts, ')' ∈ rowArgument row param) {x : Text} :
    fill (rowArgument row) ts ≠ (fill (rowArgument row) ts' ++ x).erase ')' := by
  intro h
  induction ts' generalizing ts with
  | nil =>
    obtain ⟨param, hparam, -⟩ := hclose
    rw [hnames] at hparam
    cases hparam
  | cons t' ts' ih =>
    cases t' with
    | char c' =>
      have hc' : c' ≠ ')' := by
        rcases hts' c' List.mem_cons_self with rfl | rfl
        · decide
        · decide
      rw [fill_char, List.cons_append, List.erase_cons_tail (by simpa using hc')] at h
      cases ts with
      | nil => cases h
      | cons t ts =>
        cases t with
        | char c =>
          have hrest : HasLiterals sql row lit (names ts) := hlit
          exact ih hrest hnames (fun d hd => hts d (List.mem_cons_of_mem c hd))
            (fun d hd => hts' d (List.mem_cons_of_mem c' hd)) hclose (List.cons.inj h).2
        | param param =>
          obtain ⟨d, ds, htext, hd⟩ := argument_heads hlit param List.mem_cons_self
          rw [fill_param, htext] at h
          obtain rfl := (List.cons.inj h).1
          rcases hts' d List.mem_cons_self with rfl | rfl
          · exact hd (by decide)
          · exact hd (by decide)
    | param param =>
      have hmem : param ∈ names ts := hnames ▸ List.mem_cons_self
      obtain ⟨d, ds, htext, hd⟩ := argument_heads hlit param hmem
      have hne : d ≠ ')' := fun heq => hd (heq ▸ by decide)
      cases ts with
      | nil => cases hnames
      | cons t ts =>
        cases t with
        | char c =>
          rw [fill_char, fill_param, htext, List.cons_append, List.cons_append,
            List.erase_cons_tail (by simpa using hne)] at h
          exact hd ((List.cons.inj h).1 ▸ hts c List.mem_cons_self)
        | param param' =>
          obtain ⟨rfl, hrest⟩ := List.cons.inj hnames
          rw [fill_param, fill_param, List.append_assoc] at h
          by_cases hin : ')' ∈ rowArgument row param'
          · obtain ⟨v, hv, hl⟩ := hlit param' hmem
            exact argument_ne_erase hv hl hin h
          · rw [List.erase_append_right _ hin] at h
            refine ih (fun n hn => hlit n (List.mem_cons_of_mem _ hn)) hrest hts hts' ?_ (List.append_cancel_left h)
            obtain ⟨n, hn, hclosed⟩ := hclose
            rcases List.mem_cons.1 hn with rfl | hn
            · exact absurd hclosed hin
            · exact ⟨n, hn, hclosed⟩

/-! ## The exact condition -/

theorem source_tokens (s : Text) : source '@' (tokens s) = s := source_scan none s

theorem tokens_paren (name arguments : Text) : tokens (name ++ '(' :: arguments) = tokens name ++ .char '(' :: tokens arguments :=
  scan_append_cons (by decide) (by decide) none name arguments

theorem unparen_append (hname : '(' ∉ name) (rest : List Token) :
    unparen (tokens name ++ .char '(' :: rest) = tokens name ++ .char ' ' :: eraseLastClose rest := by
  have hall : Token.char '(' ∉ tokens name := fun hmem => by
    have hsource := mem_source_of_mem_chars '@' (mem_chars.2 hmem)
    rw [source_tokens] at hsource
    exact hname hsource
  generalize tokens name = ts at hall
  induction ts with
  | nil => simp [unparen]
  | cons t ts ih =>
    have ht : t ≠ .char '(' := fun h => hall (by rw [h]; exact List.mem_cons_self)
    rw [List.cons_append, unparen, if_neg ht, ih fun h => hall (List.mem_cons_of_mem t h), List.cons_append]

theorem names_eraseLastClose (ts : List Token) : names (eraseLastClose ts) = names ts := by
  rw [eraseLastClose, names_reverse, names_erase_char, names_reverse, List.reverse_reverse]

/-- the query has all of the arguments and their separators, whichever parenthesis `mssql` loses -/
theorem erase_close_perm (s : Text) : ((s ++ [')']).erase ')').Perm s := by
  have hmem : ')' ∈ s ++ [')'] := List.mem_append_right s (List.mem_singleton_self _)
  have hperm : (')' :: (s ++ [')']).erase ')').Perm (')' :: s) :=
    (List.perm_cons_erase hmem).symm.trans (List.perm_append_singleton ')' s)
  exact hperm.cons_inv

/-- the arguments of a client other than `mssql` -/
theorem arguments_of_fill (hlit : HasLiterals sql row lit (names ts)) {params : List Text} (hparams : names ts = params)
    (h : fill lit ts = fill (rowArgument row) (argumentTokens params) ++ [')']) :
    ts = argumentTokens params ++ [.char ')'] ∧ ∀ param ∈ params, lit param = rowArgument row param := by
  have hnames : names ts = names (argumentTokens params ++ [.char ')']) := by
    rw [names_append, names_argumentTokens, hparams]
    exact (List.append_nil params).symm
  have hchars : ∀ c ∈ chars (argumentTokens params ++ [Token.char ')']), c ∈ separators := by
    intro c hc
    rw [chars_append] at hc
    rcases List.mem_append.1 hc with hargs | hclose
    · rcases chars_argumentTokens hargs with rfl | rfl
      · decide
      · decide
    · rw [List.mem_singleton.1 hclose]
      decide
  have hfill : fill lit ts = fill (rowArgument row) (argumentTokens params ++ [.char ')']) := by rw [fill_append]; exact h
  obtain ⟨hsep, heq⟩ := arguments_of_count hnames hlit hchars (congrArg (List.countP isContent) hfill)
  rw [fill_congr heq] at hfill
  exact ⟨fill_inj hsep hchars hnames (argument_heads hlit) hfill, hparams ▸ heq⟩

theorem close_notMem_arguments {params : List Text} (h : ∀ param ∈ params, ')' ∉ rowArgument row param) :
    ')' ∉ fill (rowArgument row) (argumentTokens params) := by
  intro hin
  obtain ⟨t, ht, hmem⟩ := List.mem_flatMap.1 hin
  cases t with
  | char c =>
    have hc : ')' = c := List.mem_singleton.1 hmem
    rcases chars_argumentTokens (mem_chars.2 ht) with rfl | rfl
    · exact absurd hc (by decide)
    · exact absurd hc (by decide)
  | param param =>
    have hparam : param ∈ params := names_argumentTokens params ▸ mem_names.2 ht
    exact h param hparam hmem

/-- the arguments of `mssql` -/
theorem arguments_of_fill_mssql (hlit : HasLiterals sql row lit (names ts)) {params : List Text} (hparams : names ts = params)
    (h : fill lit ts = (fill (rowArgument row) (argumentTokens params) ++ [')']).erase ')') :
    ts = argumentTokens params ∧ ∀ param ∈ params, lit param = rowArgument row param ∧ ')' ∉ rowArgument row param := by
  have hnames : names ts = names (argumentTokens params) := hparams.trans (names_argumentTokens params).symm
  have hchars : ∀ c ∈ chars (argumentTokens params), c ∈ separators := by
    intro c hc
    rcases chars_argumentTokens hc with rfl | rfl
    · decide
    · decide
  have hcount : (fill lit ts).countP isContent = (fill (rowArgument row) (argumentTokens params)).countP isContent := by
    rw [h]
    exact (erase_close_perm _).countP_eq _
  obtain ⟨hsep, heq⟩ := arguments_of_count hnames hlit hchars hcount
  rw [fill_congr heq] at h
  have hopen : ∀ param ∈ names ts, ')' ∉ rowArgument row param := fun param hparam hin =>
    fill_ne_erase_argument hlit hnames hsep (fun c hc => chars_argumentTokens hc) ⟨param, hparam, hin⟩ h
  have hnone := close_notMem_arguments fun param hparam => hopen param (hparams.symm ▸ hparam)
  rw [List.erase_append_right _ hnone, List.erase_cons_head, List.append_nil] at h
  exact ⟨fill_inj hsep hchars hnames (argument_heads hlit) h, fun param hparam =>
    ⟨heq param (hparams ▸ hparam), hopen param (hparams ▸ hparam)⟩⟩

/-- the row has a plain value for the parameters -/
def HasPlain (sql : Dialect) (databaseClient : String) (row : Row) (params : List Text) : Prop :=
  ∀ param ∈ params, ∃ v, row.lookup param = some v ∧ Plain sql databaseClient v

theorem hasPlain_of_literals {params : List Text} (hlit : HasLiterals sql row lit params)
    (h : ∀ param ∈ params, lit param = rowArgument row param ∧ (databaseClient = "mssql" → ')' ∉ rowArgument row param)) :
    HasPlain sql databaseClient row params := by
  intro param hparam
  obtain ⟨v, hv, hl⟩ := hlit param hparam
  obtain ⟨heq, hopen⟩ := h param hparam
  rw [rowArgument_of_lookup hv] at heq hopen
  exact ⟨v, hv, plain_iff.2 ⟨heq ▸ hl, hopen⟩⟩

theorem queryParams_append (hcommand : withKeyword databaseClient command = name ++ '(' :: arguments) :
    queryParams command = queryParams name ++ queryParams arguments := by
  rw [← queryParams_withKeyword databaseClient, hcommand, queryParams, tokens_paren, names_append]
  rfl

/-- a query that is the template has the arguments of the row as they are -/
theorem hasArguments_of_says (hcommand : withKeyword databaseClient command = name ++ '(' :: arguments) (hname : '(' ∉ name)
    (h : SaysTemplate sql databaseClient command row
      (executeStoredProcedure databaseClient command (rowValues row (queryParams command)))) :
    HasArguments databaseClient name arguments ∧ HasPlain sql databaseClient row (queryParams command) := by
  obtain ⟨lit, hlit, h⟩ := h
  have hparams := queryParams_append hcommand
  have hlitName : HasLiterals sql row lit (names (tokens name)) := fun param hparam =>
    hlit param (hparams ▸ List.mem_append_left _ hparam)
  have hlitArgs : HasLiterals sql row lit (names (tokens arguments)) := fun param hparam =>
    hlit param (hparams ▸ List.mem_append_right _ hparam)
  have hsource : ∀ rest, name ++ rest = source '@' (tokens name) ++ rest := fun rest => by rw [source_tokens]
  rw [execute_of_paren hcommand hname, callTokens, hcommand, tokens_paren] at h
  by_cases hclient : databaseClient = "mssql"
  · rw [if_pos hclient, if_pos hclient, unparen_append hname, fill_append, fill_char] at h
    have hclose : ')' ∉ name := by
      intro hin
      rw [List.erase_append_left _ hin] at h
      have hshift : fill lit (tokens name) ++ ' ' :: fill lit (eraseLastClose (tokens arguments)) =
          (source '@' (tokens name)).erase ')' ++
            ' ' :: (fill (rowArgument row) (argumentTokens (queryParams command)) ++ [')']) := by
        rw [source_tokens]
        exact h.symm
      exact fill_ne_erase hlitName (by rwa [source_tokens]) hshift
    rw [List.erase_append_right _ hclose, List.erase_cons_tail (by decide)] at h
    obtain ⟨hnone, htail⟩ := fill_eq_source (literal_heads hlitName) (h.symm.trans (hsource _))
    have hsame : queryParams command = queryParams arguments := by
      rw [hparams, show queryParams name = [] from hnone, List.nil_append]
    have hlitErased : HasLiterals sql row lit (names (eraseLastClose (tokens arguments))) := by
      rwa [names_eraseLastClose]
    obtain ⟨htokens, hplain⟩ := arguments_of_fill_mssql hlitErased ((names_eraseLastClose _).trans hsame.symm)
      (List.cons.inj htail).2
    refine ⟨⟨hnone, ?_⟩, hasPlain_of_literals hlit fun param hparam => ?_⟩
    · rw [if_pos hclient, ← hsame]
      exact ⟨hclose, htokens⟩
    · exact ⟨(hplain param hparam).1, fun _ => (hplain param hparam).2⟩
  · rw [if_neg hclient, if_neg hclient, fill_append, fill_char] at h
    obtain ⟨hnone, htail⟩ := fill_eq_source (literal_heads hlitName) (h.symm.trans (hsource _))
    have hsame : queryParams command = queryParams arguments := by
      rw [hparams, show queryParams name = [] from hnone, List.nil_append]
    obtain ⟨htokens, hplain⟩ := arguments_of_fill hlitArgs hsame.symm (List.cons.inj htail).2
    refine ⟨⟨hnone, ?_⟩, hasPlain_of_literals hlit fun param hparam => ?_⟩
    · rw [if_neg hclient, ← hsame]
      exact htokens
    · exact ⟨hplain param hparam, fun hmssql => absurd hmssql hclient⟩

theorem says_of_hasArguments (hcommand : withKeyword databaseClient command = name ++ '(' :: arguments) (hname : '(' ∉ name)
    (hargs : HasArguments databaseClient name arguments) (hplain : HasPlain sql databaseClient row (queryParams command)) :
    SaysTemplate sql databaseClient command row
      (executeStoredProcedure databaseClient command (rowValues row (queryParams command))) := by
  obtain ⟨hnone, hargs⟩ := hargs
  have hsame : queryParams command = queryParams arguments := by
    rw [queryParams_append hcommand, hnone, List.nil_append]
  have hlit : HasLiterals sql row (rowArgument row) (queryParams command) := by
    intro param hparam
    obtain ⟨v, hv, hv'⟩ := hplain param hparam
    exact ⟨v, hv, (rowArgument_of_lookup hv).symm ▸ (plain_iff.1 hv').1⟩
  have hfillName : fill (rowArgument row) (tokens name) = name := (fill_of_no_names hnone).trans (source_tokens name)
  refine ⟨rowArgument row, hlit, ?_⟩
  rw [execute_of_paren hcommand hname, callTokens, hcommand, tokens_paren]
  by_cases hclient : databaseClient = "mssql"
  · rw [if_pos hclient] at hargs
    obtain ⟨hclose, htokens⟩ := hargs
    have hopen : ')' ∉ fill (rowArgument row) (argumentTokens (queryParams command)) := by
      refine close_notMem_arguments fun param hparam => ?_
      obtain ⟨v, hv, hv'⟩ := hplain param hparam
      rw [rowArgument_of_lookup hv]
      exact (plain_iff.1 hv').2 hclient
    rw [if_pos hclient, if_pos hclient, unparen_append hname, fill_append, fill_char, htokens, ← hsame, hfillName,
      List.erase_append_right _ hclose, List.erase_cons_tail (by decide), List.erase_append_right _ hopen,
      List.erase_cons_head, List.append_nil]
  · rw [if_neg hclient] at hargs
    rw [if_neg hclient, if_neg hclient, fill_append, fill_char, hargs, ← hsame, hfillName, fill_append]
    rfl

/-- without a parenthesis, the query does not begin as a call -/
theorem not_says_of_no_paren (hparen : '(' ∉ withKeyword databaseClient command) :
    ¬SaysTemplate sql databaseClient command row
      (executeStoredProcedure databaseClient command (rowValues row (queryParams command))) := by
  rintro ⟨lit, hlit, h⟩
  obtain ⟨c, cs, hcommand, hc⟩ := withKeyword_head databaseClient command
  have hheads : callHeads.all (fun c => decide (opensLiteral c = false ∧ c ≠ ')' ∧ c ≠ '@' ∧ c ≠ '(')) = true := by decide
  obtain ⟨hnotOpen, hnotClose, hnotMark, hnotParen⟩ := of_decide_eq_true (List.all_eq_true.1 hheads c hc)
  have hcall : ∃ ts, callTokens databaseClient command = .char c :: ts := by
    rw [callTokens, hcommand, tokens, scan_cons_of_ne hnotMark]
    by_cases hclient : databaseClient = "mssql"
    · rw [if_pos hclient, unparen, if_neg fun heq => hnotParen (Token.char.inj heq)]
      exact ⟨_, rfl⟩
    · rw [if_neg hclient]
      exact ⟨_, rfl⟩
  obtain ⟨ts, hts⟩ := hcall
  have hquery : executeStoredProcedure databaseClient command (rowValues row (queryParams command)) =
        let query := fill (rowArgument row) (argumentTokens (queryParams command)) ++ [')']
        if databaseClient = "mssql" then (query.replace '(' ' ').erase ')' else query := by
    have hindex : (withKeyword databaseClient command).idxOf? '(' = none := List.idxOf?_eq_none_iff.2 hparen
    simp only [executeStoredProcedure, hindex, argumentsText_map, List.nil_append]
  rw [hquery, hts, fill_char] at h
  cases hparams : queryParams command with
  | nil =>
    rw [hparams] at h
    by_cases hclient : databaseClient = "mssql"
    · simp [hclient, argumentTokens] at h
    · rw [if_neg hclient] at h
      exact hnotClose (List.cons.inj h).1.symm
  | cons param params =>
    obtain ⟨v, hv, hl⟩ := hlit param (hparams ▸ List.mem_cons_self)
    obtain ⟨d, ds, ds', -, htext, hd⟩ := literal_head sql hl
    have hdc : d ≠ c := opensLiteral_ne hd hnotOpen
    have hdParen : d ≠ '(' := opensLiteral_ne hd (by decide)
    have hdClose : d ≠ ')' := opensLiteral_ne hd (by decide)
    have hfirst : ∃ rest, fill (rowArgument row) (argumentTokens (param :: params)) = d :: rest := by
      cases params with
      | nil => exact ⟨ds' ++ [], by rw [argumentTokens, fill_param, rowArgument_of_lookup hv, htext]; rfl⟩
      | cons next params => exact ⟨_, by rw [fill_argumentTokens_cons, rowArgument_of_lookup hv, htext, List.cons_append]⟩
    obtain ⟨rest, hrest⟩ := hfirst
    rw [hparams, hrest] at h
    by_cases hclient : databaseClient = "mssql"
    · rw [if_pos hclient, List.cons_append, List.replace_cons, beq_eq_false_iff_ne.2 (Ne.symm hdParen),
        List.erase_cons_tail (by simpa using hdClose)] at h
      exact hdc (List.cons.inj h).1
    · rw [if_neg hclient] at h
      exact hdc (List.cons.inj h).1

/-- a statement is sent that says what the template says -/
def SendsTemplate (sql : Dialect) (databaseClient : String) (command : Text) (row : Row) : Prop :=
  ∃ query, statement databaseClient command row = .ok query ∧ SaysTemplate sql databaseClient command row query

theorem hasArguments_of_sends (hrow : ∀ param ∈ queryParams command, (row.lookup param).isSome)
    (hcommand : withKeyword databaseClient command = name ++ '(' :: arguments) (hname : '(' ∉ name)
    (h : SendsTemplate sql databaseClient command row) :
    HasArguments databaseClient name arguments ∧ HasPlain sql databaseClient row (queryParams command) := by
  obtain ⟨query, hquery, hsays⟩ := h
  obtain ⟨-, rfl⟩ := (statement_iff hrow).1 hquery
  exact hasArguments_of_says hcommand hname hsays

/-- **Stored procedure calls.** For every client, command and row with all of the parameters: a statement is sent, and is the
template with a literal of the row's value for every parameter, exactly when the command has the parameters as its only
arguments, every value is plain, and the row has no column `hasOwnProperty` to hide the method. -/
theorem statement_says_template_iff (sql : Dialect) (databaseClient : String) (command : Text) (row : Row)
    (hrow : ∀ param ∈ queryParams command, (row.lookup param).isSome) :
    SendsTemplate sql databaseClient command row ↔
      ArgumentsOnly databaseClient command ∧ HasPlain sql databaseClient row (queryParams command) ∧
        RowIsAsked command row := by
  refine ⟨fun hsends => ?_, ?_⟩
  · obtain ⟨query, hquery, hsays⟩ := hsends
    obtain ⟨hasked, rfl⟩ := (statement_iff hrow).1 hquery
    have hparen : '(' ∈ withKeyword databaseClient command := by
      by_contra hparen
      exact not_says_of_no_paren hparen hsays
    obtain ⟨name, arguments, hcommand, hname⟩ := List.eq_append_cons_of_mem hparen
    obtain ⟨hargs, hplain⟩ := hasArguments_of_says hcommand hname hsays
    exact ⟨⟨name, arguments, hcommand, hname, hargs⟩, hplain, hasked⟩
  · rintro ⟨⟨name, arguments, hcommand, hname, hargs⟩, hplain, hasked⟩
    exact ⟨_, (statement_iff hrow).2 ⟨hasked, rfl⟩, says_of_hasArguments hcommand hname hargs hplain⟩

end Statement

/-! ## A note that is added -/

/-- strings as standard SQL has them -/
def standardSql : Dialect := ⟨none, by simp⟩

/-- strings as MySQL has them, where a percent sign and an underscore keep the backslash -/
def mySql : Dialect := ⟨some fun c => if c = '%' ∨ c = '_' then ['\\', c] else [c], by simp⟩

def addNote : Text := "CALL add_note(@id, @text)".toList

def note (text : String) : Row := [("id".toList, .null), ("text".toList, .string text.toList)]

theorem lookup_note (text : String) : (note text).lookup "text".toList = some (.string text.toList) := rfl

theorem addNote_params : queryParams addNote = ["id".toList, "text".toList] := by decide

theorem note_hasParams (text : String) {params : List Text} (hparams : ∀ param ∈ params, param ∈ queryParams addNote) :
    ∀ param ∈ params, ((note text).lookup param).isSome := by
  intro param hparam
  have hmem := hparams param hparam
  rw [addNote_params] at hmem
  rcases List.mem_cons.1 hmem with rfl | hmem
  · rfl
  · obtain rfl := List.mem_singleton.1 hmem
    rfl

theorem plain_of_note {sql : Dialect} {databaseClient text : String} {params : List Text}
    (h : HasPlain sql databaseClient (note text) params) (hparam : "text".toList ∈ params) :
    Plain sql databaseClient (.string text.toList) := by
  obtain ⟨v, hv, hplain⟩ := h _ hparam
  obtain rfl : JsonValue.string text.toList = v := Option.some.inj hv
  exact hplain

/-- a note of plain text is sent as the template says -/
theorem note_sends_template : SendsTemplate standardSql "pg" addNote (note "it is 5 (five)") := by
  refine (statement_says_template_iff standardSql "pg" addNote (note "it is 5 (five)")
    (note_hasParams _ fun _ h => h)).2 ⟨?_, ?_, Or.inr rfl⟩
  · have hcommand : withKeyword "pg" addNote = "CALL add_note".toList ++ '(' :: "@id, @text)".toList := by decide
    refine ⟨_, _, hcommand, by decide, by decide, ?_⟩
    rw [if_neg (by decide)]
    decide
  · have hread : ReadsBack standardSql "it is 5 (five)".toList := readsBack_of_escape_eq standardSql (by decide)
    rw [addNote_params]
    intro param hparam
    rcases List.mem_cons.1 hparam with rfl | hparam
    · exact ⟨.null, rfl, trivial⟩
    · obtain rfl := List.mem_singleton.1 hparam
      exact ⟨_, lookup_note _, hread, fun h => absurd h (by decide)⟩

/-- **A value** can end its literal or, with a backslash, keep it open; `mssql` loses a parenthesis of a value for the one of
the call, and an argument that is no parameter is left out. -/
theorem value_ends_its_literal :
    (statement "pg" addNote (note "x'); DROP TABLE notes; --") =
        .ok "CALL add_note(null, 'x'); DROP TABLE notes; --')".toList ∧
      ¬SendsTemplate standardSql "pg" addNote (note "x'); DROP TABLE notes; --")) ∧
    (statement "mysql" addNote (note "C:\\") = .ok "CALL add_note(null, 'C:\\')".toList ∧
      ¬SendsTemplate mySql "mysql" addNote (note "C:\\")) ∧
    (statement "mssql" "EXEC add_note(@text)".toList (note "see (a)") = .ok "EXEC add_note 'see (a')".toList ∧
      ¬SendsTemplate standardSql "mssql" "EXEC add_note(@text)".toList (note "see (a)")) ∧
    statement "pg" "CALL add_note(@text, 'draft')".toList (note "x") = .ok "CALL add_note('x')".toList ∧
      ¬SendsTemplate standardSql "pg" "CALL add_note(@text, 'draft')".toList (note "x") := by
  refine ⟨⟨rfl, fun h => ?_⟩, ⟨rfl, fun h => ?_⟩, ⟨rfl, fun h => ?_⟩, rfl, fun h => ?_⟩
  · have hcommand : withKeyword "pg" addNote = "CALL add_note".toList ++ '(' :: "@id, @text)".toList := by decide
    obtain ⟨-, hplain⟩ := hasArguments_of_sends (note_hasParams _ fun _ h => h) hcommand (by decide) h
    have hnot : ¬ReadsBack standardSql "x'); DROP TABLE notes; --".toList := by decide
    exact hnot (plain_of_note hplain (by decide)).1
  · have hcommand : withKeyword "mysql" addNote = "CALL add_note".toList ++ '(' :: "@id, @text)".toList := by decide
    obtain ⟨-, hplain⟩ := hasArguments_of_sends (note_hasParams _ fun _ h => h) hcommand (by decide) h
    have hnot : ¬ReadsBack mySql "C:\\".toList := by decide
    exact hnot (plain_of_note hplain (by decide)).1
  · have hcommand : withKeyword "mssql" "EXEC add_note(@text)".toList = "EXEC add_note".toList ++ '(' :: "@text)".toList := by
      decide
    obtain ⟨-, hplain⟩ := hasArguments_of_sends (note_hasParams _ (by decide)) hcommand (by decide) h
    have hclose : ')' ∈ "see (a)".toList := by decide
    exact (plain_of_note hplain (by decide)).2 rfl hclose
  · have hcommand : withKeyword "pg" "CALL add_note(@text, 'draft')".toList =
        "CALL add_note".toList ++ '(' :: "@text, 'draft')".toList := by decide
    obtain ⟨⟨-, hargs⟩, -⟩ := hasArguments_of_sends (note_hasParams _ (by decide)) hcommand (by decide) h
    rw [if_neg (by decide)] at hargs
    revert hargs
    decide

end DrasiPlatform.StoredProcedures
