/-
A JSON array of objects, read from a stream of text character by character: the items come out while the array is still being
written.

Where an object ends is found without reading it, by counting brackets outside strings (`Scan`). `Balanced` texts leave the
count as it was and never take it below; `Framed` texts are those whose end is where the count returns to nothing.

- `balanced_print`: the text of every document is balanced, whatever its strings hold; `framed_print`: that of every object is
  framed.
- `reads_array`: of the text of an array, a reader has at any time given out exactly the items whose texts it has seen to the
  end, and it closes at the end of the array and not before.
-/
import Mathlib.Tactic
import DrasiPlatform.Core.JsonText

namespace DrasiPlatform.JsonStream

open Json JsonText

/-! ## Brackets -/

inductive Mode where
  | plain
  | string
  | escaped
deriving DecidableEq

/-- how many brackets are open, and whether the next character belongs to a string -/
structure Scan where
  depth : ℕ
  mode : Mode
deriving DecidableEq

def isOpening (c : Char) : Bool := c == '[' || c == '\x7b'

def isClosing (c : Char) : Bool := c == ']' || c == '\x7d'

def Scan.step (s : Scan) (c : Char) : Scan :=
  match s.mode with
  | .escaped => { s with mode := .string }
  | .string => if c = quote then { s with mode := .plain } else if c = backslash then { s with mode := .escaped } else s
  | .plain =>
    if c = quote then { s with mode := .string }
    else if isOpening c then { s with depth := s.depth + 1 }
    else if isClosing c then { s with depth := s.depth - 1 }
    else s

def Scan.over (s : Scan) (text : List Char) : Scan := text.foldl Scan.step s

@[simp] theorem Scan.over_nil (s : Scan) : s.over [] = s := rfl

@[simp] theorem Scan.over_cons (s : Scan) (c : Char) (text : List Char) : s.over (c :: text) = (s.step c).over text := rfl

@[simp] theorem Scan.over_append (s : Scan) (text text' : List Char) : s.over (text ++ text') = (s.over text).over text' :=
  List.foldl_append

/-- `text` takes the scan from `s` to `s'`, and nowhere on the way are fewer than `d` brackets open -/
structure Passes (d : ℕ) (s : Scan) (text : List Char) (s' : Scan) : Prop where
  ends : s.over text = s'
  above : ∀ seen, seen <+: text → d ≤ (s.over seen).depth

theorem Passes.nil {d : ℕ} {s : Scan} (h : d ≤ s.depth) : Passes d s [] s :=
  ⟨rfl, fun _ hseen => by rw [List.prefix_nil.1 hseen]; exact h⟩

theorem Passes.cons {d : ℕ} {s s' : Scan} {c : Char} {text : List Char} (h : d ≤ s.depth)
    (htext : Passes d (s.step c) text s') : Passes d s (c :: text) s' := by
  refine ⟨htext.ends, fun seen hseen => ?_⟩
  cases seen with
  | nil => exact h
  | cons c' seen =>
    obtain ⟨rfl, hrest⟩ := List.cons_prefix_cons.1 hseen
    exact htext.above seen hrest

theorem Passes.append {d : ℕ} {s s' s'' : Scan} {text text' : List Char} (h : Passes d s text s')
    (h' : Passes d s' text' s'') : Passes d s (text ++ text') s'' := by
  refine ⟨by rw [Scan.over_append, h.ends, h'.ends], fun seen hseen => ?_⟩
  rcases List.prefix_or_prefix_of_prefix hseen (List.prefix_append text text') with hinside | ⟨more, rfl⟩
  · exact h.above seen hinside
  · rw [Scan.over_append, h.ends]
    exact h'.above more ((List.prefix_append_right_inj text).1 hseen)

/-- a text that opens no bracket it does not close, and closes none that it has not opened -/
def Balanced (text : List Char) : Prop := ∀ d, Passes d ⟨d, .plain⟩ text ⟨d, .plain⟩

theorem Balanced.append {text text' : List Char} (h : Balanced text) (h' : Balanced text') : Balanced (text ++ text') :=
  fun d => (h d).append (h' d)

/-- a character that is neither a bracket nor a quote -/
def Neutral (c : Char) : Prop := c ≠ quote ∧ isOpening c = false ∧ isClosing c = false

theorem Neutral.step {c : Char} (h : Neutral c) (d : ℕ) : Scan.step ⟨d, .plain⟩ c = ⟨d, .plain⟩ := by
  simp [Scan.step, h.1, h.2.1, h.2.2]

theorem balanced_neutral {text : List Char} (h : ∀ c ∈ text, Neutral c) : Balanced text := by
  intro d
  induction text with
  | nil => exact .nil le_rfl
  | cons c text ih =>
    refine .cons le_rfl ?_
    rw [(h c List.mem_cons_self).step]
    exact ih fun c' hc' => h c' (List.mem_cons_of_mem c hc')

theorem neutral_of_isDigit {c : Char} (h : c.isDigit = true) : Neutral c := by
  have hne : ∀ c', c'.isDigit = false → c ≠ c' := by
    intro c' hc' heq
    rw [heq, hc'] at h
    cases h
  refine ⟨hne quote (by decide), ?_, ?_⟩
  · simp [isOpening, hne '[' (by decide), hne '\x7b' (by decide)]
  · simp [isClosing, hne ']' (by decide), hne '\x7d' (by decide)]

/-! ## Strings -/

theorem step_string_of_ne {c : Char} (hquote : c ≠ quote) (hbackslash : c ≠ backslash) (d : ℕ) :
    Scan.step ⟨d, .string⟩ c = ⟨d, .string⟩ := by
  simp [Scan.step, hquote, hbackslash]

theorem hexDigit_plain {n : ℕ} (h : n < 16) : hexDigit n ≠ quote ∧ hexDigit n ≠ backslash := by
  revert n
  decide

/-- an escaped character does not end its string -/
theorem passes_escape (d : ℕ) (c : Char) : Passes d ⟨d, .string⟩ (escape c) ⟨d, .string⟩ := by
  have hpair : ∀ letter, Passes d ⟨d, .string⟩ [backslash, letter] ⟨d, .string⟩ := fun letter =>
    .cons le_rfl (.cons le_rfl (.nil le_rfl))
  have hother : ∀ {c' : Char}, c' ≠ quote → c' ≠ backslash → Passes d ⟨d, .string⟩ [c'] ⟨d, .string⟩ := by
    intro c' hquote hbackslash
    refine .cons le_rfl ?_
    rw [step_string_of_ne hquote hbackslash]
    exact .nil le_rfl
  unfold escape
  cases hlookup : shortEscapes.lookup c with
  | some letter => exact hpair letter
  | none =>
    simp only
    split
    · next hcontrol =>
      have hhigh := hexDigit_plain (n := c.toNat / 16) (by omega)
      have hlow := hexDigit_plain (n := c.toNat % 16) (by omega)
      exact (hpair 'u').append <| (hother (by decide) (by decide)).append <| (hother (by decide) (by decide)).append <|
        (hother hhigh.1 hhigh.2).append (hother hlow.1 hlow.2)
    · refine hother ?_ ?_
      · intro heq
        rw [heq] at hlookup
        cases hlookup
      · intro heq
        rw [heq] at hlookup
        cases hlookup

/-- a string, from behind its opening quote -/
theorem passes_printChars (d : ℕ) (s : String) : Passes d ⟨d, .string⟩ (printChars s) ⟨d, .plain⟩ := by
  have hchars : ∀ cs : List Char, Passes d ⟨d, .string⟩ (cs.flatMap escape) ⟨d, .string⟩ := by
    intro cs
    induction cs with
    | nil => exact .nil le_rfl
    | cons c cs ih => exact (passes_escape d c).append ih
  exact (hchars s.toList).append (.cons le_rfl (.nil le_rfl))

theorem balanced_string (s : String) : Balanced (quote :: printChars s) :=
  fun d => .cons le_rfl (passes_printChars d s)

/-! ## Documents -/

/-- items are balanced up to the closing bracket -/
theorem exists_inner (close : Char) {texts : List (List Char)} (h : ∀ text ∈ texts, Balanced text) :
    ∃ inner, printItems close texts = inner ++ [close] ∧ Balanced inner := by
  induction texts with
  | nil => exact ⟨[], rfl, fun d => .nil le_rfl⟩
  | cons text texts ih =>
    have hthis := h text List.mem_cons_self
    cases texts with
    | nil => exact ⟨text, rfl, hthis⟩
    | cons text' texts =>
      obtain ⟨inner, heq, hinner⟩ := ih fun t ht => h t (List.mem_cons_of_mem text ht)
      have hcomma : Balanced [','] := balanced_neutral (by simp [Neutral, quote, isOpening, isClosing])
      refine ⟨text ++ ([','] ++ inner), ?_, hthis.append (hcomma.append hinner)⟩
      simp [printItems, heq]

theorem step_opening {opening : Char} (h : isOpening opening = true) (d : ℕ) :
    Scan.step ⟨d, .plain⟩ opening = ⟨d + 1, .plain⟩ := by
  rcases Bool.or_eq_true_iff.1 h with h | h <;> obtain rfl := beq_iff_eq.1 h <;> rfl

theorem step_closing {close : Char} (h : isClosing close = true) (d : ℕ) :
    Scan.step ⟨d + 1, .plain⟩ close = ⟨d, .plain⟩ := by
  rcases Bool.or_eq_true_iff.1 h with h | h <;> obtain rfl := beq_iff_eq.1 h <;> rfl

theorem balanced_brackets {opening close : Char} (hopening : isOpening opening = true) (hclose : isClosing close = true)
    {texts : List (List Char)} (h : ∀ text ∈ texts, Balanced text) : Balanced (opening :: printItems close texts) := by
  intro d
  obtain ⟨inner, heq, hinner⟩ := exists_inner close h
  have hinside : Passes d ⟨d + 1, .plain⟩ inner ⟨d + 1, .plain⟩ :=
    ⟨(hinner (d + 1)).ends, fun seen hseen => (Nat.le_succ d).trans ((hinner (d + 1)).above seen hseen)⟩
  refine .cons le_rfl ?_
  rw [step_opening hopening, heq]
  exact hinside.append (.cons (Nat.le_succ d) (by rw [step_closing hclose]; exact .nil le_rfl))

/-- the texts of floating point numbers have no brackets and no quotes -/
def Numeric (float : UInt64 → List Char) : Prop := ∀ bits, ∀ c ∈ float bits, Neutral c

section Print

variable {float : UInt64 → List Char}

theorem balanced_printNumber (hfloat : Numeric float) (n : Number) : Balanced (printNumber float n) := by
  have hdigits : ∀ n, ∀ c ∈ printNat n, Neutral c := fun n c hc =>
    neutral_of_isDigit (Nat.isDigit_of_mem_toDigits (by decide) (by decide) hc)
  cases n with
  | posInt n => exact balanced_neutral (hdigits _)
  | negInt n =>
    refine balanced_neutral fun c hc => ?_
    rcases List.mem_cons.1 hc with rfl | hc
    · exact ⟨by decide, rfl, rfl⟩
    · exact hdigits _ c hc
  | float bits => exact balanced_neutral (hfloat bits)

mutual

/-- **The text of a document is balanced.** -/
theorem balanced_print (hfloat : Numeric float) : (v : Value) → Balanced (print float v)
  | .null => balanced_neutral (by simp [print, Neutral, quote, isOpening, isClosing])
  | .bool true => balanced_neutral (by simp [print, Neutral, quote, isOpening, isClosing])
  | .bool false => balanced_neutral (by simp [print, Neutral, quote, isOpening, isClosing])
  | .number n => balanced_printNumber hfloat n
  | .string s => balanced_string s
  | .array a => balanced_brackets rfl rfl (balanced_printAll hfloat a)
  | .object o => balanced_brackets rfl rfl (balanced_printFields hfloat o)

theorem balanced_printAll (hfloat : Numeric float) : (a : List Value) → ∀ text ∈ printAll float a, Balanced text
  | [], _, h => absurd h List.not_mem_nil
  | v :: a, text, h => by
    rcases List.mem_cons.1 h with rfl | h
    · exact balanced_print hfloat v
    · exact balanced_printAll hfloat a text h

theorem balanced_printFields (hfloat : Numeric float) :
    (o : List (String × Value)) → ∀ text ∈ printFields float o, Balanced text
  | [], _, h => absurd h List.not_mem_nil
  | (k, v) :: o, text, h => by
    rcases List.mem_cons.1 h with rfl | h
    · exact (balanced_string k).append fun d => .cons le_rfl (balanced_print hfloat v d)
    · exact balanced_printFields hfloat o text h

end

end Print

/-- an object's text, which ends where its first bracket is closed -/
def Framed (text : List Char) : Prop :=
  ∃ cs, text = '\x7b' :: cs ∧ ∀ seen, seen <+: cs → ((Scan.over ⟨1, .plain⟩ seen).depth = 0 ↔ seen = cs)

theorem framed_print {float : UInt64 → List Char} (hfloat : Numeric float) (o : List (String × Value)) :
    Framed (print float (.object o)) := by
  obtain ⟨inner, heq, hinner⟩ := exists_inner '\x7d' (balanced_printFields hfloat o)
  refine ⟨inner ++ ['\x7d'], by rw [← heq]; rfl, fun seen hseen => ?_⟩
  rcases List.prefix_concat_iff.1 hseen with rfl | hinside
  · rw [Scan.over_append, (hinner 1).ends]
    exact iff_of_true rfl rfl
  · refine iff_of_false ?_ ?_
    · exact Nat.ne_of_gt ((hinner 1).above seen hinside)
    · intro hall
      have hle := hinside.length_le
      rw [hall, List.length_append, List.length_singleton] at hle
      omega

/-! ## The reader -/

/-- where the reader is: `first` behind the opening bracket, `behind` an item, `next` behind a comma; an item's text is kept
while it comes -/
inductive Phase where
  | opening
  | first
  | value (text : List Char) (scan : Scan)
  | behind
  | next
  | closed
  | failed
deriving DecidableEq

structure Reader (α : Type) where
  phase : Phase
  items : List α

variable {α : Type}

def isBlank (c : Char) : Bool := c == ' ' || c == '\t' || c == '\r' || c == '\n'

def Reader.begin (r : Reader α) (c : Char) : Reader α :=
  if c = '\x7b' then { r with phase := .value [c] ⟨1, .plain⟩ } else { r with phase := .failed }

/-- one character; `decode` reads the text of an item -/
def Reader.step (decode : List Char → Option α) (r : Reader α) (c : Char) : Reader α :=
  match r.phase with
  | .opening => if isBlank c then r else { r with phase := if c = '[' then .first else .failed }
  | .first => if isBlank c then r else if c = ']' then { r with phase := .closed } else r.begin c
  | .value text scan =>
    let text := text ++ [c]
    let scan := scan.step c
    if scan.depth = 0 then
      match decode text with
      | some x => ⟨.behind, r.items ++ [x]⟩
      | none => { r with phase := .failed }
    else { r with phase := .value text scan }
  | .behind =>
    if isBlank c then r
    else { r with phase := if c = ']' then .closed else if c = ',' then .next else .failed }
  | .next => if isBlank c then r else r.begin c
  | .closed => r
  | .failed => r

def Reader.start : Reader α := ⟨.opening, []⟩

def Reader.over (decode : List Char → Option α) (r : Reader α) (text : List Char) : Reader α :=
  text.foldl (Reader.step decode) r

section Read

variable {decode : List Char → Option α}

@[simp] theorem Reader.over_nil (r : Reader α) : r.over decode [] = r := rfl

@[simp] theorem Reader.over_cons (r : Reader α) (c : Char) (text : List Char) :
    r.over decode (c :: text) = (r.step decode c).over decode text := rfl

@[simp] theorem Reader.over_append (r : Reader α) (text text' : List Char) :
    r.over decode (text ++ text') = (r.over decode text).over decode text' := List.foldl_append

/-- inside an item that does not end yet -/
theorem over_value {text cs : List Char} {scan : Scan} (items : List α)
    (hopen : ∀ seen, seen <+: cs → (scan.over seen).depth ≠ 0) :
    Reader.over decode ⟨.value text scan, items⟩ cs = ⟨.value (text ++ cs) (scan.over cs), items⟩ := by
  induction cs generalizing text scan with
  | nil => simp
  | cons c cs ih =>
    have hthis : (scan.step c).depth ≠ 0 := hopen [c] (List.cons_prefix_cons.2 ⟨rfl, List.nil_prefix⟩)
    have hstep : Reader.step decode ⟨.value text scan, items⟩ c = ⟨.value (text ++ [c]) (scan.step c), items⟩ := by
      simp [Reader.step, hthis]
    rw [Reader.over_cons, hstep, ih fun seen hseen => hopen (c :: seen) (List.cons_prefix_cons.2 ⟨rfl, hseen⟩)]
    simp

/-- an item's text, from where an item may begin -/
theorem over_framed {text : List Char} {x : α} (h : Framed text) (hdecode : decode text = some x) {phase : Phase}
    (hphase : phase = .first ∨ phase = .next) (items : List α) :
    Reader.over decode ⟨phase, items⟩ text = ⟨.behind, items ++ [x]⟩ ∧
    ∀ seen, seen <+: text → seen ≠ text → seen ≠ [] →
      ∃ t s, Reader.over decode ⟨phase, items⟩ seen = ⟨.value t s, items⟩ := by
  obtain ⟨cs, rfl, hends⟩ := h
  have hbegin : Reader.step decode ⟨phase, items⟩ '\x7b' = ⟨.value ['\x7b'] ⟨1, .plain⟩, items⟩ := by
    rcases hphase with rfl | rfl <;> rfl
  have hinside : ∀ seen, seen <+: cs → seen ≠ cs →
      Reader.over decode ⟨.value ['\x7b'] ⟨1, .plain⟩, items⟩ seen =
        ⟨.value (['\x7b'] ++ seen) (Scan.over ⟨1, .plain⟩ seen), items⟩ := by
    intro seen hseen hne
    refine over_value items fun before hbefore hzero => ?_
    have hall := (hends before (hbefore.trans hseen)).1 hzero
    exact hne (hseen.eq_of_length_le (hall ▸ hbefore.length_le))
  refine ⟨?_, fun seen hseen hne hnil => ?_⟩
  · -- the last character is the one that closes the first bracket
    have hcs : cs ≠ [] := by
      intro hnil
      have hzero := (hends [] List.nil_prefix).2 hnil.symm
      cases hzero
    obtain ⟨before, c, rfl⟩ := (List.eq_nil_or_concat' cs).resolve_left hcs
    have hbefore : before ≠ before ++ [c] := by simp
    have hzero : ((Scan.over ⟨1, .plain⟩ before).step c).depth = 0 := by
      have hlast := (hends (before ++ [c]) (List.prefix_refl _)).2 rfl
      rwa [Scan.over_append] at hlast
    have hdecode' : decode (['\x7b'] ++ before ++ [c]) = some x := by simpa using hdecode
    rw [Reader.over_cons, hbegin, Reader.over_append, hinside before (List.prefix_append _ _) hbefore]
    simp only [Reader.over_cons, Reader.over_nil, Reader.step, hzero, if_true, hdecode']
  · obtain ⟨c, seen, rfl⟩ := List.exists_cons_of_ne_nil hnil
    obtain ⟨rfl, hseen'⟩ := List.cons_prefix_cons.1 hseen
    rw [Reader.over_cons, hbegin]
    exact ⟨_, _, hinside seen hseen' fun heq => hne (by rw [heq])⟩

/-- what comes behind the first item -/
def tailText (texts : List (List Char)) : List Char := texts.flatMap fun text => ',' :: text

theorem printItems_cons (text : List Char) (texts : List (List Char)) :
    printItems ']' (text :: texts) = text ++ (tailText texts ++ [']']) := by
  induction texts generalizing text with
  | nil => simp [printItems, tailText]
  | cons text' texts ih => simp [printItems, ih, tailText]

/-- the reader has seen the first `k` of `texts` to the end, and no more, and has given out their items -/
structure Complete (r : Reader α) (given : List α) (texts : List (List Char)) (xs : List α) (seen : List Char) (k : ℕ) :
    Prop where
  le : k ≤ texts.length
  items : r.items = given ++ xs.take k
  exactly : ∀ j ≤ texts.length, tailText (texts.take j) <+: seen ↔ j ≤ k
  running : r.phase ≠ .failed
  closed : r.phase = .closed ↔ seen = tailText texts ++ [']']

@[simp] theorem tailText_cons (text : List Char) (texts : List (List Char)) :
    tailText (text :: texts) = ',' :: (text ++ tailText texts) := rfl

/-- as long as the first of the texts is not seen to the end -/
theorem Complete.none {r : Reader α} {given : List α} {text : List Char} {texts : List (List Char)} {xs : List α}
    {seen : List Char} (hitems : r.items = given) (hrunning : r.phase ≠ .failed) (hopen : r.phase ≠ .closed)
    (hseen : ¬ ',' :: text <+: seen) : Complete r given (text :: texts) xs seen 0 where
  le := Nat.zero_le _
  items := by simp [hitems]
  exactly j hj := by
    cases j with
    | zero => simp [tailText]
    | succ j =>
      refine iff_of_false (fun hprefixed => hseen ?_) (Nat.not_succ_le_zero j)
      rw [List.take_succ_cons, tailText_cons] at hprefixed
      exact (List.prefix_append (',' :: text) _).trans hprefixed
  running := hrunning
  closed := by
    refine iff_of_false hopen fun heq => hseen ?_
    rw [heq, tailText_cons, List.cons_append, List.append_assoc]
    exact List.prefix_append (',' :: text) _

theorem Complete.cons {r : Reader α} {given : List α} {x : α} {text : List Char} {texts : List (List Char)} {xs : List α}
    {seen : List Char} {k : ℕ} (h : Complete r (given ++ [x]) texts xs seen k) :
    Complete r given (text :: texts) (x :: xs) (',' :: (text ++ seen)) (k + 1) where
  le := Nat.succ_le_succ h.le
  items := by rw [h.items, List.take_succ_cons, List.append_assoc, List.singleton_append]
  exactly j hj := by
    cases j with
    | zero => simp [tailText]
    | succ j =>
      rw [List.take_succ_cons, tailText_cons, List.cons_prefix_cons, List.prefix_append_right_inj,
        h.exactly j (Nat.le_of_succ_le_succ hj), Nat.succ_le_succ_iff]
      exact and_iff_right rfl
  running := h.running
  closed := by
    rw [h.closed, tailText_cons, List.cons_append, List.cons.injEq, List.append_assoc, List.append_cancel_left_eq]
    exact (and_iff_right rfl).symm

theorem over_tail {texts : List (List Char)} {xs : List α}
    (h : List.Forall₂ (fun text x => Framed text ∧ decode text = some x) texts xs) (given : List α) {seen : List Char}
    (hseen : seen <+: tailText texts ++ [']']) :
    ∃ k, Complete (Reader.over decode ⟨.behind, given⟩ seen) given texts xs seen k := by
  induction h generalizing given seen with
  | nil =>
    rcases List.prefix_concat_iff.1 hseen with rfl | hnil
    · have hclosed : Reader.over decode ⟨.behind, given⟩ (tailText [] ++ [']']) = ⟨.closed, given⟩ := rfl
      rw [hclosed]
      exact ⟨0, le_rfl, by simp, fun j hj => by simp [tailText, Nat.le_zero.1 hj], by simp, by simp⟩
    · obtain rfl := List.prefix_nil.1 hnil
      exact ⟨0, le_rfl, by simp, fun j hj => by simp [tailText, Nat.le_zero.1 hj], by simp, by simp⟩
  | @cons text x texts xs hthis hmore ih =>
    rw [tailText_cons, List.cons_append, List.append_assoc] at hseen
    cases seen with
    | nil => exact ⟨0, .none rfl (by simp) (by simp) (by simp)⟩
    | cons c seen =>
      obtain ⟨rfl, hrest⟩ := List.cons_prefix_cons.1 hseen
      have hcomma : Reader.step decode ⟨.behind, given⟩ ',' = ⟨.next, given⟩ := rfl
      obtain ⟨hend, hinside⟩ := over_framed hthis.1 hthis.2 (.inr rfl) given
      rcases List.prefix_or_prefix_of_prefix hrest (List.prefix_append text _) with hthere | ⟨more, rfl⟩
      · by_cases hwhole : seen = text
        · obtain ⟨k, hk⟩ := ih (given ++ [x]) List.nil_prefix
          refine ⟨k + 1, ?_⟩
          have hnone : ',' :: text = ',' :: (text ++ []) := by rw [List.append_nil]
          rw [Reader.over_cons, hcomma, hwhole, hend, hnone]
          exact hk.cons
        · have hnot : ¬ ',' :: text <+: ',' :: seen := fun hprefixed =>
            hwhole (hthere.eq_of_length_le (List.cons_prefix_cons.1 hprefixed).2.length_le)
          by_cases hnil : seen = []
          · subst hnil
            exact ⟨0, .none rfl (by simp [hcomma]) (by simp [hcomma]) hnot⟩
          · obtain ⟨t, s, hvalue⟩ := hinside seen hthere hwhole hnil
            rw [Reader.over_cons, hcomma, hvalue]
            exact ⟨0, .none rfl (by simp) (by simp) hnot⟩
      · obtain ⟨k, hk⟩ := ih (given ++ [x]) ((List.prefix_append_right_inj text).1 hrest)
        rw [Reader.over_cons, hcomma, Reader.over_append, hend]
        exact ⟨k + 1, hk.cons⟩

/-- the text of an array up to its `k`th item -/
def partText (texts : List (List Char)) (k : ℕ) : List Char := '[' :: (tailText (texts.take k)).drop 1

/-- **Items come out as soon as they are there.** Of the text of an array, whatever part has been seen, the reader has given
out exactly the items whose texts it has seen to the end; it has closed exactly when it has seen everything. -/
theorem reads_array {texts : List (List Char)} {xs : List α}
    (h : List.Forall₂ (fun text x => Framed text ∧ decode text = some x) texts xs) {seen : List Char}
    (hseen : seen <+: '[' :: printItems ']' texts) :
    ∃ k ≤ texts.length, (Reader.over decode .start seen).items = xs.take k ∧
      (∀ j ≤ texts.length, 0 < j → (partText texts j <+: seen ↔ j ≤ k)) ∧
      (Reader.over decode .start seen).phase ≠ .failed ∧
      ((Reader.over decode .start seen).phase = .closed ↔ seen = '[' :: printItems ']' texts) := by
  cases seen with
  | nil =>
    refine ⟨0, Nat.zero_le _, rfl, fun j hj hpos => ?_, by simp [Reader.start], by simp [Reader.start]⟩
    exact iff_of_false (by simp [partText]) (by omega)
  | cons c seen =>
    obtain ⟨rfl, hrest⟩ := List.cons_prefix_cons.1 hseen
    have hopening : Reader.step decode .start '[' = ⟨.first, []⟩ := rfl
    rw [Reader.over_cons, hopening]
    cases h with
    | nil =>
      rcases List.prefix_concat_iff.1 (show seen <+: [] ++ [']'] from hrest) with rfl | hnil
      · have hclosed : Reader.over decode ⟨.first, []⟩ ([] ++ [']']) = ⟨.closed, []⟩ := rfl
        rw [hclosed]
        exact ⟨0, le_rfl, rfl, fun j hj hpos => absurd hpos (by simpa using hj), by simp, iff_of_true rfl rfl⟩
      · obtain rfl := List.prefix_nil.1 hnil
        exact ⟨0, le_rfl, rfl, fun j hj hpos => absurd hpos (by simpa using hj), by simp, by simp [printItems]⟩
    | @cons text x texts xs hthis hmore =>
      rw [printItems_cons] at hrest ⊢
      -- the first item is read like one behind a comma
      have hlike : (Reader.over decode ⟨.first, []⟩ seen).items = (Reader.over decode ⟨.behind, []⟩ (',' :: seen)).items ∧
          ∀ phase, phase = .failed ∨ phase = .closed → ((Reader.over decode ⟨.first, []⟩ seen).phase = phase ↔
            (Reader.over decode ⟨.behind, []⟩ (',' :: seen)).phase = phase) := by
        cases seen with
        | nil =>
          refine ⟨rfl, fun phase hphase => ?_⟩
          rcases hphase with rfl | rfl <;> exact iff_of_false (by simp) (by simp [Reader.step, isBlank])
        | cons c seen =>
          obtain ⟨cs, heq, -⟩ := hthis.1
          rw [heq] at hrest
          obtain ⟨rfl, -⟩ := List.cons_prefix_cons.1 hrest
          exact ⟨rfl, fun _ _ => Iff.rfl⟩
      have hall : ',' :: seen <+: tailText (text :: texts) ++ [']'] := by
        rw [tailText_cons, List.cons_append, List.append_assoc]
        exact List.cons_prefix_cons.2 ⟨rfl, hrest⟩
      obtain ⟨k, hk⟩ := over_tail (.cons hthis hmore) [] hall
      refine ⟨k, hk.le, by rw [hlike.1, hk.items, List.nil_append], fun j hj hpos => ?_, ?_, ?_⟩
      · obtain ⟨j, rfl⟩ := Nat.exists_eq_succ_of_ne_zero hpos.ne'
        rw [← hk.exactly _ hj, partText, List.take_succ_cons, tailText_cons, List.cons_prefix_cons, List.cons_prefix_cons,
          List.drop_succ_cons, List.drop_zero, and_iff_right rfl, and_iff_right rfl]
      · exact fun hfailed => hk.running ((hlike.2 .failed (.inl rfl)).1 hfailed)
      · rw [hlike.2 .closed (.inr rfl), hk.closed, tailText_cons, List.cons_append, List.cons.injEq, List.cons.injEq,
          and_iff_right rfl, and_iff_right rfl, List.append_assoc]

end Read

end DrasiPlatform.JsonStream
