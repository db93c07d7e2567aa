/-
Templates: a text with parameters in it, a mark and a word each. `scan` finds the parameters as a global regular expression of
the mark and `\w+` does, `fill` puts a text in the place of each of them.

- `source_scan`: the tokens are the template.
- `fill_eq_source`: a text that is filled in is not the template it was filled into, from the first parameter on.
- `fill_inj`: tokens with the same parameters, and nothing but separators between them, are told apart by what they are
  filled to.
- `texts_agree_of_count`: where filling the same parameters with one text and with a longer one comes to the same count of
  some characters, the two texts have the same count and the rest of the template has none.
-/
import Mathlib.Tactic

namespace DrasiPlatform.Templates

abbrev Text := List Char

inductive Token where
  | char (c : Char)
  | param (name : Text)
deriving DecidableEq, Repr

/-! ## Filling -/

def Token.fill (f : Text → Text) : Token → Text
  | .char c => [c]
  | .param name => f name

def fill (f : Text → Text) (ts : List Token) : Text := ts.flatMap (Token.fill f)

/-- the template itself -/
def source (mark : Char) (ts : List Token) : Text := fill (mark :: ·) ts

def names : List Token → List Text
  | [] => []
  | .char _ :: ts => names ts
  | .param name :: ts => name :: names ts

def chars : List Token → Text
  | [] => []
  | .char c :: ts => c :: chars ts
  | .param _ :: ts => chars ts

section Fill

variable {f g : Text → Text} {mark : Char} {ts ts' : List Token}

@[simp] theorem fill_nil : fill f [] = [] := rfl

@[simp] theorem fill_char (c : Char) : fill f (.char c :: ts) = c :: fill f ts := rfl

@[simp] theorem fill_param (name : Text) : fill f (.param name :: ts) = f name ++ fill f ts := rfl

@[simp] theorem fill_append : fill f (ts ++ ts') = fill f ts ++ fill f ts' := List.flatMap_append

@[simp] theorem source_nil : source mark [] = [] := rfl

@[simp] theorem source_char (c : Char) : source mark (.char c :: ts) = c :: source mark ts := rfl

@[simp] theorem source_param (name : Text) : source mark (.param name :: ts) = mark :: (name ++ source mark ts) := rfl

@[simp] theorem source_append : source mark (ts ++ ts') = source mark ts ++ source mark ts' := fill_append

@[simp] theorem names_append : names (ts ++ ts') = names ts ++ names ts' := by
  induction ts with
  | nil => rfl
  | cons t ts ih => cases t <;> simp [names, ih]

@[simp] theorem chars_append : chars (ts ++ ts') = chars ts ++ chars ts' := by
  induction ts with
  | nil => rfl
  | cons t ts ih => cases t <;> simp [chars, ih]

theorem mem_chars {c : Char} : c ∈ chars ts ↔ .char c ∈ ts := by
  induction ts with
  | nil => simp [chars]
  | cons t ts ih => cases t <;> simp [chars, ih]

theorem mem_names {name : Text} : name ∈ names ts ↔ .param name ∈ ts := by
  induction ts with
  | nil => simp [names]
  | cons t ts ih => cases t <;> simp [names, ih]

variable (mark) in
theorem mem_source_of_mem_chars {c : Char} (h : c ∈ chars ts) : c ∈ source mark ts :=
  List.mem_flatMap.2 ⟨.char c, mem_chars.1 h, List.mem_singleton_self c⟩

/-- without parameters there is nothing to fill -/
theorem fill_of_no_names (h : names ts = []) : fill f ts = source mark ts := by
  induction ts with
  | nil => rfl
  | cons t ts ih =>
    cases t with
    | char c => rw [fill_char, source_char, ih h]
    | param name => cases h

theorem fill_congr (h : ∀ name ∈ names ts, f name = g name) : fill f ts = fill g ts := by
  induction ts with
  | nil => rfl
  | cons t ts ih =>
    cases t with
    | char c => rw [fill_char, fill_char, ih h]
    | param name =>
      rw [fill_param, fill_param, h name List.mem_cons_self, ih fun n hn => h n (List.mem_cons_of_mem _ hn)]

theorem names_erase_char (c : Char) : names (ts.erase (.char c)) = names ts := by
  induction ts with
  | nil => rfl
  | cons t ts ih =>
    cases t with
    | char d =>
      rw [List.erase_cons]
      split
      · rfl
      · exact ih
    | param name =>
      rw [List.erase_cons_tail (by simp)]
      exact congrArg (name :: ·) ih

theorem names_reverse : names ts.reverse = (names ts).reverse := by
  induction ts with
  | nil => rfl
  | cons t ts ih => cases t <;> simp [names, ih]

/-- a text that the mark does not begin does not stand where the parameter stood -/
theorem fill_eq_source (hf : ∀ name ∈ names ts, ∃ c cs, f name = c :: cs ∧ c ≠ mark) {x y : Text}
    (h : fill f ts ++ x = source mark ts ++ y) : names ts = [] ∧ x = y := by
  induction ts with
  | nil => exact ⟨rfl, h⟩
  | cons t ts ih =>
    cases t with
    | char c => exact ih hf (List.cons.inj h).2
    | param name =>
      obtain ⟨c, cs, hname, hc⟩ := hf name List.mem_cons_self
      rw [fill_param, hname] at h
      exact absurd (List.cons.inj h).1 hc

/-- **Separators**: tokens with the same parameters in one order and only separators between them, none of which begins a
filled text, are equal if they are filled to one text. -/
theorem fill_inj {sep : Char → Prop} (hts : ∀ c ∈ chars ts, sep c) (hts' : ∀ c ∈ chars ts', sep c)
    (hnames : names ts = names ts') (hf : ∀ name ∈ names ts, ∃ c cs, f name = c :: cs ∧ ¬sep c)
    (h : fill f ts = fill f ts') : ts = ts' := by
  induction ts generalizing ts' with
  | nil =>
    cases ts' with
    | nil => rfl
    | cons t' ts' =>
      cases t' with
      | char c => cases h
      | param name => cases hnames
  | cons t ts ih =>
    cases t with
    | char c =>
      cases ts' with
      | nil => cases h
      | cons t' ts' =>
        cases t' with
        | char c' =>
          obtain ⟨rfl, hrest⟩ := List.cons.inj h
          rw [ih (fun c hc => hts c (List.mem_cons_of_mem _ hc)) (fun c hc => hts' c (List.mem_cons_of_mem _ hc)) hnames hf
            hrest]
        | param name =>
          obtain ⟨d, ds, hname, hd⟩ := hf name (hnames ▸ List.mem_cons_self)
          rw [fill_char, fill_param, hname] at h
          exact absurd ((List.cons.inj h).1 ▸ hts c List.mem_cons_self) hd
    | param name =>
      obtain ⟨d, ds, hname, hd⟩ := hf name List.mem_cons_self
      cases ts' with
      | nil => cases hnames
      | cons t' ts' =>
        cases t' with
        | char c' =>
          rw [fill_char, fill_param, hname] at h
          exact absurd ((List.cons.inj h).1 ▸ hts' c' List.mem_cons_self) hd
        | param name' =>
          obtain ⟨rfl, hrest⟩ := List.cons.inj hnames
          have htail : ts = ts' :=
            ih hts hts' hrest (fun n hn => hf n (List.mem_cons_of_mem _ hn)) (List.append_cancel_left h)
          rw [htail]

/-! ## Counting -/

variable (p : Char → Bool)

theorem countP_fill : (fill f ts).countP p = (chars ts).countP p + ((names ts).map fun name => (f name).countP p).sum := by
  induction ts with
  | nil => rfl
  | cons t ts ih =>
    cases t with
    | char c =>
      rw [fill_char, chars, names, List.countP_cons, List.countP_cons, ih]
      omega
    | param name =>
      rw [fill_param, chars, names, List.countP_append, List.map_cons, List.sum_cons, ih]
      omega

variable {p}

theorem eq_of_sum_le {α : Type*} {l : List α} {a b : α → ℕ} (hle : ∀ x ∈ l, a x ≤ b x) {n : ℕ}
    (h : n + (l.map b).sum = (l.map a).sum) : n = 0 ∧ ∀ x ∈ l, a x = b x := by
  induction l with
  | nil => exact ⟨h, fun x hx => by cases hx⟩
  | cons x l ih =>
    have hx : a x ≤ b x := hle x List.mem_cons_self
    have hl : (l.map a).sum ≤ (l.map b).sum := List.sum_le_sum fun y hy => hle y (List.mem_cons_of_mem x hy)
    rw [List.map_cons, List.map_cons, List.sum_cons, List.sum_cons] at h
    have hxeq : a x = b x := by omega
    obtain ⟨hn, heq⟩ := ih (fun y hy => hle y (List.mem_cons_of_mem x hy)) (by omega)
    exact ⟨hn, List.forall_mem_cons.2 ⟨hxeq, heq⟩⟩

theorem texts_agree_of_count (hnames : names ts = names ts') (hts' : (chars ts').countP p = 0)
    (hle : ∀ name ∈ names ts, (g name).countP p ≤ (f name).countP p)
    (h : (fill f ts).countP p = (fill g ts').countP p) :
    (chars ts).countP p = 0 ∧ ∀ name ∈ names ts, (g name).countP p = (f name).countP p := by
  rw [countP_fill, countP_fill, hts', Nat.zero_add, ← hnames] at h
  exact eq_of_sum_le hle h

end Fill

/-! ## Scanning -/

section Scan

variable (mark : Char) (isWord : Char → Bool)

/-- the token of a mark and the word after it -/
def close : Text → List Token
  | [] => [.char mark]
  | name => [.param name]

/-- the tokens of a text, after a mark and the part of a word or after neither -/
def scan : Option Text → Text → List Token
  | none, [] => []
  | none, c :: cs => if c = mark then scan (some []) cs else .char c :: scan none cs
  | some name, [] => close mark name
  | some name, c :: cs =>
    if isWord c then scan (some (name ++ [c])) cs
    else close mark name ++ if c = mark then scan (some []) cs else .char c :: scan none cs

variable {mark isWord}

theorem source_close (name : Text) : source mark (close mark name) = mark :: name := by
  cases name with
  | nil => rfl
  | cons c cs => simp [close]

/-- **The tokens** of a text are the text. -/
theorem source_scan (pending : Option Text) (s : Text) :
    source mark (scan mark isWord pending s) = pending.elim [] (mark :: ·) ++ s := by
  induction s generalizing pending with
  | nil =>
    cases pending with
    | none => rfl
    | some name => rw [scan, source_close, List.append_nil, Option.elim_some]
  | cons c cs ih =>
    have hnext : source mark (if c = mark then scan mark isWord (some []) cs else .char c :: scan mark isWord none cs) =
        c :: cs := by
      split
      · rename_i hc
        rw [ih, hc]
        rfl
      · rw [source_char, ih]
        rfl
    cases pending with
    | none => exact hnext
    | some name =>
      rw [scan]
      split
      · rw [ih]
        simp
      · rw [source_append, source_close, hnext]
        rfl

theorem scan_cons_of_ne {c : Char} (hc : c ≠ mark) (cs : Text) :
    scan mark isWord none (c :: cs) = .char c :: scan mark isWord none cs := if_neg hc

/-- a character that is neither the mark nor part of a word ends a parameter -/
theorem scan_append_cons {c : Char} (hc : c ≠ mark) (hword : isWord c = false) (pending : Option Text) (s rest : Text) :
    scan mark isWord pending (s ++ c :: rest) =
      scan mark isWord pending s ++ .char c :: scan mark isWord none rest := by
  induction s generalizing pending with
  | nil =>
    cases pending with
    | none => exact scan_cons_of_ne hc rest
    | some name => simp [scan, hword, hc]
  | cons d ds ih =>
    cases pending with
    | none =>
      rw [List.cons_append, scan, scan]
      split
      · exact ih _
      · rw [ih, List.cons_append]
    | some name =>
      rw [List.cons_append, scan, scan]
      split
      · exact ih _
      · rw [List.append_assoc]
        congr 1
        split
        · exact ih _
        · rw [ih, List.cons_append]

end Scan

end DrasiPlatform.Templates
