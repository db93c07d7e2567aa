/-
Streams that are read by calls: a call answers with an item, with the end or with an error, and leaves a state.

- `Yields next s items`: the calls from `s` answer with the items, one each, and with the end from then on.
- `Ends next s items`: they answer with the items and then once with the end.

`chain next` reads a queue of streams; a stream that answers with the end is dropped and the one behind it is asked in the
same call. `yields_chain`: the queue yields the items of its streams, one stream after the other, and nothing else.
-/
import Mathlib.Tactic

namespace DrasiPlatform.PullStreams

variable {S A E : Type*}

/-- the answer of call number `i` -/
def answer (next : S → Except E (Option A) × S) (s : S) (i : ℕ) : Except E (Option A) :=
  (next ((fun s => (next s).2)^[i] s)).1

def Yields (next : S → Except E (Option A) × S) (s : S) (items : List A) : Prop := ∀ i, answer next s i = .ok items[i]?

inductive Ends (next : S → Except E (Option A) × S) : S → List A → Prop
  | stop {s s' : S} : next s = (.ok none, s') → Ends next s []
  | item {s s' : S} {a : A} {items : List A} : next s = (.ok (some a), s') → Ends next s' items → Ends next s (a :: items)

section Calls

variable {next : S → Except E (Option A) × S} {s s' : S} {a : A} {items : List A}

theorem Yields.head (h : Yields next s items) : (next s).1 = .ok items.head? := (h 0).trans (by rw [List.head?_eq_getElem?])

theorem yields_cons_iff : Yields next s (a :: items) ↔ (next s).1 = .ok (some a) ∧ Yields next (next s).2 items := by
  refine ⟨fun h => ⟨h.head, fun i => h (i + 1)⟩, fun h i => ?_⟩
  cases i with
  | zero => exact h.1
  | succ i => exact h.2 i

/-- a state in which the end is answered for good -/
theorem yields_nil_of_fixed (h : next s = (.ok none, s)) : Yields next s [] := by
  intro i
  have hfixed : (fun s => (next s).2) s = s := congrArg Prod.snd h
  rw [answer, Function.iterate_fixed hfixed, h]
  rfl

/-- what is yielded depends on the state only through the next call -/
theorem Yields.congr (hnext : next s = next s') (h : Yields next s items) : Yields next s' items := by
  intro i
  rw [← h i]
  cases i with
  | zero => exact congrArg Prod.fst hnext.symm
  | succ i =>
    simp only [answer, Function.iterate_succ_apply]
    rw [hnext]

end Calls

/-! ## Queues -/

def chain (next : S → Except E (Option A) × S) : List S → Except E (Option A) × List S
  | [] => (.ok none, [])
  | s :: ss =>
    match next s with
    | (.ok none, _) => chain next ss
    | (answer, s') => (answer, s' :: ss)

section Chain

variable {next : S → Except E (Option A) × S} {s s' : S} {ss : List S} {a : A} {items : List A}

theorem chain_of_none (h : next s = (.ok none, s')) : chain next (s :: ss) = chain next ss := by rw [chain, h]

theorem chain_of_some (h : next s = (.ok (some a), s')) : chain next (s :: ss) = (.ok (some a), s' :: ss) := by rw [chain, h]

theorem chain_of_error {e : E} (h : next s = (.error e, s')) : chain next (s :: ss) = (.error e, s' :: ss) := by rw [chain, h]

theorem yields_chain_nil : Yields (chain next) [] [] := yields_nil_of_fixed rfl

theorem Ends.yields_chain {more : List A} (hs : Ends next s items) (hss : Yields (chain next) ss more) :
    Yields (chain next) (s :: ss) (items ++ more) := by
  induction hs with
  | stop h => exact hss.congr (chain_of_none h).symm
  | @item s s' a items h _ ih =>
    have hcall : chain next (s :: ss) = (.ok (some a), s' :: ss) := chain_of_some h
    refine yields_cons_iff.2 ⟨by rw [hcall], ?_⟩
    rw [hcall]
    exact ih

theorem ends_of_yields_chain (h : Yields (chain next) (s :: ss) items) :
    ∃ own more, items = own ++ more ∧ Ends next s own ∧ Yields (chain next) ss more := by
  have hhead := h.head
  induction items generalizing s with
  | nil =>
    rcases hcall : next s with ⟨_ | (_ | a), s'⟩
    · rw [chain_of_error hcall] at hhead
      cases hhead
    · exact ⟨[], [], rfl, .stop hcall, h.congr (chain_of_none hcall)⟩
    · rw [chain_of_some hcall] at hhead
      cases hhead
  | cons a items ih =>
    rcases hcall : next s with ⟨_ | (_ | b), s'⟩
    · rw [chain_of_error hcall] at hhead
      cases hhead
    · exact ⟨[], a :: items, rfl, .stop hcall, h.congr (chain_of_none hcall)⟩
    · have htail := (yields_cons_iff.1 h).2
      rw [chain_of_some hcall] at hhead htail
      obtain rfl : b = a := by simpa using hhead
      obtain ⟨own, more, rfl, hown, hmore⟩ := ih htail htail.head
      exact ⟨b :: own, more, rfl, .item hcall hown, hmore⟩

/-- **A queue** yields the items of its streams, one stream after the other. -/
theorem yields_chain :
    Yields (chain next) ss items ↔ ∃ each, List.Forall₂ (Ends next) ss each ∧ items = each.flatten := by
  induction ss generalizing items with
  | nil =>
    refine ⟨fun h => ?_, ?_⟩
    · cases items with
      | nil => exact ⟨[], .nil, rfl⟩
      | cons a items => cases h.head
    · rintro ⟨each, heach, rfl⟩
      cases heach
      exact yields_chain_nil
  | cons s ss ih =>
    refine ⟨fun h => ?_, ?_⟩
    · obtain ⟨own, more, rfl, hown, hmore⟩ := ends_of_yields_chain h
      obtain ⟨each, heach, rfl⟩ := ih.1 hmore
      exact ⟨own :: each, .cons hown heach, rfl⟩
    · rintro ⟨each, heach, rfl⟩
      cases heach with
      | cons hown heach => exact hown.yields_chain (ih.2 ⟨_, heach, rfl⟩)

end Chain

end DrasiPlatform.PullStreams
