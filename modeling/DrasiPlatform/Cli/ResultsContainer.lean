/-
The result set of `drasi watch`: `results_container.go` and `applyChanges` of `query_results.go`.

The container keeps the rows in a slice with holes, and a map from the hash of a row to the slot that holds it. A change
message adds its added rows, then replaces the rows of its updates, then clears the slots of its deleted rows, and the
rows that are left are shown in the table. A hash that is not in the map is looked up as slot zero, and an update without
a row before it is looked up under the hash of the empty map.

- `Op.apply_keeps`: an operation of a message that is safe in the container takes exactly its removed row out of the slice
  and puts exactly its inserted row in, keeps the slots of all other rows, and keeps the map in step with the slice.
- `not_safe_breaks`: an operation on a row that is shown, or an update without one, loses a row or its slot when it is not
  safe.
- `watch_shows_result_set`: in every run whose messages are safe, the container shows the result set after each message.
- `render_isSome`: rows that all have the same columns are shown without an index out of range.
Witness: `second_group_overwrites`, two aggregation groups whose first values come without a row before them;
`one_row_is_shown`, a row that is added, updated and deleted.
-/
import Mathlib.Tactic
import Mathlib.Data.List.ReduceOption
import DrasiPlatform.Core.Run

namespace DrasiPlatform.Cli

open Run

variable {Row Hash : Type}

/-! ## The container -/

/-- `resultKeys map[[32]byte]int` and `results []map[string]interface{}`, where `none` is `nil` -/
structure ResultContainer (Row Hash : Type) where
  resultKeys : Hash → Option ℕ
  results : List (Option Row)

/-- the rows that `Iter` yields and `applyChanges` does not skip -/
def ResultContainer.rows (m : ResultContainer Row Hash) : List Row := m.results.reduceOption

structure UpdatedResult (Row : Type) where
  before : Option Row
  after : Row

structure ChangeMsg (Row : Type) where
  addedResults : List Row
  updatedResults : List (UpdatedResult Row)
  deletedResults : List Row

namespace ResultContainer

variable [DecidableEq Hash] (hash : Row → Hash) (emptyRow : Row)

/-- `hash`, which walks the keys of a map: `nil` has none, as the empty map -/
def hashOf (data : Option Row) : Hash := hash (data.getD emptyRow)

/-- `m.resultKeys[key]`: zero when the key is absent -/
def slot (m : ResultContainer Row Hash) (key : Hash) : ℕ := (m.resultKeys key).getD 0

/-- `m.results[idx] = value`, which panics out of range -/
def write (results : List (Option Row)) (idx : ℕ) (value : Option Row) : Option (List (Option Row)) :=
  if idx < results.length then some (results.set idx value) else none

def add (m : ResultContainer Row Hash) (result : Row) : ResultContainer Row Hash :=
  let key := hash result
  let results := m.results ++ [some result]
  ⟨Function.update m.resultKeys key (some (results.length - 1)), results⟩

def delete (m : ResultContainer Row Hash) (result : Row) : Option (ResultContainer Row Hash) := do
  let key := hash result
  let idx := m.slot key
  let results ← write m.results idx none
  return ⟨Function.update m.resultKeys key none, results⟩

def update (m : ResultContainer Row Hash) (update : UpdatedResult Row) : Option (ResultContainer Row Hash) := do
  let beforeKey := hashOf hash emptyRow update.before
  let afterKey := hash update.after
  let idx := m.slot beforeKey
  let resultKeys := Function.update m.resultKeys beforeKey none
  let results ← write m.results idx (some update.after)
  return ⟨Function.update resultKeys afterKey (some idx), results⟩

end ResultContainer

/-! ## `applyChanges` -/

/-- how `range` walks each row of the slice: the columns and their texts, in any order -/
abbrev Walk (Row : Type) := ℕ → Row → List (String × String)

structure QueryResults (Row Hash : Type) where
  results : ResultContainer Row Hash
  /-- the column names, each at its index -/
  headers : List String
  /-- the rows of the table: `none` when showing them has panicked -/
  table : Option (List (List String))

def newQueryResults : QueryResults Row Hash := ⟨⟨fun _ => none, List.replicate 100 none⟩, [], some []⟩

/-- the cells of one row; an unknown column gets the next index, and `row[colIdx]` panics out of range -/
def showCells : List String → List String → List (String × String) → Option (List String × List String)
  | headers, row, [] => some (headers, row)
  | headers, row, (k, v) :: cells =>
    let colIdx := headers.idxOf k
    let headers := if k ∈ headers then headers else headers ++ [k]
    if colIdx < row.length then showCells headers (row.set colIdx v) cells else none

/-- the rows of the table, from slot `i` on -/
def render (walk : Walk Row) : List String → ℕ → List (Option Row) → Option (List String × List (List String))
  | headers, _, [] => some (headers, [])
  | headers, i, none :: results => render walk headers (i + 1) results
  | headers, i, some result :: results => do
    let cells := walk i result
    let (headers, row) ← showCells headers (List.replicate cells.length "") cells
    let (headers, rows) ← render walk headers (i + 1) results
    return (headers, row :: rows)

section ApplyChanges

variable [DecidableEq Hash] (hash : Row → Hash) (emptyRow : Row)

/-- the three loops of `applyChanges` over the container -/
def changeResults (m : ResultContainer Row Hash) (chg : ChangeMsg Row) : Option (ResultContainer Row Hash) := do
  let m := chg.addedResults.foldl (ResultContainer.add hash) m
  let m ← chg.updatedResults.foldlM (ResultContainer.update hash emptyRow) m
  chg.deletedResults.foldlM (ResultContainer.delete hash) m

/-- the container is changed first: showing it can panic, and leaves it changed -/
def applyChanges (m : QueryResults Row Hash) (walk : Walk Row) (chg : ChangeMsg Row) : Option (QueryResults Row Hash) := do
  let results ← changeResults hash emptyRow m.results chg
  match render walk m.headers 0 results.results with
  | some (headers, rows) => return ⟨results, headers, some rows⟩
  | none => return ⟨results, m.headers, none⟩

end ApplyChanges

/-! ## Operations -/

/-- what one message does to the container, row by row -/
inductive Op (Row : Type) where
  | add (result : Row)
  | update (update : UpdatedResult Row)
  | delete (result : Row)

/-- the row of a slot -/
def held (value : Option Row) : Multiset Row := value.toList

namespace Op

def removed : Op Row → Multiset Row
  | .add _ => 0
  | .update u => held u.before
  | .delete result => {result}

def inserted : Op Row → Multiset Row
  | .add result => {result}
  | .update u => {u.after}
  | .delete _ => 0

variable [DecidableEq Hash] (hash : Row → Hash) (emptyRow : Row)

def apply (m : ResultContainer Row Hash) : Op Row → Option (ResultContainer Row Hash)
  | .add result => some (m.add hash result)
  | .update u => m.update hash emptyRow u
  | .delete result => m.delete hash result

/-- the row to be removed is shown once, or is put back as it was; an update without one finds its slot free -/
def Safe [DecidableEq Row] (m : ResultContainer Row Hash) : Op Row → Prop
  | .add _ => True
  | .update ⟨none, _⟩ => m.results[m.slot (ResultContainer.hashOf hash emptyRow none)]? = some none
  | .update ⟨some before, after⟩ => m.rows.count before = 1 ∨ (before = after ∧ before ∈ m.rows)
  | .delete result => m.rows.count result = 1

end Op

/-- the operations of a message, in the order of `applyChanges` -/
def ChangeMsg.ops (chg : ChangeMsg Row) : List (Op Row) :=
  chg.addedResults.map .add ++ chg.updatedResults.map .update ++ chg.deletedResults.map .delete

def ChangeMsg.removed (chg : ChangeMsg Row) : Multiset Row := (chg.ops.map Op.removed).sum

def ChangeMsg.inserted (chg : ChangeMsg Row) : Multiset Row := (chg.ops.map Op.inserted).sum

section Ops

variable {hash : Row → Hash} {emptyRow : Row}

theorem foldlM_some {α β : Type} (f : β → α → β) (b : β) (l : List α) :
    l.foldlM (fun b a => some (f b a)) b = some (l.foldl f b) := by
  induction l generalizing b with
  | nil => rfl
  | cons a l ih => exact ih (f b a)

theorem changeResults_eq [DecidableEq Hash] (m : ResultContainer Row Hash) (chg : ChangeMsg Row) :
    changeResults hash emptyRow m chg = chg.ops.foldlM (Op.apply hash emptyRow) m := by
  simp only [changeResults, ChangeMsg.ops, List.foldlM_append, List.foldlM_map, bind_assoc]
  rw [show (fun m a => Op.apply hash emptyRow m (.add a)) = fun m a => some (ResultContainer.add hash m a) from rfl,
    foldlM_some]
  rfl

/-! ## Slots and rows -/

/-- what `m'` is after rows of `m` have been removed and inserted: all other rows stay in their slots -/
structure Effect (removed inserted : Multiset Row) (m m' : ResultContainer Row Hash) : Prop where
  rows : (m'.rows : Multiset Row) + removed = m.rows + inserted
  others : ∀ (i : ℕ) row, m.results[i]? = some (some row) → row ∉ removed → m'.results[i]? = some (some row)

theorem Effect.refl (m : ResultContainer Row Hash) : Effect 0 0 m m := ⟨rfl, fun _ _ h _ => h⟩

theorem Effect.trans {r₁ i₁ r₂ i₂ : Multiset Row} {m₁ m₂ m₃ : ResultContainer Row Hash} (h₁ : Effect r₁ i₁ m₁ m₂)
    (h₂ : Effect r₂ i₂ m₂ m₃) : Effect (r₁ + r₂) (i₁ + i₂) m₁ m₃ where
  rows := by
    calc (m₃.rows : Multiset Row) + (r₁ + r₂) = m₃.rows + r₂ + r₁ := by abel
      _ = m₂.rows + r₁ + i₂ := by rw [h₂.rows]; abel
      _ = m₁.rows + (i₁ + i₂) := by rw [h₁.rows]; abel
  others i row hrow hr := by
    rw [Multiset.mem_add, not_or] at hr
    exact h₂.others i row (h₁.others i row hrow hr.1) hr.2

/-- the map is in step with the slice: each key leads to its row, and each row has its key -/
structure Consistent (hash : Row → Hash) (m : ResultContainer Row Hash) : Prop where
  accurate : ∀ key (i : ℕ), m.resultKeys key = some i → ∃ row, m.results[i]? = some (some row) ∧ hash row = key
  indexed : ∀ row ∈ m.rows, ∃ i : ℕ, m.resultKeys (hash row) = some i ∧ m.results[i]? = some (some row)

theorem mem_rows {m : ResultContainer Row Hash} {row : Row} : row ∈ m.rows ↔ ∃ i : ℕ, m.results[i]? = some (some row) := by
  rw [ResultContainer.rows, List.reduceOption_mem_iff, List.mem_iff_getElem?]

theorem reduceOption_cons (value : Option Row) (results : List (Option Row)) :
    ((value :: results).reduceOption : Multiset Row) = held value + results.reduceOption := by
  cases value with
  | none => simp [held, List.reduceOption_cons_of_none]
  | some row => simp [held, List.reduceOption_cons_of_some]

/-- writing a slot takes out the row it held and puts in the new one -/
theorem reduceOption_set {results : List (Option Row)} {i : ℕ} {old : Option Row} (h : results[i]? = some old)
    (new : Option Row) :
    ((results.set i new).reduceOption : Multiset Row) + held old = results.reduceOption + held new := by
  obtain ⟨hi, rfl⟩ := List.getElem?_eq_some_iff.1 h
  have hset : ((results.set i new).reduceOption : Multiset Row) = held new + (results.eraseIdx i).reduceOption := by
    rw [← reduceOption_cons]
    exact Multiset.coe_eq_coe.2 ((List.set_perm_cons_eraseIdx hi new).filterMap id)
  have herase : (results.reduceOption : Multiset Row) = held results[i] + (results.eraseIdx i).reduceOption := by
    rw [← reduceOption_cons]
    exact Multiset.coe_eq_coe.2 ((List.getElem_cons_eraseIdx_perm hi).symm.filterMap id)
  rw [hset, herase]
  abel

theorem write_eq {results : List (Option Row)} {i : ℕ} {old : Option Row} (h : results[i]? = some old)
    (new : Option Row) : ResultContainer.write results i new = some (results.set i new) := by
  obtain ⟨hi, -⟩ := List.getElem?_eq_some_iff.1 h
  exact if_pos hi

/-- writing a slot touches no row that it does not hold -/
theorem write_effect {m : ResultContainer Row Hash} {i : ℕ} {old : Option Row} (h : m.results[i]? = some old)
    (new : Option Row) (keys : Hash → Option ℕ) : Effect (held old) (held new) m ⟨keys, m.results.set i new⟩ where
  rows := reduceOption_set h new
  others j row hrow hold := by
    have hne : i ≠ j := by
      rintro rfl
      cases h.symm.trans hrow
      exact hold (by simp [held])
    rwa [List.getElem?_set_ne hne]

/-! ## What one operation keeps -/

theorem Consistent.key_of_slot [DecidableEq Row] {m : ResultContainer Row Hash} (h : Consistent hash m) {row : Row} {i : ℕ}
    (hcount : m.rows.count row ≤ 1) (hi : m.results[i]? = some (some row)) : m.resultKeys (hash row) = some i := by
  obtain ⟨j, hj, hrow⟩ := h.indexed row (mem_rows.2 ⟨i, hi⟩)
  by_cases hij : i = j
  · rw [hij, hj]
  · -- two slots that hold the row make it occur twice
    have heff := write_effect hi none m.resultKeys
    have hleft : row ∈ (m.results.set i none).reduceOption :=
      List.reduceOption_mem_iff.2 (List.mem_iff_getElem?.2 ⟨j, by rwa [List.getElem?_set_ne hij]⟩)
    have htwo := congrArg (Multiset.count row) heff.rows
    have hpos : 0 < (m.results.set i none).reduceOption.count row := List.count_pos_iff.2 hleft
    simp only [held, Multiset.count_add, Multiset.coe_count, ResultContainer.rows, Option.toList_some, Option.toList_none,
      List.count_singleton_self, List.count_nil] at htwo hcount
    omega

/-- writing a slot keeps the map in step, when the map forgets the old row, which occurs once, and learns the new one -/
theorem Consistent.write [DecidableEq Row] (hinj : Function.Injective hash) {m : ResultContainer Row Hash} (h : Consistent hash m) {i : ℕ}
    {old new : Option Row} (hi : m.results[i]? = some old) {keys : Hash → Option ℕ}
    (hother : ∀ key, (∀ row ∈ old, hash row ≠ key) → (∀ row ∈ new, hash row ≠ key) → keys key = m.resultKeys key)
    (hnew : ∀ row ∈ new, keys (hash row) = some i)
    (hold : ∀ row ∈ old, new ≠ some row → keys (hash row) = none ∧ m.rows.count row = 1) :
    Consistent hash ⟨keys, m.results.set i new⟩ := by
  obtain ⟨hlt, -⟩ := List.getElem?_eq_some_iff.1 hi
  have hself : (m.results.set i new)[i]? = some new := List.getElem?_set_self hlt
  constructor
  · intro key j hkey
    by_cases hn : ∃ row ∈ new, hash row = key
    · obtain ⟨row, rfl, rfl⟩ := hn
      cases (hnew row rfl).symm.trans hkey
      exact ⟨row, hself, rfl⟩
    · by_cases ho : ∃ row ∈ old, hash row = key
      · obtain ⟨row, rfl, rfl⟩ := ho
        have hne : new ≠ some row := fun heq => hn ⟨row, heq, rfl⟩
        cases (hold row rfl hne).1.symm.trans hkey
      · push Not at hn ho
        obtain ⟨row, hrow, rfl⟩ := h.accurate key j ((hother key ho hn).symm.trans hkey)
        have hij : i ≠ j := by
          rintro rfl
          exact ho row (Option.some.inj (hi.symm.trans hrow)) rfl
        exact ⟨row, by rwa [List.getElem?_set_ne hij], rfl⟩
  · intro row hrow
    by_cases hn : new = some row
    · exact ⟨i, hnew row hn, hn ▸ hself⟩
    · obtain ⟨j, hj⟩ := mem_rows.1 hrow
      have hij : i ≠ j := by
        rintro rfl
        exact hn (Option.some.inj (hself.symm.trans hj))
      have hj' : m.results[j]? = some (some row) := by rwa [List.getElem?_set_ne hij] at hj
      have ho : old ≠ some row := by
        rintro rfl
        -- the row would be in the slots `i` and `j`
        have hcount := (hold row rfl hn).2.le
        cases (h.key_of_slot hcount hi).symm.trans (h.key_of_slot hcount hj')
        exact hij rfl
      obtain ⟨l, hl, hrowl⟩ := h.indexed row (mem_rows.2 ⟨j, hj'⟩)
      have hil : i ≠ l := by
        rintro rfl
        exact ho (Option.some.inj (hi.symm.trans hrowl))
      refine ⟨l, (hother (hash row) ?_ ?_).trans hl, by rwa [List.getElem?_set_ne hil]⟩
      · rintro row' rfl heq
        exact ho (congrArg some (hinj heq))
      · rintro row' rfl heq
        exact hn (congrArg some (hinj heq))

theorem Consistent.add [DecidableEq Hash] (hinj : Function.Injective hash) {m : ResultContainer Row Hash} (h : Consistent hash m)
    (result : Row) : Consistent hash (m.add hash result) := by
  have hlast : (m.results ++ [some result])[m.results.length]? = some (some result) := by simp
  have hbefore : ∀ (i : ℕ) row, m.results[i]? = some (some row) →
      (m.results ++ [some result])[i]? = some (some row) := by
    intro i row hrow
    obtain ⟨hi, -⟩ := List.getElem?_eq_some_iff.1 hrow
    rwa [List.getElem?_append_left hi]
  constructor
  · intro key i hkey
    simp only [ResultContainer.add, Function.update_apply, List.length_append, List.length_singleton] at hkey ⊢
    split at hkey
    · rename_i heq
      cases hkey
      exact ⟨result, hlast, heq.symm⟩
    · obtain ⟨row, hrow, hhash⟩ := h.accurate key i hkey
      exact ⟨row, hbefore i row hrow, hhash⟩
  · intro row hrow
    by_cases heq : row = result
    · subst heq
      exact ⟨m.results.length, by simp [ResultContainer.add], hlast⟩
    · have hrow' : row ∈ m.rows := by
        simpa [ResultContainer.rows, ResultContainer.add, List.reduceOption_append, heq] using hrow
      obtain ⟨i, hi, hslot⟩ := h.indexed row hrow'
      refine ⟨i, ?_, hbefore i row hslot⟩
      have hne : hash row ≠ hash result := fun hh => heq (hinj hh)
      simp [ResultContainer.add, hne, hi]

theorem add_effect [DecidableEq Hash] (m : ResultContainer Row Hash) (result : Row) :
    Effect 0 {result} m (m.add hash result) where
  rows := by
    have hrows : (m.add hash result).rows = m.rows ++ [result] := by
      simp [ResultContainer.rows, ResultContainer.add, List.reduceOption_append]
    rw [hrows, ← Multiset.coe_add, add_zero]
    rfl
  others i row hrow _ := by
    obtain ⟨hi, -⟩ := List.getElem?_eq_some_iff.1 hrow
    simpa [ResultContainer.add, List.getElem?_append_left hi] using hrow

variable [DecidableEq Hash]

theorem delete_eq {m : ResultContainer Row Hash} {result : Row} {i : ℕ} (hi : m.resultKeys (hash result) = some i)
    (hslot : m.results[i]? = some (some result)) :
    m.delete hash result = some ⟨Function.update m.resultKeys (hash result) none, m.results.set i none⟩ := by
  have hidx : m.slot (hash result) = i := by simp [ResultContainer.slot, hi]
  simp [ResultContainer.delete, hidx, write_eq hslot]

theorem update_eq {m : ResultContainer Row Hash} {u : UpdatedResult Row} {old : Option Row}
    (hslot : m.results[m.slot (ResultContainer.hashOf hash emptyRow u.before)]? = some old) :
    m.update hash emptyRow u =
      some ⟨Function.update (Function.update m.resultKeys (ResultContainer.hashOf hash emptyRow u.before) none)
          (hash u.after) (some (m.slot (ResultContainer.hashOf hash emptyRow u.before))),
        m.results.set (m.slot (ResultContainer.hashOf hash emptyRow u.before)) (some u.after)⟩ := by
  simp [ResultContainer.update, write_eq hslot]

variable [DecidableEq Row]

theorem Consistent.delete (hinj : Function.Injective hash) {m : ResultContainer Row Hash} (h : Consistent hash m)
    {result : Row} (hcount : m.rows.count result = 1) :
    ∃ m', m.delete hash result = some m' ∧ Consistent hash m' ∧ Effect {result} 0 m m' := by
  obtain ⟨i, hi, hslot⟩ := h.indexed result (List.count_pos_iff.1 (by omega))
  refine ⟨_, delete_eq hi hslot, h.write hinj hslot ?_ ?_ ?_, write_effect hslot none _⟩
  · intro key hkey _
    exact Function.update_of_ne (hkey result rfl).symm _ _
  · intro row hrow
    cases hrow
  · rintro row ⟨⟩ -
    exact ⟨Function.update_self _ _ _, hcount⟩

/-- an update without a row before it takes a slot that is free -/
theorem Consistent.update_none (hinj : Function.Injective hash) {m : ResultContainer Row Hash} (h : Consistent hash m)
    {after : Row} (hfree : m.results[m.slot (ResultContainer.hashOf hash emptyRow none)]? = some none) :
    ∃ m', m.update hash emptyRow ⟨none, after⟩ = some m' ∧ Consistent hash m' ∧ Effect 0 {after} m m' := by
  refine ⟨_, update_eq hfree, h.write hinj hfree ?_ ?_ ?_, write_effect hfree (some after) _⟩
  · intro key _ hkey
    rw [Function.update_of_ne (hkey after rfl).symm, Function.update_apply]
    split
    · -- the hash of no row is not in the map, as it would lead to a row in the free slot
      rename_i heq
      cases hnone : m.resultKeys key with
      | none => rfl
      | some i =>
        obtain ⟨row, hrow, -⟩ := h.accurate key i hnone
        rw [← heq, ResultContainer.slot, hnone, Option.getD_some, hrow] at hfree
        cases hfree
    · rfl
  · rintro row ⟨⟩
    exact Function.update_self _ _ _
  · intro row hrow
    cases hrow

theorem Consistent.update_some (hinj : Function.Injective hash) {m : ResultContainer Row Hash} (h : Consistent hash m)
    {before after : Row} (hsafe : m.rows.count before = 1 ∨ (before = after ∧ before ∈ m.rows)) :
    ∃ m', m.update hash emptyRow ⟨some before, after⟩ = some m' ∧ Consistent hash m' ∧
      Effect {before} {after} m m' := by
  have hmem : before ∈ m.rows := by
    obtain hcount | ⟨-, hmem⟩ := hsafe
    · exact List.count_pos_iff.1 (by omega)
    · exact hmem
  obtain ⟨i, hi, hslot⟩ := h.indexed before hmem
  have hidx : m.slot (ResultContainer.hashOf hash emptyRow (some before)) = i := by
    simp [ResultContainer.slot, ResultContainer.hashOf, hi]
  have hslot' : m.results[m.slot (ResultContainer.hashOf hash emptyRow (some before))]? = some (some before) := by
    rwa [hidx]
  refine ⟨_, update_eq hslot', h.write hinj hslot' ?_ ?_ ?_, write_effect hslot' (some after) _⟩
  · intro key hold hnew
    rw [Function.update_of_ne (hnew after rfl).symm]
    exact Function.update_of_ne (hold before rfl).symm _ _
  · rintro row ⟨⟩
    exact Function.update_self _ _ _
  · rintro row ⟨⟩ hne
    have hba : before ≠ after := fun heq => hne (congrArg some heq.symm)
    refine ⟨?_, ?_⟩
    · rw [Function.update_of_ne (fun heq => hba (hinj heq))]
      exact Function.update_self _ _ _
    · exact hsafe.resolve_right fun hsame => hba hsame.1

/-- **A safe operation.** It returns, keeps the map in step with the slice, and changes its own rows only. -/
theorem Op.apply_keeps (hinj : Function.Injective hash) {m : ResultContainer Row Hash} (h : Consistent hash m)
    (o : Op Row) (hs : o.Safe hash emptyRow m) :
    ∃ m', o.apply hash emptyRow m = some m' ∧ Consistent hash m' ∧ Effect o.removed o.inserted m m' := by
  cases o with
  | add result => exact ⟨_, rfl, h.add hinj result, add_effect m result⟩
  | update u =>
    obtain ⟨before, after⟩ := u
    cases before with
    | none => exact h.update_none hinj hs
    | some before => exact h.update_some hinj hs
  | delete result => exact h.delete hinj hs

/-! ## What the container shows -/

variable (hash) in
/-- the rows are those of the result set, and the map leads from each to a slot that holds it -/
structure Shows (m : ResultContainer Row Hash) (resultSet : Multiset Row) : Prop where
  rows : (m.rows : Multiset Row) = resultSet
  keys : ∀ row ∈ resultSet, ∃ i : ℕ, m.resultKeys (hash row) = some i ∧ m.results[i]? = some (some row)

omit [DecidableEq Hash] [DecidableEq Row] in
theorem Consistent.shows {m : ResultContainer Row Hash} (h : Consistent hash m) : Shows hash m m.rows :=
  ⟨rfl, h.indexed⟩

/-- **Safety is needed.** An operation that removes no other rows than shown ones does what it should only if it is
safe. -/
theorem not_safe_breaks (hinj : Function.Injective hash) {m m' : ResultContainer Row Hash} (h : Consistent hash m)
    {o : Op Row} (hshown : ∀ row ∈ o.removed, row ∈ m.rows) (hs : ¬o.Safe hash emptyRow m)
    (happly : o.apply hash emptyRow m = some m') : ¬Shows hash m' (m.rows + o.inserted - o.removed) := by
  intro hshows
  cases o with
  | add result => exact hs trivial
  | delete result =>
    have hmem : result ∈ m.rows := hshown result (Multiset.mem_singleton_self result)
    obtain ⟨i, hi, hslot⟩ := h.indexed result hmem
    cases (delete_eq hi hslot).symm.trans happly
    -- another copy of the row is left, and its hash is forgotten
    have hleft : result ∈ (m.rows : Multiset Row) + Op.inserted (.delete result) - Op.removed (.delete result) := by
      have hpos : 0 < m.rows.count result := List.count_pos_iff.2 hmem
      have hne : m.rows.count result ≠ 1 := hs
      rw [← Multiset.count_pos]
      simp only [Op.inserted, Op.removed, add_zero, Multiset.count_sub, Multiset.coe_count, Multiset.count_singleton_self]
      omega
    obtain ⟨j, hj, -⟩ := hshows.keys result hleft
    simp at hj
  | update u =>
    obtain ⟨before, after⟩ := u
    cases before with
    | none =>
      have hrows := congrArg Multiset.card hshows.rows
      simp only [Op.apply, ResultContainer.update, ResultContainer.write] at happly
      split at happly
      · rename_i hlt
        cases happly
        cases hold : m.results[m.slot (ResultContainer.hashOf hash emptyRow none)]? with
        | none => exact absurd (List.getElem?_eq_none_iff.1 hold) (by omega)
        | some old =>
          cases old with
          | none => exact hs hold
          | some row =>
            -- a row is overwritten, so that one row is missing
            have hset := congrArg Multiset.card (write_effect hold (some after) m.resultKeys).rows
            simp [held, Op.inserted, Op.removed, ResultContainer.rows] at hset hrows
            omega
      · cases happly
    | some before =>
      have hmem : before ∈ m.rows := hshown before (by simp [Op.removed, held])
      have hne : m.rows.count before ≠ 1 ∧ before ≠ after := by
        constructor
        · exact fun hcount => hs (Or.inl hcount)
        · exact fun heq => hs (Or.inr ⟨heq, hmem⟩)
      obtain ⟨i, hi, hslot⟩ := h.indexed before hmem
      have hidx : m.slot (ResultContainer.hashOf hash emptyRow (some before)) = i := by
        simp [ResultContainer.slot, ResultContainer.hashOf, hi]
      have hheld : m.results[m.slot (ResultContainer.hashOf hash emptyRow (some before))]? = some (some before) := by
        rwa [hidx]
      cases (update_eq (u := ⟨some before, after⟩) hheld).symm.trans happly
      have hleft : before ∈ (m.rows : Multiset Row) + Op.inserted (.update ⟨some before, after⟩) -
          Op.removed (.update ⟨some before, after⟩) := by
        have hpos : 0 < m.rows.count before := List.count_pos_iff.2 hmem
        rw [← Multiset.count_pos]
        simp only [Op.inserted, Op.removed, held, Option.toList_some, Multiset.coe_singleton, Multiset.count_sub,
          Multiset.count_add, Multiset.coe_count, Multiset.count_singleton_self]
        omega
      obtain ⟨j, hj, -⟩ := hshows.keys before hleft
      have hhash : hash before ≠ hash after := fun heq => hne.2 (hinj heq)
      simp [Function.update_of_ne hhash, ResultContainer.hashOf] at hj

/-! ## A message -/

variable (hash emptyRow) in
/-- every operation is safe in the container it comes to -/
def SafeOps : ResultContainer Row Hash → List (Op Row) → Prop
  | _, [] => True
  | m, o :: ops => o.Safe hash emptyRow m ∧ ∀ m', o.apply hash emptyRow m = some m' → SafeOps m' ops

theorem SafeOps.keeps (hinj : Function.Injective hash) {ops : List (Op Row)} {m : ResultContainer Row Hash}
    (hs : SafeOps hash emptyRow m ops) (h : Consistent hash m) :
    ∃ m', ops.foldlM (Op.apply hash emptyRow) m = some m' ∧ Consistent hash m' ∧
      Effect (ops.map Op.removed).sum (ops.map Op.inserted).sum m m' := by
  induction ops generalizing m with
  | nil => exact ⟨m, rfl, h, Effect.refl m⟩
  | cons o ops ih =>
    obtain ⟨m₁, happly, h₁, heff₁⟩ := o.apply_keeps hinj h hs.1
    obtain ⟨m₂, hfold, h₂, heff₂⟩ := ih (hs.2 m₁ happly) h₁
    refine ⟨m₂, ?_, h₂, ?_⟩
    · rw [List.foldlM_cons, happly]
      exact hfold
    · simpa using heff₁.trans heff₂

omit [DecidableEq Row] in
theorem applyChanges_results {q : QueryResults Row Hash} {chg : ChangeMsg Row} {m : ResultContainer Row Hash}
    (hm : changeResults hash emptyRow q.results chg = some m) (walk : Walk Row) :
    ∃ q', applyChanges hash emptyRow q walk chg = some q' ∧ q'.results = m := by
  simp only [applyChanges, hm, Option.bind_eq_bind, Option.bind_some]
  split
  · exact ⟨_, rfl, rfl⟩
  · exact ⟨_, rfl, rfl⟩

end Ops

/-! ## Runs -/

/-- the program, `none` once it has panicked, and the result set that it is to show -/
structure Screen (Row Hash : Type) where
  program : Option (QueryResults Row Hash)
  resultSet : Multiset Row

namespace Screen

def start : Screen Row Hash := ⟨some newQueryResults, 0⟩

variable [DecidableEq Hash] [DecidableEq Row] (hash : Row → Hash) (emptyRow : Row)

def change (s : Screen Row Hash) (msg : Walk Row × ChangeMsg Row) : Screen Row Hash :=
  ⟨s.program.bind fun q => applyChanges hash emptyRow q msg.1 msg.2, s.resultSet + msg.2.inserted - msg.2.removed⟩

/-- the message takes away rows of the result set -/
def Describes (s : Screen Row Hash) (msg : Walk Row × ChangeMsg Row) : Prop := msg.2.removed ≤ s.resultSet

def SafeChange (s : Screen Row Hash) (msg : Walk Row × ChangeMsg Row) : Prop :=
  ∀ q, s.program = some q → SafeOps hash emptyRow q.results msg.2.ops

def ShowsResultSet (s : Screen Row Hash) : Prop := ∃ q, s.program = some q ∧ Shows hash q.results s.resultSet

/-- the rows that the message does not remove stay in their slots -/
def KeepsOthers (s : Screen Row Hash) (msg : Walk Row × ChangeMsg Row) : Prop :=
  ∀ q q', s.program = some q → (s.change hash emptyRow msg).program = some q' →
    ∀ (i : ℕ) row, q.results.results[i]? = some (some row) → row ∉ msg.2.removed →
      q'.results.results[i]? = some (some row)

structure Inv (s : Screen Row Hash) : Prop where
  running : ∃ q, s.program = some q ∧ Consistent hash q.results ∧ (q.results.rows : Multiset Row) = s.resultSet

variable {hash emptyRow}

omit [DecidableEq Hash] [DecidableEq Row] in
theorem start_inv : (start : Screen Row Hash).Inv hash := by
  refine ⟨newQueryResults, rfl, ⟨fun key i (h : none = some i) => (by cases h), ?_⟩, ?_⟩
  · intro row hrow
    rw [ResultContainer.rows, newQueryResults, List.reduceOption_replicate_none] at hrow
    cases hrow
  · exact congrArg _ List.reduceOption_replicate_none

omit [DecidableEq Hash] [DecidableEq Row] in
theorem Inv.showsResultSet {s : Screen Row Hash} (h : s.Inv hash) : s.ShowsResultSet hash := by
  obtain ⟨q, hq, hcons, hrows⟩ := h.running
  exact ⟨q, hq, hrows ▸ hcons.shows⟩

theorem change_keeps (hinj : Function.Injective hash) {s : Screen Row Hash} (h : s.Inv hash)
    {msg : Walk Row × ChangeMsg Row} (hs : s.SafeChange hash emptyRow msg) :
    (s.change hash emptyRow msg).Inv hash ∧ s.KeepsOthers hash emptyRow msg := by
  obtain ⟨q, hq, hcons, hrows⟩ := h.running
  obtain ⟨m', hfold, hcons', heff⟩ := (hs q hq).keeps hinj hcons
  obtain ⟨q', hq', rfl⟩ := applyChanges_results ((changeResults_eq q.results msg.2).trans hfold) msg.1
  have hprogram : (s.change hash emptyRow msg).program = some q' := by simp [change, hq, hq']
  constructor
  · refine ⟨q', hprogram, hcons', ?_⟩
    have hsum : (q'.results.rows : Multiset Row) + msg.2.removed = s.resultSet + msg.2.inserted := hrows ▸ heff.rows
    exact eq_tsub_of_add_eq hsum
  · intro q₁ q₂ h₁ h₂
    cases hq.symm.trans h₁
    cases hprogram.symm.trans h₂
    exact heff.others

variable (emptyRow) in
/-- **The result set is shown.** When every message is safe in the container that it comes to, the container holds after
each message exactly the rows of the result set, the map leads to a slot of each, and no other row is touched. -/
theorem watch_shows_result_set (hinj : Function.Injective hash) (msgs : List (Walk Row × ChangeMsg Row))
    (hsafe : Meets (change hash emptyRow) (SafeChange hash emptyRow) start msgs) :
    Throughout (change hash emptyRow) (ShowsResultSet hash) start msgs ∧
      Meets (change hash emptyRow) (KeepsOthers hash emptyRow) start msgs := by
  constructor
  · have hinv : Throughout (change hash emptyRow) (Inv hash) start msgs :=
      hsafe.throughout (fun s msg h hs => (change_keeps hinj h hs).1) start_inv
    exact hinv.imp fun s h => h.showsResultSet
  · exact hsafe.imp (fun s msg h hs => change_keeps hinj h hs) start_inv

/-- two groups of an aggregation get their first value -/
def firstValues : List (Walk ℕ × ChangeMsg ℕ) :=
  [(fun _ row => [("sum", toString row)], ⟨[], [⟨none, 1⟩], []⟩),
    (fun _ row => [("sum", toString row)], ⟨[], [⟨none, 2⟩], []⟩)]

/-- the second group takes the slot of the first -/
theorem second_group_overwrites :
    Function.Injective (id : ℕ → ℕ) ∧ Meets (change id 0) Describes start firstValues ∧
      ¬Throughout (change id 0) (ShowsResultSet id) start firstValues := by
  refine ⟨Function.injective_id, ?_, ?_⟩
  · simp [firstValues, Meets, Describes, ChangeMsg.removed, ChangeMsg.ops, Op.removed, held]
  · intro h
    obtain ⟨q, hq, hshows⟩ := h.last
    have hresult : (run (change id 0) start firstValues).resultSet = {1, 2} := by decide
    have hrows : (run (change id 0) start firstValues).program.map (·.results.rows) = some [2] := by decide
    rw [hq, Option.map_some, Option.some.injEq] at hrows
    have hcard := congrArg Multiset.card hshows.rows
    rw [hrows, hresult] at hcard
    exact absurd hcard (by decide)

/-- a row is added, updated and deleted -/
def oneRow : List (Walk ℕ × ChangeMsg ℕ) :=
  [(fun _ row => [("n", toString row)], ⟨[1], [], []⟩),
    (fun _ row => [("n", toString row)], ⟨[], [⟨some 1, 2⟩], []⟩),
    (fun _ row => [("n", toString row)], ⟨[], [], [2]⟩)]

theorem one_row_is_shown :
    Throughout (change id 0) (ShowsResultSet id) start oneRow ∧ Meets (change id 0) (KeepsOthers id 0) start oneRow := by
  refine watch_shows_result_set 0 Function.injective_id oneRow ⟨?_, ?_, ?_, trivial⟩
  · rintro q ⟨⟩
    exact ⟨trivial, fun _ _ => trivial⟩
  · rintro q ⟨⟩
    exact ⟨Or.inl (by decide), fun _ _ => trivial⟩
  · rintro q ⟨⟩
    refine ⟨?_, fun _ _ => trivial⟩
    change List.count _ _ = 1
    decide

end Screen

/-! ## The table -/

/-- columns that are all new are appended -/
theorem showCells_new (cells : List (String × String)) (headers row : List String)
    (hnodup : (headers ++ cells.map Prod.fst).Nodup) (hlen : headers.length + cells.length ≤ row.length) :
    ∃ row', showCells headers row cells = some (headers ++ cells.map Prod.fst, row') := by
  induction cells generalizing headers row with
  | nil => exact ⟨row, by simp [showCells]⟩
  | cons cell cells ih =>
    obtain ⟨k, v⟩ := cell
    have hk : k ∉ headers := by
      intro hk
      exact (List.nodup_append.1 hnodup).2.2 k hk k (by simp) rfl
    have hidx : headers.idxOf k = headers.length := List.idxOf_eq_length hk
    have hlt : headers.length < row.length := by
      simp only [List.length_cons] at hlen
      omega
    have hassoc : headers ++ ((k, v) :: cells).map Prod.fst = (headers ++ [k]) ++ cells.map Prod.fst := by simp
    rw [hassoc] at hnodup ⊢
    have hlen' : (headers ++ [k]).length + cells.length ≤ (row.set headers.length v).length := by
      simp only [List.length_cons, List.length_append, List.length_nil, List.length_set] at hlen ⊢
      omega
    obtain ⟨row', hrow'⟩ := ih (headers ++ [k]) _ hnodup hlen'
    exact ⟨row', by simp [showCells, hk, hlt, hrow']⟩

/-- columns that are all known stay at their indices -/
theorem showCells_known (cells : List (String × String)) {headers : List String} (row : List String)
    (hknown : ∀ cell ∈ cells, cell.1 ∈ headers) (hlen : headers.length ≤ row.length) :
    ∃ row', showCells headers row cells = some (headers, row') := by
  induction cells generalizing row with
  | nil => exact ⟨row, rfl⟩
  | cons cell cells ih =>
    obtain ⟨k, v⟩ := cell
    have hk : k ∈ headers := hknown (k, v) List.mem_cons_self
    have hlt : headers.idxOf k < row.length := (List.idxOf_lt_length_of_mem hk).trans_le hlen
    obtain ⟨row', hrow'⟩ := ih (row.set (headers.idxOf k) v)
      (fun cell hcell => hknown cell (List.mem_cons_of_mem _ hcell)) (by simpa using hlen)
    exact ⟨row', by simp [showCells, hk, hlt, hrow']⟩

/-- **Rows of the same columns are shown.** The table then has one row for each row of the container. -/
theorem render_isSome {walk : Walk Row} {columns : List String} (hcolumns : columns.Nodup)
    (results : List (Option Row)) {i : ℕ} {headers : List String} (hheaders : headers = [] ∨ headers.Perm columns)
    (hwalk : ∀ j, ∀ row ∈ results.reduceOption, ((walk j row).map Prod.fst).Perm columns) :
    ∃ headers' rows, render walk headers i results = some (headers', rows) ∧
      rows.length = results.reduceOption.length := by
  induction results generalizing i headers with
  | nil => exact ⟨headers, [], rfl, rfl⟩
  | cons value results ih =>
    cases value with
    | none =>
      obtain ⟨headers', rows, hrender, hlen⟩ := ih (i := i + 1) hheaders (fun j row hrow => hwalk j row hrow)
      exact ⟨headers', rows, hrender, hlen⟩
    | some row =>
      have hperm : ((walk i row).map Prod.fst).Perm columns := hwalk i row (by simp [List.reduceOption])
      have hcells : ∃ headers' row', showCells headers (List.replicate (walk i row).length "") (walk i row) =
          some (headers', row') ∧ headers'.Perm columns := by
        obtain rfl | hknown := hheaders
        · obtain ⟨row', hrow'⟩ := showCells_new _ [] (List.replicate (walk i row).length "")
            (hperm.nodup_iff.2 hcolumns) (by simp)
          exact ⟨_, row', hrow', hperm⟩
        · have hlen : headers.length ≤ (List.replicate (walk i row).length "").length := by
            have heq := hknown.length_eq.trans hperm.length_eq.symm
            simp only [List.length_map] at heq
            simp [heq]
          obtain ⟨row', hrow'⟩ := showCells_known (walk i row) _
            (fun cell hcell => (hperm.trans hknown.symm).subset (List.mem_map_of_mem hcell)) hlen
          exact ⟨headers, row', hrow', hknown⟩
      obtain ⟨headers₁, row', hshow, hperm₁⟩ := hcells
      obtain ⟨headers₂, rows, hrender, hlen⟩ := ih (i := i + 1) (Or.inr hperm₁)
        (fun j row hrow => hwalk j row (by simp [List.reduceOption] at hrow ⊢; exact Or.inr hrow))
      refine ⟨headers₂, row' :: rows, ?_, ?_⟩
      · simp [render, hshow, hrender]
      · simp [hlen, List.reduceOption_cons_of_some]

end DrasiPlatform.Cli
