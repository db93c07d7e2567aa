/-
The results of a query in the editor: the script of `query-results-view.ts`, which `QueryWatcher` and `QueryDebugger` post
their messages to.

The view keeps its rows in an array and, for speed, a map from the text of a row to its index. A row that is deleted is cut
out of the array, and the rows after it are entered in the map anew. What the view should show is the plain set of rows,
counted: a change adds, replaces and removes one row each time, by its text.

- `coherent_step`: whatever the messages, an index in the map is that of a row with this text, so the array is never written
  out of bounds.
- `view_agrees_iff`: over any run the view shows the plain set of rows at each step, exactly when no update and no deletion
  comes for a row that is shown and that the map has lost.
- `distinct_rows_agree`: which cannot be as long as no two rows are equal.
Witness: `distinct_rows_agree_updated`. A row that occurs twice is not deleted twice: `second_copy_stays`.
-/
import Mathlib.Tactic
import DrasiPlatform.Core.Run

namespace DrasiPlatform.ResultsView

open Run

variable {Row : Type}

/-! ## The script -/

structure View (Row : Type) where
  resultHashes : String → Option ℕ
  resultValues : List Row

def View.new : View Row := ⟨fun _ => none, []⟩

structure Update (Row : Type) where
  before : Row
  after : Row

structure ChangeEvent (Row : Type) where
  addedResults : List Row
  updatedResults : List (Update Row)
  deletedResults : List Row

inductive Message (Row : Type) where
  | control (kind : Option String)
  | error (message : String)
  | change (event : ChangeEvent Row)
  | other

/-- what is on the page: an `undefined` text is none -/
structure Page (Row : Type) where
  statusText : Option String
  errors : List String
  view : View Row

section

variable (stringify : Row → String)

/-- the rows from an index on are entered in the map -/
def reindex (resultHashes : String → Option ℕ) : ℕ → List Row → String → Option ℕ
  | _, [] => resultHashes
  | i, row :: rows => reindex (Function.update resultHashes (stringify row) (some i)) (i + 1) rows

namespace View

def add (v : View Row) (result : Row) : View Row where
  resultHashes := Function.update v.resultHashes (stringify result) (some v.resultValues.length)
  resultValues := v.resultValues ++ [result]

def update (v : View Row) (update : Update Row) : View Row :=
  let oldKey := stringify update.before
  let newKey := stringify update.after
  let rest := Function.update v.resultHashes oldKey none
  match v.resultHashes oldKey with
  | none => ⟨Function.update rest newKey (some v.resultValues.length), v.resultValues ++ [update.after]⟩
  | some index => ⟨Function.update rest newKey (some index), v.resultValues.set index update.after⟩

def delete (v : View Row) (result : Row) : View Row :=
  let key := stringify result
  let rest := Function.update v.resultHashes key none
  match v.resultHashes key with
  | none => ⟨rest, v.resultValues⟩
  | some index =>
    let resultValues := v.resultValues.eraseIdx index
    ⟨reindex stringify rest index (resultValues.drop index), resultValues⟩

def updateResults (v : View Row) (changeEvent : ChangeEvent Row) : View Row :=
  let v := changeEvent.addedResults.foldl (add stringify) v
  let v := changeEvent.updatedResults.foldl (update stringify) v
  changeEvent.deletedResults.foldl (delete stringify) v

end View

/-- the listener of the window -/
def listener (page : Page Row) : Message Row → Page Row
  | .control kind => { page with statusText := kind }
  | .error message => { page with errors := page.errors ++ [message] }
  | .change event => { page with view := page.view.updateResults stringify event }
  | .other => page

end

/-! ## Operations -/

/-- what the loops do with one result -/
inductive Op (Row : Type) where
  | add (result : Row)
  | update (update : Update Row)
  | delete (result : Row)

def ChangeEvent.ops (event : ChangeEvent Row) : List (Op Row) :=
  event.addedResults.map .add ++ (event.updatedResults.map .update ++ event.deletedResults.map .delete)

def messageOps : Message Row → List (Op Row)
  | .change event => event.ops
  | .control _ => []
  | .error _ => []
  | .other => []

variable (stringify : Row → String)

def View.step (v : View Row) : Op Row → View Row
  | .add result => v.add stringify result
  | .update update => v.update stringify update
  | .delete result => v.delete stringify result

theorem updateResults_eq (v : View Row) (event : ChangeEvent Row) :
    v.updateResults stringify event = run (View.step stringify) v event.ops := by
  rw [View.updateResults, ChangeEvent.ops, run_append, run_append, run, run, run, List.foldl_map, List.foldl_map,
    List.foldl_map]
  rfl

/-- the view of a page is that of all operations of its messages -/
theorem listener_view (page : Page Row) (messages : List (Message Row)) :
    (run (listener stringify) page messages).view =
      run (View.step stringify) page.view (messages.flatMap messageOps) := by
  induction messages generalizing page with
  | nil => rfl
  | cons message messages ih =>
    rw [run_cons, ih, List.flatMap_cons, run_append]
    cases message with
    | change event => rw [listener, updateResults_eq, messageOps]
    | control kind => rfl
    | error message => rfl
    | other => rfl

/-! ## The map -/

/-- an index in the map is that of a row with this text -/
def Coherent (v : View Row) : Prop :=
  ∀ key i, v.resultHashes key = some i → ∃ row, v.resultValues[i]? = some row ∧ stringify row = key

variable {stringify}

variable (stringify) in
theorem reindex_cases (resultHashes : String → Option ℕ) (i : ℕ) (rows : List Row) (key : String) :
    (∃ k row, rows[k]? = some row ∧ stringify row = key ∧ reindex stringify resultHashes i rows key = some (i + k)) ∨
      (∀ row ∈ rows, stringify row ≠ key) ∧ reindex stringify resultHashes i rows key = resultHashes key := by
  induction rows generalizing resultHashes i with
  | nil => exact .inr ⟨fun _ h => (by cases h), rfl⟩
  | cons row rows ih =>
    rcases ih (Function.update resultHashes (stringify row) (some i)) (i + 1) with
      ⟨k, row', hrow, hkey, hindex⟩ | ⟨hnone, hindex⟩
    · exact .inl ⟨k + 1, row', hrow, hkey, by rw [reindex, hindex, Nat.add_right_comm, Nat.add_assoc]⟩
    · by_cases hkey : stringify row = key
      · refine .inl ⟨0, row, rfl, hkey, ?_⟩
        rw [reindex, hindex, ← hkey, Function.update_self, Nat.add_zero]
      · refine .inr ⟨List.forall_mem_cons.2 ⟨hkey, hnone⟩, ?_⟩
        rw [reindex, hindex, Function.update_of_ne (Ne.symm hkey)]

namespace View

variable (v : View Row)

theorem update_of_none {u : Update Row} (h : v.resultHashes (stringify u.before) = none) : v.update stringify u =
    ⟨Function.update (Function.update v.resultHashes (stringify u.before) none) (stringify u.after)
      (some v.resultValues.length), v.resultValues ++ [u.after]⟩ := by
  rw [update, h]

theorem update_of_some {u : Update Row} {i : ℕ} (h : v.resultHashes (stringify u.before) = some i) : v.update stringify u =
    ⟨Function.update (Function.update v.resultHashes (stringify u.before) none) (stringify u.after) (some i),
      v.resultValues.set i u.after⟩ := by
  rw [update, h]

theorem delete_of_none {r : Row} (h : v.resultHashes (stringify r) = none) :
    v.delete stringify r = ⟨Function.update v.resultHashes (stringify r) none, v.resultValues⟩ := by
  rw [delete, h]

theorem delete_of_some {r : Row} {i : ℕ} (h : v.resultHashes (stringify r) = some i) : v.delete stringify r =
    ⟨reindex stringify (Function.update v.resultHashes (stringify r) none) i ((v.resultValues.eraseIdx i).drop i),
      v.resultValues.eraseIdx i⟩ := by
  rw [delete, h]

end View

theorem coherent_new : Coherent stringify (View.new : View Row) := fun _ _ h => (by cases h)

/-- a row at the end, under its text -/
theorem Coherent.push {v : View Row} (h : Coherent stringify v) (row : Row) {resultHashes : String → Option ℕ}
    (hold : ∀ key, resultHashes key = v.resultHashes key ∨ resultHashes key = none) :
    Coherent stringify
      ⟨Function.update resultHashes (stringify row) (some v.resultValues.length), v.resultValues ++ [row]⟩ := by
  intro key i hindex
  dsimp only at hindex
  rw [Function.update_apply] at hindex
  split_ifs at hindex with hkey
  · rw [← Option.some.inj hindex]
    exact ⟨row, List.getElem?_concat_length, hkey.symm⟩
  · rcases hold key with hsame | hnone
    · obtain ⟨row', hrow, htext⟩ := h key i (hsame ▸ hindex)
      exact ⟨row', by rw [List.getElem?_append_left (List.getElem?_eq_some_iff.1 hrow).1, hrow], htext⟩
    · rw [hnone] at hindex
      cases hindex

theorem coherent_update {v : View Row} (h : Coherent stringify v) (u : Update Row) :
    Coherent stringify (v.update stringify u) := by
  cases hold : v.resultHashes (stringify u.before) with
  | none =>
    rw [v.update_of_none hold]
    refine h.push u.after fun key => ?_
    rw [Function.update_apply]
    split_ifs
    · exact .inr rfl
    · exact .inl rfl
  | some i =>
    obtain ⟨row, hrow, htext⟩ := h _ i hold
    have hi := (List.getElem?_eq_some_iff.1 hrow).1
    rw [v.update_of_some hold]
    intro key j hindex
    dsimp only at hindex
    rw [Function.update_apply] at hindex
    split_ifs at hindex with hnew
    · rw [← Option.some.inj hindex]
      exact ⟨u.after, List.getElem?_set_self hi, hnew.symm⟩
    · rw [Function.update_apply] at hindex
      split_ifs at hindex with hgone
      obtain ⟨row', hrow', htext'⟩ := h key j hindex
      -- two keys have no index in common
      have hij : i ≠ j := by
        rintro rfl
        rw [hrow] at hrow'
        exact hgone (htext'.symm.trans ((congrArg stringify (Option.some.inj hrow')).symm.trans htext))
      exact ⟨row', by rw [← hrow']; exact List.getElem?_set_ne hij, htext'⟩

theorem coherent_delete {v : View Row} (h : Coherent stringify v) (r : Row) : Coherent stringify (v.delete stringify r) := by
  cases hold : v.resultHashes (stringify r) with
  | none =>
    rw [v.delete_of_none hold]
    intro key i hindex
    dsimp only at hindex
    rw [Function.update_apply] at hindex
    split_ifs at hindex
    exact h key i hindex
  | some i =>
    obtain ⟨row, hrow, htext⟩ := h _ i hold
    rw [v.delete_of_some hold]
    intro key j hindex
    dsimp only at hindex
    rcases reindex_cases stringify (Function.update v.resultHashes (stringify r) none) i
      ((v.resultValues.eraseIdx i).drop i) key with ⟨k, row', hrow', hkey, hentered⟩ | ⟨hnone, hrest⟩
    · rw [hentered] at hindex
      rw [List.getElem?_drop] at hrow'
      exact ⟨row', by rw [← Option.some.inj hindex]; exact hrow', hkey⟩
    · rw [hrest, Function.update_apply] at hindex
      split_ifs at hindex with hgone
      obtain ⟨row', hrow', htext'⟩ := h key j hindex
      have hj : j < i := by
        by_contra hij
        rcases Nat.lt_or_eq_of_le (Nat.le_of_not_lt hij) with hlt | rfl
        · have hmem : row' ∈ (v.resultValues.eraseIdx i).drop i := by
            refine List.mem_of_getElem? (i := j - 1 - i) ?_
            rw [List.getElem?_drop, List.getElem?_eraseIdx_of_ge (by omega), ← hrow']
            congr 1
            omega
          exact hnone row' hmem htext'
        · rw [hrow] at hrow'
          exact hgone (htext'.symm.trans ((congrArg stringify (Option.some.inj hrow')).symm.trans htext))
      exact ⟨row', by rw [← hrow']; exact List.getElem?_eraseIdx_of_lt hj, htext'⟩

/-- **The map is never wrong**, whatever the messages. -/
theorem coherent_step (v : View Row) (op : Op Row) (h : Coherent stringify v) : Coherent stringify (v.step stringify op) := by
  cases op with
  | add result => exact h.push result fun _ => .inl rfl
  | update u => exact coherent_update h u
  | delete result => exact coherent_delete h result

/-! ## The plain set of rows -/

/-- the texts of the rows that are shown -/
def View.shown (stringify : Row → String) (v : View Row) : Multiset String := v.resultValues.map stringify

/-- what an operation means: each takes one row of its text, if there is one -/
def plainStep (stringify : Row → String) (rows : Multiset String) : Op Row → Multiset String
  | .add result => stringify result ::ₘ rows
  | .update u => stringify u.after ::ₘ rows.erase (stringify u.before)
  | .delete result => rows.erase (stringify result)

/-- the text an operation looks for -/
def Op.key (stringify : Row → String) : Op Row → Option String
  | .add _ => none
  | .update u => some (stringify u.before)
  | .delete result => some (stringify result)

/-- a row that is shown and looked for is in the map -/
def Found (stringify : Row → String) (v : View Row) (op : Op Row) : Prop :=
  ∀ key ∈ op.key stringify, key ∈ v.shown stringify → v.resultHashes key ≠ none

variable (stringify) in
/-- one of the rows is taken out -/
theorem shown_eraseIdx {values : List Row} {i : ℕ} {row : Row} (hrow : values[i]? = some row) :
    ((values.eraseIdx i).map stringify : Multiset String) =
      (values.map stringify : Multiset String).erase (stringify row) := by
  obtain ⟨hi, rfl⟩ := List.getElem?_eq_some_iff.1 hrow
  have hperm := (List.getElem_cons_eraseIdx_perm hi).map stringify
  rw [← Multiset.coe_eq_coe.2 hperm, List.map_cons, ← Multiset.cons_coe, Multiset.erase_cons_head]

variable (stringify) in
theorem shown_set {values : List Row} {i : ℕ} {row row' : Row} (hrow : values[i]? = some row) :
    ((values.set i row').map stringify : Multiset String) =
      stringify row' ::ₘ (values.map stringify : Multiset String).erase (stringify row) := by
  have hi := (List.getElem?_eq_some_iff.1 hrow).1
  have hself : (values.set i row')[i]? = some row' := List.getElem?_set_self hi
  have hset := shown_eraseIdx stringify hself
  have hmem : stringify row' ∈ ((values.set i row').map stringify : Multiset String) :=
    Multiset.mem_coe.2 (List.mem_map_of_mem (List.mem_of_getElem? hself))
  rw [List.eraseIdx_set_eq, shown_eraseIdx stringify hrow] at hset
  rw [hset, Multiset.cons_erase hmem]

theorem eq_erase_iff {rows : Multiset String} {key : String} : rows = rows.erase key ↔ key ∉ rows := by
  refine ⟨fun h hmem => ?_, fun h => (Multiset.erase_of_notMem h).symm⟩
  have hlt := Multiset.card_erase_lt_of_mem hmem
  rw [← h] at hlt
  exact lt_irrefl _ hlt

/-- **When a step shows what it should.** -/
theorem shown_step_iff {v : View Row} (h : Coherent stringify v) (op : Op Row) :
    (v.step stringify op).shown stringify = plainStep stringify (v.shown stringify) op ↔ Found stringify v op := by
  cases op with
  | add result =>
    refine iff_of_true ?_ fun key hkey => by cases hkey
    rw [View.step, View.add, View.shown, List.map_append, ← Multiset.coe_add, add_comm]
    rfl
  | update u =>
    have hfound : Found stringify v (.update u) ↔
        (stringify u.before ∈ v.shown stringify → v.resultHashes (stringify u.before) ≠ none) := by
      simp [Found, Op.key]
    rw [hfound, View.step, plainStep]
    cases hold : v.resultHashes (stringify u.before) with
    | some i =>
      obtain ⟨row, hrow, htext⟩ := h _ i hold
      refine iff_of_true ?_ (by simp)
      rw [v.update_of_some hold, View.shown, shown_set stringify hrow, htext, View.shown]
    | none =>
      have hpush : (v.update stringify u).shown stringify = stringify u.after ::ₘ v.shown stringify := by
        rw [v.update_of_none hold, View.shown, List.map_append, ← Multiset.coe_add, add_comm]
        rfl
      rw [hpush, Multiset.cons_inj_right, eq_erase_iff]
      simp
  | delete result =>
    have hfound : Found stringify v (.delete result) ↔
        (stringify result ∈ v.shown stringify → v.resultHashes (stringify result) ≠ none) := by
      simp [Found, Op.key]
    rw [hfound, View.step, plainStep]
    cases hold : v.resultHashes (stringify result) with
    | some i =>
      obtain ⟨row, hrow, htext⟩ := h _ i hold
      refine iff_of_true ?_ (by simp)
      rw [v.delete_of_some hold, View.shown, shown_eraseIdx stringify hrow, htext, View.shown]
    | none =>
      have hstay : (v.delete stringify result).shown stringify = v.shown stringify := by
        rw [v.delete_of_none hold]
        rfl
      rw [hstay, eq_erase_iff]
      simp

/-! ## Runs -/

/-- the view, and the plain set of rows beside it -/
def bothStep (stringify : Row → String) (s : View Row × Multiset String) (op : Op Row) : View Row × Multiset String :=
  (s.1.step stringify op, plainStep stringify s.2 op)

def Agree (stringify : Row → String) (s : View Row × Multiset String) : Prop := s.1.shown stringify = s.2

theorem agree_step_iff {s : View Row × Multiset String} (h : Coherent stringify s.1) (hagree : Agree stringify s)
    (op : Op Row) : Agree stringify (bothStep stringify s op) ↔ Found stringify s.1 op := by
  obtain ⟨v, rows⟩ := s
  obtain rfl : v.shown stringify = rows := hagree
  exact shown_step_iff h op

/-- every row that is shown is in the map -/
def Indexed (stringify : Row → String) (v : View Row) : Prop := ∀ key ∈ v.shown stringify, v.resultHashes key ≠ none

theorem Indexed.found {v : View Row} (h : Indexed stringify v) (op : Op Row) : Found stringify v op :=
  fun key _ hshown => h key hshown

/-- as long as no two rows are equal, the map loses none -/
theorem Indexed.step {v : View Row} (hcoherent : Coherent stringify v) (h : Indexed stringify v)
    (hnodup : (v.shown stringify).Nodup) (op : Op Row) : Indexed stringify (v.step stringify op) := by
  have hshown := (shown_step_iff hcoherent op).2 (h.found op)
  intro key hkey
  rw [hshown] at hkey
  cases op with
  | add result =>
    rw [View.step, View.add]
    dsimp only
    rw [Function.update_apply]
    split_ifs with hnew
    · exact Option.some_ne_none _
    · exact h key ((Multiset.mem_cons.1 hkey).resolve_left hnew)
  | update u =>
    -- a row other than the new one is one of the others
    have hother : key ≠ stringify u.after → key ≠ stringify u.before ∧ key ∈ v.shown stringify := fun hnew =>
      hnodup.mem_erase_iff.1 ((Multiset.mem_cons.1 hkey).resolve_left hnew)
    rw [View.step]
    cases hold : v.resultHashes (stringify u.before) with
    | none =>
      rw [v.update_of_none hold]
      dsimp only
      rw [Function.update_apply]
      split_ifs with hnew
      · exact Option.some_ne_none _
      · rw [Function.update_of_ne (hother hnew).1]
        exact h key (hother hnew).2
    | some i =>
      rw [v.update_of_some hold]
      dsimp only
      rw [Function.update_apply]
      split_ifs with hnew
      · exact Option.some_ne_none _
      · rw [Function.update_of_ne (hother hnew).1]
        exact h key (hother hnew).2
  | delete result =>
    obtain ⟨hne, hmem⟩ := hnodup.mem_erase_iff.1 hkey
    rw [View.step]
    cases hold : v.resultHashes (stringify result) with
    | none =>
      rw [v.delete_of_none hold]
      dsimp only
      rw [Function.update_of_ne hne]
      exact h key hmem
    | some i =>
      rw [v.delete_of_some hold]
      dsimp only
      rcases reindex_cases stringify (Function.update v.resultHashes (stringify result) none) i
        ((v.resultValues.eraseIdx i).drop i) key with ⟨k, row, -, -, hentered⟩ | ⟨-, hrest⟩
      · rw [hentered]
        exact Option.some_ne_none _
      · rw [hrest, Function.update_of_ne hne]
        exact h key hmem

/-- **The view and the plain set of rows.** They agree at every step of a run exactly when every row that is looked for and
shown is in the map. -/
theorem view_agrees_iff (ops : List (Op Row)) :
    Throughout (bothStep stringify) (Agree stringify) (View.new, 0) ops ↔
      Meets (bothStep stringify) (fun s op => Found stringify s.1 op) (View.new, 0) ops := by
  have hlegal : Meets (bothStep stringify) (fun _ _ => True) (View.new, 0) ops := meets_iff_forall.2 fun _ _ => trivial
  have hnew : Agree stringify (View.new, 0) := rfl
  have hkeep : ∀ (s : View Row × Multiset String) op, Coherent stringify s.1 → True →
      Coherent stringify (bothStep stringify s op).1 := fun s op h _ => coherent_step s.1 op h
  exact throughout_iff_meets (fun s : View Row × Multiset String => Coherent stringify s.1) hkeep
    (fun s op h _ hagree => agree_step_iff h hagree op) coherent_new hnew hlegal

/-- **Equal rows are all that can go wrong**: the view agrees with the plain set as long as this has no row twice. -/
theorem distinct_rows_agree (ops : List (Op Row))
    (hdistinct : Throughout (plainStep stringify) Multiset.Nodup 0 ops) :
    Throughout (bothStep stringify) (Agree stringify) (View.new, 0) ops := by
  have hrun : ∀ (ops : List (Op Row)) (s : View Row × Multiset String), Coherent stringify s.1 → Indexed stringify s.1 →
      Agree stringify s → Throughout (plainStep stringify) Multiset.Nodup s.2 ops →
      Throughout (bothStep stringify) (Agree stringify) s ops := by
    intro ops
    induction ops with
    | nil => exact fun s _ _ hagree _ => hagree
    | cons op ops ih =>
      intro s hcoherent hindexed hagree hdistinct
      have hnodup : (s.1.shown stringify).Nodup := hagree ▸ hdistinct.1
      refine ⟨hagree, ih _ (coherent_step s.1 op hcoherent) (hindexed.step hcoherent hnodup op) ?_ hdistinct.2⟩
      exact (agree_step_iff hcoherent hagree op).2 (hindexed.found op)
  exact hrun ops (View.new, 0) coherent_new (fun key hkey => absurd hkey (Multiset.notMem_zero key)) rfl hdistinct

/-- a row is added, changed and deleted beside another one -/
def updatedOps : List (Op String) := [.add "a", .add "b", .update ⟨"a", "c"⟩, .delete "b", .delete "c"]

theorem distinct_rows_agree_updated :
    (run (bothStep id) (View.new, 0) updatedOps).1.shown id = (run (bothStep id) (View.new, 0) updatedOps).2 := by
  have hdistinct : Throughout (plainStep id) Multiset.Nodup 0 updatedOps :=
    ⟨by decide, by decide, by decide, by decide, by decide, Multiset.nodup_zero⟩
  exact (distinct_rows_agree updatedOps hdistinct).last

/-- of two equal rows the second one goes, and after it none -/
theorem second_copy_stays :
    (run (View.step id) View.new [.add "a", .add "a", .delete "a", .delete "a"]).resultValues = ["a"] := rfl

end DrasiPlatform.ResultsView
