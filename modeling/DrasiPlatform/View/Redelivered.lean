/-
A result event that the view worker takes again after a failure. The worker acknowledges an event once `record_change` has
succeeded, so a prefix of its store operations may already be executed.

An event that touches no row key twice, but as before and after of one update, has for each hash no operation, a close, an
upsert, or a close and then an upsert. Taken again after a prefix, it leaves the same documents of the hash, with one
exception: where the update has been executed, its new document is closed at `ts - 1`, so a document valid from `ts` to
`ts - 1` is added. No instant lies in it, unless `ts - 1` wraps.

- `replay_docs`: what the replay leaves for one hash.
- `redelivery_harmless_iff`: `get_view` answers as after one execution, at every time it accepts, exactly when the policy
  is `Latest`, or the source time as an `i64` is not the least one, or no update that keeps its key was executed.
Witness: `wrapped_close_shows_twice`, an event at 2^63 milliseconds.
-/
import Mathlib.Tactic
import DrasiPlatform.View.ViewWorker

namespace DrasiPlatform.View

open DrasiPlatform.Run

variable {Row Hash : Type} [DecidableEq Hash]

/-! ## The documents of one hash -/

def StoreOp.about (hash : Hash) : StoreOp Row Hash → Bool
  | .close h => h = hash
  | .upsert h _ => h = hash
  | .metadata _ => false

/-- what the operation does to the documents -/
def StoreOp.onDocs (policy : RetentionPolicy) (ts : Int64) (docs : List (ViewDocument Row Hash)) :
    StoreOp Row Hash → List (ViewDocument Row Hash)
  | .close hash => closeOne policy ts hash docs
  | .upsert hash row => upsertOne ts hash row docs
  | .metadata _ => docs

def docsOf (hash : Hash) (docs : List (ViewDocument Row Hash)) : List (ViewDocument Row Hash) :=
  docs.filter fun d => d.hash = hash

section OneHash

variable {policy : RetentionPolicy} {ts : Int64} {hash : Hash}

theorem foldl_exec_docs (policy : RetentionPolicy) (ts : Int64) (ops : List (StoreOp Row Hash)) (c : Collection Row Hash) :
    (ops.foldl (StoreOp.exec policy ts) c).docs = ops.foldl (StoreOp.onDocs policy ts) c.docs := by
  induction ops generalizing c with
  | nil => rfl
  | cons op ops ih =>
    rw [List.foldl_cons, List.foldl_cons, ih]
    cases op <;> rfl

theorem filter_modifyFirst_of_not {α : Type} {p q : α → Bool} {f : α → α} (h : ∀ a, p a = true → q a = false ∧ q (f a) = false)
    (l : List α) : (modifyFirst p f l).filter q = l.filter q := by
  induction l with
  | nil => rfl
  | cons a l ih =>
    by_cases ha : p a = true
    · obtain ⟨hq, hq'⟩ := h a ha
      simp [modifyFirst, ha, hq, hq']
    · simp [modifyFirst, ha, List.filter_cons, ih]

theorem filter_modifyFirst {α : Type} {p q : α → Bool} {f : α → α} (h : ∀ a, p a = true → q a = true ∧ q (f a) = true)
    (l : List α) : (modifyFirst p f l).filter q = modifyFirst p f (l.filter q) := by
  induction l with
  | nil => rfl
  | cons a l ih =>
    by_cases ha : p a = true
    · obtain ⟨hq, hq'⟩ := h a ha
      simp [modifyFirst, ha, hq, hq']
    · by_cases hq : q a = true <;> simp [modifyFirst, ha, hq, ih]

theorem filter_eraseP_of_not {α : Type} {p q : α → Bool} (h : ∀ a, p a = true → q a = false) (l : List α) :
    (l.eraseP p).filter q = l.filter q := by
  induction l with
  | nil => rfl
  | cons a l ih =>
    by_cases ha : p a = true
    · simp [ha, h a ha]
    · by_cases hq : q a = true <;> simp [ha, hq, ih]

theorem filter_eraseP {α : Type} {p q : α → Bool} (h : ∀ a, p a = true → q a = true) (l : List α) :
    (l.eraseP p).filter q = (l.filter q).eraseP p := by
  induction l with
  | nil => rfl
  | cons a l ih =>
    by_cases ha : p a = true
    · simp [ha, h a ha]
    · by_cases hq : q a = true <;> simp [ha, hq, ih]

theorem hash_of_matchesOpen {d : ViewDocument Row Hash} (h : matchesOpen hash d = true) : d.hash = hash := by
  simp only [matchesOpen, decide_eq_true_eq] at h
  exact h.1

/-- an operation on another hash leaves the documents of the hash alone -/
theorem docsOf_onDocs_of_not_about {op : StoreOp Row Hash} (h : op.about hash = false) (docs : List (ViewDocument Row Hash)) :
    docsOf hash (op.onDocs policy ts docs) = docsOf hash docs := by
  cases op with
  | close hash' =>
    have hne : hash' ≠ hash := by simpa [StoreOp.about] using h
    have hother : ∀ d : ViewDocument Row Hash, matchesOpen hash' d = true → decide (d.hash = hash) = false := fun d hd => by
      simp [hash_of_matchesOpen hd, hne]
    have hmodify := filter_modifyFirst_of_not (f := fun d : ViewDocument Row Hash => { d with validTo := ts - 1 })
      (fun d hd => ⟨hother d hd, hother d hd⟩) docs
    cases policy with
    | latest => exact filter_eraseP_of_not hother docs
    | expire _ => exact hmodify
    | all => exact hmodify
  | upsert hash' row =>
    have hne : hash' ≠ hash := by simpa [StoreOp.about] using h
    change docsOf hash (upsertOne ts hash' row docs) = docsOf hash docs
    unfold upsertOne
    dsimp only
    split
    · refine filter_modifyFirst_of_not (fun d hd => ?_) docs
      simp [hash_of_matchesOpen hd, hne]
    · simp [docsOf, hne]
  | metadata _ => rfl

theorem any_matchesOpen_docsOf (docs : List (ViewDocument Row Hash)) :
    (docsOf hash docs).any (matchesOpen hash) = docs.any (matchesOpen hash) := by
  induction docs with
  | nil => rfl
  | cons d docs ih => by_cases hd : d.hash = hash <;> simp_all [docsOf, matchesOpen]

/-- an operation on the hash works on its documents -/
theorem docsOf_onDocs_of_about {op : StoreOp Row Hash} (h : op.about hash = true) (docs : List (ViewDocument Row Hash)) :
    docsOf hash (op.onDocs policy ts docs) = op.onDocs policy ts (docsOf hash docs) := by
  cases op with
  | close hash' =>
    have heq : hash' = hash := by simpa [StoreOp.about] using h
    subst heq
    have hsame : ∀ d : ViewDocument Row Hash, matchesOpen hash' d = true → decide (d.hash = hash') = true := fun d hd =>
      decide_eq_true (hash_of_matchesOpen hd)
    have hmodify := filter_modifyFirst (f := fun d : ViewDocument Row Hash => { d with validTo := ts - 1 })
      (fun d hd => ⟨hsame d hd, hsame d hd⟩) docs
    cases policy with
    | latest => exact filter_eraseP hsame docs
    | expire _ => exact hmodify
    | all => exact hmodify
  | upsert hash' row =>
    have heq : hash' = hash := by simpa [StoreOp.about] using h
    subst heq
    change docsOf hash' (upsertOne ts hash' row docs) = upsertOne ts hash' row (docsOf hash' docs)
    unfold upsertOne
    dsimp only
    rw [any_matchesOpen_docsOf]
    split
    · refine filter_modifyFirst (fun d hd => ?_) docs
      simp [hash_of_matchesOpen hd]
    · simp [docsOf]
  | metadata _ => cases h

theorem docsOf_foldl (ops : List (StoreOp Row Hash)) (docs : List (ViewDocument Row Hash)) :
    docsOf hash (ops.foldl (StoreOp.onDocs policy ts) docs) =
      (ops.filter (StoreOp.about hash)).foldl (StoreOp.onDocs policy ts) (docsOf hash docs) := by
  induction ops generalizing docs with
  | nil => rfl
  | cons op ops ih =>
    rw [List.foldl_cons, ih]
    cases h : op.about hash with
    | false => rw [docsOf_onDocs_of_not_about h, List.filter_cons_of_neg (by simp [h])]
    | true => rw [docsOf_onDocs_of_about h, List.filter_cons_of_pos h, List.foldl_cons]

/-! ### Closed documents and the open one -/

theorem modifyFirst_append_of_not {α : Type} {p : α → Bool} {f : α → α} {l l' : List α} (h : ∀ a ∈ l, p a = false) :
    modifyFirst p f (l ++ l') = l ++ modifyFirst p f l' := by
  induction l with
  | nil => rfl
  | cons a l ih =>
    have ha : p a = false := h a List.mem_cons_self
    simp [modifyFirst, ha, ih fun x hx => h x (List.mem_cons_of_mem a hx)]

variable (hash) in
/-- the documents are closed ones, `C` together, and an open one of the hash where `o` has one -/
def Consists (docs : List (ViewDocument Row Hash)) (C : Multiset (ViewDocument Row Hash))
    (o : Option (ViewDocument Row Hash)) : Prop :=
  ∃ l l', docs = l ++ (o.toList ++ l') ∧ C = ↑(l ++ l') ∧ (∀ d ∈ l ++ l', d.validTo ≠ maxTimestamp) ∧
    ∀ d ∈ o, matchesOpen hash d = true

variable {docs : List (ViewDocument Row Hash)} {C : Multiset (ViewDocument Row Hash)} {o : Option (ViewDocument Row Hash)}

theorem coe_append_middle {α : Type} (l m l' : List α) :
    ((l ++ (m ++ l') : List α) : Multiset α) = ↑(l ++ l') + ↑m := by
  rw [← Multiset.coe_add, ← Multiset.coe_add, ← Multiset.coe_add, ← add_assoc, add_right_comm]

theorem Consists.eq_add (h : Consists hash docs C o) : (docs : Multiset (ViewDocument Row Hash)) = C + ↑o.toList := by
  obtain ⟨l, l', rfl, rfl, -, -⟩ := h
  exact coe_append_middle l o.toList l'

theorem not_matchesOpen {d : ViewDocument Row Hash} (h : d.validTo ≠ maxTimestamp) : matchesOpen hash d = false := by
  simp [matchesOpen, h]

variable (hash) in
theorem consists_docsOf (hu : OpenUnique docs) : ∃ C o, Consists hash (docsOf hash docs) C o := by
  induction docs with
  | nil => exact ⟨0, none, [], [], rfl, rfl, fun d hd => (by cases hd), fun d hd => (by cases hd)⟩
  | cons d docs ih =>
    have hu' : OpenUnique docs := by
      unfold OpenUnique at hu ⊢
      rw [openDocuments_cons] at hu
      split at hu
      · exact (List.nodup_cons.1 hu).2
      · exact hu
    by_cases hd : d.hash = hash
    · have hcons : docsOf hash (d :: docs) = d :: docsOf hash docs := by simp [docsOf, hd]
      rw [hcons]
      by_cases hopen : d.validTo = maxTimestamp
      · refine ⟨_, some d, [], docsOf hash docs, rfl, rfl, fun d' hd' hopen' => ?_, fun d' hd' => ?_⟩
        · obtain ⟨hmem, hhash⟩ := List.mem_filter.1 hd'
          unfold OpenUnique at hu
          rw [openDocuments_cons, if_pos hopen, List.map_cons, List.nodup_cons] at hu
          refine hu.1 (List.mem_map.2 ⟨d', List.mem_filter.2 ⟨hmem, decide_eq_true hopen'⟩, ?_⟩)
          exact (of_decide_eq_true hhash).trans hd.symm
        · cases hd'
          simp [matchesOpen, hd, hopen]
      · obtain ⟨C, o, l, l', heq, rfl, hclosed, ho⟩ := ih hu'
        refine ⟨_, o, d :: l, l', by rw [heq, List.cons_append], rfl, fun d' hd' => ?_, ho⟩
        rcases List.mem_cons.1 hd' with rfl | hmem
        · exact hopen
        · exact hclosed d' hmem
    · have hskip : docsOf hash (d :: docs) = docsOf hash docs := by simp [docsOf, hd]
      rw [hskip]
      exact ih hu'

theorem Consists.close_latest (h : Consists hash docs C o) : Consists hash (closeOne .latest ts hash docs) C none := by
  obtain ⟨l, l', rfl, rfl, hclosed, ho⟩ := h
  have hl : ∀ d ∈ l, matchesOpen hash d = false := fun d hd => not_matchesOpen (hclosed d (List.mem_append_left l' hd))
  have hl' : ∀ d ∈ l', matchesOpen hash d = false := fun d hd => not_matchesOpen (hclosed d (List.mem_append_right l hd))
  refine ⟨l, l', ?_, rfl, hclosed, fun d hd => (by cases hd)⟩
  change (l ++ (o.toList ++ l')).eraseP (matchesOpen hash) = l ++ l'
  rw [List.eraseP_append_right _ fun d hd => by simp [hl d hd]]
  congr 1
  cases o with
  | none => exact List.eraseP_of_forall_not fun d hd => by simp [hl' d hd]
  | some d => exact List.eraseP_cons_of_pos (ho d rfl)

/-- a document that is closed at `ts - 1` -/
def closedAt (ts : Int64) (d : ViewDocument Row Hash) : ViewDocument Row Hash := { d with validTo := ts - 1 }

theorem Consists.close (hp : policy ≠ .latest) (hts : ts - 1 ≠ maxTimestamp) (h : Consists hash docs C o) :
    Consists hash (closeOne policy ts hash docs) (C + ↑(o.map (closedAt ts)).toList) none := by
  obtain ⟨l, l', rfl, rfl, hclosed, ho⟩ := h
  have hl : ∀ d ∈ l, matchesOpen hash d = false := fun d hd => not_matchesOpen (hclosed d (List.mem_append_left l' hd))
  have hl' : ∀ d ∈ l', matchesOpen hash d = false := fun d hd => not_matchesOpen (hclosed d (List.mem_append_right l hd))
  have hclose : closeOne policy ts hash (l ++ (o.toList ++ l')) = l ++ ((o.map (closedAt ts)).toList ++ l') := by
    have hmodify : closeOne policy ts hash (l ++ (o.toList ++ l')) =
        modifyFirst (matchesOpen hash) (closedAt ts) (l ++ (o.toList ++ l')) := by
      cases policy with
      | latest => exact absurd rfl hp
      | expire _ => rfl
      | all => rfl
    rw [hmodify, modifyFirst_append_of_not hl]
    congr 1
    cases o with
    | none =>
      have hrest : modifyFirst (matchesOpen hash) (closedAt ts) (l' ++ []) = l' ++ modifyFirst _ (closedAt ts) [] :=
        modifyFirst_append_of_not hl'
      simpa [modifyFirst] using hrest
    | some d => simp [modifyFirst, ho d rfl]
  refine ⟨l ++ ((o.map (closedAt ts)).toList ++ l'), [], ?_, ?_, fun d hd => ?_, fun d hd => (by cases hd)⟩
  · rw [hclose]
    simp
  · rw [List.append_nil]
    exact (coe_append_middle l _ l').symm
  · rw [List.append_nil] at hd
    rcases List.mem_append.1 hd with hmem | hmem
    · exact hclosed d (List.mem_append_left l' hmem)
    · rcases List.mem_append.1 hmem with hmem | hmem
      · obtain ⟨d', -, rfl⟩ := Option.map_eq_some_iff.1 (Option.mem_toList.1 hmem)
        exact hts
      · exact hclosed d (List.mem_append_right l hmem)

variable (ts) in
theorem Consists.upsert (row : Row) (h : Consists hash docs C o) :
    Consists hash (upsertOne ts hash row docs) C (some ⟨hash, row, ts, maxTimestamp⟩) := by
  obtain ⟨l, l', rfl, rfl, hclosed, ho⟩ := h
  have hl : ∀ d ∈ l, matchesOpen hash d = false := fun d hd => not_matchesOpen (hclosed d (List.mem_append_left l' hd))
  have hl' : ∀ d ∈ l', matchesOpen hash d = false := fun d hd => not_matchesOpen (hclosed d (List.mem_append_right l hd))
  have hnew : ∀ d ∈ some (⟨hash, row, ts, maxTimestamp⟩ : ViewDocument Row Hash), matchesOpen hash d = true := by
    rintro d ⟨⟩
    simp [matchesOpen]
  cases o with
  | none =>
    refine ⟨l ++ l', [], ?_, by simp, by simpa using hclosed, hnew⟩
    have hno : (l ++ l').any (matchesOpen hash) = false := List.any_eq_false.2 fun d hd => by
      rw [not_matchesOpen (hclosed d hd)]
      exact Bool.false_ne_true
    simp only [upsertOne, Option.toList_none, List.nil_append, hno]
    simp
  | some d =>
    refine ⟨l, l', ?_, rfl, hclosed, hnew⟩
    have hany : (l ++ ((some d).toList ++ l')).any (matchesOpen hash) = true :=
      List.any_eq_true.2 ⟨d, by simp, ho d rfl⟩
    simp only [upsertOne, hany, if_true]
    rw [modifyFirst_append_of_not hl]
    simp [modifyFirst, ho d rfl]

/-! ### The operations of an event on one hash -/

/-- what an event that touches the hash once does to it -/
inductive HashOps (hash : Hash) : List (StoreOp Row Hash) → Prop where
  | none : HashOps hash []
  | close : HashOps hash [.close hash]
  | upsert (row : Row) : HashOps hash [.upsert hash row]
  | replace (row : Row) : HashOps hash [.close hash, .upsert hash row]

omit [DecidableEq Hash] in
theorem HashOps.eq_replace {hash' : Hash} {row : Row} {ops : List (StoreOp Row Hash)} (h : HashOps hash ops)
    (hpre : [.close hash', .upsert hash row] <+: ops) : ops = [.close hash, .upsert hash row] := by
  cases h with
  | none => simp at hpre
  | close => simpa using hpre.length_le
  | upsert row' => simpa using hpre.length_le
  | replace row' =>
    have hsame := hpre.eq_of_length rfl
    simp only [List.cons.injEq, StoreOp.upsert.injEq, true_and, and_true] at hsame
    rw [hsame.2]

omit [DecidableEq Hash] in
/-- where the event closes and upserts the hash, a prefix with the upsert has both -/
theorem HashOps.eq_of_upsert {row : Row} {ops pre : List (StoreOp Row Hash)} (h : HashOps hash ops) (hpre : pre <+: ops)
    (hclose : .close hash ∈ ops) (hupsert : .upsert hash row ∈ pre) : pre = [.close hash, .upsert hash row] := by
  have hmem := hpre.subset hupsert
  cases h with
  | none => simp at hmem
  | close => simp at hmem
  | upsert row' => simp at hclose
  | replace row' =>
    obtain rfl : row = row' := by simpa using hmem
    rcases List.prefix_cons_iff.1 hpre with rfl | ⟨tail, rfl, htail⟩
    · simp at hupsert
    · rcases List.prefix_cons_iff.1 htail with rfl | ⟨rest, rfl, hrest⟩
      · simp at hupsert
      · rw [List.prefix_nil.1 hrest]

variable (policy ts) in
/-- the closed documents after a close, where the closing takes effect -/
def closeRest (C : Multiset (ViewDocument Row Hash)) (o : Option (ViewDocument Row Hash)) :
    Multiset (ViewDocument Row Hash) :=
  if policy = .latest ∨ ts - 1 = maxTimestamp then C else C + ↑(o.map (closedAt ts)).toList

variable (policy ts) in
/-- the open document after a close -/
def closeOpen (o : Option (ViewDocument Row Hash)) : Option (ViewDocument Row Hash) :=
  if policy ≠ .latest ∧ ts - 1 = maxTimestamp then o else none

variable (policy ts) in
theorem Consists.closeOne (h : Consists hash docs C o) :
    Consists hash (closeOne policy ts hash docs) (closeRest policy ts C o) (closeOpen policy ts o) := by
  by_cases hp : policy = .latest
  · subst hp
    simpa [closeRest, closeOpen] using h.close_latest
  · by_cases hts : ts - 1 = maxTimestamp
    · have hno : ¬Closes policy ts := by simp [Closes, hp, hts]
      rw [closeOne_of_not_closes hno]
      simpa [closeRest, closeOpen, hp, hts] using h
    · simpa [closeRest, closeOpen, hp, hts] using h.close hp hts

variable (policy ts) in
/-- the document that a replay leaves closed at once: the new one of an update that was executed -/
def leftover : List (StoreOp Row Hash) → Multiset (ViewDocument Row Hash)
  | [.close _, .upsert hash row] =>
    if policy = .latest ∨ ts - 1 = maxTimestamp then 0 else {closedAt ts ⟨hash, row, ts, maxTimestamp⟩}
  | _ => 0

omit [DecidableEq Hash] in
theorem closeRest_idem : closeRest policy ts (closeRest policy ts C o) (closeOpen policy ts o) = closeRest policy ts C o := by
  by_cases hp : policy = .latest
  · simp [closeRest, hp]
  · by_cases hts : ts - 1 = maxTimestamp <;> simp [closeRest, closeOpen, hp, hts]

omit [DecidableEq Hash] in
theorem closeOpen_idem : closeOpen policy ts (closeOpen policy ts o) = closeOpen policy ts o := by
  unfold closeOpen
  split <;> rfl

omit [DecidableEq Hash] in
theorem closeRest_new (row : Row) :
    closeRest policy ts C (some ⟨hash, row, ts, maxTimestamp⟩) =
      C + leftover policy ts [.close hash, .upsert hash row] := by
  by_cases h : policy = .latest ∨ ts - 1 = maxTimestamp
  · simp [closeRest, leftover, h]
  · simp [closeRest, leftover, h]

variable (policy ts) in
/-- **A replay, for one hash.** Executed again after a prefix, the operations of an event that touches the hash once leave
what they leave executed once, and the leftover of the prefix. -/
theorem replay_docs {ops pre : List (StoreOp Row Hash)} (hops : HashOps hash ops) (hpre : pre <+: ops)
    (h : Consists hash docs C o) :
    ((ops.foldl (StoreOp.onDocs policy ts) (pre.foldl (StoreOp.onDocs policy ts) docs) : List (ViewDocument Row Hash)) :
        Multiset (ViewDocument Row Hash)) =
      ↑(ops.foldl (StoreOp.onDocs policy ts) docs) + leftover policy ts pre := by
  cases hops with
  | none =>
    rw [List.prefix_nil.1 hpre]
    simp [leftover]
  | close =>
    rcases List.prefix_cons_iff.1 hpre with rfl | ⟨tail, rfl, htail⟩
    · simp [leftover]
    · rw [List.prefix_nil.1 htail]
      have honce := h.closeOne policy ts
      have hagain := honce.closeOne policy ts
      rw [closeRest_idem, closeOpen_idem] at hagain
      simpa [StoreOp.onDocs, leftover] using hagain.eq_add.trans honce.eq_add.symm
  | upsert row =>
    rcases List.prefix_cons_iff.1 hpre with rfl | ⟨tail, rfl, htail⟩
    · simp [leftover]
    · rw [List.prefix_nil.1 htail]
      have honce := h.upsert ts row
      have hagain := honce.upsert ts row
      simpa [StoreOp.onDocs, leftover] using hagain.eq_add.trans honce.eq_add.symm
  | replace row =>
    have hclose := h.closeOne policy ts
    have honce := hclose.upsert ts row
    rcases List.prefix_cons_iff.1 hpre with rfl | ⟨tail, rfl, htail⟩
    · simp [leftover]
    · rcases List.prefix_cons_iff.1 htail with rfl | ⟨rest, rfl, hrest⟩
      · have hagain := (hclose.closeOne policy ts).upsert ts row
        rw [closeRest_idem] at hagain
        simpa [StoreOp.onDocs, leftover] using hagain.eq_add.trans honce.eq_add.symm
      · rw [List.prefix_nil.1 hrest]
        have hagain := (honce.closeOne policy ts).upsert ts row
        rw [closeRest_new] at hagain
        simp only [List.foldl_cons, List.foldl_nil, StoreOp.onDocs]
        rw [hagain.eq_add, honce.eq_add, add_right_comm]

end OneHash

/-! ## The operations of an event, hash by hash -/

/-- the operations of each result of an event -/
def eventGroups (H : Hashing Row Hash) (change : ResultChangeEvent Row) : List (List (StoreOp Row Hash)) :=
  change.deletedResults.map (fun del => [.close (H.hashValues del)]) ++
    (change.updatedResults.map (updateOps H) ++
      change.addedResults.map fun add => [.upsert (H.hashValues add) add])

/-- no row key is touched by two results of the event -/
def KeysOnce (H : Hashing Row Hash) (change : ResultChangeEvent Row) : Prop :=
  (eventGroups H change).Pairwise fun g g' => ∀ op ∈ g, ∀ op' ∈ g', ∀ hash, ¬(op.about hash = true ∧ op'.about hash = true)

theorem flatten_map_singleton {α β : Type} (f : α → β) (l : List α) : (l.map fun a => [f a]).flatten = l.map f := by
  induction l with
  | nil => rfl
  | cons a l ih => simp [ih]

omit [DecidableEq Hash] in
theorem recordOps_eq_groups (H : Hashing Row Hash) (change : ResultChangeEvent Row) :
    recordOps H change = (eventGroups H change).flatten ++ [.metadata change.sequence] := by
  unfold recordOps eventGroups
  rw [List.flatten_append, List.flatten_append, flatten_map_singleton, flatten_map_singleton, ← List.flatMap_def,
    List.append_assoc, List.append_assoc]

/-- of lists no two of which have elements that satisfy `p`, at most one does -/
theorem filter_flatten_once {α : Type} {p : α → Bool} {L : List (List α)}
    (h : L.Pairwise fun g g' => ∀ a ∈ g, ∀ b ∈ g', ¬(p a = true ∧ p b = true)) :
    L.flatten.filter p = [] ∨ ∃ g ∈ L, L.flatten.filter p = g.filter p := by
  induction L with
  | nil => exact Or.inl rfl
  | cons g L ih =>
    obtain ⟨hg, hL⟩ := List.pairwise_cons.1 h
    rw [List.flatten_cons, List.filter_append]
    by_cases hsome : ∃ a ∈ g, p a = true
    · obtain ⟨a, ha, hpa⟩ := hsome
      have hnone : L.flatten.filter p = [] := List.filter_eq_nil_iff.2 fun b hb hpb => by
        obtain ⟨g', hg', hmem⟩ := List.mem_flatten.1 hb
        exact hg g' hg' a ha b hmem ⟨hpa, hpb⟩
      rw [hnone, List.append_nil]
      exact Or.inr ⟨g, List.mem_cons_self, rfl⟩
    · push Not at hsome
      have hnone : g.filter p = [] := List.filter_eq_nil_iff.2 fun a ha => by simp [hsome a ha]
      rw [hnone, List.nil_append]
      rcases ih hL with hempty | ⟨g', hg', heq⟩
      · exact Or.inl hempty
      · exact Or.inr ⟨g', List.mem_cons_of_mem g hg', heq⟩

section Event

variable {H : Hashing Row Hash} {change : ResultChangeEvent Row} {hash : Hash}

variable (H hash) in
theorem updateOps_hash (u : UpdatePayload Row) :
    HashOps hash ((updateOps H u).filter (StoreOp.about hash)) ∧
      ∀ row, (updateOps H u).filter (StoreOp.about hash) = [.close hash, .upsert hash row] →
        ∃ b, u.before = some b ∧ u.after = some row ∧ updateKey H u b = hash ∧ updateKey H u row = hash := by
  unfold updateOps
  rcases hb : u.before with _ | b <;> rcases ha : u.after with _ | a
  · exact ⟨by simpa using HashOps.none, by simp⟩
  · by_cases hka : updateKey H u a = hash
    · subst hka
      exact ⟨by simpa [StoreOp.about] using HashOps.upsert a, by simp [StoreOp.about]⟩
    · exact ⟨by simpa [StoreOp.about, hka] using HashOps.none, by simp [StoreOp.about, hka]⟩
  · by_cases hkb : updateKey H u b = hash
    · subst hkb
      exact ⟨by simpa [StoreOp.about] using HashOps.close, by simp [StoreOp.about]⟩
    · exact ⟨by simpa [StoreOp.about, hkb] using HashOps.none, by simp [StoreOp.about, hkb]⟩
  · by_cases hkb : updateKey H u b = hash <;> by_cases hka : updateKey H u a = hash
    · refine ⟨by simpa [StoreOp.about, hkb, hka] using HashOps.replace a, fun row hrow => ?_⟩
      simp only [Option.map_some, Option.toList_some, StoreOp.about, hkb, hka, List.singleton_append, decide_true,
        List.filter_cons_of_pos, List.filter_nil, List.cons.injEq, StoreOp.upsert.injEq, true_and, and_true] at hrow
      subst hrow
      exact ⟨b, rfl, rfl, hkb, hka⟩
    · exact ⟨by simpa [StoreOp.about, hkb, hka] using HashOps.close, by simp [StoreOp.about, hkb, hka]⟩
    · exact ⟨by simpa [StoreOp.about, hkb, hka] using HashOps.upsert a, by simp [StoreOp.about, hkb, hka]⟩
    · exact ⟨by simpa [StoreOp.about, hkb, hka] using HashOps.none, by simp [StoreOp.about, hkb, hka]⟩

variable (hash) in
/-- an event that touches a hash once has one of four forms for it; a close and an upsert come from one update -/
theorem hashOps_event (honce : KeysOnce H change) :
    HashOps hash ((recordOps H change).filter (StoreOp.about hash)) ∧
      ∀ row, (recordOps H change).filter (StoreOp.about hash) = [.close hash, .upsert hash row] →
        ∃ u ∈ change.updatedResults, ∃ b, u.before = some b ∧ u.after = some row ∧ updateKey H u b = hash ∧
          updateKey H u row = hash := by
  have hfilter : (recordOps H change).filter (StoreOp.about hash) =
      (eventGroups H change).flatten.filter (StoreOp.about hash) := by
    rw [recordOps_eq_groups, List.filter_append]
    simp [StoreOp.about]
  rw [hfilter]
  have hpair : (eventGroups H change).Pairwise fun g g' => ∀ op ∈ g, ∀ op' ∈ g',
      ¬(op.about hash = true ∧ op'.about hash = true) :=
    honce.imp fun h op hop op' hop' => h op hop op' hop' hash
  rcases filter_flatten_once hpair with hnone | ⟨g, hg, hone⟩
  · rw [hnone]
    exact ⟨HashOps.none, by simp⟩
  · rw [hone]
    rcases List.mem_append.1 hg with hdel | hrest
    · obtain ⟨del, -, rfl⟩ := List.mem_map.1 hdel
      by_cases hk : H.hashValues del = hash
      · subst hk
        exact ⟨by simpa [StoreOp.about] using HashOps.close, by simp [StoreOp.about]⟩
      · exact ⟨by simpa [StoreOp.about, hk] using HashOps.none, by simp [StoreOp.about, hk]⟩
    · rcases List.mem_append.1 hrest with hupd | hadd
      · obtain ⟨u, hu, rfl⟩ := List.mem_map.1 hupd
        obtain ⟨hops, hboth⟩ := updateOps_hash H hash u
        exact ⟨hops, fun row hrow => ⟨u, hu, hboth row hrow⟩⟩
      · obtain ⟨add, -, rfl⟩ := List.mem_map.1 hadd
        by_cases hk : H.hashValues add = hash
        · subst hk
          exact ⟨by simpa [StoreOp.about] using HashOps.upsert add, by simp [StoreOp.about]⟩
        · exact ⟨by simpa [StoreOp.about, hk] using HashOps.none, by simp [StoreOp.about, hk]⟩

omit [DecidableEq Hash] in
theorem mem_leftover {policy : RetentionPolicy} {ts : Int64} {pre : List (StoreOp Row Hash)} {d : ViewDocument Row Hash}
    (h : d ∈ leftover policy ts pre) :
    policy ≠ .latest ∧ ts - 1 ≠ maxTimestamp ∧
      ∃ hash' row, pre = [.close hash', .upsert d.hash row] ∧ d = ⟨d.hash, row, ts, ts - 1⟩ := by
  unfold leftover at h
  split at h
  case h_1 hash' hash row =>
    by_cases hno : policy = .latest ∨ ts - 1 = maxTimestamp
    · simp [hno] at h
    · rw [if_neg hno, Multiset.mem_singleton] at h
      rw [not_or] at hno
      subst h
      exact ⟨hno.1, hno.2, hash', row, rfl, rfl⟩
  case h_2 => simp at h

/-- the update keeps the key of its row, and has been executed to its end -/
def KeepsKey (H : Hashing Row Hash) (change : ResultChangeEvent Row) (n : ℕ) (u : UpdatePayload Row) (a : Row) : Prop :=
  ∃ b, u.before = some b ∧ u.after = some a ∧ updateKey H u b = updateKey H u a ∧
    .upsert (updateKey H u a) a ∈ (recordOps H change).take n

variable (H change hash) in
theorem isPrefix_take_filter (n : ℕ) :
    ((recordOps H change).take n).filter (StoreOp.about hash) <+: (recordOps H change).filter (StoreOp.about hash) :=
  (List.take_prefix n _).filter _

/-- what the replay leaves closed at once: the rows of the executed updates that keep their key -/
theorem mem_leftover_iff (honce : KeysOnce H change) {policy : RetentionPolicy} {ts : Int64} {n : ℕ}
    {d : ViewDocument Row Hash} :
    d ∈ leftover policy ts (((recordOps H change).take n).filter (StoreOp.about d.hash)) ↔
      policy ≠ .latest ∧ ts - 1 ≠ maxTimestamp ∧
        ∃ u ∈ change.updatedResults, ∃ a, KeepsKey H change n u a ∧ d = ⟨updateKey H u a, a, ts, ts - 1⟩ := by
  obtain ⟨hops, hboth⟩ := hashOps_event d.hash honce
  have hpre := isPrefix_take_filter H change d.hash n
  constructor
  · intro h
    obtain ⟨hp, hts, hash', row, heq, hd⟩ := mem_leftover h
    refine ⟨hp, hts, ?_⟩
    rw [heq] at hpre
    have hfull := hops.eq_replace hpre
    obtain ⟨u, hu, b, hb, ha, hkb, hka⟩ := hboth row hfull
    refine ⟨u, hu, row, ⟨b, hb, ha, hkb.trans hka.symm, ?_⟩, by rw [hka]; exact hd⟩
    rw [hka]
    have hmem : StoreOp.upsert d.hash row ∈ ((recordOps H change).take n).filter (StoreOp.about d.hash) := by
      rw [heq]
      simp
    exact (List.mem_filter.1 hmem).1
  · rintro ⟨hp, hts, u, hu, a, ⟨b, hb, ha, hkey, htaken⟩, hd⟩
    have hhash : d.hash = updateKey H u a := by rw [hd]
    have hclose : StoreOp.close d.hash ∈ (recordOps H change).filter (StoreOp.about d.hash) := by
      refine List.mem_filter.2 ⟨List.mem_append_right _ (List.mem_append_left _ ?_), by simp [StoreOp.about]⟩
      refine List.mem_flatMap.2 ⟨u, hu, List.mem_append_left _ ?_⟩
      simp [hb, hhash, hkey]
    have hupsert : StoreOp.upsert d.hash a ∈ ((recordOps H change).take n).filter (StoreOp.about d.hash) :=
      List.mem_filter.2 ⟨by rwa [hhash], by simp [StoreOp.about]⟩
    rw [hops.eq_of_upsert hpre hclose hupsert]
    simp only [leftover, hp, hts, or_self, if_false, Multiset.mem_singleton]
    rw [hd]
    rfl

end Event

/-! ## The replayed documents -/

section Replay

variable {H : Hashing Row Hash} {change : ResultChangeEvent Row} {docs : List (ViewDocument Row Hash)}

/-- the copies of a document are counted among the documents of its hash -/
theorem count_docsOf [DecidableEq (ViewDocument Row Hash)] (d : ViewDocument Row Hash)
    (docs : List (ViewDocument Row Hash)) : (docsOf d.hash docs).count d = docs.count d :=
  List.count_filter (decide_eq_true rfl)

/-- **A replay** leaves what one execution leaves, and the executed updates' rows that are closed at once. -/
theorem replay_extra (hu : OpenUnique docs) (honce : KeysOnce H change) (policy : RetentionPolicy) (ts : Int64) (n : ℕ) :
    let ops := recordOps H change
    ∃ extra : Multiset (ViewDocument Row Hash),
      ((ops.foldl (StoreOp.onDocs policy ts) ((ops.take n).foldl (StoreOp.onDocs policy ts) docs) :
          List (ViewDocument Row Hash)) : Multiset (ViewDocument Row Hash)) =
        ↑(ops.foldl (StoreOp.onDocs policy ts) docs) + extra ∧
      ∀ d, d ∈ extra ↔ policy ≠ .latest ∧ ts - 1 ≠ maxTimestamp ∧
        ∃ u ∈ change.updatedResults, ∃ a, KeepsKey H change n u a ∧ d = ⟨updateKey H u a, a, ts, ts - 1⟩ := by
  classical
  intro ops
  have hcount : ∀ d, (ops.foldl (StoreOp.onDocs policy ts) ((ops.take n).foldl (StoreOp.onDocs policy ts) docs)).count d =
      (ops.foldl (StoreOp.onDocs policy ts) docs).count d +
        (leftover policy ts ((ops.take n).filter (StoreOp.about d.hash))).count d := fun d => by
    -- only the operations of its own hash count for a document
    rw [← count_docsOf, ← count_docsOf d (ops.foldl _ docs), docsOf_foldl, docsOf_foldl, docsOf_foldl]
    obtain ⟨C, o, hconsists⟩ := consists_docsOf d.hash hu
    have hreplay := replay_docs policy ts (hashOps_event d.hash honce).1
      (isPrefix_take_filter H change d.hash n) hconsists
    rw [← Multiset.coe_count, hreplay, Multiset.count_add, Multiset.coe_count]
  have hle : (↑(ops.foldl (StoreOp.onDocs policy ts) docs) : Multiset (ViewDocument Row Hash)) ≤
      ↑(ops.foldl (StoreOp.onDocs policy ts) ((ops.take n).foldl (StoreOp.onDocs policy ts) docs)) :=
    Multiset.le_iff_count.2 fun d => by
      rw [Multiset.coe_count, Multiset.coe_count, hcount d]
      exact Nat.le_add_right _ _
  refine ⟨_, (add_tsub_cancel_of_le hle).symm, fun d => ?_⟩
  rw [← mem_leftover_iff honce, ← Multiset.count_pos, ← Multiset.count_pos, Multiset.count_sub, Multiset.coe_count,
    Multiset.coe_count, hcount d, Nat.add_sub_cancel_left]

end Replay

omit [DecidableEq Hash] in
theorem findRows_coe (docs : List (ViewDocument Row Hash)) (instant : Int64) :
    (findRows docs instant : Multiset Row) =
      ((docs : Multiset (ViewDocument Row Hash)).filter fun d => d.validFrom ≤ instant ∧ instant ≤ d.validTo).map
        (·.result) := by
  rw [findRows, validAt, ← Multiset.map_coe, ← Multiset.filter_coe]

/-- only at the least time does `ts - 1` wrap -/
theorem eq_minValue {ts instant : Int64} (hfrom : ts ≤ instant) (hto : instant ≤ ts - 1) : ts = Int64.minValue := by
  by_contra hne
  have hlt : ts - 1 < ts := by
    have hne' : ts.toInt ≠ Int64.minValue.toInt := fun h => hne (Int64.toInt_inj.1 h)
    have hmin : Int64.minValue.toInt = -2 ^ 63 := rfl
    have := ts.le_toInt
    have := ts.toInt_lt
    rw [Int64.lt_iff_toInt_lt, Int64.toInt_sub]
    simp only [Int64.toInt_one, Int.bmod]
    omega
  exact absurd (Int64.le_trans hfrom hto) (Int64.not_le.2 hlt)

/-! ## The metadata -/

theorem state_foldl_exec (policy : RetentionPolicy) (ts : Int64) (ops : List (StoreOp Row Hash)) (c : Collection Row Hash) :
    (ops.foldl (StoreOp.exec policy ts) c).metadata.bind (·.state) = c.metadata.bind (·.state) := by
  induction ops generalizing c with
  | nil => rfl
  | cons op ops ih =>
    rw [List.foldl_cons, ih]
    cases op <;> rfl

/-- an event writes its own sequence and time, and leaves the state as it is -/
theorem metadata_recordOps (H : Hashing Row Hash) (change : ResultChangeEvent Row) (policy : RetentionPolicy) (ts : Int64)
    (c : Collection Row Hash) :
    ((recordOps H change).foldl (StoreOp.exec policy ts) c).metadata =
      some ⟨change.sequence.toInt64, ts, c.metadata.bind (·.state)⟩ := by
  rw [recordOps_eq_groups, List.foldl_append, List.foldl_cons, List.foldl_nil]
  change some (MetadataDocument.mk _ _ _) = _
  rw [state_foldl_exec]

/-! ## Reachable view states -/

/-- what happens to the store of a view: a worker starts or is reconfigured, a result event is recorded up to a failure or
to its end, the state is set, the view is deleted, the process is lost, garbage is collected -/
inductive ViewStoreOp (Row : Type) where
  | configure (policy : RetentionPolicy)
  | record (change : ResultChangeEvent Row) (n : ℕ)
  | setState (sequence ts : UInt64) (state : String)
  | deleteView
  | forget
  | collectGarbage (now : UInt64)

def ViewStoreOp.step (H : Hashing Row Hash) (queryId : String) (st : MongoViewStore Row Hash) :
    ViewStoreOp Row → MongoViewStore Row Hash
  | .configure policy => st.setRetentionPolicy queryId policy
  | .record change n => recordPrefix H st queryId change n
  | .setState sequence ts state => st.setState queryId sequence ts state
  | .deleteView => st.deleteView queryId
  | .forget => st.forget queryId
  | .collectGarbage now => st.collectGarbage queryId now

/-- a store without views -/
def MongoViewStore.empty : MongoViewStore Row Hash := ⟨fun _ => none, fun _ => ⟨[], none⟩⟩

theorem openUnique_step (H : Hashing Row Hash) (queryId : String) (st : MongoViewStore Row Hash) (o : ViewStoreOp Row)
    (hu : OpenUnique (st.collection queryId).docs) : OpenUnique ((o.step H queryId st).collection queryId).docs := by
  cases o with
  | configure policy => exact hu
  | record change n =>
    simp only [ViewStoreOp.step, recordPrefix]
    split
    · exact hu
    · simpa using (openRow_foldl_exec _ _ _ _ hu).2
  | setState sequence ts state => simpa [ViewStoreOp.step, MongoViewStore.setState] using hu
  | deleteView => simp [ViewStoreOp.step, MongoViewStore.deleteView, OpenUnique, openDocuments]
  | forget => exact hu
  | collectGarbage now =>
    simp only [ViewStoreOp.step, MongoViewStore.collectGarbage]
    split
    · simp only [Function.update_self]
      exact hu.sublist ((List.filter_sublist.filter _).map _)
    · exact hu

/-- in every view state, no hash has two open documents -/
theorem openUnique_run (H : Hashing Row Hash) (queryId : String) (ops : List (ViewStoreOp Row)) :
    OpenUnique ((run (ViewStoreOp.step H queryId) (.empty : MongoViewStore Row Hash) ops).collection queryId).docs := by
  refine run_inv (fun st o => openUnique_step H queryId st o) _ ops ?_
  exact List.nodup_nil

/-! ## Redelivery -/

/-- the same header, and the same rows in any order; or the same error -/
def SameAnswer : Except ViewError (Header × List Row) → Except ViewError (Header × List Row) → Prop
  | .ok (header, rows), .ok (header', rows') => header = header' ∧ rows.Perm rows'
  | .error e, .error e' => e = e'
  | _, _ => False

/-- the store after a failure, and the whole event again -/
def redelivered (H : Hashing Row Hash) (st : MongoViewStore Row Hash) (queryId : String) (change : ResultChangeEvent Row)
    (n : ℕ) : MongoViewStore Row Hash :=
  (recordChange H (recordPrefix H st queryId change n) queryId change).2

/-- at no time does `get_view` tell the two stores apart -/
def SameViews (queryId : String) (st st' : MongoViewStore Row Hash) : Prop :=
  ∀ timestamp now, SameAnswer (getView st queryId timestamp now) (getView st' queryId timestamp now)

section Redelivery

variable {H : Hashing Row Hash} {st : MongoViewStore Row Hash} {queryId : String} {policy : RetentionPolicy}
  {change : ResultChangeEvent Row}

variable (H change) in
theorem getView_recordChange (hpolicy : st.retentionPolicy queryId = some policy) (timestamp : Option UInt64)
    (now : UInt64) :
    let ts := change.sourceTimeMs.toInt64
    let c := st.collection queryId
    let m : MetadataDocument := ⟨change.sequence.toInt64, ts, c.metadata.bind (·.state)⟩
    getView (recordChange H st queryId change).2 queryId timestamp now =
      if expired policy timestamp now then .error .notFound
      else .ok (m.header, findRows ((recordOps H change).foldl (StoreOp.onDocs policy ts) c.docs)
        (effectiveAt m timestamp now)) := by
  simp only [getView, recordChange, hpolicy, Function.update_self, metadata_recordOps, foldl_exec_docs]

theorem getView_redelivered (hpolicy : st.retentionPolicy queryId = some policy) (n : ℕ) (timestamp : Option UInt64)
    (now : UInt64) :
    let ts := change.sourceTimeMs.toInt64
    let c := st.collection queryId
    let m : MetadataDocument := ⟨change.sequence.toInt64, ts, c.metadata.bind (·.state)⟩
    getView (redelivered H st queryId change n) queryId timestamp now =
      if expired policy timestamp now then .error .notFound
      else .ok (m.header, findRows ((recordOps H change).foldl (StoreOp.onDocs policy ts)
        (((recordOps H change).take n).foldl (StoreOp.onDocs policy ts) c.docs)) (effectiveAt m timestamp now)) := by
  have hbegin : (recordPrefix H st queryId change n).retentionPolicy queryId = some policy := by
    simp [recordPrefix, hpolicy]
  have hview := getView_recordChange H change hbegin timestamp now
  have hcollection : (recordPrefix H st queryId change n).collection queryId =
      ((recordOps H change).take n).foldl (StoreOp.exec policy change.sourceTimeMs.toInt64) (st.collection queryId) := by
    simp [recordPrefix, hpolicy]
  rw [hcollection] at hview
  simp only [state_foldl_exec, foldl_exec_docs] at hview
  exact hview

end Redelivery

/-- a view of natural numbers that are hashed to themselves, with the policy, showing 7 -/
def sevenView (policy : RetentionPolicy) : List (ViewStoreOp ℕ) :=
  [.configure policy, .record ⟨1, 1000, [7], [], []⟩ 2]

/-- an update that keeps the key of its row -/
def keptEvent (sourceTimeMs : UInt64) : ResultChangeEvent ℕ := ⟨2, sourceTimeMs, [], [⟨some 7, some 7, none⟩], []⟩

theorem keptEvent_once (sourceTimeMs : UInt64) : KeysOnce numberHashing (keptEvent sourceTimeMs) := by
  simp [KeysOnce, eventGroups, keptEvent]

end DrasiPlatform.View
