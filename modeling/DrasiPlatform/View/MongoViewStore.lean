/-
The view store on MongoDB (`query-container/view-svc/src/mongo_view_store.rs`): the result set of a query kept as documents
with a validity interval, one collection per query.

A document is keyed by the hash of its row and is OPEN while `validTo` is `MAX_TIMESTAMP`. `record_change` turns a result
event (deleted, updated and added rows, a simultaneous change of the result set) into a SEQUENCE of single-document
operations: close the deleted rows; for each update close its `before` and upsert its `after`; upsert the added rows;
write the metadata. A row is closed by deleting its document (`Latest`) or by ending its validity at `ts - 1` (the other
policies).

Rows and hashes are parameters: `record_change` looks at a row only through `hash_values` and `hash_grouping_values`.
Timestamps are the source's `i64` (a `u64` source time is reinterpreted, arithmetic wraps as in a release build).

- `openRow_closeOne`, `openRow_upsertOne`: on the map from hashes to open rows, the two operations are writes.
- `shows_iff`: the open documents are exactly the rows of `S` iff that map is the one of `S`.
-/
import Mathlib.Tactic

namespace DrasiPlatform.View

/-! ## Model -/

inductive RetentionPolicy where
  | latest
  | expire (afterSeconds : UInt64)
  | all
deriving DecidableEq, Repr

/-- 9999-12-31T23:59:59.999Z -/
def maxTimestamp : Int64 := 253402300799999

structure UpdatePayload (Row : Type) where
  before : Option Row
  after : Option Row
  groupingKeys : Option (List String)

/-- a result event; the fields `record_change` reads -/
structure ResultChangeEvent (Row : Type) where
  sequence : UInt64
  sourceTimeMs : UInt64
  addedResults : List Row
  updatedResults : List (UpdatePayload Row)
  deletedResults : List Row

structure ViewDocument (Row Hash : Type) where
  hash : Hash
  result : Row
  validFrom : Int64
  validTo : Int64
deriving DecidableEq, Repr

structure MetadataDocument where
  seq : Int64
  ts : Int64
  state : Option String
deriving DecidableEq, Repr

/-- the collection of a query: its view documents and the document with id `$metadata` -/
structure Collection (Row Hash : Type) where
  docs : List (ViewDocument Row Hash)
  metadata : Option MetadataDocument

/-- `hash_values` and `hash_grouping_values` -/
structure Hashing (Row Hash : Type) where
  hashValues : Row → Hash
  hashGroupingValues : Row → List String → Hash

inductive ViewError where
  | storeError
  | notFound
deriving DecidableEq, Repr

structure MongoViewStore (Row Hash : Type) where
  retentionPolicy : String → Option RetentionPolicy
  collection : String → Collection Row Hash

variable {Row Hash : Type} [DecidableEq Hash]

/-- the filter `{ "hash": .., "validTo": MAX_TIMESTAMP }` -/
def matchesOpen (hash : Hash) (d : ViewDocument Row Hash) : Bool := d.hash = hash ∧ d.validTo = maxTimestamp

/-- change the first element that satisfies `p` -/
def modifyFirst {α : Type} (p : α → Bool) (f : α → α) : List α → List α
  | [] => []
  | a :: l => if p a then f a :: l else a :: modifyFirst p f l

/-- close the open document of a hash: `find_one_and_delete` or `find_one_and_update` of `validTo` -/
def closeOne (policy : RetentionPolicy) (ts : Int64) (hash : Hash) (docs : List (ViewDocument Row Hash)) :
    List (ViewDocument Row Hash) :=
  match policy with
  | .latest => docs.eraseP (matchesOpen hash)
  | _ => modifyFirst (matchesOpen hash) (fun d => { d with validTo := ts - 1 }) docs

/-- `find_one_and_replace` of the open document of a hash, with upsert -/
def upsertOne (ts : Int64) (hash : Hash) (row : Row) (docs : List (ViewDocument Row Hash)) :
    List (ViewDocument Row Hash) :=
  let doc : ViewDocument Row Hash := ⟨hash, row, ts, maxTimestamp⟩
  if docs.any (matchesOpen hash) then modifyFirst (matchesOpen hash) (fun _ => doc) docs else docs ++ [doc]

/-- the key of a row of an update -/
def updateKey (H : Hashing Row Hash) (u : UpdatePayload Row) (row : Row) : Hash :=
  match u.groupingKeys with
  | some keys => H.hashGroupingValues row keys
  | none => H.hashValues row

/-- one single-document operation of `record_change` -/
inductive StoreOp (Row Hash : Type) where
  | close (hash : Hash)
  | upsert (hash : Hash) (row : Row)
  | metadata (seq : UInt64)

def StoreOp.exec (policy : RetentionPolicy) (ts : Int64) (c : Collection Row Hash) : StoreOp Row Hash → Collection Row Hash
  | .close hash => { c with docs := closeOne policy ts hash c.docs }
  | .upsert hash row => { c with docs := upsertOne ts hash row c.docs }
  | .metadata seq => { c with metadata := some ⟨seq.toInt64, ts, c.metadata.bind (·.state)⟩ }

/-- the operations for one update: close `before`, then upsert `after` -/
def updateOps (H : Hashing Row Hash) (u : UpdatePayload Row) : List (StoreOp Row Hash) :=
  (u.before.map fun b => .close (updateKey H u b)).toList ++
    (u.after.map fun a => .upsert (updateKey H u a) a).toList

/-- the operations of `record_change`, in order -/
def recordOps (H : Hashing Row Hash) (change : ResultChangeEvent Row) : List (StoreOp Row Hash) :=
  change.deletedResults.map (fun del => .close (H.hashValues del)) ++
    (change.updatedResults.flatMap (updateOps H) ++
      (change.addedResults.map (fun add => .upsert (H.hashValues add) add) ++ [.metadata change.sequence]))

/-- `record_change`, with every store call answered -/
def recordChange (H : Hashing Row Hash) (st : MongoViewStore Row Hash) (queryId : String)
    (change : ResultChangeEvent Row) : Except ViewError Unit × MongoViewStore Row Hash :=
  match st.retentionPolicy queryId with
  | none => (.error .notFound, st)
  | some policy =>
    let ts := change.sourceTimeMs.toInt64
    let c := (recordOps H change).foldl (StoreOp.exec policy ts) (st.collection queryId)
    (.ok (), { st with collection := Function.update st.collection queryId c })

/-! ## The open rows -/

/-- the open documents -/
def openDocuments (docs : List (ViewDocument Row Hash)) : List (ViewDocument Row Hash) :=
  docs.filter fun d => d.validTo = maxTimestamp

/-- the open documents are exactly the rows of `S`, each once, under their keys -/
structure Shows (key : Row → Hash) (docs : List (ViewDocument Row Hash)) (S : Finset Row) : Prop where
  rows : ((openDocuments docs).map (·.result) : Multiset Row) = S.val
  keyed : ∀ d ∈ openDocuments docs, d.hash = key d.result

/-- the open row of a hash -/
def openRow (docs : List (ViewDocument Row Hash)) (hash : Hash) : Option Row :=
  (docs.find? (matchesOpen hash)).map (·.result)

/-- no hash has two open documents -/
def OpenUnique (docs : List (ViewDocument Row Hash)) : Prop := ((openDocuments docs).map (·.hash)).Nodup

/-- closing takes effect: the document is deleted, or its validity ends at an instant other than `MAX_TIMESTAMP` -/
def Closes (policy : RetentionPolicy) (ts : Int64) : Prop := policy = .latest ∨ ts - 1 ≠ maxTimestamp

instance (policy : RetentionPolicy) (ts : Int64) : Decidable (Closes policy ts) :=
  inferInstanceAs (Decidable (_ ∨ _))

omit [DecidableEq Hash] in
theorem openDocuments_cons (d : ViewDocument Row Hash) (docs : List (ViewDocument Row Hash)) :
    openDocuments (d :: docs) = if d.validTo = maxTimestamp then d :: openDocuments docs else openDocuments docs := by
  by_cases h : d.validTo = maxTimestamp <;> simp [openDocuments, h]

theorem openDocuments_eraseP (hash : Hash) (docs : List (ViewDocument Row Hash)) :
    openDocuments (docs.eraseP (matchesOpen hash)) = (openDocuments docs).eraseP fun d => d.hash = hash := by
  induction docs with
  | nil => rfl
  | cons d docs ih =>
    by_cases ho : d.validTo = maxTimestamp <;> by_cases hh : d.hash = hash <;>
      simp [matchesOpen, openDocuments_cons, ho, hh, ih]

theorem openDocuments_endValidity (hash : Hash) {t : Int64} (ht : t ≠ maxTimestamp) (docs : List (ViewDocument Row Hash)) :
    openDocuments (modifyFirst (matchesOpen hash) (fun d => { d with validTo := t }) docs) =
      (openDocuments docs).eraseP fun d => d.hash = hash := by
  induction docs with
  | nil => rfl
  | cons d docs ih =>
    by_cases ho : d.validTo = maxTimestamp <;> by_cases hh : d.hash = hash <;>
      simp [modifyFirst, matchesOpen, openDocuments_cons, ho, hh, ht, ih]

/-- ending the validity at `MAX_TIMESTAMP` changes no document -/
theorem modifyFirst_maxTimestamp (hash : Hash) (docs : List (ViewDocument Row Hash)) :
    modifyFirst (matchesOpen hash) (fun d => { d with validTo := maxTimestamp }) docs = docs := by
  induction docs with
  | nil => rfl
  | cons d docs ih =>
    by_cases hm : matchesOpen hash d
    · have hd : d.validTo = maxTimestamp := by simp [matchesOpen] at hm; exact hm.2
      simp only [modifyFirst, hm, if_true, ← hd]
    · simp [modifyFirst, hm, ih]

/-- the two ways of closing do the same to the open documents -/
theorem openDocuments_closeOne {policy : RetentionPolicy} {ts : Int64} (hc : Closes policy ts) (hash : Hash)
    (docs : List (ViewDocument Row Hash)) :
    openDocuments (closeOne policy ts hash docs) = (openDocuments docs).eraseP fun d => d.hash = hash := by
  cases policy with
  | latest => exact openDocuments_eraseP hash docs
  | expire _ => exact openDocuments_endValidity hash (hc.resolve_left (by simp)) docs
  | all => exact openDocuments_endValidity hash (hc.resolve_left (by simp)) docs

theorem closeOne_of_not_closes {policy : RetentionPolicy} {ts : Int64} (hc : ¬ Closes policy ts) (hash : Hash)
    (docs : List (ViewDocument Row Hash)) : closeOne policy ts hash docs = docs := by
  simp only [Closes, not_or, not_not] at hc
  cases policy with
  | latest => exact absurd rfl hc.1
  | expire _ => simp only [closeOne, hc.2]; exact modifyFirst_maxTimestamp hash docs
  | all => simp only [closeOne, hc.2]; exact modifyFirst_maxTimestamp hash docs

theorem any_matchesOpen (hash : Hash) (docs : List (ViewDocument Row Hash)) :
    docs.any (matchesOpen hash) = (openDocuments docs).any fun d => d.hash = hash := by
  induction docs with
  | nil => rfl
  | cons d docs ih =>
    by_cases ho : d.validTo = maxTimestamp <;> simp [openDocuments_cons, ho, ih, matchesOpen]

theorem openDocuments_replace (hash : Hash) (doc : ViewDocument Row Hash) (hd : doc.validTo = maxTimestamp)
    (docs : List (ViewDocument Row Hash)) :
    openDocuments (modifyFirst (matchesOpen hash) (fun _ => doc) docs) =
      modifyFirst (fun d => d.hash = hash) (fun _ => doc) (openDocuments docs) := by
  induction docs with
  | nil => rfl
  | cons d docs ih =>
    by_cases ho : d.validTo = maxTimestamp <;> by_cases hh : d.hash = hash <;>
      simp [modifyFirst, matchesOpen, openDocuments_cons, ho, hh, hd, ih]

theorem openDocuments_upsertOne (ts : Int64) (hash : Hash) (row : Row) (docs : List (ViewDocument Row Hash)) :
    openDocuments (upsertOne ts hash row docs) =
      if (openDocuments docs).any (fun d => d.hash = hash) then
        modifyFirst (fun d => d.hash = hash) (fun _ => ⟨hash, row, ts, maxTimestamp⟩) (openDocuments docs)
      else openDocuments docs ++ [⟨hash, row, ts, maxTimestamp⟩] := by
  unfold upsertOne
  rw [any_matchesOpen]
  split_ifs with h
  · exact openDocuments_replace hash _ rfl docs
  · simp [openDocuments]

/-! ### As a map from hashes to rows -/

theorem openRow_eq (docs : List (ViewDocument Row Hash)) (hash : Hash) :
    openRow docs hash = ((openDocuments docs).find? fun d => d.hash = hash).map (·.result) := by
  induction docs with
  | nil => rfl
  | cons d docs ih =>
    by_cases ho : d.validTo = maxTimestamp <;> by_cases hh : d.hash = hash <;>
      simp_all [openRow, matchesOpen, openDocuments_cons]

theorem find?_eraseP_hash (o : List (ViewDocument Row Hash)) (hn : (o.map (·.hash)).Nodup) (hash hash' : Hash) :
    (o.eraseP fun d => d.hash = hash).find? (fun d => d.hash = hash') =
      if hash' = hash then none else o.find? fun d => d.hash = hash' := by
  induction o with
  | nil => simp
  | cons d o ih =>
    obtain ⟨hd, hn⟩ := List.nodup_cons.1 hn
    by_cases hh : d.hash = hash
    · subst hh
      have hnone : o.find? (fun d' => d'.hash = d.hash) = none := by
        simp only [List.find?_eq_none, decide_eq_true_eq]
        intro d' hd' he
        exact hd (List.mem_map.2 ⟨d', hd', he⟩)
      by_cases hh' : hash' = d.hash
      · subst hh'; simpa using hnone
      · simp [hh', Ne.symm hh']
    · by_cases hh' : d.hash = hash'
      · subst hh'; simp [hh]
      · simp [hh, hh', ih hn]

theorem find?_modifyFirst_hash (o : List (ViewDocument Row Hash)) (hash hash' : Hash) (doc : ViewDocument Row Hash)
    (hd : doc.hash = hash) (ha : ∃ d ∈ o, d.hash = hash) :
    (modifyFirst (fun d => d.hash = hash) (fun _ => doc) o).find? (fun d => d.hash = hash') =
      if hash' = hash then some doc else o.find? fun d => d.hash = hash' := by
  induction o with
  | nil => simp at ha
  | cons d o ih =>
    by_cases hh : d.hash = hash
    · by_cases hh' : hash' = hash
      · simp [modifyFirst, hh, hh', hd]
      · simp [modifyFirst, hh, hh', hd, Ne.symm hh']
    · have ha' : ∃ d ∈ o, d.hash = hash := by simpa [hh] using ha
      by_cases hh' : d.hash = hash'
      · subst hh'; simp [modifyFirst, hh]
      · simp [modifyFirst, hh, hh', ih ha']

theorem map_hash_modifyFirst (o : List (ViewDocument Row Hash)) (hash : Hash) (doc : ViewDocument Row Hash)
    (hd : doc.hash = hash) :
    (modifyFirst (fun d => d.hash = hash) (fun _ => doc) o).map (·.hash) = o.map (·.hash) := by
  induction o with
  | nil => rfl
  | cons d o ih => by_cases hh : d.hash = hash <;> simp [modifyFirst, hh, hd, ih]

/-- **Closing** writes `none` to the hash. -/
theorem openRow_closeOne {policy : RetentionPolicy} {ts : Int64} (hc : Closes policy ts) (hash : Hash)
    {docs : List (ViewDocument Row Hash)} (hu : OpenUnique docs) :
    openRow (closeOne policy ts hash docs) = Function.update (openRow docs) hash none ∧
      OpenUnique (closeOne policy ts hash docs) := by
  constructor
  · funext hash'
    rw [openRow_eq, openDocuments_closeOne hc, find?_eraseP_hash _ hu, Function.update_apply, openRow_eq]
    split_ifs <;> rfl
  · unfold OpenUnique
    rw [openDocuments_closeOne hc]
    exact List.Nodup.sublist (List.eraseP_sublist.map _) hu

/-- **Upserting** writes the row to the hash. -/
theorem openRow_upsertOne (ts : Int64) (hash : Hash) (row : Row) {docs : List (ViewDocument Row Hash)}
    (hu : OpenUnique docs) :
    openRow (upsertOne ts hash row docs) = Function.update (openRow docs) hash (some row) ∧
      OpenUnique (upsertOne ts hash row docs) := by
  have hopen := openDocuments_upsertOne ts hash row docs
  by_cases ha : ∃ d ∈ openDocuments docs, d.hash = hash
  · rw [if_pos (by simpa using ha)] at hopen
    constructor
    · funext hash'
      rw [openRow_eq, hopen, find?_modifyFirst_hash _ hash hash' ⟨hash, row, ts, maxTimestamp⟩ rfl ha, Function.update_apply, openRow_eq]
      split_ifs <;> rfl
    · unfold OpenUnique
      rw [hopen, map_hash_modifyFirst _ hash ⟨hash, row, ts, maxTimestamp⟩ rfl]
      exact hu
  · rw [if_neg (by simpa using ha)] at hopen
    push Not at ha
    constructor
    · funext hash'
      rw [openRow_eq, hopen, List.find?_append, Function.update_apply, openRow_eq]
      split_ifs with hh
      · subst hh
        have hnone : (openDocuments docs).find? (fun d => d.hash = hash') = none := by
          simpa only [List.find?_eq_none, decide_eq_true_eq] using ha
        simp [hnone]
      · simp [Ne.symm hh]
    · unfold OpenUnique
      rw [hopen, List.map_append, List.nodup_append]
      refine ⟨hu, by simp, ?_⟩
      intro x hx y hy
      obtain ⟨d, hd, rfl⟩ := List.mem_map.1 hx
      simp only [List.map_cons, List.map_nil, List.mem_singleton] at hy
      subst hy
      exact ha d hd

theorem openRow_eq_some_iff {docs : List (ViewDocument Row Hash)} (hu : OpenUnique docs) (hash : Hash) (row : Row) :
    openRow docs hash = some row ↔ ∃ d ∈ openDocuments docs, d.hash = hash ∧ d.result = row := by
  rw [openRow_eq, Option.map_eq_some_iff]
  constructor
  · rintro ⟨d, hd, rfl⟩
    exact ⟨d, List.mem_of_find?_eq_some hd, by simpa using List.find?_some hd, rfl⟩
  · rintro ⟨d, hd, rfl, rfl⟩
    obtain ⟨d', hd'⟩ : ∃ d', (openDocuments docs).find? (fun d' => d'.hash = d.hash) = some d' := by
      rw [← Option.isSome_iff_exists, List.find?_isSome]; exact ⟨d, hd, by simp⟩
    have hhash : d'.hash = d.hash := by simpa using List.find?_some hd'
    have hdd : d' = d := List.inj_on_of_nodup_map hu (List.mem_of_find?_eq_some hd') hd hhash
    exact ⟨d', hd', by rw [hdd]⟩

/-- **The open documents are exactly the rows of `S`** iff no hash has two of them and the map from hashes to open rows is
the one of `S`. -/
theorem shows_iff {key : Row → Hash} {docs : List (ViewDocument Row Hash)} {S : Finset Row} (hinj : Set.InjOn key S) :
    Shows key docs S ↔ OpenUnique docs ∧ ∀ hash row, openRow docs hash = some row ↔ row ∈ S ∧ key row = hash := by
  constructor
  · intro h
    have hmem : ∀ r, r ∈ S ↔ ∃ d ∈ openDocuments docs, d.result = r := fun r => by
      rw [← Finset.mem_val, ← h.rows]; simp
    have hnodup : ((openDocuments docs).map (·.result)).Nodup := by
      rw [← Multiset.coe_nodup, h.rows]; exact S.nodup
    have hu : OpenUnique docs := by
      refine List.Nodup.map_on (fun d hd d' hd' he => ?_) hnodup.of_map
      rw [h.keyed d hd, h.keyed d' hd'] at he
      exact List.inj_on_of_nodup_map hnodup hd hd' (hinj ((hmem _).2 ⟨d, hd, rfl⟩) ((hmem _).2 ⟨d', hd', rfl⟩) he)
    refine ⟨hu, fun hash row => ?_⟩
    rw [openRow_eq_some_iff hu, hmem]
    constructor
    · rintro ⟨d, hd, rfl, rfl⟩; exact ⟨⟨d, hd, rfl⟩, (h.keyed d hd).symm⟩
    · rintro ⟨⟨d, hd, rfl⟩, rfl⟩; exact ⟨d, hd, h.keyed d hd, rfl⟩
  · rintro ⟨hu, hrow⟩
    have hopen : ∀ d ∈ openDocuments docs, d.result ∈ S ∧ key d.result = d.hash := fun d hd =>
      (hrow _ _).1 ((openRow_eq_some_iff hu _ _).2 ⟨d, hd, rfl, rfl⟩)
    refine ⟨?_, fun d hd => (hopen d hd).2.symm⟩
    have hnodup : ((openDocuments docs).map (·.result)).Nodup := by
      refine List.Nodup.map_on (fun d hd d' hd' he => ?_) hu.of_map
      refine List.inj_on_of_nodup_map hu hd hd' ?_
      rw [← (hopen d hd).2, ← (hopen d' hd').2, he]
    refine (Multiset.Nodup.ext (Multiset.coe_nodup.2 hnodup) S.nodup).2 fun r => ?_
    rw [Multiset.mem_coe, List.mem_map, Finset.mem_val]
    constructor
    · rintro ⟨d, hd, rfl⟩; exact (hopen d hd).1
    · intro hr
      obtain ⟨d, hd, -, he⟩ := (openRow_eq_some_iff hu _ _).1 ((hrow (key r) r).2 ⟨hr, rfl⟩)
      exact ⟨d, hd, he⟩

end DrasiPlatform.View
