/-
The rest of the view store (`query-container/view-svc/src/mongo_view_store.rs`, `view_worker.rs`, `api.rs`): what a view
answers, and the operations that are not `record_change`.

`get_view` reads the metadata document and then finds the documents that are valid at the EFFECTIVE time, the smaller of
the recorded time and the time asked for (the server's clock when no time is given). Unsigned source times and clocks are
reinterpreted as `i64`, and `now - after_seconds * 1000` wraps, as in a release build.

`handleEvent` is what the view worker does with one event of the results topic: a change is recorded; `BootstrapStarted`
and `QueryDeleted` delete the view; the other signals are written to the metadata. Deleting a view also removes its
retention policy from memory.

- `findRows_eq_openRows`: at an instant behind every start and every end of validity the view shows the open rows.
- `effectiveAt_of_le`, `effectiveAt_of_ge`: which of the two times is the effective one.
-/
import Mathlib.Tactic
import DrasiPlatform.View.MongoViewStore

namespace DrasiPlatform.View

/-! ## Model -/

inductive ControlSignal where
  | bootstrapStarted
  | bootstrapCompleted
  | running
  | stopped
  | queryDeleted
deriving DecidableEq, Repr

def ControlSignal.toString : ControlSignal → String
  | .bootstrapStarted => "bootstrapping"
  | .bootstrapCompleted => "bootstrap complete"
  | .running => "running"
  | .stopped => "stopped"
  | .queryDeleted => "deleted"

structure ResultControlEvent where
  sequence : UInt64
  sourceTimeMs : UInt64
  controlSignal : ControlSignal
deriving DecidableEq, Repr

inductive ResultEvent (Row : Type) where
  | change (event : ResultChangeEvent Row)
  | control (event : ResultControlEvent)

/-- the first element a view answers with -/
structure Header where
  sequence : UInt64
  timestamp : UInt64
  state : Option String
deriving DecidableEq, Repr

variable {Row Hash : Type}

/-- the documents valid at an instant -/
def validAt (docs : List (ViewDocument Row Hash)) (instant : Int64) : List (ViewDocument Row Hash) :=
  docs.filter fun d => d.validFrom ≤ instant ∧ instant ≤ d.validTo

/-- the filter of `get_view` -/
def findRows (docs : List (ViewDocument Row Hash)) (instant : Int64) : List Row := (validAt docs instant).map (·.result)

def MetadataDocument.header (m : MetadataDocument) : Header := ⟨m.seq.toUInt64, m.ts.toUInt64, m.state⟩

/-- `min(metadata.ts, timestamp)` with the server's clock for a missing timestamp -/
def effectiveAt (m : MetadataDocument) (timestamp : Option UInt64) (now : UInt64) : Int64 :=
  min m.ts (timestamp.getD now).toInt64

/-- the expiry check of `get_view` -/
def expired (policy : RetentionPolicy) (timestamp : Option UInt64) (now : UInt64) : Bool :=
  match policy with
  | .expire afterSeconds => (timestamp.getD now).toInt64 < (now - afterSeconds * 1000).toInt64
  | _ => false

def getView (st : MongoViewStore Row Hash) (queryId : String) (timestamp : Option UInt64) (now : UInt64) :
    Except ViewError (Header × List Row) :=
  match st.retentionPolicy queryId with
  | none => .error .notFound
  | some policy =>
    match (st.collection queryId).metadata with
    | none => .error .notFound
    | some m =>
      if expired policy timestamp now then .error .notFound
      else .ok (m.header, findRows (st.collection queryId).docs (effectiveAt m timestamp now))

namespace MongoViewStore

def setRetentionPolicy (st : MongoViewStore Row Hash) (queryId : String) (policy : RetentionPolicy) :
    MongoViewStore Row Hash :=
  { st with retentionPolicy := Function.update st.retentionPolicy queryId (some policy) }

/-- the policy is forgotten and the collection is dropped -/
def deleteView (st : MongoViewStore Row Hash) (queryId : String) : MongoViewStore Row Hash where
  retentionPolicy := Function.update st.retentionPolicy queryId none
  collection := Function.update st.collection queryId ⟨[], none⟩

def setState (st : MongoViewStore Row Hash) (queryId : String) (sequence ts : UInt64) (state : String) :
    MongoViewStore Row Hash :=
  let c := { st.collection queryId with metadata := some ⟨sequence.toInt64, ts.toInt64, some state⟩ }
  { st with collection := Function.update st.collection queryId c }

/-- `collect_garbage`, for one query -/
def collectGarbage (st : MongoViewStore Row Hash) (queryId : String) (now : UInt64) : MongoViewStore Row Hash :=
  match st.retentionPolicy queryId with
  | some (.expire afterSeconds) =>
    let epoch := now.toInt64 - afterSeconds.toInt64 * 1000
    let c := st.collection queryId
    { st with collection := Function.update st.collection queryId { c with docs := c.docs.filter fun d => epoch ≤ d.validTo } }
  | _ => st

end MongoViewStore

/-- a bootstrap starts with an empty result set, a deleted query has none -/
def resets : ControlSignal → Bool
  | .bootstrapStarted | .queryDeleted => true
  | _ => false

/-- what the worker does with a control event -/
def handleControl (st : MongoViewStore Row Hash) (queryId : String) (event : ResultControlEvent) :
    MongoViewStore Row Hash :=
  match event.controlSignal with
  | .bootstrapStarted | .queryDeleted => st.deleteView queryId
  | signal => st.setState queryId event.sequence event.sourceTimeMs signal.toString

/-- what the worker does with an event; an error ends the worker -/
def handleEvent [DecidableEq Hash] (H : Hashing Row Hash) (st : MongoViewStore Row Hash) (queryId : String) :
    ResultEvent Row → Except ViewError Unit × MongoViewStore Row Hash
  | .change event => recordChange H st queryId event
  | .control event => (.ok (), handleControl st queryId event)

/-! ## Times -/

theorem lt_of_closes {ts t : Int64} (h : t < ts) : t ≤ ts - 1 := by
  rw [Int64.le_iff_toInt_le, Int64.toInt_sub]
  rw [Int64.lt_iff_toInt_lt] at h
  have := t.le_toInt
  have := ts.toInt_lt
  simp only [Int64.toInt_one, Int.bmod]
  omega

/-- at an instant behind every start, and behind every end of validity but `MAX_TIMESTAMP`, the open documents are valid
and no other -/
theorem validAt_eq_openDocuments {docs : List (ViewDocument Row Hash)} {instant : Int64} (hmax : instant ≤ maxTimestamp)
    (h : ∀ d ∈ docs, d.validFrom ≤ instant ∧ (d.validTo = maxTimestamp ∨ d.validTo < instant)) :
    validAt docs instant = openDocuments docs := by
  unfold validAt openDocuments
  refine List.filter_congr fun d hd => ?_
  obtain ⟨hfrom, hto⟩ := h d hd
  rw [decide_eq_decide]
  constructor
  · rintro ⟨-, hle⟩
    rcases hto with hto | hto
    · exact hto
    · exact absurd hle (by grind)
  · intro hopen
    exact ⟨hfrom, by rw [hopen]; exact hmax⟩

theorem findRows_eq_openRows {docs : List (ViewDocument Row Hash)} {instant : Int64} (hmax : instant ≤ maxTimestamp)
    (h : ∀ d ∈ docs, d.validFrom ≤ instant ∧ (d.validTo = maxTimestamp ∨ d.validTo < instant)) :
    findRows docs instant = (openDocuments docs).map (·.result) := by
  rw [findRows, validAt_eq_openDocuments hmax h]

theorem effectiveAt_of_le {m : MetadataDocument} {timestamp : Option UInt64} {now : UInt64}
    (h : (timestamp.getD now).toInt64 ≤ m.ts) : effectiveAt m timestamp now = (timestamp.getD now).toInt64 := by
  have hmin : effectiveAt m timestamp now =
      if m.ts ≤ (timestamp.getD now).toInt64 then m.ts else (timestamp.getD now).toInt64 := rfl
  rw [hmin]
  split_ifs with hle
  · exact Int64.le_antisymm hle h
  · rfl

theorem effectiveAt_of_ge {m : MetadataDocument} {timestamp : Option UInt64} {now : UInt64}
    (h : m.ts ≤ (timestamp.getD now).toInt64) : effectiveAt m timestamp now = m.ts := by
  have hmin : effectiveAt m timestamp now =
      if m.ts ≤ (timestamp.getD now).toInt64 then m.ts else (timestamp.getD now).toInt64 := rfl
  rw [hmin, if_pos h]

/-- without a timestamp, and with a clock that is not behind -/
theorem effectiveAt_now {m : MetadataDocument} {now : UInt64} (h : m.ts ≤ now.toInt64) : effectiveAt m none now = m.ts :=
  effectiveAt_of_ge h

end DrasiPlatform.View
