/-
Garbage collection under the policy `Expire`: can a caller of `get_view` tell that it has run?

The collector deletes the documents that ended before its EPOCH, its clock less the expiry. `get_view` refuses the
timestamps before the same difference at a later clock, so what it answers at the timestamp itself has not been collected.
After a quiet period it answers at the recorded time instead, which lies before the epoch; a document valid there is open,
or ended at the greatest `i64` because its closing wrapped. Open documents are valid up to `MAX_TIMESTAMP`: a collector
whose epoch is behind that instant deletes them.

- `agrees_run`: a run and the same run without its collections keep the same documents from the last epoch on.
- `garbage_collection_invisible`: `get_view` answers the same in both, and both have the same open documents and metadata.
Witness: `epoch_after_max_timestamp` (a collection in the year 10000).
-/
import Mathlib.Tactic
import DrasiPlatform.View.Redelivered
import DrasiPlatform.View.Temporal

namespace DrasiPlatform.View

open DrasiPlatform.Run

variable {Row Hash : Type} [DecidableEq Hash]

/-! ## Model -/

/-- what happens to a view with the policy `Expire`: an event of the results topic, a worker that starts, the loss of the
process, a collection -/
inductive RetainedOp (Row : Type) where
  | event (event : ResultEvent Row)
  | configure
  | forget
  | collectGarbage (now : UInt64)

def RetainedOp.step (H : Hashing Row Hash) (queryId : String) (afterSeconds : UInt64) (st : MongoViewStore Row Hash) :
    RetainedOp Row → MongoViewStore Row Hash
  | .event e => (handleEvent H st queryId e).2
  | .configure => st.setRetentionPolicy queryId (.expire afterSeconds)
  | .forget => st.forget queryId
  | .collectGarbage now => st.collectGarbage queryId now

def ResultEvent.time : ResultEvent Row → UInt64
  | .change event => event.sourceTimeMs
  | .control event => event.sourceTimeMs

/-- the source time of an event -/
def RetainedOp.time : RetainedOp Row → Option UInt64
  | .event e => some e.time
  | _ => none

/-- the clock of a collection -/
def RetainedOp.clock : RetainedOp Row → Option UInt64
  | .collectGarbage now => some now
  | _ => none

/-- what ended before it is collected -/
def epoch (afterSeconds now : UInt64) : Int64 := now.toInt64 - afterSeconds.toInt64 * 1000

/-- the documents a collection at the epoch leaves -/
def kept (epoch : Int64) (docs : List (ViewDocument Row Hash)) : List (ViewDocument Row Hash) :=
  docs.filter fun d => epoch ≤ d.validTo

/-! ## Times -/

theorem toInt_toInt64_eq (t : UInt64) :
    t.toInt64.toInt = if t.toNat < 2 ^ 63 then (t.toNat : Int) else (t.toNat : Int) - 2 ^ 64 := by
  have hbv : t.toInt64.toInt = t.toBitVec.toInt := rfl
  have hnat : t.toBitVec.toNat = t.toNat := rfl
  have hlt := t.toNat_lt
  rw [hbv, BitVec.toInt_eq_toNat_bmod, hnat, Int.bmod]
  split_ifs <;> omega

/-- the horizon of `get_view` is the epoch of a collection at the same clock -/
theorem horizon_eq_epoch (afterSeconds now : UInt64) : (now - afterSeconds * 1000).toInt64 = epoch afterSeconds now := by
  rw [UInt64.toInt64_sub, UInt64.toInt64_mul]
  rfl

theorem toInt_epoch {afterSeconds now : UInt64} (ha : afterSeconds.toNat * 1000 < 2 ^ 63) (hnow : now.toNat < 2 ^ 63) :
    (epoch afterSeconds now).toInt = now.toNat - afterSeconds.toNat * 1000 := by
  have hn := toInt_toInt64_eq now
  have hs := toInt_toInt64_eq afterSeconds
  have h1000 : (1000 : Int64).toInt = 1000 := rfl
  rw [if_pos hnow] at hn
  rw [if_pos (by omega)] at hs
  rw [epoch, Int64.toInt_sub, Int64.toInt_mul, hn, hs, h1000, Int.bmod, Int.bmod]
  omega

theorem epoch_mono {afterSeconds c c' : UInt64} (ha : afterSeconds.toNat * 1000 < 2 ^ 63) (hc' : c'.toNat < 2 ^ 63)
    (hle : c ≤ c') : epoch afterSeconds c ≤ epoch afterSeconds c' := by
  have hnat := UInt64.le_iff_toNat_le.1 hle
  rw [Int64.le_iff_toInt_le, toInt_epoch ha (by omega), toInt_epoch ha hc']
  omega

/-! ## The documents a collection leaves -/

section Kept

variable {E : Int64} {docs docs' : List (ViewDocument Row Hash)}

omit [DecidableEq Hash] in
theorem kept_kept (docs : List (ViewDocument Row Hash)) : kept E (kept E docs) = kept E docs := by
  simp [kept]

omit [DecidableEq Hash] in
/-- a later epoch leaves the same of both -/
theorem kept_of_le {E' : Int64} (hle : E ≤ E') (h : kept E docs = kept E docs') : kept E' docs = kept E' docs' := by
  have hsub : ∀ l : List (ViewDocument Row Hash), kept E' l = kept E' (kept E l) := fun l => by
    unfold kept
    rw [List.filter_filter]
    refine List.filter_congr fun d _ => ?_
    by_cases hd : E' ≤ d.validTo
    · simp [hd, Int64.le_trans hle hd]
    · simp [hd]
  calc
    kept E' docs = kept E' (kept E docs) := hsub docs
    _ = kept E' (kept E docs') := by rw [h]
    _ = kept E' docs' := (hsub docs').symm

omit [DecidableEq Hash] in
/-- changing the first of the documents that are kept -/
theorem kept_modifyFirst {p : ViewDocument Row Hash → Bool} {f : ViewDocument Row Hash → ViewDocument Row Hash}
    (hp : ∀ d, p d = true → E ≤ d.validTo) (docs : List (ViewDocument Row Hash)) :
    kept E (modifyFirst p f docs) = kept E (modifyFirst p f (kept E docs)) := by
  induction docs with
  | nil => rfl
  | cons d docs ih =>
    by_cases hd : p d = true
    · simp [kept, modifyFirst, hd, hp d hd, List.filter_cons]
    · by_cases hE : E ≤ d.validTo <;> simpa [kept, modifyFirst, hd, hE] using ih

theorem kept_of_matchesOpen (hmax : E ≤ maxTimestamp) {hash : Hash} (d : ViewDocument Row Hash)
    (h : matchesOpen hash d = true) : E ≤ d.validTo := by
  simp only [matchesOpen, decide_eq_true_eq] at h
  rw [h.2]
  exact hmax

theorem any_matchesOpen_kept (hmax : E ≤ maxTimestamp) (hash : Hash) (docs : List (ViewDocument Row Hash)) :
    (kept E docs).any (matchesOpen hash) = docs.any (matchesOpen hash) := by
  rw [kept, List.any_filter]
  refine congrArg (docs.any ·) (funext fun d => ?_)
  cases h : matchesOpen hash d with
  | false => simp
  | true => simp [kept_of_matchesOpen hmax d h]

/-- what an operation leaves depends on what was left -/
theorem kept_onDocs (hmax : E ≤ maxTimestamp) (afterSeconds : UInt64) (ts : Int64) (op : StoreOp Row Hash)
    (h : kept E docs = kept E docs') :
    kept E (op.onDocs (.expire afterSeconds) ts docs) = kept E (op.onDocs (.expire afterSeconds) ts docs') := by
  have hmodify : ∀ (hash : Hash) (f : ViewDocument Row Hash → ViewDocument Row Hash),
      kept E (modifyFirst (matchesOpen hash) f docs) = kept E (modifyFirst (matchesOpen hash) f docs') := fun hash f => by
    rw [kept_modifyFirst (kept_of_matchesOpen hmax), h, ← kept_modifyFirst (kept_of_matchesOpen hmax)]
  cases op with
  | close hash => exact hmodify hash _
  | upsert hash row =>
    have hany : docs.any (matchesOpen hash) = docs'.any (matchesOpen hash) := by
      rw [← any_matchesOpen_kept hmax, h, any_matchesOpen_kept hmax]
    simp only [StoreOp.onDocs, upsertOne, hany]
    split
    · exact hmodify hash _
    · unfold kept at h ⊢
      rw [List.filter_append, List.filter_append, h]
  | metadata seq => exact h

theorem kept_foldl (hmax : E ≤ maxTimestamp) (afterSeconds : UInt64) (ts : Int64) (ops : List (StoreOp Row Hash))
    (h : kept E docs = kept E docs') :
    kept E (ops.foldl (StoreOp.onDocs (.expire afterSeconds) ts) docs) =
      kept E (ops.foldl (StoreOp.onDocs (.expire afterSeconds) ts) docs') := by
  induction ops generalizing docs docs' with
  | nil => exact h
  | cons op ops ih => exact ih (kept_onDocs hmax afterSeconds ts op h)

omit [DecidableEq Hash] in
theorem openDocuments_kept (hmax : E ≤ maxTimestamp) (docs : List (ViewDocument Row Hash)) :
    openDocuments (kept E docs) = openDocuments docs := by
  unfold openDocuments kept
  rw [List.filter_filter]
  refine List.filter_congr fun d _ => ?_
  by_cases hd : d.validTo = maxTimestamp
  · simp [hd, hmax]
  · simp [hd]

end Kept

/-! ## Two runs side by side -/

/-- the two stores answer alike from the epoch `E` on -/
structure Agrees (queryId : String) (afterSeconds : UInt64) (E : Int64) (st st' : MongoViewStore Row Hash) : Prop where
  policy : st.retentionPolicy queryId = st'.retentionPolicy queryId
  expires : ∀ policy ∈ st.retentionPolicy queryId, policy = .expire afterSeconds
  metadata : (st.collection queryId).metadata = (st'.collection queryId).metadata
  docs : kept E (st.collection queryId).docs = kept E (st'.collection queryId).docs

section Runs

variable {H : Hashing Row Hash} {queryId : String} {afterSeconds : UInt64} {E : Int64} {st st' : MongoViewStore Row Hash}

theorem Agrees.recordChange (h : Agrees queryId afterSeconds E st st') (hmax : E ≤ maxTimestamp)
    (change : ResultChangeEvent Row) :
    Agrees queryId afterSeconds E (recordChange H st queryId change).2 (recordChange H st' queryId change).2 := by
  rcases hp : st.retentionPolicy queryId with _ | policy
  · have hp' : st'.retentionPolicy queryId = none := h.policy ▸ hp
    simpa [View.recordChange, hp, hp'] using h
  · have hp' : st'.retentionPolicy queryId = some policy := h.policy ▸ hp
    obtain rfl := h.expires policy hp
    simp only [View.recordChange, hp, hp']
    refine ⟨h.policy, h.expires, ?_, ?_⟩
    · simp only [Function.update_self, metadata_recordOps, h.metadata]
    · simp only [Function.update_self, foldl_exec_docs]
      exact kept_foldl hmax afterSeconds _ _ h.docs

omit [DecidableEq Hash] in
theorem Agrees.handleControl (h : Agrees queryId afterSeconds E st st') (event : ResultControlEvent) :
    Agrees queryId afterSeconds E (handleControl st queryId event) (handleControl st' queryId event) := by
  have hset : ∀ state, Agrees queryId afterSeconds E (st.setState queryId event.sequence event.sourceTimeMs state)
      (st'.setState queryId event.sequence event.sourceTimeMs state) := fun state =>
    ⟨h.policy, h.expires, by simp [MongoViewStore.setState], by simpa [MongoViewStore.setState] using h.docs⟩
  have hdelete : Agrees queryId afterSeconds E (st.deleteView queryId) (st'.deleteView queryId) := by
    refine ⟨?_, ?_, ?_, ?_⟩ <;> simp [MongoViewStore.deleteView]
  unfold View.handleControl
  cases event.controlSignal with
  | bootstrapStarted => exact hdelete
  | queryDeleted => exact hdelete
  | bootstrapCompleted => exact hset _
  | running => exact hset _
  | stopped => exact hset _

/-- **One step**: everything but a collection does the same to both. -/
theorem Agrees.step (h : Agrees queryId afterSeconds E st st') (hmax : E ≤ maxTimestamp) {o : RetainedOp Row}
    (ho : o.clock = none) :
    Agrees queryId afterSeconds E (o.step H queryId afterSeconds st) (o.step H queryId afterSeconds st') := by
  cases o with
  | event e =>
    cases e with
    | change change => exact h.recordChange hmax change
    | control event => exact h.handleControl event
  | configure =>
    refine ⟨?_, ?_, h.metadata, h.docs⟩
    · simp [RetainedOp.step, MongoViewStore.setRetentionPolicy]
    · intro policy hp
      simpa [RetainedOp.step, MongoViewStore.setRetentionPolicy, eq_comm] using hp
  | forget =>
    refine ⟨?_, ?_, h.metadata, h.docs⟩
    · simp [RetainedOp.step, MongoViewStore.forget]
    · intro policy hp
      simp [RetainedOp.step, MongoViewStore.forget] at hp
  | collectGarbage now => cases ho

omit [DecidableEq Hash] in
/-- **A collection** moves the epoch of one of them on. -/
theorem Agrees.collectGarbage (h : Agrees queryId afterSeconds E st st') {now : UInt64} (hle : E ≤ epoch afterSeconds now) :
    Agrees queryId afterSeconds (epoch afterSeconds now) (st.collectGarbage queryId now) st' := by
  have hdocs := kept_of_le hle h.docs
  rcases hp : st.retentionPolicy queryId with _ | policy
  · have hnone : st.collectGarbage queryId now = st := by simp [MongoViewStore.collectGarbage, hp]
    rw [hnone]
    exact ⟨h.policy, h.expires, h.metadata, hdocs⟩
  · obtain rfl := h.expires policy hp
    simp only [MongoViewStore.collectGarbage, hp]
    refine ⟨h.policy, h.expires, by simpa using h.metadata, ?_⟩
    simp only [Function.update_self]
    exact (kept_kept _).trans hdocs

variable (H) in
/-- **The runs.** A run whose collections have epochs that do not decrease and are not behind `MAX_TIMESTAMP` agrees with
the run without them, from an epoch on that is no later than the last. -/
theorem agrees_run (h : Agrees queryId afterSeconds E st st') (hmax : E ≤ maxTimestamp) (ops : List (RetainedOp Row))
    (hsorted : ((ops.filterMap RetainedOp.clock).map (epoch afterSeconds)).Pairwise (· ≤ ·))
    (hE : ∀ c ∈ ops.filterMap RetainedOp.clock, E ≤ epoch afterSeconds c)
    (hepochs : ∀ c ∈ ops.filterMap RetainedOp.clock, epoch afterSeconds c ≤ maxTimestamp) :
    ∃ E' ≤ maxTimestamp, Agrees queryId afterSeconds E' (run (RetainedOp.step H queryId afterSeconds) st ops)
        (run (RetainedOp.step H queryId afterSeconds) st' (ops.filter fun o => o.clock = none)) ∧
      ∀ x, E ≤ x → (∀ c ∈ ops.filterMap RetainedOp.clock, epoch afterSeconds c ≤ x) → E' ≤ x := by
  induction ops generalizing st st' E with
  | nil => exact ⟨E, hmax, h, fun x hx _ => hx⟩
  | cons o ops ih =>
    rcases ho : o.clock with _ | now
    · rw [List.filterMap_cons_none ho] at hsorted hE hepochs ⊢
      rw [List.filter_cons_of_pos (by simp [ho])]
      exact ih (h.step hmax ho) hmax hsorted hE hepochs
    · have hcollect : o = .collectGarbage now := by
        cases o with
        | collectGarbage now' => rw [Option.some.inj ho]
        | _ => cases ho
      subst hcollect
      rw [List.filterMap_cons_some ho] at hsorted hE hepochs ⊢
      rw [List.filter_cons_of_neg (by simp [ho])]
      obtain ⟨hfirst, hrest⟩ := List.pairwise_cons.1 hsorted
      have hnow := hepochs now List.mem_cons_self
      obtain ⟨E', hmax', hagrees, hbound⟩ := ih (h.collectGarbage (hE now List.mem_cons_self)) hnow hrest
        (fun c hc => hfirst _ (List.mem_map_of_mem hc)) fun c hc => hepochs c (List.mem_cons_of_mem now hc)
      refine ⟨E', hmax', hagrees, fun x _ hx => hbound x (hx now List.mem_cons_self) fun c hc => ?_⟩
      exact hx c (List.mem_cons_of_mem now hc)

end Runs

/-! ## The times of the documents -/

/-- the documents are valid from the time of an event up to `T`, and to `MAX_TIMESTAMP` or to one before such a time that
is no earlier -/
def StampedBy (T : UInt64) (docs : List (ViewDocument Row Hash)) : Prop :=
  ∀ d ∈ docs, ∃ began ≤ T, d.validFrom = began.toInt64 ∧
    (d.validTo = maxTimestamp ∨ ∃ ended, began ≤ ended ∧ ended ≤ T ∧ d.validTo = ended.toInt64 - 1)

/-- the documents and the recorded time are those of events up to `T` -/
structure DatedBy (T : UInt64) (c : Collection Row Hash) : Prop where
  stamped : StampedBy T c.docs
  recorded : ∀ m ∈ c.metadata, ∃ T₁ ≤ T, m.ts = T₁.toInt64 ∧ StampedBy T₁ c.docs

section Dates

variable {T T' : UInt64} {docs docs' : List (ViewDocument Row Hash)} {c : Collection Row Hash}

omit [DecidableEq Hash] in
theorem StampedBy.mono (h : StampedBy T docs) (hle : T ≤ T') : StampedBy T' docs := by
  intro d hd
  obtain ⟨began, hbegan, hfrom, hto⟩ := h d hd
  refine ⟨began, UInt64.le_trans hbegan hle, hfrom, ?_⟩
  rcases hto with hopen | ⟨ended, hbefore, hended, hto⟩
  · exact Or.inl hopen
  · exact Or.inr ⟨ended, hbefore, UInt64.le_trans hended hle, hto⟩

omit [DecidableEq Hash] in
theorem StampedBy.of_subset (h : StampedBy T docs) (hsub : ∀ d ∈ docs', d ∈ docs) : StampedBy T docs' :=
  fun d hd => h d (hsub d hd)

theorem StampedBy.onDocs (h : StampedBy T docs) (policy : RetentionPolicy) (op : StoreOp Row Hash) :
    StampedBy T (op.onDocs policy T.toInt64 docs) := by
  cases op with
  | close hash =>
    intro d hd
    rcases mem_closeOne hd with hold | ⟨d', hd', rfl⟩
    · exact h d hold
    · obtain ⟨began, hbegan, hfrom, -⟩ := h d' hd'
      exact ⟨began, hbegan, hfrom, Or.inr ⟨T, hbegan, UInt64.le_refl T, rfl⟩⟩
  | upsert hash row =>
    intro d hd
    rcases mem_upsertOne hd with hold | rfl
    · exact h d hold
    · exact ⟨T, UInt64.le_refl T, rfl, Or.inl rfl⟩
  | metadata seq => exact h

theorem StampedBy.foldl (h : StampedBy T docs) (policy : RetentionPolicy) (ops : List (StoreOp Row Hash)) :
    StampedBy T (ops.foldl (StoreOp.onDocs policy T.toInt64) docs) := by
  induction ops generalizing docs with
  | nil => exact h
  | cons op ops ih => exact ih (h.onDocs policy op)

omit [DecidableEq Hash] in
/-- **Quiet periods.** A document that is valid at the last time itself is open, or its closing wrapped. -/
theorem StampedBy.validTo (h : StampedBy T docs) {d : ViewDocument Row Hash} (hd : d ∈ docs)
    (hfrom : d.validFrom ≤ T.toInt64) (hto : T.toInt64 ≤ d.validTo) :
    d.validTo = maxTimestamp ∨ d.validTo = Int64.maxValue := by
  obtain ⟨began, -, hbegan, hopen | ⟨ended, hbefore, hended, hend⟩⟩ := h d hd
  · exact Or.inl hopen
  · right
    rw [hbegan, Int64.le_iff_toInt_le, toInt_toInt64_eq, toInt_toInt64_eq] at hfrom
    rw [hend, Int64.le_iff_toInt_le, Int64.toInt_sub, toInt_toInt64_eq, toInt_toInt64_eq, Int64.toInt_one, Int.bmod] at hto
    rw [hend, ← Int64.toInt_inj, Int64.toInt_sub, toInt_toInt64_eq, Int64.toInt_one, Int.bmod]
    have hmax : Int64.maxValue.toInt = 2 ^ 63 - 1 := rfl
    have hbefore' := UInt64.le_iff_toNat_le.1 hbefore
    have hended' := UInt64.le_iff_toNat_le.1 hended
    have hlt := T.toNat_lt
    rw [hmax]
    split_ifs at hfrom hto ⊢ <;> omega

omit [DecidableEq Hash] in
theorem DatedBy.mono (h : DatedBy T c) (hle : T ≤ T') : DatedBy T' c := by
  refine ⟨h.stamped.mono hle, fun m hm => ?_⟩
  obtain ⟨T₁, hT₁, hts, hdocs⟩ := h.recorded m hm
  exact ⟨T₁, UInt64.le_trans hT₁ hle, hts, hdocs⟩

omit [DecidableEq Hash] in
theorem datedBy_empty (T : UInt64) : DatedBy T (⟨[], none⟩ : Collection Row Hash) :=
  ⟨fun d hd => (by cases hd), fun m hm => (by cases hm)⟩

omit [DecidableEq Hash] in
/-- what is recorded with the time `T` -/
theorem datedBy_recorded {seq : Int64} {state : Option String} (hdocs : StampedBy T docs) :
    DatedBy T (⟨docs, some ⟨seq, T.toInt64, state⟩⟩ : Collection Row Hash) := by
  refine ⟨hdocs, fun m hm => ?_⟩
  cases hm
  exact ⟨T, UInt64.le_refl T, rfl, hdocs⟩

variable {H : Hashing Row Hash} {queryId : String} {afterSeconds : UInt64} {st : MongoViewStore Row Hash}

/-- an event dates the collection with its own time, everything else leaves it dated as it was -/
theorem datedBy_step (h : DatedBy T (st.collection queryId)) (o : RetainedOp Row) (ho : ∀ t ∈ o.time, T ≤ t) :
    DatedBy (o.time.getD T) ((o.step H queryId afterSeconds st).collection queryId) := by
  cases o with
  | event e =>
    have hle : T ≤ e.time := ho e.time rfl
    change DatedBy e.time _
    cases e with
    | change change =>
      simp only [RetainedOp.step, handleEvent, View.recordChange]
      rcases hp : st.retentionPolicy queryId with _ | policy
      · exact h.mono hle
      · have hc : (recordOps H change).foldl (StoreOp.exec policy change.sourceTimeMs.toInt64) (st.collection queryId) =
            ⟨(recordOps H change).foldl (StoreOp.onDocs policy change.sourceTimeMs.toInt64) (st.collection queryId).docs,
              some ⟨change.sequence.toInt64, change.sourceTimeMs.toInt64,
                (st.collection queryId).metadata.bind (·.state)⟩⟩ := by
          rw [← foldl_exec_docs, ← metadata_recordOps H change policy]
        simp only [Function.update_self, hc]
        exact datedBy_recorded ((h.stamped.mono hle).foldl policy _)
    | control event =>
      have hset : ∀ state, DatedBy event.sourceTimeMs
          ((st.setState queryId event.sequence event.sourceTimeMs state).collection queryId) := fun state => by
        simp only [MongoViewStore.setState, Function.update_self]
        exact datedBy_recorded (h.stamped.mono hle)
      have hdelete : DatedBy event.sourceTimeMs ((st.deleteView queryId).collection queryId) := by
        simp only [MongoViewStore.deleteView, Function.update_self]
        exact datedBy_empty _
      simp only [RetainedOp.step, handleEvent, View.handleControl, ResultEvent.time]
      cases event.controlSignal with
      | bootstrapStarted => exact hdelete
      | queryDeleted => exact hdelete
      | bootstrapCompleted => exact hset _
      | running => exact hset _
      | stopped => exact hset _
  | configure => exact h
  | forget => exact h
  | collectGarbage now =>
    simp only [RetainedOp.step, MongoViewStore.collectGarbage]
    split
    · simp only [Function.update_self]
      refine ⟨h.stamped.of_subset fun d hd => List.mem_of_mem_filter hd, fun m hm => ?_⟩
      obtain ⟨T₁, hT₁, hts, hdocs⟩ := h.recorded m hm
      exact ⟨T₁, hT₁, hts, hdocs.of_subset fun d hd => List.mem_of_mem_filter hd⟩
    · exact h

variable (H queryId afterSeconds) in
/-- **Every run** with source times that do not decrease is dated. -/
theorem datedBy_run (h : DatedBy T (st.collection queryId)) (ops : List (RetainedOp Row))
    (hsorted : (ops.filterMap RetainedOp.time).Pairwise (· ≤ ·)) (hT : ∀ t ∈ ops.filterMap RetainedOp.time, T ≤ t) :
    ∃ T', DatedBy T' ((run (RetainedOp.step H queryId afterSeconds) st ops).collection queryId) := by
  induction ops generalizing st T with
  | nil => exact ⟨T, h⟩
  | cons o ops ih =>
    have hstep : (∀ t ∈ o.time, T ≤ t) →
        DatedBy (o.time.getD T) ((o.step H queryId afterSeconds st).collection queryId) := datedBy_step h o
    rcases ho : o.time with _ | t
    · rw [List.filterMap_cons_none ho] at hsorted hT
      exact ih (T := T) (by simpa [ho] using hstep) hsorted hT
    · rw [List.filterMap_cons_some ho] at hsorted hT
      obtain ⟨hfirst, hrest⟩ := List.pairwise_cons.1 hsorted
      exact ih (T := t) (by simpa [ho] using hstep (by simpa [ho] using hT t List.mem_cons_self)) hrest hfirst

end Dates

/-! ## What a caller sees -/

omit [DecidableEq Hash] in
theorem validAt_kept {E instant : Int64} {docs : List (ViewDocument Row Hash)}
    (h : ∀ d ∈ docs, d.validFrom ≤ instant → instant ≤ d.validTo → E ≤ d.validTo) :
    validAt (kept E docs) instant = validAt docs instant := by
  unfold validAt kept
  rw [List.filter_filter]
  refine List.filter_congr fun d hd => ?_
  by_cases hv : d.validFrom ≤ instant ∧ instant ≤ d.validTo
  · simp [hv, h d hd hv.1 hv.2]
  · simp [hv]

omit [DecidableEq Hash] in
/-- what is valid at the effective time of an accepted timestamp is not collected -/
theorem DatedBy.kept_of_valid {T : UInt64} {c : Collection Row Hash} (h : DatedBy T c) {m : MetadataDocument}
    (hm : m ∈ c.metadata) {E : Int64} (hmax : E ≤ maxTimestamp) {timestamp : Option UInt64} {now : UInt64}
    (haccept : E ≤ (timestamp.getD now).toInt64) {d : ViewDocument Row Hash} (hd : d ∈ c.docs)
    (hfrom : d.validFrom ≤ effectiveAt m timestamp now) (hto : effectiveAt m timestamp now ≤ d.validTo) : E ≤ d.validTo := by
  rcases Int64.le_total (timestamp.getD now).toInt64 m.ts with hle | hle
  · rw [effectiveAt_of_le hle] at hto
    exact Int64.le_trans haccept hto
  · -- a quiet period: the effective time is the recorded one
    rw [effectiveAt_of_ge hle] at hfrom hto
    obtain ⟨T₁, -, hts, hdocs⟩ := h.recorded m hm
    rw [hts] at hfrom hto
    rcases hdocs.validTo hd hfrom hto with heq | heq
    · rw [heq]
      exact hmax
    · rw [heq]
      exact Int64.le_maxValue E

/-- **Garbage collection is invisible.** For every run of events with source times that do not decrease, of worker starts
and of collections with clocks that do not decrease, whose epochs are not behind `MAX_TIMESTAMP`: at every clock from the
last collection on, `get_view` answers every timestamp as it would had no collection run; and no open document and no
metadata document is ever collected. -/
theorem garbage_collection_invisible (H : Hashing Row Hash) (queryId : String) (afterSeconds now : UInt64)
    (timestamp : Option UInt64) (ops : List (RetainedOp Row))
    (htimes : (ops.filterMap RetainedOp.time).Pairwise (· ≤ ·))
    (hclocks : (ops.filterMap RetainedOp.clock ++ [now]).Pairwise (· ≤ ·))
    (hafter : afterSeconds.toNat * 1000 < 2 ^ 63) (hnow : now.toNat < 2 ^ 63)
    (hepochs : ∀ c ∈ ops.filterMap RetainedOp.clock, epoch afterSeconds c ≤ maxTimestamp) :
    let st := run (RetainedOp.step H queryId afterSeconds) (.empty : MongoViewStore Row Hash) ops
    let never := run (RetainedOp.step H queryId afterSeconds) (.empty : MongoViewStore Row Hash)
      (ops.filter fun o => o.clock = none)
    getView st queryId timestamp now = getView never queryId timestamp now ∧
      openDocuments (st.collection queryId).docs = openDocuments (never.collection queryId).docs ∧
      (st.collection queryId).metadata = (never.collection queryId).metadata := by
  intro st never
  obtain ⟨hpair, -, hlast⟩ := List.pairwise_append.1 hclocks
  have hle : ∀ c ∈ ops.filterMap RetainedOp.clock, c ≤ now := fun c hc => hlast c hc now List.mem_cons_self
  have hrange : ∀ c ∈ ops.filterMap RetainedOp.clock, c.toNat < 2 ^ 63 := fun c hc =>
    lt_of_le_of_lt (UInt64.le_iff_toNat_le.1 (hle c hc)) hnow
  have hsorted : ((ops.filterMap RetainedOp.clock).map (epoch afterSeconds)).Pairwise (· ≤ ·) :=
    List.pairwise_map.2 (hpair.imp_of_mem fun _ hc' hcc => epoch_mono hafter (hrange _ hc') hcc)
  have hstart : Agrees queryId afterSeconds Int64.minValue (.empty : MongoViewStore Row Hash) .empty :=
    ⟨rfl, fun policy hp => (by cases hp), rfl, rfl⟩
  obtain ⟨E, hmax, hagrees, hbound⟩ := agrees_run H hstart (Int64.minValue_le _) ops hsorted
    (fun c _ => Int64.minValue_le _) hepochs
  have hE : E ≤ epoch afterSeconds now :=
    hbound _ (Int64.minValue_le _) fun c hc => epoch_mono hafter hnow (hle c hc)
  have hempty : DatedBy 0 ((.empty : MongoViewStore Row Hash).collection queryId) := datedBy_empty 0
  obtain ⟨T, hdated⟩ := datedBy_run H queryId afterSeconds hempty ops htimes fun t _ => UInt64.zero_le
  obtain ⟨T', hdated'⟩ := datedBy_run H queryId afterSeconds hempty (ops.filter fun o => o.clock = none)
    (htimes.sublist (List.filter_sublist.filterMap _)) fun t _ => UInt64.zero_le
  have hopen : openDocuments (st.collection queryId).docs = openDocuments (never.collection queryId).docs := by
    calc
      openDocuments (st.collection queryId).docs = openDocuments (kept E (st.collection queryId).docs) :=
        (openDocuments_kept hmax _).symm
      _ = openDocuments (kept E (never.collection queryId).docs) := by rw [hagrees.docs]
      _ = openDocuments (never.collection queryId).docs := openDocuments_kept hmax _
  refine ⟨?_, hopen, hagrees.metadata⟩
  have hpolicy : st.retentionPolicy queryId = never.retentionPolicy queryId := hagrees.policy
  have hmetadata : (st.collection queryId).metadata = (never.collection queryId).metadata := hagrees.metadata
  unfold getView
  rw [hpolicy, hmetadata]
  rcases hp : never.retentionPolicy queryId with _ | policy
  · rfl
  · obtain rfl := hagrees.expires policy (hpolicy.trans hp)
    rcases hm : (never.collection queryId).metadata with _ | m
    · rfl
    · dsimp only
      split_ifs with hexpired
      · rfl
      · have haccept : E ≤ (timestamp.getD now).toInt64 := by
          rw [expired, decide_eq_true_eq, horizon_eq_epoch, Int64.not_lt] at hexpired
          exact Int64.le_trans hE hexpired
        have hrows : findRows (st.collection queryId).docs (effectiveAt m timestamp now) =
            findRows (never.collection queryId).docs (effectiveAt m timestamp now) := by
          refine congrArg (List.map _) ?_
          calc
            validAt (st.collection queryId).docs (effectiveAt m timestamp now) =
                validAt (kept E (st.collection queryId).docs) (effectiveAt m timestamp now) :=
              (validAt_kept fun d hd => hdated.kept_of_valid (hmetadata.trans hm) hmax haccept hd).symm
            _ = validAt (kept E (never.collection queryId).docs) (effectiveAt m timestamp now) := by rw [hagrees.docs]
            _ = validAt (never.collection queryId).docs (effectiveAt m timestamp now) :=
              validAt_kept fun d hd => hdated'.kept_of_valid hm hmax haccept hd
        rw [hrows]

/-- the row 7 comes at 1000, is deleted at 2000 and comes back at 3000; what ended is collected at 2500 -/
def collectedOps : List (RetainedOp ℕ) :=
  [.configure, .event (.change ⟨1, 1000, [7], [], []⟩), .event (.change ⟨2, 2000, [], [], [7]⟩),
    .collectGarbage 2500, .event (.change ⟨3, 3000, [7], [], []⟩)]

/-- with an expiry of no seconds, asked at 4000 -/
theorem collectedOps_invisible :
    getView (run (RetainedOp.step numberHashing "q" 0) .empty collectedOps) "q" none 4000 =
      getView (run (RetainedOp.step numberHashing "q" 0) .empty (collectedOps.filter fun o => o.clock = none)) "q" none
        4000 :=
  (garbage_collection_invisible numberHashing "q" 0 4000 none collectedOps (by decide) (by decide) (by decide) (by decide)
    fun c hc => (List.mem_singleton.1 hc : c = 2500) ▸ by decide).1

/-- the row 7 comes at 1000; the collector's clock is one millisecond behind `MAX_TIMESTAMP` -/
def lateOps : List (RetainedOp ℕ) :=
  [.configure, .event (.change ⟨1, 1000, [7], [], []⟩), .collectGarbage 253402300800000]

/-- **An epoch behind `MAX_TIMESTAMP`** collects the open documents: the view loses its row, at the clock of the collection
already. -/
theorem epoch_after_max_timestamp :
    let st := run (RetainedOp.step numberHashing "q" 0) .empty lateOps
    let never := run (RetainedOp.step numberHashing "q" 0) .empty (lateOps.filter fun o => o.clock = none)
    getView never "q" none 253402300800000 = .ok (⟨1, 1000, none⟩, [7]) ∧
      getView st "q" none 253402300800000 = .ok (⟨1, 1000, none⟩, []) ∧
      openDocuments (never.collection "q").docs = [⟨7, 7, 1000, maxTimestamp⟩] ∧
      openDocuments (st.collection "q").docs = [] := by
  decide

end DrasiPlatform.View
