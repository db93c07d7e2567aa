/-
Temporal views: with the retention policy `All`, does `get_view(t)` answer the result set as of `t`?

A history is a list of result events with the result sets they lead to (`Evolves`): source times never decrease, the rows
of each result set have different keys, and no event touches a key twice. A row that leaves and comes back has several
documents; events with equal times leave documents whose validity is empty.

`Dated T S docs` is the invariant: the open documents are the rows of `S`, and every other document ended before `T`.

- `exec_dated`, `touches_dated`: every event with a time from `T` on carries it over; this holds for every policy.
- `findRows_touches`: an event changes nothing at the instants before its own time.
- `temporal_view`: `get_view(t)` answers the result set after the last event with a time up to `t`, for every `t` up to the
  recorded time, and at every moment (between any two store operations) a hash has at most one open document. The source
  times are at most `MAX_TIMESTAMP`, the instant up to which an open document is valid.
Witness: `beyond_max_timestamp` (a row that arrives one millisecond later is never shown).
-/
import Mathlib.Tactic
import DrasiPlatform.View.GetView
import DrasiPlatform.View.Touches

namespace DrasiPlatform.View

variable {Row Hash : Type}

/-! ## Times -/

/-- `MAX_TIMESTAMP` as a source time -/
def maxTime : UInt64 := 253402300799999

theorem toInt_toInt64 {t : UInt64} (h : t ≤ maxTime) : t.toInt64.toInt = t.toNat := by
  have h' : t.toNat ≤ 253402300799999 := by
    have := UInt64.le_iff_toNat_le.1 h
    exact this
  have hbv : t.toInt64.toInt = t.toBitVec.toInt := rfl
  have hnat : t.toBitVec.toNat = t.toNat := rfl
  rw [hbv, BitVec.toInt_eq_toNat_bmod, hnat, Int.bmod]
  omega

theorem toInt64_le {t t' : UInt64} (h : t ≤ maxTime) (h' : t' ≤ maxTime) : t.toInt64 ≤ t'.toInt64 ↔ t ≤ t' := by
  rw [Int64.le_iff_toInt_le, toInt_toInt64 h, toInt_toInt64 h', UInt64.le_iff_toNat_le, Int.ofNat_le]

theorem toInt64_lt {t t' : UInt64} (h : t ≤ maxTime) (h' : t' ≤ maxTime) : t.toInt64 < t'.toInt64 ↔ t < t' := by
  rw [Int64.lt_iff_toInt_lt, toInt_toInt64 h, toInt_toInt64 h', UInt64.lt_iff_toNat_lt, Int.ofNat_lt]

theorem toInt64_le_max {t : UInt64} (h : t ≤ maxTime) : t.toInt64 ≤ maxTimestamp :=
  (toInt64_le h (UInt64.le_refl maxTime)).2 h

/-- the end of validity that closing writes lies before the event -/
theorem pred_lt {t : UInt64} (h : t ≤ maxTime) : t.toInt64 - 1 < t.toInt64 := by
  have ht := toInt_toInt64 h
  rw [Int64.lt_iff_toInt_lt, Int64.toInt_sub, ht, Int64.toInt_one]
  have h' : t.toNat ≤ 253402300799999 := UInt64.le_iff_toNat_le.1 h
  rw [Int.bmod]
  omega

theorem closes_of_le_max (policy : RetentionPolicy) {t : UInt64} (h : t ≤ maxTime) : Closes policy t.toInt64 := by
  have hlt := pred_lt h
  have hle := toInt64_le_max h
  right
  intro he
  rw [he] at hlt
  grind

/-! ## What an operation does to the documents -/

theorem mem_modifyFirst {α : Type} {p : α → Bool} {f : α → α} {l : List α} {x : α} (h : x ∈ modifyFirst p f l) :
    x ∈ l ∨ ∃ y ∈ l, p y = true ∧ x = f y := by
  induction l with
  | nil => cases h
  | cons a l ih =>
    rw [modifyFirst] at h
    split_ifs at h with hp
    · rcases List.mem_cons.1 h with rfl | h
      · exact .inr ⟨a, List.mem_cons_self, hp, rfl⟩
      · exact .inl (List.mem_cons_of_mem a h)
    · rcases List.mem_cons.1 h with rfl | h
      · exact .inl List.mem_cons_self
      · rcases ih h with h | ⟨y, hy, hpy, rfl⟩
        · exact .inl (List.mem_cons_of_mem a h)
        · exact .inr ⟨y, List.mem_cons_of_mem a hy, hpy, rfl⟩

section

variable [DecidableEq Hash]

theorem mem_closeOne {policy : RetentionPolicy} {ts : Int64} {hash : Hash} {docs : List (ViewDocument Row Hash)}
    {d : ViewDocument Row Hash} (h : d ∈ closeOne policy ts hash docs) :
    d ∈ docs ∨ ∃ d' ∈ docs, d = { d' with validTo := ts - 1 } := by
  have hend : d ∈ modifyFirst (matchesOpen hash) (fun d => { d with validTo := ts - 1 }) docs →
      d ∈ docs ∨ ∃ d' ∈ docs, d = { d' with validTo := ts - 1 } := by
    intro h
    rcases mem_modifyFirst h with h | ⟨d', hd', -, he⟩
    · exact .inl h
    · exact .inr ⟨d', hd', he⟩
  cases policy with
  | latest => exact .inl (List.mem_of_mem_eraseP h)
  | expire _ => exact hend h
  | all => exact hend h

theorem mem_upsertOne {ts : Int64} {hash : Hash} {row : Row} {docs : List (ViewDocument Row Hash)}
    {d : ViewDocument Row Hash} (h : d ∈ upsertOne ts hash row docs) : d ∈ docs ∨ d = ⟨hash, row, ts, maxTimestamp⟩ := by
  unfold upsertOne at h
  dsimp only at h
  split_ifs at h
  · rcases mem_modifyFirst h with h | ⟨-, -, -, he⟩
    · exact .inl h
    · exact .inr he
  · rcases List.mem_append.1 h with h | h
    · exact .inl h
    · exact .inr (List.mem_singleton.1 h)

/-! ## The invariant -/

/-- all documents are stored under their keys and began by `T`, and those that are not open ended before `T` -/
structure Stamped (key : Row → Hash) (T : Int64) (docs : List (ViewDocument Row Hash)) : Prop where
  keyed : ∀ d ∈ docs, d.hash = key d.result
  began : ∀ d ∈ docs, d.validFrom ≤ T
  ended : ∀ d ∈ docs, d.validTo = maxTimestamp ∨ d.validTo < T

/-- the open documents are the rows of `S`, and `T` is behind all that happened -/
structure Dated (key : Row → Hash) (T : Int64) (S : Finset Row) (docs : List (ViewDocument Row Hash)) : Prop where
  unique : OpenUnique docs
  maps : Maps key S (openRow docs)
  stamped : Stamped key T docs

/-- the documents of a new collection -/
theorem dated_nil (key : Row → Hash) (T : Int64) : Dated key T ∅ [] :=
  ⟨List.nodup_nil, by simp [Maps, openRow], by simp, by simp, by simp⟩

omit [DecidableEq Hash] in
theorem Stamped.mono {key : Row → Hash} {T T' : Int64} {docs : List (ViewDocument Row Hash)} (h : Stamped key T docs)
    (hle : T ≤ T') : Stamped key T' docs := by
  refine ⟨h.keyed, ?_, ?_⟩
  · intro d hd
    have := h.began d hd
    grind
  · intro d hd
    rcases h.ended d hd with ho | hlt
    · exact .inl ho
    · exact .inr (by grind)

theorem closeOne_stamped {key : Row → Hash} {t : UInt64} (ht : t ≤ maxTime) (policy : RetentionPolicy) (hash : Hash)
    {docs : List (ViewDocument Row Hash)} (h : Stamped key t.toInt64 docs) :
    Stamped key t.toInt64 (closeOne policy t.toInt64 hash docs) := by
  refine ⟨?_, ?_, ?_⟩ <;> intro d hd <;> rcases mem_closeOne hd with hd | ⟨d', hd', rfl⟩
  · exact h.keyed d hd
  · exact h.keyed d' hd'
  · exact h.began d hd
  · exact h.began d' hd'
  · exact h.ended d hd
  · exact .inr (pred_lt ht)

theorem upsertOne_stamped {key : Row → Hash} {ts : Int64} (row : Row) {docs : List (ViewDocument Row Hash)}
    (h : Stamped key ts docs) : Stamped key ts (upsertOne ts (key row) row docs) := by
  refine ⟨?_, ?_, ?_⟩ <;> intro d hd <;> rcases mem_upsertOne hd with hd | rfl
  · exact h.keyed d hd
  · rfl
  · exact h.began d hd
  · exact Int64.le_refl _
  · exact h.ended d hd
  · exact .inl rfl

/-- the operations of touches keep it, one by one -/
theorem touchOps_stamped {key : Row → Hash} {t : UInt64} (ht : t ≤ maxTime) (policy : RetentionPolicy)
    {ops : List (StoreOp Row Hash)} (hops : ∀ hash row, .upsert hash row ∈ ops → hash = key row) {c : Collection Row Hash}
    (h : Stamped key t.toInt64 c.docs) : Stamped key t.toInt64 (ops.foldl (StoreOp.exec policy t.toInt64) c).docs := by
  induction ops generalizing c with
  | nil => exact h
  | cons op ops ih =>
    refine ih (fun hash row hmem => hops hash row (List.mem_cons_of_mem op hmem)) ?_
    cases op with
    | close hash => exact closeOne_stamped ht policy hash h
    | upsert hash row =>
      obtain rfl := hops hash row List.mem_cons_self
      exact upsertOne_stamped row h
    | metadata seq => exact h

omit [DecidableEq Hash] in
theorem upsert_mem_touchOps {key : Row → Hash} {us : List (Touch Row)} {hash : Hash} {row : Row}
    (h : .upsert hash row ∈ us.flatMap (touchOps key)) : hash = key row := by
  obtain ⟨u, -, hop⟩ := List.mem_flatMap.1 h
  rcases u with ⟨_ | b, _ | a⟩ <;> simp [touchOps] at hop
  · obtain ⟨rfl, rfl⟩ := hop; rfl
  · obtain ⟨rfl, rfl⟩ := hop; rfl

/-- **An event carries the invariant over**, whatever the policy. -/
theorem touches_dated [DecidableEq Row] {key : Row → Hash} {T : Int64} {S S' : Finset Row} {us : List (Touch Row)} {t : UInt64}
    (ht : t ≤ maxTime) (hT : T ≤ t.toInt64) (policy : RetentionPolicy) (hS : Set.InjOn key S) (hS' : Set.InjOn key S')
    (hc : Carries S S' us) (hun : UnchainedTouches key us) {c : Collection Row Hash} (h : Dated key T S c.docs) :
    Dated key t.toInt64 S' ((us.flatMap (touchOps key)).foldl (StoreOp.exec policy t.toInt64) c).docs := by
  obtain ⟨hrow, huniq⟩ := openRow_foldl_exec policy t.toInt64 (us.flatMap (touchOps key)) c h.unique
  refine ⟨huniq, ?_, ?_⟩
  · rw [hrow, decide_eq_true (closes_of_le_max policy ht), filterMap_touchOps]
    exact h.maps.carry hS hS' hc hun
  · exact touchOps_stamped ht policy (fun hash row hmem => upsert_mem_touchOps hmem) (h.stamped.mono hT)

/-- at an instant from `T` on, the view shows the rows of `S` -/
theorem Dated.findRows_eq {key : Row → Hash} {T : Int64} {S : Finset Row} {docs : List (ViewDocument Row Hash)}
    (h : Dated key T S docs) (hS : Set.InjOn key S) {instant : Int64} (hT : T ≤ instant) (hmax : instant ≤ maxTimestamp) :
    (findRows docs instant : Multiset Row) = S.val := by
  have hst := h.stamped.mono hT
  rw [findRows_eq_openRows hmax fun d hd => ⟨hst.began d hd, hst.ended d hd⟩]
  exact ((shows_iff hS).2 ⟨h.unique, h.maps⟩).rows

/-! ## The past -/

/-- ending the validity of a document before `ts` changes nothing at the instants before `ts` -/
theorem findRows_closeOne {policy : RetentionPolicy} (hp : policy ≠ .latest) {ts instant : Int64} (ht : instant < ts)
    (hmax : instant ≤ maxTimestamp) (hash : Hash) (docs : List (ViewDocument Row Hash)) :
    findRows (closeOne policy ts hash docs) instant = findRows docs instant := by
  have hle : instant ≤ ts - 1 := lt_of_closes ht
  have hend : closeOne policy ts hash docs =
      modifyFirst (matchesOpen hash) (fun d => { d with validTo := ts - 1 }) docs := by
    cases policy with
    | latest => exact absurd rfl hp
    | expire _ => rfl
    | all => rfl
  rw [hend]
  clear hend
  induction docs with
  | nil => rfl
  | cons d docs ih =>
    by_cases hm : matchesOpen hash d = true
    · have hopen : d.validTo = maxTimestamp := by simp only [matchesOpen, decide_eq_true_eq] at hm; exact hm.2
      by_cases hf : d.validFrom ≤ instant <;> simp [findRows, validAt, modifyFirst, hm, hf, hle, hopen, hmax]
    · unfold findRows validAt at ih ⊢
      rw [modifyFirst, if_neg hm, List.filter_cons, List.filter_cons]
      split_ifs
      · rw [List.map_cons, List.map_cons, ih]
      · exact ih

/-- a document that begins at `ts` is not valid before `ts` -/
theorem findRows_upsertOne {ts instant : Int64} (ht : instant < ts) {hash : Hash} (row : Row)
    {docs : List (ViewDocument Row Hash)} (hfree : openRow docs hash = none) :
    findRows (upsertOne ts hash row docs) instant = findRows docs instant := by
  have hno : docs.any (matchesOpen hash) = false := by
    simp only [openRow, Option.map_eq_none_iff, List.find?_eq_none] at hfree
    simpa using hfree
  have hnot : ¬ ts ≤ instant := by grind
  simp [upsertOne, hno, findRows, validAt, hnot]

/-- **An event leaves the past alone**: the touches of a policy that keeps documents change nothing at the instants before
the event. -/
theorem findRows_touches [DecidableEq Row] {key : Row → Hash} {policy : RetentionPolicy} (hp : policy ≠ .latest) {t : UInt64}
    (hmax : t ≤ maxTime) {instant : Int64} (ht : instant < t.toInt64) {us : List (Touch Row)} {S : Finset Row}
    (hl : Legal key S us) {c : Collection Row Hash} (hu : OpenUnique c.docs) (hm : Maps key S (openRow c.docs)) :
    findRows ((us.flatMap (touchOps key)).foldl (StoreOp.exec policy t.toInt64) c).docs instant =
      findRows c.docs instant := by
  have hinst : instant ≤ maxTimestamp := by
    have := toInt64_le_max hmax
    grind
  have hcl := closes_of_le_max policy hmax
  induction us generalizing S c with
  | nil => rfl
  | cons u us ih =>
    obtain ⟨hrow, hu'⟩ := openRow_foldl_exec policy t.toInt64 (touchOps key u) c hu
    have hwrite : (touchOps key u).filterMap (StoreOp.write (decide (Closes policy t.toInt64))) = touchWrite key u := by
      have hone := filterMap_touchOps key [u]
      simpa [decide_eq_true hcl, touchWrites] using hone
    rw [hwrite] at hrow
    have hm' : Maps key (touch S u) (openRow ((touchOps key u).foldl (StoreOp.exec policy t.toInt64) c).docs) := by
      rw [hrow]; exact hm.touch hl.start hl.head_mem hl.injOn_touch
    rw [List.flatMap_cons, List.foldl_append, ih hl.tail hu' hm']
    -- the touch itself: its key is free when the new row is written
    rcases u with ⟨_ | b, _ | a⟩
    · rfl
    · refine findRows_upsertOne ht a ?_
      rcases hopen : openRow c.docs (key a) with _ | y
      · rfl
      · obtain ⟨hy, hk⟩ := (hm (key a) y).1 hopen
        exact absurd hk (hl.key_free rfl hy (by simp))
    · exact findRows_closeOne hp ht hinst (key b) c.docs
    · have hclose := findRows_closeOne hp ht hinst (key b) c.docs
      have hfree : openRow (closeOne policy t.toInt64 (key b) c.docs) (key a) = none := by
        rw [(openRow_closeOne hcl (key b) hu).1, Function.update_apply]
        split_ifs with hk
        · rfl
        · rcases hopen : openRow c.docs (key a) with _ | y
          · rfl
          · obtain ⟨hy, hky⟩ := (hm (key a) y).1 hopen
            refine absurd hky (hl.key_free rfl hy ?_)
            rintro ⟨⟩
            exact hk hky.symm
      exact (findRows_upsertOne ht a hfree).trans hclose

end

/-! ## Histories -/

/-- a result event with the result set it leads to -/
structure Step (Row : Type) where
  event : ResultChangeEvent Row
  result : Finset Row

/-- the step leads on from the result set `S`, at a time from `t` on -/
structure Follows [DecidableEq Row] (H : Hashing Row Hash) (key : Row → Hash) (S : Finset Row) (t : UInt64) (e : Step Row) :
    Prop where
  keyed : KeyedBy H key e.event
  carries : Carries S e.result e.event.touches
  once : TouchedOnce key e.event.touches
  distinct : Set.InjOn key e.result
  later : t ≤ e.event.sourceTimeMs

/-- result events one after the other, from the result set `S`, with source times that never decrease -/
def Evolves [DecidableEq Row] (H : Hashing Row Hash) (key : Row → Hash) : Finset Row → UInt64 → List (Step Row) → Prop
  | _, _, [] => True
  | S, t, e :: es => Follows H key S t e ∧ Evolves H key e.result e.event.sourceTimeMs es

/-- the result set after the last event with a time up to `t`, `S` if there is none -/
def asOf (S : Finset Row) (es : List (Step Row)) (t : UInt64) : Finset Row :=
  ((es.filter fun e => e.event.sourceTimeMs ≤ t).getLast?.map (·.result)).getD S

theorem asOf_cons (S : Finset Row) (e : Step Row) (es : List (Step Row)) (t : UInt64) :
    asOf S (e :: es) t = asOf (if e.event.sourceTimeMs ≤ t then e.result else S) es t := by
  unfold asOf
  by_cases h : e.event.sourceTimeMs ≤ t
  · simp only [List.filter_cons, h, decide_true, if_true, List.getLast?_cons]
    cases (es.filter fun e => e.event.sourceTimeMs ≤ t).getLast? <;> rfl
  · simp only [List.filter_cons, h, decide_false, Bool.false_eq_true, if_false]

section

variable [DecidableEq Hash]

/-- one event recorded in the collection of a view -/
def recordEvent (H : Hashing Row Hash) (policy : RetentionPolicy) (c : Collection Row Hash) (e : Step Row) :
    Collection Row Hash :=
  (recordOps H e.event).foldl (StoreOp.exec policy e.event.sourceTimeMs.toInt64) c

/-- the store after `record_change` of every event -/
def recordAll (H : Hashing Row Hash) (st : MongoViewStore Row Hash) (queryId : String) (es : List (Step Row)) :
    MongoViewStore Row Hash :=
  es.foldl (fun st e => (recordChange H st queryId e.event).2) st

theorem recordAll_collection (H : Hashing Row Hash) {st : MongoViewStore Row Hash} {queryId : String}
    {policy : RetentionPolicy} (hp : st.retentionPolicy queryId = some policy) (es : List (Step Row)) :
    (recordAll H st queryId es).retentionPolicy = st.retentionPolicy ∧
      (recordAll H st queryId es).collection queryId = es.foldl (recordEvent H policy) (st.collection queryId) := by
  induction es generalizing st with
  | nil => exact ⟨rfl, rfl⟩
  | cons e es ih =>
    have hpol : (recordChange H st queryId e.event).2.retentionPolicy = st.retentionPolicy := by simp [recordChange, hp]
    have hcol : (recordChange H st queryId e.event).2.collection queryId =
        recordEvent H policy (st.collection queryId) e := by simp [recordChange, hp, recordEvent]
    obtain ⟨ihp, ihc⟩ := ih (hpol ▸ hp)
    exact ⟨ihp.trans hpol, ihc.trans (by rw [hcol, List.foldl_cons])⟩

theorem recordEvent_docs {H : Hashing Row Hash} {key : Row → Hash} {e : Step Row} (hk : KeyedBy H key e.event)
    (policy : RetentionPolicy) (c : Collection Row Hash) :
    (recordEvent H policy c e).docs =
      ((e.event.touches.flatMap (touchOps key)).foldl (StoreOp.exec policy e.event.sourceTimeMs.toInt64) c).docs := by
  rw [recordEvent, recordOps_eq hk, List.foldl_append]
  rfl

theorem recordEvent_metadata (H : Hashing Row Hash) (policy : RetentionPolicy) (c : Collection Row Hash) (e : Step Row) :
    ∃ state, (recordEvent H policy c e).metadata =
      some ⟨e.event.sequence.toInt64, e.event.sourceTimeMs.toInt64, state⟩ := by
  unfold recordEvent recordOps
  rw [← List.append_assoc, ← List.append_assoc, List.foldl_append]
  exact ⟨_, rfl⟩

theorem recordEvent_dated [DecidableEq Row] {H : Hashing Row Hash} {key : Row → Hash} {S : Finset Row} {t : UInt64}
    {e : Step Row} (hf : Follows H key S t e) (ht : t ≤ maxTime) (hmax : e.event.sourceTimeMs ≤ maxTime)
    (policy : RetentionPolicy) (hS : Set.InjOn key S) {c : Collection Row Hash} (h : Dated key t.toInt64 S c.docs) :
    Dated key e.event.sourceTimeMs.toInt64 e.result (recordEvent H policy c e).docs := by
  rw [recordEvent_docs hf.keyed]
  exact touches_dated hmax ((toInt64_le ht hmax).2 hf.later) policy hS hf.distinct hf.carries hf.once.unchained h

/-- **The documents at every instant.** What was shown at an instant before the events is shown there after them, as long
as no event reaches it. -/
theorem findRows_recordEvents [DecidableEq Row] {H : Hashing Row Hash} {key : Row → Hash} {policy : RetentionPolicy}
    (hp : policy ≠ .latest) {es : List (Step Row)} {S : Finset Row} {t : UInt64} (hev : Evolves H key S t es)
    (ht : t ≤ maxTime) (hmax : ∀ e ∈ es, e.event.sourceTimeMs ≤ maxTime) (hS : Set.InjOn key S)
    {c : Collection Row Hash} (h : Dated key t.toInt64 S c.docs) {R : UInt64 → Finset Row}
    (hpast : ∀ instant ≤ maxTime, (findRows c.docs instant.toInt64 : Multiset Row) = (R instant).val) :
    ∀ instant ≤ maxTime, (findRows (es.foldl (recordEvent H policy) c).docs instant.toInt64 : Multiset Row) =
      (asOf (R instant) es instant).val := by
  induction es generalizing S t c R with
  | nil => exact hpast
  | cons e es ih =>
    intro instant hinst
    obtain ⟨hf, hev⟩ := hev
    have hemax := hmax e List.mem_cons_self
    have hd := recordEvent_dated hf ht hemax policy hS h
    rw [asOf_cons, List.foldl_cons]
    refine ih (R := fun instant => if e.event.sourceTimeMs ≤ instant then e.result else R instant) hev hemax
      (fun e' he' => hmax e' (List.mem_cons_of_mem e he')) hf.distinct hd ?_ instant hinst
    intro instant hinst
    split_ifs with hle
    · exact hd.findRows_eq hf.distinct ((toInt64_le hemax hinst).2 hle) (toInt64_le_max hinst)
    · have hlt : instant.toInt64 < e.event.sourceTimeMs.toInt64 :=
        (toInt64_lt hinst hemax).2 (UInt64.not_le.1 hle)
      have hlegal := hf.carries.legal hS hf.distinct hf.once.unchained
      rw [recordEvent_docs hf.keyed, findRows_touches hp hemax hlt hlegal h.unique h.maps]
      exact hpast instant hinst

/-! ## Temporal correctness -/

/-- `get_view(t)` answers the result set as of `t` for every `t` up to the recorded time, and between any two store
operations a hash has at most one open document -/
structure TemporallyCorrect (H : Hashing Row Hash) (st : MongoViewStore Row Hash) (queryId : String)
    (es : List (Step Row)) : Prop where
  view : ∀ e ∈ es.getLast?, ∀ t ≤ e.event.sourceTimeMs, ∀ now, ∃ header rows,
    getView (recordAll H st queryId es) queryId (some t) now = .ok (header, rows) ∧ (rows : Multiset Row) = (asOf ∅ es t).val
  unique : ∀ before e after, es = before ++ e :: after → ∀ ops rest, recordOps H e.event = ops ++ rest →
    OpenUnique (ops.foldl (StoreOp.exec .all e.event.sourceTimeMs.toInt64)
      ((recordAll H st queryId before).collection queryId)).docs

/-- a new view: nothing is recorded -/
def NewView (st : MongoViewStore Row Hash) (queryId : String) (policy : RetentionPolicy) : Prop :=
  st.retentionPolicy queryId = some policy ∧ (st.collection queryId).docs = []

theorem openUnique_recordEvents (H : Hashing Row Hash) (policy : RetentionPolicy) (es : List (Step Row))
    {c : Collection Row Hash} (hu : OpenUnique c.docs) : OpenUnique (es.foldl (recordEvent H policy) c).docs := by
  induction es generalizing c with
  | nil => exact hu
  | cons e es ih => exact ih (openRow_foldl_exec policy _ (recordOps H e.event) c hu).2

/-- **Temporal view correctness.** With the policy `All`, for every history of result events from a new view, with source
times that never decrease and are at most `MAX_TIMESTAMP`, `get_view(t)` answers exactly the rows of the result set after
the last event with a time up to `t`, for every `t` up to the recorded time, and at every moment there is at most one open
document for each hash. -/
theorem temporal_view [DecidableEq Row] (H : Hashing Row Hash) (key : Row → Hash) (st : MongoViewStore Row Hash)
    (queryId : String) (es : List (Step Row)) (hnew : NewView st queryId .all) (hev : Evolves H key ∅ 0 es)
    (hmax : ∀ e ∈ es, e.event.sourceTimeMs ≤ maxTime) : TemporallyCorrect H st queryId es := by
  obtain ⟨hpol, hdocs⟩ := hnew
  have hstart : Dated key (0 : UInt64).toInt64 ∅ (st.collection queryId).docs := by rw [hdocs]; exact dated_nil key _
  constructor
  · intro e hlast t ht now
    obtain ⟨hpol', hcol⟩ := recordAll_collection H hpol es
    have hemax := hmax e (List.mem_of_getLast? hlast)
    have htmax : t ≤ maxTime := UInt64.le_trans ht hemax
    -- the recorded time is the one of the last event
    obtain ⟨state, hmeta⟩ : ∃ state, (es.foldl (recordEvent H .all) (st.collection queryId)).metadata =
        some ⟨e.event.sequence.toInt64, e.event.sourceTimeMs.toInt64, state⟩ := by
      obtain ⟨es', rfl⟩ := List.getLast?_eq_some_iff.1 hlast
      rw [List.foldl_append]
      exact recordEvent_metadata H .all _ e
    have heff : effectiveAt ⟨e.event.sequence.toInt64, e.event.sourceTimeMs.toInt64, state⟩ (some t) now = t.toInt64 := by
      exact effectiveAt_of_le ((toInt64_le htmax hemax).2 ht)
    refine ⟨MetadataDocument.header ⟨e.event.sequence.toInt64, e.event.sourceTimeMs.toInt64, state⟩,
      findRows (es.foldl (recordEvent H .all) (st.collection queryId)).docs t.toInt64, ?_, ?_⟩
    · simp only [getView, hpol', hpol, hcol, hmeta, expired, heff, Bool.false_eq_true, if_false]
    · refine findRows_recordEvents (R := fun _ => ∅) (show RetentionPolicy.all ≠ .latest by decide) hev (by decide) hmax
        (by simp) hstart ?_ t htmax
      intro instant _
      rw [hdocs]
      rfl
  · intro before e after _ ops rest _
    obtain ⟨-, hcol⟩ := recordAll_collection H hpol before
    rw [hcol]
    refine (openRow_foldl_exec .all _ ops _ (openUnique_recordEvents H .all before ?_)).2
    rw [hdocs]
    exact List.nodup_nil

end

/-! ## Rows that are numbers -/

/-- the view of the query `q`, with nothing recorded -/
def emptyView (policy : RetentionPolicy) : MongoViewStore ℕ ℕ where
  retentionPolicy queryId := if queryId = "q" then some policy else none
  collection _ := ⟨[], none⟩

/-- the event with the touches at the time, as deleted, updated and added rows, with the result set it leads to -/
def numberStep (sequence time : UInt64) (deleted : List ℕ) (updated : List (ℕ × ℕ)) (added : List ℕ) (result : Finset ℕ) :
    Step ℕ where
  event := ⟨sequence, time, added, updated.map fun p => ⟨some p.1, some p.2, none⟩, deleted⟩
  result := result

theorem numberStep_keyed (sequence time : UInt64) (deleted : List ℕ) (updated : List (ℕ × ℕ)) (added : List ℕ)
    (result : Finset ℕ) : KeyedBy numberHashing id (numberStep sequence time deleted updated added result).event where
  deleted _ _ := rfl
  added _ _ := rfl
  updated u hu r _ := by
    obtain ⟨p, -, rfl⟩ := List.mem_map.1 hu
    rfl

theorem numberStep_follows {S : Finset ℕ} {t sequence time : UInt64} {deleted : List ℕ} {updated : List (ℕ × ℕ)}
    {added : List ℕ} {result : Finset ℕ}
    (hc : Carries S result (numberStep sequence time deleted updated added result).event.touches)
    (ho : TouchedOnce id (numberStep sequence time deleted updated added result).event.touches) (ht : t ≤ time) :
    Follows numberHashing id S t (numberStep sequence time deleted updated added result) :=
  ⟨numberStep_keyed _ _ _ _ _ _, hc, ho, Set.injOn_id _, ht⟩

/-- 1 comes, goes for 2 and comes back in the same millisecond -/
def numberHistory : List (Step ℕ) :=
  [numberStep 1 1000 [] [] [1] {1}, numberStep 2 2000 [] [(1, 2)] [] {2}, numberStep 3 2000 [] [] [1] {1, 2}]

theorem temporal_view_row_returns : TemporallyCorrect numberHashing (emptyView .all) "q" numberHistory := by
  refine temporal_view numberHashing id (emptyView .all) "q" numberHistory ⟨rfl, rfl⟩ ⟨?_, ?_, ?_, trivial⟩ ?_
  · exact numberStep_follows ⟨by decide, by decide⟩ (by unfold TouchedOnce; decide) (by decide)
  · exact numberStep_follows ⟨by decide, by decide⟩ (by unfold TouchedOnce; decide) (by decide)
  · exact numberStep_follows ⟨by decide, by decide⟩ (by unfold TouchedOnce; decide) (by decide)
  · decide

/-- a row that comes one millisecond behind `MAX_TIMESTAMP` -/
def lateHistory : List (Step ℕ) := [numberStep 1 253402300800000 [] [] [1] {1}]

/-- **Beyond `MAX_TIMESTAMP` a row is never shown.** The only event brings the row 1; `get_view` at its time answers no
row. -/
theorem beyond_max_timestamp :
    NewView (emptyView .all) "q" .all ∧ Evolves numberHashing id ∅ 0 lateHistory ∧
    asOf ∅ lateHistory 253402300800000 = {1} ∧
    (getView (recordAll numberHashing (emptyView .all) "q" lateHistory) "q" (some 253402300800000) 0).map Prod.snd =
      .ok [] ∧
    ¬ TemporallyCorrect numberHashing (emptyView .all) "q" lateHistory := by
  have hrows : (getView (recordAll numberHashing (emptyView .all) "q" lateHistory) "q" (some 253402300800000) 0).map
      Prod.snd = .ok [] := by decide
  refine ⟨⟨rfl, rfl⟩, ⟨?_, trivial⟩, by decide, hrows, ?_⟩
  · exact numberStep_follows ⟨by decide, by decide⟩ (by unfold TouchedOnce; decide) (by decide)
  · intro h
    obtain ⟨header, rows, hview, hset⟩ := h.view _ (by rfl) 253402300800000 (by decide) 0
    rw [hview] at hrows
    obtain rfl : rows = [] := by simpa [Except.map] using hrows
    exact absurd hset (by decide)

end DrasiPlatform.View
