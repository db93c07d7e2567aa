/-
A snapshot taken while results are recorded: is the header of `get_view` a lower bound of what the rows show?

`record_change` is a sequence of single-document operations with the metadata at the end, and `get_view` is two reads: the
metadata, then the documents valid at the effective time. An interleaving is a way to cut the operations of all events in
three: those before the metadata is read, those between the two reads, and the rest.

A consumer keys the rows of the snapshot and applies every event behind the header's sequence, as keyed upserts and
deletes (`resume`).

- `Recorded`: the state between two events; the documents are dated by the metadata. `recorded_split` carries it over a
  history.
- `storeOps_split`: an operation count falls inside one event, whose metadata is not written yet.
- `mem_execOps_of_untouched`: operations on other keys leave the documents of a key alone.
- `snapshot_sound`: in every interleaving, with any policy, what the consumer has at the end is the result set, as long as
  the server's clock is not behind the recorded time.
Witness: `clock_behind_header` (the header says 1, the rows are those of before 1).
-/
import Mathlib.Tactic
import DrasiPlatform.Core.Writes
import DrasiPlatform.View.Temporal

namespace DrasiPlatform.View

variable {Row Hash : Type} [DecidableEq Hash]

/-! ## Model -/

/-- the operations of `record_change` for all events, one after the other, each with the time of its event -/
def storeOps (H : Hashing Row Hash) (es : List (Step Row)) : List (Int64 × StoreOp Row Hash) :=
  es.flatMap fun e => (recordOps H e.event).map fun op => (e.event.sourceTimeMs.toInt64, op)

def execOps (policy : RetentionPolicy) (c : Collection Row Hash) (ops : List (Int64 × StoreOp Row Hash)) :
    Collection Row Hash :=
  ops.foldl (fun c op => op.2.exec policy op.1 c) c

/-- `get_view` without a timestamp: the metadata is read from `c`, the documents from `c'` -/
def getViewBetween (policy : RetentionPolicy) (c c' : Collection Row Hash) (now : UInt64) :
    Except ViewError (Header × List Row) :=
  match c.metadata with
  | none => .error .notFound
  | some m =>
    if expired policy none now then .error .notFound
    else .ok (m.header, findRows c'.docs (effectiveAt m none now))

omit [DecidableEq Hash] in
/-- with nothing between its reads it is `getView` -/
theorem getView_eq_between {st : MongoViewStore Row Hash} {queryId : String} {policy : RetentionPolicy}
    (hp : st.retentionPolicy queryId = some policy) (now : UInt64) :
    getView st queryId none now = getViewBetween policy (st.collection queryId) (st.collection queryId) now := by
  rw [getView, hp]
  rfl

/-- the rows of a snapshot by their keys -/
def keyedRows (key : Row → Hash) (rows : List Row) : Hash → Option Row :=
  Writes.apply (fun _ => none) (rows.map fun r => (key r, some r))

/-- the events as keyed upserts and deletes -/
def eventsWrites (key : Row → Hash) (es : List (Step Row)) : List (Hash × Option Row) :=
  es.flatMap fun e => touchWrites key e.event.touches

/-- the events behind the header's sequence -/
def eventsBehind (header : Header) (es : List (Step Row)) : List (Step Row) :=
  es.filter fun e => header.sequence < e.event.sequence

/-- the snapshot with the events behind its header applied -/
def resume (key : Row → Hash) (header : Header) (rows : List Row) (es : List (Step Row)) : Hash → Option Row :=
  Writes.apply (keyedRows key rows) (eventsWrites key (eventsBehind header es))

/-- the result set at the end of a history that starts with `S` -/
def finalResult (S : Finset Row) (es : List (Step Row)) : Finset Row := (es.getLast?.map (·.result)).getD S

/-- the sequence numbers of the events increase, from `seq` on -/
def Increases (seq : UInt64) (es : List (Step Row)) : Prop :=
  (seq :: es.map (·.event.sequence)).Pairwise (· < ·)

/-! ## Operations and keys -/

theorem execOps_append (policy : RetentionPolicy) (c : Collection Row Hash) (a b : List (Int64 × StoreOp Row Hash)) :
    execOps policy c (a ++ b) = execOps policy (execOps policy c a) b := by
  simp [execOps, List.foldl_append]

theorem execOps_storeOps (H : Hashing Row Hash) (policy : RetentionPolicy) (es : List (Step Row)) (c : Collection Row Hash) :
    execOps policy c (storeOps H es) = es.foldl (recordEvent H policy) c := by
  induction es generalizing c with
  | nil => rfl
  | cons e es ih =>
    rw [storeOps, List.flatMap_cons, execOps_append, List.foldl_cons, ← ih]
    congr 1
    simp [execOps, recordEvent, List.foldl_map]

/-- the hash whose documents the operation writes, none for the metadata -/
def StoreOp.target : StoreOp Row Hash → Option Hash
  | .close hash => some hash
  | .upsert hash _ => some hash
  | .metadata _ => none

theorem mem_modifyFirst_of_ne {α : Type} {p : α → Bool} {f : α → α} {x : α} (hx : p x = false)
    (hf : ∀ y, p y = true → f y ≠ x) (l : List α) : x ∈ modifyFirst p f l ↔ x ∈ l := by
  induction l with
  | nil => rfl
  | cons a l ih =>
    rw [modifyFirst]
    split_ifs with hp
    · have ha : x ≠ a := by
        rintro rfl
        rw [hx] at hp
        cases hp
      rw [List.mem_cons, List.mem_cons]
      exact or_congr (iff_of_false (hf a hp).symm ha) Iff.rfl
    · rw [List.mem_cons, List.mem_cons, ih]

theorem mem_closeOne_of_ne (policy : RetentionPolicy) (ts : Int64) {hash : Hash} {d : ViewDocument Row Hash}
    (hd : d.hash ≠ hash) (docs : List (ViewDocument Row Hash)) : d ∈ closeOne policy ts hash docs ↔ d ∈ docs := by
  have hno : matchesOpen hash d = false := by simp [matchesOpen, hd]
  have hend : d ∈ modifyFirst (matchesOpen hash) (fun d => { d with validTo := ts - 1 }) docs ↔ d ∈ docs := by
    refine mem_modifyFirst_of_ne hno ?_ docs
    rintro y hy rfl
    simp only [matchesOpen, decide_eq_true_eq] at hy
    exact hd hy.1
  cases policy with
  | latest => exact List.mem_eraseP_of_neg (by simp [hno])
  | expire _ => exact hend
  | all => exact hend

theorem mem_upsertOne_of_ne (ts : Int64) {hash : Hash} (row : Row) {d : ViewDocument Row Hash} (hd : d.hash ≠ hash)
    (docs : List (ViewDocument Row Hash)) : d ∈ upsertOne ts hash row docs ↔ d ∈ docs := by
  have hno : matchesOpen hash d = false := by simp [matchesOpen, hd]
  have hne : d ≠ ⟨hash, row, ts, maxTimestamp⟩ := by
    rintro rfl
    exact hd rfl
  unfold upsertOne
  dsimp only
  split_ifs
  · exact mem_modifyFirst_of_ne hno (fun _ _ => hne.symm) docs
  · rw [List.mem_append, List.mem_singleton]
    exact or_iff_left hne

/-- **Operations on other keys** leave the documents of a hash alone. -/
theorem mem_execOps_of_untouched {hash : Hash} (policy : RetentionPolicy) {ops : List (Int64 × StoreOp Row Hash)}
    (h : ∀ op ∈ ops, op.2.target ≠ some hash) (c : Collection Row Hash) {d : ViewDocument Row Hash} (hd : d.hash = hash) :
    d ∈ (execOps policy c ops).docs ↔ d ∈ c.docs := by
  induction ops generalizing c with
  | nil => rfl
  | cons op ops ih =>
    have hop := h op List.mem_cons_self
    rw [execOps, List.foldl_cons]
    refine (ih (fun o ho => h o (List.mem_cons_of_mem op ho)) _).trans ?_
    rcases op with ⟨ts, h' | ⟨h', row⟩ | seq⟩
    · exact mem_closeOne_of_ne policy ts (fun he => hop (congrArg some (he.symm.trans hd))) c.docs
    · exact mem_upsertOne_of_ne ts row (fun he => hop (congrArg some (he.symm.trans hd))) c.docs
    · rfl

/-- the documents stay under their keys -/
theorem keyed_execOps {key : Row → Hash} (policy : RetentionPolicy) {ops : List (Int64 × StoreOp Row Hash)}
    (hops : ∀ op ∈ ops, ∀ hash row, op.2 = .upsert hash row → hash = key row) {c : Collection Row Hash}
    (h : ∀ d ∈ c.docs, d.hash = key d.result) : ∀ d ∈ (execOps policy c ops).docs, d.hash = key d.result := by
  induction ops generalizing c with
  | nil => exact h
  | cons op ops ih =>
    rw [execOps, List.foldl_cons]
    refine ih (fun o ho => hops o (List.mem_cons_of_mem op ho)) ?_
    intro d hd
    rcases op with ⟨ts, hash | ⟨hash, row⟩ | seq⟩
    · rcases mem_closeOne hd with hd | ⟨d', hd', rfl⟩
      · exact h d hd
      · exact h d' hd'
    · rcases mem_upsertOne hd with hd | rfl
      · exact h d hd
      · exact hops _ List.mem_cons_self hash row rfl
    · exact h d hd

theorem metadata_execOps (policy : RetentionPolicy) {ops : List (Int64 × StoreOp Row Hash)}
    (h : ∀ op ∈ ops, op.2.target ≠ none) (c : Collection Row Hash) : (execOps policy c ops).metadata = c.metadata := by
  induction ops generalizing c with
  | nil => rfl
  | cons op ops ih =>
    have hop := h op List.mem_cons_self
    rw [execOps, List.foldl_cons]
    refine (ih (fun o ho => h o (List.mem_cons_of_mem op ho)) _).trans ?_
    rcases op with ⟨ts, hash | ⟨hash, row⟩ | seq⟩
    · rfl
    · rfl
    · exact absurd rfl hop

omit [DecidableEq Hash] in
theorem target_mem_touchWrites {key : Row → Hash} {us : List (Touch Row)} {op : StoreOp Row Hash} {hash : Hash}
    (hop : op ∈ us.flatMap (touchOps key)) (ht : op.target = some hash) : ∃ w ∈ touchWrites key us, w.1 = hash := by
  rw [← filterMap_touchOps]
  rcases op with h' | ⟨h', row⟩ | seq
  · exact ⟨(h', none), List.mem_filterMap.2 ⟨_, hop, rfl⟩, Option.some.inj ht⟩
  · exact ⟨(h', some row), List.mem_filterMap.2 ⟨_, hop, rfl⟩, Option.some.inj ht⟩
  · cases ht

/-! ## Where an interleaving cuts -/

omit [DecidableEq Hash] in
/-- the metadata is the last operation, and no other one writes it -/
theorem recordOps_metadata_last (H : Hashing Row Hash) (change : ResultChangeEvent Row) :
    ∃ ops, recordOps H change = ops ++ [.metadata change.sequence] ∧ ∀ op ∈ ops, op.target ≠ none := by
  refine ⟨change.deletedResults.map (fun del => .close (H.hashValues del)) ++
    (change.updatedResults.flatMap (updateOps H) ++ change.addedResults.map fun add => .upsert (H.hashValues add) add),
    by simp [recordOps], ?_⟩
  intro op hop
  simp only [List.mem_append, List.mem_map, List.mem_flatMap, updateOps, Option.mem_toList, Option.map_eq_some_iff] at hop
  rcases hop with ⟨_, -, rfl⟩ | ⟨_, -, ⟨_, -, rfl⟩ | ⟨_, -, rfl⟩⟩ | ⟨_, -, rfl⟩ <;> simp [StoreOp.target]

omit [DecidableEq Hash] in
/-- **A cut falls inside one event.** The operations before it are those of the events `es₁` and some of the next one,
whose metadata is not among them. -/
theorem storeOps_split (H : Hashing Row Hash) {es : List (Step Row)} {a b : List (Int64 × StoreOp Row Hash)}
    (h : storeOps H es = a ++ b) :
    ∃ es₁ es₂ part, es = es₁ ++ es₂ ∧ a = storeOps H es₁ ++ part ∧ storeOps H es₂ = part ++ b ∧
      ∀ op ∈ part, op.2.target ≠ none := by
  induction es generalizing a with
  | nil =>
    obtain ⟨rfl, rfl⟩ := List.append_eq_nil_iff.1 h.symm
    exact ⟨[], [], [], rfl, rfl, rfl, by simp⟩
  | cons e es ih =>
    have hcons : storeOps H (e :: es) =
        ((recordOps H e.event).map fun op => (e.event.sourceTimeMs.toInt64, op)) ++ storeOps H es := List.flatMap_cons
    rw [hcons] at h
    rcases List.append_eq_append_iff.1 h with ⟨a', rfl, hb⟩ | ⟨c, hc, rfl⟩
    · -- the cut lies behind the event
      obtain ⟨es₁, es₂, part, rfl, rfl, hpart, hmeta⟩ := ih hb
      exact ⟨e :: es₁, es₂, part, rfl, by rw [← List.append_assoc]; rfl, hpart, hmeta⟩
    · rcases List.eq_nil_or_concat c with rfl | ⟨c', x, rfl⟩
      · rw [List.append_nil] at hc
        exact ⟨[e], es, [], rfl, by rw [← hc, List.append_nil, storeOps, List.flatMap_singleton], rfl, by simp⟩
      · -- the cut lies inside the event: its last operation is on the right
        refine ⟨[], e :: es, a, rfl, rfl, by rw [hcons, hc, List.append_assoc], ?_⟩
        obtain ⟨ops, hops, htarget⟩ := recordOps_metadata_last H e.event
        rw [hops, List.map_append, List.concat_eq_append, ← List.append_assoc] at hc
        obtain ⟨hinit, -⟩ := List.append_inj' hc rfl
        intro op hop
        have hmem : op ∈ ops.map fun op => (e.event.sourceTimeMs.toInt64, op) := by
          rw [hinit]
          exact List.mem_append_left c' hop
        obtain ⟨op', hop', rfl⟩ := List.mem_map.1 hmem
        exact htarget op' hop'

/-! ## Between two events -/

section

variable {key : Row → Hash}

omit [DecidableEq Hash] in
theorem finalResult_cons (S : Finset Row) (e : Step Row) (es : List (Step Row)) :
    finalResult S (e :: es) = finalResult e.result es := by
  unfold finalResult
  rw [List.getLast?_cons]
  cases es.getLast? <;> rfl

omit [DecidableEq Hash] in
theorem finalResult_append (S : Finset Row) (es₁ es₂ : List (Step Row)) :
    finalResult S (es₁ ++ es₂) = finalResult (finalResult S es₁) es₂ := by
  unfold finalResult
  rw [List.getLast?_append]
  cases es₂.getLast? <;> rfl

/-- the state between two events: the documents are those of `S`, dated by the recorded time -/
structure Recorded (key : Row → Hash) (c : Collection Row Hash) (seq t : UInt64) (S : Finset Row) : Prop where
  dated : Dated key t.toInt64 S c.docs
  distinct : Set.InjOn key S
  time : t ≤ maxTime
  metadata : ∀ m ∈ c.metadata, m.seq = seq.toInt64 ∧ m.ts = t.toInt64

/-- a view with nothing recorded -/
theorem recorded_new (key : Row → Hash) (seq : UInt64) : Recorded key ⟨[], none⟩ seq 0 ∅ :=
  ⟨dated_nil key _, by simp, by decide, by simp⟩

variable [DecidableEq Row] {H : Hashing Row Hash}

theorem Recorded.event {c : Collection Row Hash} {seq t : UInt64} {S : Finset Row} (h : Recorded key c seq t S) {e : Step Row}
    (hf : Follows H key S t e) (hmax : e.event.sourceTimeMs ≤ maxTime) (policy : RetentionPolicy) :
    Recorded key (recordEvent H policy c e) e.event.sequence e.event.sourceTimeMs e.result := by
  refine ⟨recordEvent_dated hf h.time hmax policy h.distinct h.dated, hf.distinct, hmax, ?_⟩
  intro m hm
  obtain ⟨state, hmeta⟩ := recordEvent_metadata H policy c e
  rw [hmeta] at hm
  cases hm
  exact ⟨rfl, rfl⟩

/-- **The state after the first events of a history**, with what the rest of it relies on. -/
theorem recorded_split (policy : RetentionPolicy) {es₁ es₂ : List (Step Row)} {c : Collection Row Hash} {seq t : UInt64}
    {S : Finset Row} (h : Recorded key c seq t S) (hev : Evolves H key S t (es₁ ++ es₂)) (hseq : Increases seq (es₁ ++ es₂))
    (hmax : ∀ e ∈ es₁ ++ es₂, e.event.sourceTimeMs ≤ maxTime) :
    ∃ seq' t', Recorded key (es₁.foldl (recordEvent H policy) c) seq' t' (finalResult S es₁) ∧
      Evolves H key (finalResult S es₁) t' es₂ ∧ seq ≤ seq' ∧ (∀ e ∈ es₁, e.event.sequence ≤ seq') ∧
      ∀ e ∈ es₂, seq' < e.event.sequence := by
  induction es₁ generalizing c seq t S with
  | nil =>
    refine ⟨seq, t, h, hev, UInt64.le_refl seq, by simp, ?_⟩
    intro e he
    exact (List.pairwise_cons.1 hseq).1 _ (List.mem_map_of_mem he)
  | cons e es₁ ih =>
    obtain ⟨hf, hev⟩ := hev
    obtain ⟨hfirst, hrest⟩ := List.pairwise_cons.1 hseq
    have hrec := h.event hf (hmax e List.mem_cons_self) policy
    obtain ⟨seq', t', hrec', hev', hle, hbelow, habove⟩ :=
      ih hrec hev hrest fun e' he' => hmax e' (List.mem_cons_of_mem e he')
    rw [finalResult_cons]
    refine ⟨seq', t', hrec', hev', ?_, ?_, habove⟩
    · have hlt : seq < e.event.sequence := hfirst _ (by simp)
      exact UInt64.le_trans (UInt64.le_of_lt hlt) hle
    · intro e' he'
      rcases List.mem_cons.1 he' with rfl | he'
      · exact hle
      · exact hbelow e' he'

/-- the events carry the map of `S` to the map of the last result set -/
theorem Maps.evolve {S : Finset Row} {t : UInt64} {es : List (Step Row)} (hev : Evolves H key S t es)
    (hS : Set.InjOn key S) {f : Hash → Option Row} (hf : Maps key S f) :
    Maps key (finalResult S es) (Writes.apply f (eventsWrites key es)) := by
  induction es generalizing S t f with
  | nil => exact hf
  | cons e es ih =>
    obtain ⟨he, hev⟩ := hev
    have hcons : eventsWrites key (e :: es) = touchWrites key e.event.touches ++ eventsWrites key es := List.flatMap_cons
    rw [finalResult_cons, hcons, Writes.apply_append]
    exact ih hev he.distinct (hf.carry hS he.distinct he.carries he.once.unchained)

/-! ## The snapshot -/

omit [DecidableEq Row] in
theorem keyedRows_eq_some_iff {rows : List Row} {hash : Hash}
    (huniq : ∀ r ∈ rows, ∀ r' ∈ rows, key r = hash → key r' = hash → r = r') (row : Row) :
    keyedRows key rows hash = some row ↔ row ∈ rows ∧ key row = hash := by
  rw [keyedRows, Writes.apply_eq]
  by_cases h : ∃ r ∈ rows, key r = hash
  · obtain ⟨r, hr, hk⟩ := h
    rw [Writes.last_map_of_mem hr hk fun r' hr' hk' => huniq r' hr' r hr hk' hk]
    simp only [Option.getD_some, Option.some.injEq]
    constructor
    · rintro rfl
      exact ⟨hr, hk⟩
    · rintro ⟨hrow, hkrow⟩
      exact huniq r hr row hrow hk hkrow
  · push Not at h
    rw [Writes.last_map_of_notMem h]
    simp only [Option.getD_none, reduceCtorEq, false_iff, not_and]
    exact h row

omit [DecidableEq Hash] [DecidableEq Row] in
theorem mem_findRows {docs : List (ViewDocument Row Hash)} {instant : Int64} {row : Row} :
    row ∈ findRows docs instant ↔ ∃ d ∈ docs, (d.validFrom ≤ instant ∧ instant ≤ d.validTo) ∧ d.result = row := by
  simp [findRows, validAt, and_assoc]

omit [DecidableEq Row] in
/-- **The rows of an untouched key** are those of `S`, whatever operations on other keys come between. -/
theorem mem_snapshot_of_untouched {c : Collection Row Hash} {seq t : UInt64} {S : Finset Row} (h : Recorded key c seq t S)
    (policy : RetentionPolicy) {ops : List (Int64 × StoreOp Row Hash)} {hash : Hash}
    (hkeyed : ∀ op ∈ ops, ∀ hash row, op.2 = .upsert hash row → hash = key row)
    (hun : ∀ op ∈ ops, op.2.target ≠ some hash) {row : Row} (hrow : key row = hash) :
    row ∈ findRows (execOps policy c ops).docs t.toInt64 ↔ row ∈ S := by
  have hS : row ∈ S ↔ row ∈ findRows c.docs t.toInt64 := by
    rw [← Finset.mem_val, ← h.dated.findRows_eq h.distinct (Int64.le_refl _) (toInt64_le_max h.time), Multiset.mem_coe]
  have hk := keyed_execOps policy hkeyed h.dated.stamped.keyed
  rw [hS, mem_findRows, mem_findRows]
  constructor
  · rintro ⟨d, hd, hvalid, hres⟩
    have hhash : d.hash = hash := by rw [hk d hd, hres, hrow]
    exact ⟨d, (mem_execOps_of_untouched policy hun c hhash).1 hd, hvalid, hres⟩
  · rintro ⟨d, hd, hvalid, hres⟩
    have hhash : d.hash = hash := by rw [h.dated.stamped.keyed d hd, hres, hrow]
    exact ⟨d, (mem_execOps_of_untouched policy hun c hhash).2 hd, hvalid, hres⟩

omit [DecidableEq Hash] in
theorem evolves_keyed {S : Finset Row} {t : UInt64} {es : List (Step Row)} (hev : Evolves H key S t es) :
    ∀ e ∈ es, KeyedBy H key e.event := by
  induction es generalizing S t with
  | nil => simp
  | cons e es ih =>
    intro e' he'
    rcases List.mem_cons.1 he' with rfl | he'
    · exact hev.1.keyed
    · exact ih hev.2 e' he'

omit [DecidableEq Hash] [DecidableEq Row] in
/-- the operations of a history are those of its touches, and metadata -/
theorem mem_storeOps {es : List (Step Row)} (hk : ∀ e ∈ es, KeyedBy H key e.event) {op : Int64 × StoreOp Row Hash}
    (hop : op ∈ storeOps H es) :
    (∃ seq, op.2 = .metadata seq) ∨ ∃ e ∈ es, op.2 ∈ e.event.touches.flatMap (touchOps key) := by
  obtain ⟨e, he, hop⟩ := List.mem_flatMap.1 hop
  obtain ⟨op', hop', rfl⟩ := List.mem_map.1 hop
  rw [recordOps_eq (hk e he), List.mem_append, List.mem_singleton] at hop'
  rcases hop' with hop' | rfl
  · exact .inr ⟨e, he, hop'⟩
  · exact .inl ⟨e.event.sequence, rfl⟩

omit [DecidableEq Hash] [DecidableEq Row] in
theorem upsert_mem_storeOps {es : List (Step Row)} (hk : ∀ e ∈ es, KeyedBy H key e.event)
    {op : Int64 × StoreOp Row Hash} (hop : op ∈ storeOps H es) {hash : Hash} {row : Row} (hu : op.2 = .upsert hash row) :
    hash = key row := by
  rcases mem_storeOps hk hop with ⟨seq, hm⟩ | ⟨e, -, htouch⟩
  · rw [hm] at hu
    cases hu
  · rw [hu] at htouch
    exact upsert_mem_touchOps htouch

omit [DecidableEq Hash] [DecidableEq Row] in
theorem target_mem_eventsWrites {es : List (Step Row)} (hk : ∀ e ∈ es, KeyedBy H key e.event)
    {op : Int64 × StoreOp Row Hash} (hop : op ∈ storeOps H es) {hash : Hash} (ht : op.2.target = some hash) :
    ∃ w ∈ eventsWrites key es, w.1 = hash := by
  rcases mem_storeOps hk hop with ⟨seq, hm⟩ | ⟨e, he, htouch⟩
  · rw [hm] at ht
    cases ht
  · obtain ⟨w, hw, hk⟩ := target_mem_touchWrites htouch ht
    exact ⟨w, List.mem_flatMap.2 ⟨e, he, hw⟩, hk⟩

omit [DecidableEq Hash] [DecidableEq Row] in
/-- the events behind a header are the rest of the history -/
theorem eventsBehind_append {header : Header} {es₁ es₂ : List (Step Row)}
    (h₁ : ∀ e ∈ es₁, e.event.sequence ≤ header.sequence) (h₂ : ∀ e ∈ es₂, header.sequence < e.event.sequence) :
    eventsBehind header (es₁ ++ es₂) = es₂ := by
  have hnone : es₁.filter (fun e => decide (header.sequence < e.event.sequence)) = [] := by
    rw [List.filter_eq_nil_iff]
    intro e he hlt
    exact UInt64.not_lt.2 (h₁ e he) (of_decide_eq_true hlt)
  have hall : es₂.filter (fun e => decide (header.sequence < e.event.sequence)) = es₂ := by
    rw [List.filter_eq_self]
    intro e he
    exact decide_eq_true (h₂ e he)
  rw [eventsBehind, List.filter_append, hnone, hall, List.nil_append]

/-! ### Reads that fall between two events -/

section

variable {c : Collection Row Hash} {seq t : UInt64} {S : Finset Row} {es : List (Step Row)}
  {ops : List (Int64 × StoreOp Row Hash)}

/-- a key that no later event writes: its rows are those of the result set at the header -/
theorem Recorded.mem_untouched (h : Recorded key c seq t S) (hev : Evolves H key S t es)
    (hops : ∀ op ∈ ops, op ∈ storeOps H es) (policy : RetentionPolicy) {row : Row}
    (hun : ∀ w ∈ eventsWrites key es, w.1 ≠ key row) :
    row ∈ findRows (execOps policy c ops).docs t.toInt64 ↔ row ∈ S := by
  have hk := evolves_keyed hev
  refine mem_snapshot_of_untouched h policy ?_ ?_ rfl
  · intro op hop hash row hu
    exact upsert_mem_storeOps hk (hops op hop) hu
  · intro op hop ht
    obtain ⟨w, hw, hwk⟩ := target_mem_eventsWrites hk (hops op hop) ht
    exact hun w hw hwk

/-- **Operations of later events do no harm**: with these events applied, the rows are the result set at the end. -/
theorem Recorded.resumes (h : Recorded key c seq t S) (hev : Evolves H key S t es)
    (hops : ∀ op ∈ ops, op ∈ storeOps H es) (policy : RetentionPolicy) :
    Maps key (finalResult S es)
      (Writes.apply (keyedRows key (findRows (execOps policy c ops).docs t.toInt64)) (eventsWrites key es)) := by
  have heq : Writes.apply (keyedRows key (findRows (execOps policy c ops).docs t.toInt64)) (eventsWrites key es) =
      Writes.apply (openRow c.docs) (eventsWrites key es) := by
    refine Writes.apply_congr ?_
    intro hash hun
    have hrows : ∀ row, key row = hash → (row ∈ findRows (execOps policy c ops).docs t.toInt64 ↔ row ∈ S) := by
      rintro row rfl
      exact h.mem_untouched hev hops policy hun
    refine Option.ext ?_
    intro row
    rw [h.dated.maps, keyedRows_eq_some_iff ?_]
    · exact and_congr_left fun hk => hrows row hk
    · intro r hr r' hr' hk hk'
      exact h.distinct ((hrows r hk).1 hr) ((hrows r' hk').1 hr') (hk.trans hk'.symm)
  rw [heq]
  exact h.dated.maps.evolve hev h.distinct

/-- a row whose key no later event writes is in the rows iff it is in the result set at the end -/
theorem Recorded.complete (h : Recorded key c seq t S) (hev : Evolves H key S t es)
    (hops : ∀ op ∈ ops, op ∈ storeOps H es) (policy : RetentionPolicy) {row : Row}
    (hun : ∀ w ∈ eventsWrites key es, w.1 ≠ key row) :
    row ∈ findRows (execOps policy c ops).docs t.toInt64 ↔ row ∈ finalResult S es := by
  have hend := h.dated.maps.evolve hev h.distinct (key row) row
  have hstart := h.dated.maps (key row) row
  rw [Writes.apply_eq, (Writes.last_eq_none_iff _ _).2 hun, Option.getD_none, hstart] at hend
  simp only [and_true] at hend
  rw [h.mem_untouched hev hops policy hun, hend]

end

omit [DecidableEq Row] in
/-- the answer of `get_view` when the clock is not behind the recorded time -/
theorem Recorded.getView {c : Collection Row Hash} {seq t : UInt64} {S : Finset Row} (h : Recorded key c seq t S)
    (policy : RetentionPolicy) (c' : Collection Row Hash) {now : UInt64} (hclock : ∀ m ∈ c.metadata, m.ts ≤ now.toInt64) {header : Header}
    {rows : List Row} (hview : getViewBetween policy c c' now = .ok (header, rows)) :
    header.sequence = seq ∧ rows = findRows c'.docs t.toInt64 := by
  unfold getViewBetween at hview
  rcases hm : c.metadata with _ | m
  · rw [hm] at hview
    cases hview
  · obtain ⟨hseq, hts⟩ := h.metadata m hm
    rw [hm] at hview
    dsimp only at hview
    split_ifs at hview
    rw [effectiveAt_now (hclock m hm), hts] at hview
    cases hview
    exact ⟨by simp [MetadataDocument.header, hseq], rfl⟩

end

/-- a consumer of the answer, with the metadata read from `c` and the documents from `c'`, ends with the result set of the
history, and no event up to the header's sequence is missing from the rows: a row whose key no later event touches is
there iff it is in the result set -/
structure SnapshotSound (key : Row → Hash) (policy : RetentionPolicy) (c c' : Collection Row Hash) (now : UInt64)
    (S : Finset Row) (es : List (Step Row)) : Prop where
  resumes : ∀ header rows, getViewBetween policy c c' now = .ok (header, rows) →
    Maps key (finalResult S es) (resume key header rows es)
  complete : ∀ header rows, getViewBetween policy c c' now = .ok (header, rows) →
    ∀ row, (∀ w ∈ eventsWrites key (eventsBehind header es), w.1 ≠ key row) → (row ∈ rows ↔ row ∈ finalResult S es)

/-- **Snapshot header soundness.** From any recorded state, for every history with increasing sequence numbers, source
times that never decrease and are at most `MAX_TIMESTAMP`, and events that touch no key twice, and for every interleaving
of its store operations with the two reads of `get_view`: when the server's clock is not behind the recorded time, the
rows with all events behind the header applied are the result set. Any policy. -/
theorem snapshot_sound [DecidableEq Row] (H : Hashing Row Hash) (key : Row → Hash) (policy : RetentionPolicy)
    (c : Collection Row Hash) (seq t : UInt64) (S : Finset Row) (es : List (Step Row)) (hstart : Recorded key c seq t S)
    (hev : Evolves H key S t es) (hseq : Increases seq es) (hmax : ∀ e ∈ es, e.event.sourceTimeMs ≤ maxTime)
    (before between after : List (Int64 × StoreOp Row Hash)) (hsplit : storeOps H es = before ++ (between ++ after))
    (now : UInt64) (hclock : ∀ m ∈ (execOps policy c before).metadata, m.ts ≤ now.toInt64) :
    SnapshotSound key policy (execOps policy c before) (execOps policy c (before ++ between)) now S es := by
  obtain ⟨es₁, es₂, part, rfl, rfl, hpart, hmeta⟩ := storeOps_split H hsplit
  obtain ⟨seq', t', hrec, hev₂, -, hbelow, habove⟩ := recorded_split policy hstart hev hseq hmax
  rw [← execOps_storeOps] at hrec
  have hops : ∀ op ∈ part ++ between, op ∈ storeOps H es₂ := by
    intro op hop
    rw [hpart, ← List.append_assoc]
    exact List.mem_append_left after hop
  have hmd : (execOps policy c (storeOps H es₁ ++ part)).metadata = (execOps policy c (storeOps H es₁)).metadata := by
    rw [execOps_append, metadata_execOps policy hmeta]
  rw [hmd] at hclock
  have hview : ∀ header rows, getViewBetween policy (execOps policy c (storeOps H es₁ ++ part))
      (execOps policy c (storeOps H es₁ ++ part ++ between)) now = .ok (header, rows) →
      header.sequence = seq' ∧
        rows = findRows (execOps policy (execOps policy c (storeOps H es₁)) (part ++ between)).docs t'.toInt64 := by
    intro header rows h
    refine hrec.getView policy (execOps policy (execOps policy c (storeOps H es₁)) (part ++ between)) hclock ?_
    rw [← h, List.append_assoc, execOps_append policy c _ (part ++ between), getViewBetween, getViewBetween, hmd]
  constructor
  · intro header rows h
    obtain ⟨rfl, rfl⟩ := hview header rows h
    rw [resume, eventsBehind_append hbelow habove, finalResult_append]
    exact hrec.resumes hev₂ hops policy
  · intro header rows h row hun
    obtain ⟨rfl, rfl⟩ := hview header rows h
    rw [eventsBehind_append hbelow habove] at hun
    rw [finalResult_append]
    exact hrec.complete hev₂ hops policy hun

/-! ## Rows that are numbers -/

/-- an empty collection after some operations of a history -/
def numbersAfter (es : List (Step ℕ)) (n : ℕ) : Collection ℕ ℕ :=
  execOps .all ⟨[], none⟩ ((storeOps numberHashing es).take n)

/-- the metadata is read when the second event has closed its row, the documents when it has brought the new one -/
theorem snapshot_sound_inside_event :
    SnapshotSound id .all (numbersAfter numberHistory 3) (numbersAfter numberHistory 4) 5000 ∅ numberHistory := by
  refine snapshot_sound numberHashing id .all ⟨[], none⟩ 0 0 ∅ numberHistory (recorded_new id 0) ⟨?_, ?_, ?_, trivial⟩ ?_ ?_
    ((storeOps numberHashing numberHistory).take 3) (((storeOps numberHashing numberHistory).drop 3).take 1)
    ((storeOps numberHashing numberHistory).drop 4) rfl 5000 ?_
  · exact numberStep_follows ⟨by decide, by decide⟩ (by unfold TouchedOnce; decide) (by decide)
  · exact numberStep_follows ⟨by decide, by decide⟩ (by unfold TouchedOnce; decide) (by decide)
  · exact numberStep_follows ⟨by decide, by decide⟩ (by unfold TouchedOnce; decide) (by decide)
  · unfold Increases
    decide
  · decide
  · decide

/-- **A clock behind the recorded time.** The row 1 comes with the event 1 at 1000; `get_view` at 500 answers the header 1
with no row, and no later event brings the row. -/
theorem clock_behind_header :
    Evolves numberHashing id ∅ 0 [numberStep 1 1000 [] [] [1] {1}] ∧
    (getViewBetween .all (numbersAfter [numberStep 1 1000 [] [] [1] {1}] 2) (numbersAfter [numberStep 1 1000 [] [] [1] {1}] 2)
      500).map (fun p => (p.1.sequence, p.2)) = .ok (1, []) ∧
    ¬ SnapshotSound id .all (numbersAfter [numberStep 1 1000 [] [] [1] {1}] 2)
      (numbersAfter [numberStep 1 1000 [] [] [1] {1}] 2) 500 ∅ [numberStep 1 1000 [] [] [1] {1}] := by
  refine ⟨⟨?_, trivial⟩, by decide, ?_⟩
  · exact numberStep_follows ⟨by decide, by decide⟩ (by unfold TouchedOnce; decide) (by decide)
  · intro h
    have hview : getViewBetween .all (numbersAfter [numberStep 1 1000 [] [] [1] {1}] 2)
        (numbersAfter [numberStep 1 1000 [] [] [1] {1}] 2) 500 = .ok (⟨1, 1000, none⟩, []) := by rfl
    have hrow := (h.complete _ _ hview 1 (by decide)).2 (by decide)
    cases hrow

end DrasiPlatform.View
