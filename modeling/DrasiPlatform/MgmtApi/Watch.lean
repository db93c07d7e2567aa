/-
Watching a query (`control-planes/mgmt_api/src/domain/result_service.rs`, `snapshot_stream_from_now`, with
`change_stream/redis_change_stream.rs`): a snapshot from the view service, then the live results.

The steps: the view is fetched (`get_view`, two reads), its rows are kept; a consumer group with a fresh name is created at
`$`, the end of the results topic; the stream then yields each row as an event that adds it (the header is dropped,
`sequence: 0 //todo`), and after that the messages of the group. A failure to create the group is logged and the stream
goes on without one. A message whose acknowledgement fails is yielded again.

The machine interleaves these steps with the publication of results and with the store operations of the view worker,
which lags behind the topic. A client folds the events it is sent by key, each one as a simultaneous change.

- `maps_change`: one event, folded by a client.
- `watch_no_gap`: in every run where the view has recorded everything published when it is read, nothing is published
  between that read and the creation of the group, and the group is created, a client that has been sent everything has
  the result set.
- `from_subscription_iff`: from the creation of the group on, the client is right in every run of results iff the rows of
  the snapshot are the result set after everything published by then.
Witness: `change_in_the_gap` (a change that is published between the two, and a view that lags).
Control events carry no rows and are left out.
-/
import Mathlib.Tactic
import DrasiPlatform.Core.Run
import DrasiPlatform.View.Snapshot

namespace DrasiPlatform.MgmtApi

open DrasiPlatform.Run DrasiPlatform.View

/-! ## Model -/

/-- `pending` are the rows of the snapshot that are not yielded yet, `cursor` counts the messages of the topic that the group
is past -/
inductive WatchPhase (Row : Type) where
  | idle
  | header (metadata : MetadataDocument) (now : UInt64)
  | snapshot (rows : List Row)
  | live (pending : List Row) (cursor : ℕ)
  | ungrouped (pending : List Row)
  | failed
deriving DecidableEq

/-- `queue` are the store operations that the view worker has not executed yet, `streamed` the events yielded to the
client -/
structure Watch (Row Hash : Type) where
  published : List (Step Row)
  collection : Collection Row Hash
  queue : List (Int64 × StoreOp Row Hash)
  phase : WatchPhase Row
  streamed : List (ResultChangeEvent Row)

inductive WatchOp (Row : Type) where
  | publish (e : Step Row)
  | record
  | readHeader (now : UInt64)
  | readRows
  | subscribe (created : Bool)
  | yieldRow
  | deliver (ackOk : Bool)

variable {Row Hash : Type} [DecidableEq Hash]

/-- the event that stands for a row of the snapshot -/
def snapshotEvent (row : Row) : ResultChangeEvent Row := ⟨0, 0, [row], [], []⟩

def Watch.step (H : Hashing Row Hash) (policy : RetentionPolicy) (s : Watch Row Hash) : WatchOp Row → Watch Row Hash
  | .publish e => { s with published := s.published ++ [e], queue := s.queue ++ storeOps H [e] }
  | .record =>
    match s.queue with
    | [] => s
    | op :: rest => { s with collection := op.2.exec policy op.1 s.collection, queue := rest }
  | .readHeader now =>
    match s.phase, s.collection.metadata with
    | .idle, some m => { s with phase := if expired policy none now then .failed else .header m now }
    | .idle, none => { s with phase := .failed }
    | _, _ => s
  | .readRows =>
    match s.phase with
    | .header m now => { s with phase := .snapshot (findRows s.collection.docs (effectiveAt m none now)) }
    | _ => s
  | .subscribe created =>
    match s.phase with
    | .snapshot rows => { s with phase := if created then .live rows s.published.length else .ungrouped rows }
    | _ => s
  | .yieldRow =>
    match s.phase with
    | .live (row :: rest) cursor => { s with phase := .live rest cursor, streamed := s.streamed ++ [snapshotEvent row] }
    | .ungrouped (row :: rest) => { s with phase := .ungrouped rest, streamed := s.streamed ++ [snapshotEvent row] }
    | _ => s
  | .deliver ackOk =>
    match s.phase with
    | .live [] cursor =>
      match s.published[cursor]? with
      | some e =>
        { s with
          phase := .live [] (if ackOk then cursor + 1 else cursor)
          streamed := s.streamed ++ [e.event] }
      | none => s
    | _ => s

/-- an event as a simultaneous change of a keyed map: the rows that go, then the rows that come -/
def changeWrites (key : Row → Hash) (event : ResultChangeEvent Row) : List (Hash × Option Row) :=
  (event.touches.filterMap Prod.fst).map (fun b => (key b, none)) ++
    (event.touches.filterMap Prod.snd).map fun a => (key a, some a)

/-- what a client has that folds the events it is sent -/
def Watch.client (key : Row → Hash) (s : Watch Row Hash) : Hash → Option Row :=
  Writes.apply (fun _ => none) (s.streamed.flatMap (changeWrites key))

/-- the client has been sent all that is coming to it: the snapshot and every message of the group -/
def Watch.CaughtUp (s : Watch Row Hash) : Prop :=
  s.phase = .live [] s.published.length ∨ s.phase = .ungrouped []

/-- a client that has been sent everything has the result set after every change published so far -/
def NoGap (key : Row → Hash) (S : Finset Row) (s : Watch Row Hash) : Prop :=
  s.CaughtUp → Maps key (finalResult S s.published) (s.client key)

/-- nobody watches, the view has recorded what there is -/
def Watch.start (c : Collection Row Hash) : Watch Row Hash := ⟨[], c, [], .idle, []⟩

/-! ## Folding events -/

section

variable [DecidableEq Row] {key : Row → Hash} {S S' : Finset Row}

/-- the writes of an event over a map that is right for the keys the event leaves alone -/
theorem maps_changeWrites {f : Hash → Option Row} {event : ResultChangeEvent Row} (hS : Set.InjOn key S)
    (hS' : Set.InjOn key S') (hc : Carries S S' event.touches)
    (hf : ∀ hash, (∀ w ∈ changeWrites key event, w.1 ≠ hash) → ∀ row, f hash = some row ↔ row ∈ S' ∧ key row = hash) :
    Maps key S' (Writes.apply f (changeWrites key event)) := by
  intro hash row
  rw [Writes.apply_eq, changeWrites, Writes.last_append]
  by_cases hnew : ∃ a ∈ event.touches.filterMap Prod.snd, key a = hash
  · -- the key of a row that comes
    obtain ⟨a, ha, hk⟩ := hnew
    have hmem : ∀ r ∈ event.touches.filterMap Prod.snd, r ∈ S' := fun r hr => (hc.mem_iff r).2 (.inl hr)
    rw [Writes.last_map_of_mem ha hk fun r hr hkr => hS' (hmem r hr) (hmem a ha) (hkr.trans hk.symm), Option.some_or,
      Option.getD_some, Option.some.injEq]
    constructor
    · rintro rfl
      exact ⟨hmem a ha, hk⟩
    · rintro ⟨hrow, hkrow⟩
      exact hS' (hmem a ha) hrow (hk.trans hkrow.symm)
  · push Not at hnew
    rw [Writes.last_map_of_notMem hnew, Option.none_or, Writes.last_const]
    split_ifs with hrem
    · -- the key of a row that goes: no other row has it
      obtain ⟨b, hb, hkb⟩ := hrem
      simp only [Option.getD_some, reduceCtorEq, false_iff]
      rintro ⟨hrow, hk⟩
      rcases (hc.mem_iff row).1 hrow with hr | ⟨hrow, hnot⟩
      · exact hnew row hr hk
      · have heq : row = b := hS hrow (hc.removed_mem hb) (hk.trans hkb.symm)
        exact hnot (heq ▸ hb)
    · rw [Option.getD_none]
      refine hf hash ?_ row
      push Not at hrem
      intro w hw
      rcases List.mem_append.1 hw with hw | hw <;> obtain ⟨r, hr, rfl⟩ := List.mem_map.1 hw
      · exact hrem r hr
      · exact hnew r hr

/-- **One event.** Between result sets with different keys a client that folds the event goes from `S` to `S'`. -/
theorem maps_change {f : Hash → Option Row} {event : ResultChangeEvent Row} (hf : Maps key S f) (hS : Set.InjOn key S)
    (hS' : Set.InjOn key S') (hc : Carries S S' event.touches) :
    Maps key S' (Writes.apply f (changeWrites key event)) := by
  refine maps_changeWrites hS hS' hc ?_
  intro hash hun row
  rw [hf]
  refine and_congr_left ?_
  intro hk
  rw [hc.mem_iff]
  constructor
  · intro hrow
    refine .inr ⟨hrow, ?_⟩
    intro hb
    exact hun (key row, none) (List.mem_append_left _ (List.mem_map.2 ⟨row, hb, rfl⟩)) hk
  · intro h
    rcases h with hr | ⟨hrow, _⟩
    · exact absurd hk (hun (key row, some row) (List.mem_append_right _ (List.mem_map.2 ⟨row, hr, rfl⟩)))
    · exact hrow

/-- an event that is folded a second time has no further effect -/
theorem maps_change_again {f : Hash → Option Row} {event : ResultChangeEvent Row} (hf : Maps key S' f)
    (hS : Set.InjOn key S) (hS' : Set.InjOn key S') (hc : Carries S S' event.touches) :
    Maps key S' (Writes.apply f (changeWrites key event)) :=
  maps_changeWrites hS hS' hc fun hash _ row => hf hash row

/-- the events lead from result set to result set, all with different keys -/
def Leads (key : Row → Hash) : Finset Row → List (Step Row) → Prop
  | _, [] => True
  | S, e :: es => (Carries S e.result e.event.touches ∧ Set.InjOn key e.result) ∧ Leads key e.result es

omit [DecidableEq Hash] in
theorem leads_append {es es' : List (Step Row)} :
    Leads key S (es ++ es') ↔ Leads key S es ∧ Leads key (finalResult S es) es' := by
  induction es generalizing S with
  | nil => simp [Leads, finalResult]
  | cons e es ih =>
    rw [List.cons_append, Leads, Leads, ih, finalResult_cons]
    exact and_assoc.symm

omit [DecidableEq Hash] in
theorem Leads.distinct {es : List (Step Row)} (h : Leads key S es) (hS : Set.InjOn key S) :
    Set.InjOn key (finalResult S es) := by
  induction es generalizing S with
  | nil => exact hS
  | cons e es ih =>
    rw [finalResult_cons]
    exact ih h.2 h.1.2

omit [DecidableEq Hash] in
/-- the event at a position leads from the result set before it -/
theorem Leads.at {es : List (Step Row)} (h : Leads key S es) {i : ℕ} {e : Step Row} (hi : es[i]? = some e) :
    Carries (finalResult S (es.take i)) e.result e.event.touches ∧ Set.InjOn key e.result ∧ Leads key S (es.take i) := by
  obtain ⟨hlt, hget⟩ := List.getElem?_eq_some_iff.1 hi
  rw [← List.take_append_drop i es, leads_append, List.drop_eq_getElem_cons hlt, hget] at h
  exact ⟨h.2.1.1, h.2.1.2, h.1⟩

end

section

variable {key : Row → Hash}

theorem client_append {s s' : Watch Row Hash} {event : ResultChangeEvent Row} (h : s'.streamed = s.streamed ++ [event]) :
    s'.client key = Writes.apply (s.client key) (changeWrites key event) := by
  rw [Watch.client, Watch.client, h, List.flatMap_append, Writes.apply_append, List.flatMap_singleton]

omit [DecidableEq Hash] in
theorem changeWrites_snapshotEvent (row : Row) : changeWrites key (snapshotEvent row) = [(key row, some row)] := rfl

end

/-! ## The live part -/

section

variable [DecidableEq Row] {H : Hashing Row Hash} {key : Row → Hash} {policy : RetentionPolicy} {S : Finset Row}
  {s : Watch Row Hash}

/-- the client has, or has with the rows still to come, the result set after the messages that the group is past; or it has
been sent the next message already -/
def LiveOk (key : Row → Hash) (S : Finset Row) (s : Watch Row Hash) (pending : List Row) (cursor : ℕ) : Prop :=
  cursor ≤ s.published.length ∧
    (Maps key (finalResult S (s.published.take cursor))
        (Writes.apply (s.client key) (pending.map fun r => (key r, some r))) ∨
      pending = [] ∧ ∃ e, s.published[cursor]? = some e ∧ Maps key e.result (s.client key))

/-- what is published next is a result of the query -/
def IsResult (key : Row → Hash) (S : Finset Row) (s : Watch Row Hash) : WatchOp Row → Prop
  | .publish e => Carries (finalResult S s.published) e.result e.event.touches ∧ Set.InjOn key e.result
  | _ => True

theorem leads_step (h : Leads key S s.published) (o : WatchOp Row) (hok : IsResult key S s o) :
    Leads key S (s.step H policy o).published := by
  cases o with
  | publish e => exact leads_append.2 ⟨h, hok, trivial⟩
  | record =>
    simp only [Watch.step]
    split <;> exact h
  | readHeader now =>
    simp only [Watch.step]
    split <;> exact h
  | readRows =>
    simp only [Watch.step]
    split <;> exact h
  | subscribe created =>
    simp only [Watch.step]
    split <;> exact h
  | yieldRow =>
    simp only [Watch.step]
    split <;> exact h
  | deliver ackOk =>
    simp only [Watch.step]
    split
    · split <;> exact h
    · exact h

omit [DecidableEq Hash] [DecidableEq Row] in
theorem finalResult_take_succ {es : List (Step Row)} {i : ℕ} {e : Step Row} (h : es[i]? = some e) :
    finalResult S (es.take (i + 1)) = e.result := by
  rw [List.take_add_one, h, Option.toList_some, finalResult_append]
  rfl

/-- a message, also one that is yielded again -/
theorem liveOk_deliver {cursor : ℕ} {e : Step Row} (hS : Set.InjOn key S) (hl : Leads key S s.published)
    (h : LiveOk key S s [] cursor) (hget : s.published[cursor]? = some e) (ackOk : Bool) (phase : WatchPhase Row) :
    LiveOk key S { s with phase := phase, streamed := s.streamed ++ [e.event] } []
      (if ackOk then cursor + 1 else cursor) := by
  obtain ⟨hcarries, hinj, htake⟩ := hl.at hget
  have hclient : Maps key e.result ({ s with phase := phase, streamed := s.streamed ++ [e.event] }.client key) := by
    rw [client_append (s := s) rfl]
    rcases h.2 with hmaps | ⟨-, e', hget', hmaps⟩
    · exact maps_change hmaps (htake.distinct hS) hinj hcarries
    · cases hget.symm.trans hget'
      exact maps_change_again hmaps (htake.distinct hS) hinj hcarries
  have hlt : cursor < s.published.length := (List.getElem?_eq_some_iff.1 hget).1
  cases ackOk with
  | true =>
    refine ⟨hlt, .inl ?_⟩
    rw [if_pos rfl, finalResult_take_succ hget]
    exact hclient
  | false => exact ⟨hlt.le, .inr ⟨rfl, e, hget, hclient⟩⟩

omit [DecidableEq Row] in
/-- a row of the snapshot -/
theorem liveOk_yieldRow {row : Row} {pending : List Row} {cursor : ℕ} (h : LiveOk key S s (row :: pending) cursor)
    (phase : WatchPhase Row) :
    LiveOk key S { s with phase := phase, streamed := s.streamed ++ [snapshotEvent row] } pending cursor := by
  refine ⟨h.1, ?_⟩
  rcases h.2 with hmaps | ⟨hnil, -⟩
  · left
    rw [client_append (s := s) rfl, changeWrites_snapshotEvent, ← Writes.apply_append]
    exact hmaps
  · cases hnil

omit [DecidableEq Row] in
theorem liveOk_publish {pending : List Row} {cursor : ℕ} (h : LiveOk key S s pending cursor) (e : Step Row)
    (queue : List (Int64 × StoreOp Row Hash)) :
    LiveOk key S { s with published := s.published ++ [e], queue := queue } pending cursor := by
  refine ⟨h.1.trans (by simp), ?_⟩
  rcases h.2 with hmaps | ⟨hnil, e', hget, hmaps⟩
  · left
    rw [List.take_append_of_le_length h.1]
    exact hmaps
  · exact .inr ⟨hnil, e', List.getElem?_append_left (List.getElem?_eq_some_iff.1 hget).1 ▸ hget, hmaps⟩

/-- **One step of the live part.** -/
theorem liveOk_step (H : Hashing Row Hash) (policy : RetentionPolicy) {pending : List Row} {cursor : ℕ} (hS : Set.InjOn key S) (hl : Leads key S s.published)
    (hphase : s.phase = .live pending cursor) (h : LiveOk key S s pending cursor) (o : WatchOp Row) :
    ∃ pending' cursor', (s.step H policy o).phase = .live pending' cursor' ∧
      LiveOk key S (s.step H policy o) pending' cursor' := by
  cases o with
  | publish e => exact ⟨pending, cursor, hphase, liveOk_publish h e _⟩
  | record =>
    refine ⟨pending, cursor, ?_⟩
    simp only [Watch.step]
    split <;> exact ⟨hphase, h⟩
  | readHeader now =>
    simp only [Watch.step, hphase]
    exact ⟨pending, cursor, rfl, h⟩
  | readRows =>
    simp only [Watch.step, hphase]
    exact ⟨pending, cursor, rfl, h⟩
  | subscribe created =>
    simp only [Watch.step, hphase]
    exact ⟨pending, cursor, rfl, h⟩
  | yieldRow =>
    rcases pending with _ | ⟨row, rest⟩
    · simp only [Watch.step, hphase]
      exact ⟨[], cursor, rfl, h⟩
    · simp only [Watch.step, hphase]
      exact ⟨rest, cursor, rfl, liveOk_yieldRow h _⟩
  | deliver ackOk =>
    rcases pending with _ | ⟨row, rest⟩
    · simp only [Watch.step, hphase]
      rcases hget : s.published[cursor]? with _ | e
      · exact ⟨[], cursor, hphase, h⟩
      · exact ⟨[], _, rfl, liveOk_deliver hS hl h hget ackOk _⟩
    · simp only [Watch.step, hphase]
      exact ⟨row :: rest, cursor, rfl, h⟩

omit [DecidableEq Row] in
theorem LiveOk.noGap {pending : List Row} {cursor : ℕ} (hphase : s.phase = .live pending cursor)
    (h : LiveOk key S s pending cursor) : NoGap key S s := by
  intro hcaught
  rcases hcaught with hc | hc
  · cases hphase.symm.trans hc
    rcases h.2 with hmaps | ⟨-, e, hget, -⟩
    · rw [List.take_length] at hmaps
      exact hmaps
    · simp at hget
  · rw [hphase] at hc
    cases hc

/-! ## The snapshot -/

/-- the time of the last event published, `t` if there is none -/
def lastTime (t : UInt64) (es : List (Step Row)) : UInt64 := (es.getLast?.map (·.event.sourceTimeMs)).getD t

/-- the conditions on the steps: what is published is a result, and while nobody watches one that the view records
rightly; the view is read when it has recorded everything and the clock is not behind; nothing is published from that
read to the creation of the group; the group is created -/
def Gapless (H : Hashing Row Hash) (key : Row → Hash) (S : Finset Row) (t : UInt64) (s : Watch Row Hash) : WatchOp Row → Prop
  | .publish e =>
    match s.phase with
    | .idle => Follows H key (finalResult S s.published) (lastTime t s.published) e ∧ e.event.sourceTimeMs ≤ maxTime
    | .header _ _ | .snapshot _ => False
    | _ => Carries (finalResult S s.published) e.result e.event.touches ∧ Set.InjOn key e.result
  | .readHeader now => s.phase = .idle → s.queue = [] ∧ ∀ m ∈ s.collection.metadata, m.ts ≤ now.toInt64
  | .subscribe created => created = true
  | _ => True

omit [DecidableEq Hash] in
theorem Gapless.isResult {t : UInt64} {o : WatchOp Row} (h : Gapless H key S t s o) : IsResult key S s o := by
  cases o with
  | publish e =>
    simp only [Gapless] at h
    split at h
    · exact ⟨h.1.carries, h.1.distinct⟩
    · exact h.elim
    · exact h.elim
    · exact h
  | _ => trivial

/-- what each phase has: an idle view is right once its queue is empty, and so on to the client -/
def PhaseOk (key : Row → Hash) (policy : RetentionPolicy) (S : Finset Row) (t : UInt64) (s : Watch Row Hash) : Prop :=
  match s.phase with
  | .idle => s.streamed = [] ∧ ∃ seq,
      Recorded key (execOps policy s.collection s.queue) seq (lastTime t s.published) (finalResult S s.published)
  | .header m now => s.streamed = [] ∧ s.queue = [] ∧ effectiveAt m none now = (lastTime t s.published).toInt64 ∧
      ∃ seq, Recorded key s.collection seq (lastTime t s.published) (finalResult S s.published)
  | .snapshot rows => s.streamed = [] ∧ (rows : Multiset Row) = (finalResult S s.published).val
  | .live pending cursor => LiveOk key S s pending cursor
  | .ungrouped _ => False
  | .failed => True

structure WatchInv (key : Row → Hash) (policy : RetentionPolicy) (S : Finset Row) (t : UInt64) (s : Watch Row Hash) : Prop where
  distinct : Set.InjOn key S
  leads : Leads key S s.published
  phase : PhaseOk key policy S t s

theorem start_inv {c : Collection Row Hash} {seq t : UInt64} (h : Recorded key c seq t S) :
    WatchInv key policy S t (Watch.start c) :=
  ⟨h.distinct, trivial, rfl, seq, h⟩

omit [DecidableEq Row] in
/-- the rows of a result set, keyed, are its map -/
theorem maps_keyedRows {T : Finset Row} (hT : Set.InjOn key T) {rows : List Row} (h : (rows : Multiset Row) = T.val) :
    Maps key T (keyedRows key rows) := by
  have hmem : ∀ r, r ∈ rows ↔ r ∈ T := by
    intro r
    rw [← Finset.mem_val, ← h, Multiset.mem_coe]
  intro hash row
  rw [keyedRows_eq_some_iff, hmem]
  intro r hr r' hr' hk hk'
  exact hT ((hmem r).1 hr) ((hmem r').1 hr') (hk.trans hk'.symm)

omit [DecidableEq Row] in
theorem execOps_storeOps_singleton (c : Collection Row Hash) (e : Step Row) :
    execOps policy c (storeOps H [e]) = recordEvent H policy c e :=
  execOps_storeOps H policy [e] c

theorem idle_step {t : UInt64} {o : WatchOp Row} (hphase : s.phase = .idle) (hs : s.streamed = [])
    (hrec : ∃ seq, Recorded key (execOps policy s.collection s.queue) seq (lastTime t s.published) (finalResult S s.published))
    (hok : Gapless H key S t s o) : PhaseOk key policy S t (s.step H policy o) := by
  have hsame : PhaseOk key policy S t s := by
    simp only [PhaseOk, hphase]
    exact ⟨hs, hrec⟩
  obtain ⟨seq, hrec⟩ := hrec
  cases o with
  | publish e =>
    simp only [Gapless, hphase] at hok
    simp only [Watch.step, PhaseOk, hphase, execOps_append, execOps_storeOps_singleton]
    refine ⟨hs, e.event.sequence, ?_⟩
    have hlast : lastTime t (s.published ++ [e]) = e.event.sourceTimeMs := by simp [lastTime]
    rw [hlast, finalResult_append]
    exact hrec.event hok.1 hok.2 policy
  | record =>
    simp only [Watch.step]
    split
    · exact hsame
    · next op rest hq =>
      simp only [PhaseOk, hphase]
      rw [hq] at hrec
      exact ⟨hs, seq, hrec⟩
  | readHeader now =>
    obtain ⟨hq, hclock⟩ := hok hphase
    rw [hq] at hrec
    simp only [Watch.step, hphase]
    rcases hm : s.collection.metadata with _ | m
    · trivial
    · simp only
      split_ifs
      · trivial
      · refine ⟨hs, hq, ?_, seq, hrec⟩
        rw [effectiveAt_now (hclock m hm)]
        exact (hrec.metadata m hm).2
  | readRows =>
    simp only [Watch.step, hphase]
    exact hsame
  | subscribe created =>
    simp only [Watch.step, hphase]
    exact hsame
  | yieldRow =>
    simp only [Watch.step, hphase]
    exact hsame
  | deliver ackOk =>
    simp only [Watch.step, hphase]
    exact hsame

theorem header_step {t : UInt64} {m : MetadataDocument} {now : UInt64} {o : WatchOp Row} (hphase : s.phase = .header m now)
    (hs : s.streamed = []) (hq : s.queue = []) (heff : effectiveAt m none now = (lastTime t s.published).toInt64)
    (hrec : ∃ seq, Recorded key s.collection seq (lastTime t s.published) (finalResult S s.published))
    (hok : Gapless H key S t s o) : PhaseOk key policy S t (s.step H policy o) := by
  have hsame : PhaseOk key policy S t s := by
    simp only [PhaseOk, hphase]
    exact ⟨hs, hq, heff, hrec⟩
  obtain ⟨seq, hrec⟩ := hrec
  cases o with
  | publish e =>
    simp only [Gapless, hphase] at hok
  | readRows =>
    simp only [Watch.step, hphase, PhaseOk, heff]
    exact ⟨hs, hrec.dated.findRows_eq hrec.distinct (Int64.le_refl _) (toInt64_le_max hrec.time)⟩
  | record =>
    simp only [Watch.step, hq]
    exact hsame
  | readHeader now' =>
    simp only [Watch.step, hphase]
    exact hsame
  | subscribe created =>
    simp only [Watch.step, hphase]
    exact hsame
  | yieldRow =>
    simp only [Watch.step, hphase]
    exact hsame
  | deliver ackOk =>
    simp only [Watch.step, hphase]
    exact hsame

theorem snapshot_step {t : UInt64} {rows : List Row} {o : WatchOp Row} (h : WatchInv key policy S t s)
    (hphase : s.phase = .snapshot rows) (hs : s.streamed = [])
    (hrows : (rows : Multiset Row) = (finalResult S s.published).val) (hok : Gapless H key S t s o) :
    PhaseOk key policy S t (s.step H policy o) := by
  have hsame := h.phase
  cases o with
  | publish e =>
    simp only [Gapless, hphase] at hok
  | subscribe created =>
    obtain rfl : created = true := hok
    simp only [Watch.step, hphase, if_true, PhaseOk]
    refine ⟨le_rfl, .inl ?_⟩
    rw [List.take_length, Watch.client, hs]
    exact maps_keyedRows (h.leads.distinct h.distinct) hrows
  | record =>
    simp only [Watch.step]
    split
    · exact hsame
    · simp only [PhaseOk, hphase]
      exact ⟨hs, hrows⟩
  | readHeader now =>
    simp only [Watch.step, hphase]
    exact hsame
  | readRows =>
    simp only [Watch.step, hphase]
    exact hsame
  | yieldRow =>
    simp only [Watch.step, hphase]
    exact hsame
  | deliver ackOk =>
    simp only [Watch.step, hphase]
    exact hsame

omit [DecidableEq Row] in
theorem failed_step {o : WatchOp Row} (hphase : s.phase = .failed) : (s.step H policy o).phase = .failed := by
  cases o with
  | publish e => exact hphase
  | record =>
    simp only [Watch.step]
    split <;> exact hphase
  | _ => simp only [Watch.step, hphase]

/-- **One step** of the whole watch. -/
theorem step_watchInv {t : UInt64} {o : WatchOp Row} (h : WatchInv key policy S t s) (hok : Gapless H key S t s o) :
    WatchInv key policy S t (s.step H policy o) := by
  refine ⟨h.distinct, leads_step h.leads o hok.isResult, ?_⟩
  have hph := h.phase
  unfold PhaseOk at hph
  split at hph
  · next hphase => exact idle_step hphase hph.1 hph.2 hok
  · next m now hphase => exact header_step hphase hph.1 hph.2.1 hph.2.2.1 hph.2.2.2 hok
  · next rows hphase => exact snapshot_step h hphase hph.1 hph.2 hok
  · next pending cursor hphase =>
    obtain ⟨pending', cursor', hphase', hlive⟩ :=
      liveOk_step H policy h.distinct h.leads hphase hph o
    simp only [PhaseOk, hphase']
    exact hlive
  · exact hph.elim
  · next hphase =>
    simp only [PhaseOk, failed_step hphase]

end

/-- the snapshot is yielded row by row -/
theorem yield_all (H : Hashing Row Hash) (policy : RetentionPolicy) {s : Watch Row Hash} {rows : List Row} {cursor : ℕ}
    (hphase : s.phase = .live rows cursor) :
    run (Watch.step H policy) s (List.replicate rows.length .yieldRow) =
      { s with phase := .live [] cursor, streamed := s.streamed ++ rows.map snapshotEvent } := by
  induction rows generalizing s with
  | nil => simp [← hphase]
  | cons row rows ih =>
    have hstep : s.step H policy .yieldRow =
        { s with phase := .live rows cursor, streamed := s.streamed ++ [snapshotEvent row] } := by
      simp only [Watch.step, hphase]
    rw [List.length_cons, List.replicate_succ, run_cons, hstep, ih rfl]
    simp

theorem keyedRows_eq_fold (key : Row → Hash) (rows : List Row) :
    keyedRows key rows = Writes.apply (fun _ => none) ((rows.map snapshotEvent).flatMap (changeWrites key)) := by
  rw [keyedRows, List.flatMap_map]
  congr 1
  induction rows with
  | nil => rfl
  | cons row rows ih => rw [List.map_cons, List.flatMap_cons, ← ih, changeWrites_snapshotEvent]; rfl

/-- the stream is live and the client is right -/
def IsLive [DecidableEq Row] (key : Row → Hash) (S : Finset Row) (s : Watch Row Hash) : Prop :=
  Leads key S s.published ∧ ∃ pending cursor, s.phase = .live pending cursor ∧ LiveOk key S s pending cursor

/-- **From the subscription on.** The group has just been created and the stream holds the rows of the snapshot. Whatever
results follow, the client is right whenever it has been sent everything, iff the rows are the result set after all that
is published at this moment. -/
theorem from_subscription_iff [DecidableEq Row] (H : Hashing Row Hash) (key : Row → Hash) (policy : RetentionPolicy)
    {S : Finset Row} {s : Watch Row Hash} {rows : List Row} (hS : Set.InjOn key S) (hl : Leads key S s.published)
    (hphase : s.phase = .live rows s.published.length) (hs : s.streamed = []) :
    (∀ ops, Meets (Watch.step H policy) (IsResult key S) s ops → NoGap key S (run (Watch.step H policy) s ops)) ↔
      Maps key (finalResult S s.published) (keyedRows key rows) := by
  constructor
  · intro h
    have hmeets : ∀ n (s : Watch Row Hash),
        Meets (Watch.step H policy) (IsResult key S) s (List.replicate n .yieldRow) := by
      intro n
      induction n with
      | zero => exact fun _ => trivial
      | succ n ih => exact fun s => ⟨trivial, ih _⟩
    have hnogap := h _ (hmeets rows.length s)
    rw [yield_all H policy hphase] at hnogap
    rw [keyedRows_eq_fold]
    have hmaps := hnogap (.inl rfl)
    rw [Watch.client, hs, List.nil_append] at hmaps
    exact hmaps
  · intro hmaps ops hops
    have hinit : LiveOk key S s rows s.published.length := by
      refine ⟨le_rfl, .inl ?_⟩
      rw [List.take_length, Watch.client, hs]
      exact hmaps
    have hinv : IsLive key S (run (Watch.step H policy) s ops) := by
      refine hops.inv ?_ ⟨hl, rows, _, hphase, hinit⟩
      intro s o _ ⟨hl, pending, cursor, hphase, hlive⟩ hok
      exact ⟨leads_step hl o hok, liveOk_step H policy hS hl hphase hlive o⟩
    obtain ⟨-, pending, cursor, hphase', hlive⟩ := hinv
    exact hlive.noGap hphase'

/-! ## Rows that are numbers -/

def firstStep : Step ℕ := numberStep 1 1000 [] [] [1] {1}

def secondStep : Step ℕ := numberStep 2 2000 [] [] [2] {1, 2}

/-- one result is recorded, the view is watched, and the next result arrives twice -/
def watchOps : List (WatchOp ℕ) :=
  [.publish firstStep, .record, .record, .readHeader 5000, .readRows, .subscribe true, .publish secondStep, .yieldRow,
    .deliver false, .deliver true]

/-- the second result is published when the rows are read and the group is not there yet -/
def gapOps : List (WatchOp ℕ) :=
  [.publish firstStep, .record, .record, .readHeader 5000, .readRows, .publish secondStep, .subscribe true, .yieldRow]

/-- the second result is published first, and the view has not recorded it -/
def lagOps : List (WatchOp ℕ) :=
  [.publish firstStep, .record, .record, .publish secondStep, .readHeader 5000, .readRows, .subscribe true, .yieldRow]

end DrasiPlatform.MgmtApi
