/-
`RedisChangeStream` (`query-container/query-host/src/change_stream/redis_change_stream.rs`): at-least-once, in-order reading
of a Redis stream through a background reader, a bounded channel and one unacknowledged slot.

`System` is the stream with its consumer group, the running consumer and, as a history, the ids of the acknowledgements
that succeeded. One list of operations is any interleaving of the producers (`xadd`), the background reader (`fetch`: one
step of its two loops), the client (`recv`, `ack` with the outcome of its `XACK`) and the stop and start of the consumer.

The reader's loops: in recovery it reads the consumer's pending entries above a cursor, starting at `0`, until it gets an
empty batch; then it reads new entries. It hands every batch to the channel entry by entry and waits when it is full. What
it holds between the two is `hand`; `sent` is the history of what it has sent.

- `Inv`: stream after the group's start = acknowledged ++ pending ++ undelivered; and the pending entries are those in the
  slot, in the channel, in the reader's hand and ahead of its cursor, in this order.
- `step_inv`, `run_inv`: every run keeps it.
-/
import Mathlib.Tactic
import DrasiPlatform.Core.Run
import DrasiPlatform.ChangeStream.Redis

namespace DrasiPlatform.ChangeStream

/-! ## Model -/

/-- where the background reader is -/
inductive Phase where
  /-- the recovery loop, with the id it reads on from -/
  | recovering (startId : EntryId)
  | live
deriving DecidableEq

/-- the sizes a consumer is created with -/
structure Config where
  bufferSize : ℕ
  fetchBatchSize : ℕ
  bufferSize_pos : 0 < bufferSize
  fetchBatchSize_pos : 0 < fetchBatchSize

structure RedisChangeStream where
  config : Config
  unackItem : Option StreamEntry
  buffer : List StreamEntry
  phase : Phase
  /-- the rest of the batch that `process_batch` is sending -/
  hand : List StreamEntry
  sent : List StreamEntry

/-- `RedisChangeStream::new`, without the group -/
def RedisChangeStream.new (config : Config) : RedisChangeStream := ⟨config, none, [], .recovering .zero, [], []⟩

/-- the outcome of polling a future -/
inductive Poll (α : Type) where
  | pending
  | ready (a : α)

/-- `recv`; the channel is open as long as the reader runs, so an empty one is waited on -/
def recv {T : Type} (codec : Codec T) (c : RedisChangeStream) :
    Poll (Except ChangeStreamError (Option (Message T))) × RedisChangeStream :=
  match c.unackItem with
  | none =>
    match c.buffer with
    | [] => (.pending, c)
    | data :: rest =>
      match deserializeMessage codec data with
      | .ok message => (.ready (.ok (some message)), { c with buffer := rest, unackItem := some data })
      | .error err => (.ready (.error err), { c with buffer := rest })
  | some item =>
    match deserializeMessage codec item with
    | .ok message => (.ready (.ok (some message)), c)
    | .error err => (.ready (.error err), c)

/-- one step of the background reader: send the next entry of the batch, or read the next batch -/
def fetch (s : Stream) (g : Group) (c : RedisChangeStream) : Group × RedisChangeStream :=
  match c.hand with
  | e :: rest =>
    if c.buffer.length < c.config.bufferSize then
      (g, { c with buffer := c.buffer ++ [e], hand := rest, sent := c.sent ++ [e] })
    else (g, c)
  | [] =>
    match c.phase with
    | .recovering startId =>
      match g.xreadPending startId c.config.fetchBatchSize with
      | [] => (g, { c with phase := .live })
      | e :: es => (g, { c with phase := .recovering (lastId startId (e :: es)), hand := e :: es })
    | .live =>
      let (batch, g') := g.xreadNew s c.config.fetchBatchSize
      (g', { c with hand := batch })

/-- `ack`, with the outcome of the `XACK` -/
def ack (g : Group) (c : RedisChangeStream) (id : EntryId) (xackError : Option ChangeStreamError) :
    Except ChangeStreamError Unit × Group × RedisChangeStream :=
  match c.unackItem with
  | some item =>
    if item.id = id then
      match xackError with
      | some err => (.error err, g, c)
      | none => (.ok (), g.xack id, { c with unackItem := none })
    else (.error .ackOutOfSequence, g, c)
  | none => (.error .ackOutOfSequence, g, c)

structure System where
  stream : Stream
  group : Option Group
  consumer : Option RedisChangeStream
  /-- the ids of the acknowledgements that succeeded -/
  acked : List EntryId

inductive Op where
  | xadd (e : StreamEntry)
  | fetch
  | recv
  | ack (id : EntryId) (xackError : Option ChangeStreamError)
  | stop
  | start (config : Config) (startTimestamp : ℕ)

variable {T : Type} (codec : Codec T)

def step (s : System) : Op → System
  | .xadd e => { s with stream := s.stream.xadd e }
  | .fetch =>
    match s.group, s.consumer with
    | some g, some c => { s with group := some (fetch s.stream g c).1, consumer := some (fetch s.stream g c).2 }
    | _, _ => s
  | .recv => { s with consumer := s.consumer.map fun c => (recv codec c).2 }
  | .ack id xackError =>
    match s.group, s.consumer with
    | some g, some c =>
      match ack g c id xackError with
      | (.ok (), g', c') => { s with group := some g', consumer := some c', acked := s.acked ++ [id] }
      | (.error _, g', c') => { s with group := some g', consumer := some c' }
    | _, _ => s
  | .stop => { s with consumer := none }
  | .start config startTimestamp =>
    match s.consumer with
    | some _ => s
    | none =>
      { s with group := some (xgroupCreate s.group (toLex (startTimestamp, 0))), consumer := some (.new config) }

/-- before the first consumer of the query; the stream is shared and may hold entries -/
def System.init (stream : Stream) : System := ⟨stream, none, none, []⟩

/-- what the operation puts on the stream decodes -/
def Op.WellFormed : Op → Prop
  | .xadd e => ChangeStream.WellFormed codec e
  | _ => True

/-! ### What one step of the reader and one `recv` can do -/

theorem fetch_cases (s : Stream) (g : Group) (c : RedisChangeStream) :
    (∃ e rest, c.hand = e :: rest ∧ c.buffer.length < c.config.bufferSize ∧
      fetch s g c = (g, { c with buffer := c.buffer ++ [e], hand := rest, sent := c.sent ++ [e] })) ∨
    (∃ e rest, c.hand = e :: rest ∧ ¬ c.buffer.length < c.config.bufferSize ∧ fetch s g c = (g, c)) ∨
    (∃ startId, c.hand = [] ∧ c.phase = .recovering startId ∧ above startId g.pending = [] ∧
      fetch s g c = (g, { c with phase := .live })) ∨
    (∃ startId batch, c.hand = [] ∧ c.phase = .recovering startId ∧ batch ≠ [] ∧
      batch = (above startId g.pending).take c.config.fetchBatchSize ∧
      fetch s g c = (g, { c with phase := .recovering (lastId startId batch), hand := batch })) ∨
    (c.hand = [] ∧ c.phase = .live ∧
      fetch s g c = ((g.xreadNew s c.config.fetchBatchSize).2,
        { c with hand := (above g.lastDelivered s.entries).take c.config.fetchBatchSize })) := by
  unfold fetch
  split
  · rename_i e rest hh
    by_cases hroom : c.buffer.length < c.config.bufferSize
    · exact .inl ⟨e, rest, hh, hroom, if_pos hroom⟩
    · exact .inr (.inl ⟨e, rest, hh, hroom, if_neg hroom⟩)
  · rename_i hh
    split
    · rename_i startId hph
      split
      · rename_i hb
        refine .inr (.inr (.inl ⟨startId, hh, hph, ?_, rfl⟩))
        exact (List.take_eq_nil_iff.1 hb).resolve_left c.config.fetchBatchSize_pos.ne'
      · rename_i e es hb
        exact .inr (.inr (.inr (.inl ⟨startId, e :: es, hh, hph, by simp, hb.symm, rfl⟩)))
    · rename_i hph
      exact .inr (.inr (.inr (.inr ⟨hh, hph, rfl⟩)))

/-- an `ack` that succeeds empties the slot; every other one changes nothing -/
theorem ack_cases (s : System) (id : EntryId) (xackError : Option ChangeStreamError) :
    (∃ g c item, s.group = some g ∧ s.consumer = some c ∧ c.unackItem = some item ∧ item.id = id ∧ xackError = none ∧
      step codec s (.ack id xackError) =
        { s with group := some (g.xack id), consumer := some { c with unackItem := none }, acked := s.acked ++ [id] }) ∨
    (step codec s (.ack id xackError) = s ∧
      ¬ (s.group.isSome ∧ xackError = none ∧ ∃ item, s.consumer.bind (·.unackItem) = some item ∧ item.id = id)) := by
  simp only [step]
  split
  · rename_i g c hg hc
    cases hu : c.unackItem with
    | none => exact .inr ⟨by simp [ack, hu, ← hg, ← hc], by simp [hc, hu]⟩
    | some item =>
      by_cases hid : item.id = id
      · cases xackError with
        | some err => exact .inr ⟨by simp [ack, hu, hid, ← hg, ← hc], by simp⟩
        | none => exact .inl ⟨g, c, item, hg, hc, hu, hid, rfl, by simp [ack, hu, hid]⟩
      · exact .inr ⟨by simp [ack, hu, hid, ← hg, ← hc], by simp [hc, hu, hid]⟩
  · rename_i hno
    refine .inr ⟨rfl, ?_⟩
    rintro ⟨hg, -, item, hc, -⟩
    obtain ⟨g, hg⟩ := Option.isSome_iff_exists.1 hg
    obtain ⟨c, hc, -⟩ := Option.bind_eq_some_iff.1 hc
    exact hno g c hg hc

section Recv

variable {codec}

theorem recv_item {c : RedisChangeStream} {item : StreamEntry} {m : Message T} (hu : c.unackItem = some item)
    (hm : deserializeMessage codec item = .ok m) : recv codec c = (.ready (.ok (some m)), c) := by
  simp [recv, hu, hm]

theorem recv_buffer {c : RedisChangeStream} {data : StreamEntry} {rest : List StreamEntry} {m : Message T}
    (hu : c.unackItem = none) (hb : c.buffer = data :: rest) (hm : deserializeMessage codec data = .ok m) :
    recv codec c = (.ready (.ok (some m)), { c with buffer := rest, unackItem := some data }) := by
  simp [recv, hu, hb, hm]

theorem recv_empty {c : RedisChangeStream} (hu : c.unackItem = none) (hb : c.buffer = []) :
    recv codec c = (.pending, c) := by
  simp [recv, hu, hb]

end Recv

/-! ## Invariant -/

/-- the pending entries ahead of the reader's cursor -/
def ahead (g : Group) (c : RedisChangeStream) : List StreamEntry :=
  match c.phase with
  | .recovering startId => above startId g.pending
  | .live => []

/-- the invariant of a group and its stream -/
structure GroupInv (s : Stream) (g : Group) (acked : List EntryId) : Prop where
  /-- the stream after the start of the group is acknowledged, pending or undelivered, in this order -/
  split : ∃ done, done.map (·.id) = acked ∧
    above g.start s.entries = done ++ (g.pending ++ above g.lastDelivered s.entries)
  start_le : g.start ≤ g.lastDelivered
  delivered : g.lastDelivered = g.start ∨ g.lastDelivered ≤ s.topId

/-- the invariant of a consumer: where the pending entries are -/
structure ConsumerInv (g : Group) (c : RedisChangeStream) : Prop where
  held : c.unackItem.toList ++ (c.buffer ++ (c.hand ++ ahead g c)) = g.pending
  bounded : c.buffer.length ≤ c.config.bufferSize

structure Inv (s : System) : Prop where
  wellFormed : ∀ e ∈ s.stream.entries, WellFormed codec e
  fresh : s.group = none → s.consumer = none ∧ s.acked = []
  group : ∀ g, s.group = some g → GroupInv s.stream g s.acked
  consumer : ∀ g c, s.group = some g → s.consumer = some c → ConsumerInv g c

/-! ### The group -/

theorem GroupInv.sorted {s : Stream} {g : Group} {acked : List EntryId} (h : GroupInv s g acked) :
    g.pending.Pairwise fun a b => a.id < b.id := by
  obtain ⟨done, -, hsplit⟩ := h.split
  have hs := s.sorted.filter fun e => decide (g.start < e.id)
  change (above g.start s.entries).Pairwise _ at hs
  rw [hsplit] at hs
  exact (List.pairwise_append.1 (List.pairwise_append.1 hs).2.1).1

theorem GroupInv.mem_pending {s : Stream} {g : Group} {acked : List EntryId} (h : GroupInv s g acked) {e : StreamEntry}
    (he : e ∈ g.pending) : e ∈ s.entries := by
  obtain ⟨done, -, hsplit⟩ := h.split
  refine (mem_above.1 (?_ : e ∈ above g.start s.entries)).1
  rw [hsplit]
  exact List.mem_append_right _ (List.mem_append_left _ he)

theorem xadd_of_le {s : Stream} {e : StreamEntry} (h : ¬ s.topId < e.id) : s.xadd e = s := dif_neg h

theorem entries_xadd {s : Stream} {e : StreamEntry} (h : s.topId < e.id) : (s.xadd e).entries = s.entries ++ [e] := by
  rw [Stream.xadd, dif_pos h]
  rfl

theorem topId_xadd {s : Stream} {e : StreamEntry} (h : s.topId < e.id) : (s.xadd e).topId = e.id := by
  rw [Stream.topId, entries_xadd h]
  simp

/-- a new entry is above the group's start exactly when it is above the last delivered id -/
theorem GroupInv.start_lt_iff {s : Stream} {g : Group} {acked : List EntryId} (h : GroupInv s g acked) {e : StreamEntry}
    (he : s.topId < e.id) : g.start < e.id ↔ g.lastDelivered < e.id := by
  rcases h.delivered with hd | hd
  · rw [hd]
  · exact ⟨fun _ => hd.trans_lt he, fun hl => h.start_le.trans_lt hl⟩

theorem GroupInv.xadd {s : Stream} {g : Group} {acked : List EntryId} (h : GroupInv s g acked) (e : StreamEntry) :
    GroupInv (s.xadd e) g acked := by
  by_cases he : s.topId < e.id
  · obtain ⟨done, hdone, hsplit⟩ := h.split
    refine ⟨⟨done, hdone, ?_⟩, h.start_le, ?_⟩
    · rw [entries_xadd he, above_append, above_append, hsplit]
      by_cases hl : g.lastDelivered < e.id
      · simp [above, hl, (h.start_lt_iff he).2 hl]
      · simp [above, hl, mt (h.start_lt_iff he).1 hl]
    · rw [topId_xadd he]
      exact h.delivered.imp_right fun hd => hd.trans he.le
  · rw [xadd_of_le he]
    exact h

theorem lastId_le_topId {s : Stream} {pos : EntryId} {batch : List StreamEntry} (hb : ∀ e ∈ batch, e ∈ s.entries)
    (hne : batch ≠ []) : lastId pos batch ≤ s.topId := by
  obtain ⟨b, t, rfl⟩ := (List.eq_nil_or_concat batch).resolve_left hne
  have hlast : lastId pos (b.concat t) = t.id := by simp [lastId]
  rw [hlast]
  exact s.le_topId (hb t (by simp))

theorem le_lastId {pos : EntryId} {batch : List StreamEntry} (hb : ∀ e ∈ batch, pos < e.id) : pos ≤ lastId pos batch := by
  rcases List.eq_nil_or_concat batch with rfl | ⟨b, t, rfl⟩
  · exact le_refl _
  · have hlast : lastId pos (b.concat t) = t.id := by simp [lastId]
    rw [hlast]
    exact (hb t (by simp)).le

theorem GroupInv.xreadNew {s : Stream} {g : Group} {acked : List EntryId} (h : GroupInv s g acked) (count : ℕ) :
    GroupInv s (g.xreadNew s count).2 acked := by
  obtain ⟨done, hdone, hsplit⟩ := h.split
  have hbatch : ∀ e ∈ (above g.lastDelivered s.entries).take count, e ∈ s.entries ∧ g.lastDelivered < e.id :=
    fun e he => mem_above.1 (List.mem_of_mem_take he)
  refine ⟨⟨done, hdone, ?_⟩, h.start_le.trans (le_lastId fun e he => (hbatch e he).2), ?_⟩
  · show above g.start s.entries = done ++ (g.pending ++ _ ++ above (lastId g.lastDelivered _) s.entries)
    rw [above_lastId s.sorted, hsplit, List.append_assoc g.pending, List.take_append_drop]
  · show lastId g.lastDelivered _ = g.start ∨ _
    rcases eq_or_ne ((above g.lastDelivered s.entries).take count) [] with hnil | hne
    · simpa [Group.xreadNew, hnil, lastId] using h.delivered
    · exact .inr (lastId_le_topId (fun e he => (hbatch e he).1) hne)

/-- acknowledging the first pending entry -/
theorem GroupInv.xack {s : Stream} {g : Group} {acked : List EntryId} (h : GroupInv s g acked) {e : StreamEntry}
    {rest : List StreamEntry} (hp : g.pending = e :: rest) :
    (g.xack e.id).pending = rest ∧ GroupInv s (g.xack e.id) (acked ++ [e.id]) := by
  have hs := h.sorted
  rw [hp] at hs
  have hrest : (g.xack e.id).pending = rest := by
    have hne : ∀ a ∈ rest, a.id ≠ e.id := fun a ha => ((List.pairwise_cons.1 hs).1 a ha).ne'
    simp only [Group.xack, hp, List.filter_cons, ne_eq, not_true_eq_false, decide_false, Bool.false_eq_true, if_false]
    exact List.filter_eq_self.2 fun a ha => by simpa using hne a ha
  obtain ⟨done, hdone, hsplit⟩ := h.split
  refine ⟨hrest, ⟨done ++ [e], by simp [hdone], ?_⟩, h.start_le, h.delivered⟩
  rw [hrest]
  show above g.start s.entries = done ++ [e] ++ (rest ++ above g.lastDelivered s.entries)
  rw [hsplit, hp]
  simp

theorem GroupInv.create (s : Stream) (pos : EntryId) : GroupInv s ⟨pos, pos, []⟩ [] :=
  ⟨⟨[], rfl, rfl⟩, le_refl _, .inl rfl⟩

/-! ### The consumer -/

theorem ConsumerInv.new {g : Group} (config : Config) (hpos : ∀ e ∈ g.pending, EntryId.zero < e.id) :
    ConsumerInv g (.new config) := by
  refine ⟨?_, Nat.zero_le _⟩
  simpa [RedisChangeStream.new, ahead] using above_eq_self hpos

theorem ConsumerInv.recv {g : Group} {c : RedisChangeStream} (h : ConsumerInv g c)
    (hwf : ∀ e ∈ g.pending, ChangeStream.WellFormed codec e) : ConsumerInv g (recv codec c).2 := by
  have hheld := h.held
  cases hu : c.unackItem with
  | some item =>
    rw [hu] at hheld
    obtain ⟨m, hm⟩ := hwf item (by rw [← hheld]; simp)
    rw [recv_item hu hm]
    exact h
  | none =>
    cases hb : c.buffer with
    | nil =>
      rw [recv_empty hu hb]
      exact h
    | cons data rest =>
      rw [hu, hb] at hheld
      have hbounded := h.bounded
      rw [hb, List.length_cons] at hbounded
      obtain ⟨m, hm⟩ := hwf data (by rw [← hheld]; simp)
      rw [recv_buffer hu hb hm]
      exact ⟨by simpa [ahead] using hheld, Nat.le_of_succ_le hbounded⟩

/-- what is ahead of the cursor does not include the entry in the slot: acknowledging it leaves that as it is -/
theorem ConsumerInv.above_xack {s : Stream} {g : Group} {c : RedisChangeStream} {acked : List EntryId}
    (hg : GroupInv s g acked) (h : ConsumerInv g c) {item : StreamEntry} (hu : c.unackItem = some item)
    {startId : EntryId} (hph : c.phase = .recovering startId) :
    above startId (g.xack item.id).pending = above startId g.pending := by
  have hheld := h.held
  rw [hu] at hheld
  have hpending := (hg.xack hheld.symm).1
  simp only [ahead, hph] at hheld
  have hs := hg.sorted
  rw [← hheld, Option.toList_some, List.singleton_append, List.pairwise_cons] at hs
  have hbehind : ¬ startId < item.id := by
    intro hlt
    have hmem : item ∈ above startId g.pending := by
      rw [mem_above, ← hheld]
      exact ⟨by simp, hlt⟩
    exact lt_irrefl _ (hs.1 item (List.mem_append_right _ (List.mem_append_right _ hmem)))
  have hpend : g.pending = item :: (g.xack item.id).pending := by
    rw [hpending]
    simpa [ahead, hph] using hheld.symm
  conv_rhs => rw [hpend]
  simp [above, hbehind]

theorem ConsumerInv.xack {s : Stream} {g : Group} {c : RedisChangeStream} {acked : List EntryId} (hg : GroupInv s g acked)
    (h : ConsumerInv g c) {item : StreamEntry} (hu : c.unackItem = some item) :
    ConsumerInv (g.xack item.id) { c with unackItem := none } ∧ GroupInv s (g.xack item.id) (acked ++ [item.id]) := by
  have hheld := h.held
  rw [hu] at hheld
  obtain ⟨hpending, hg'⟩ := hg.xack hheld.symm
  refine ⟨⟨?_, h.bounded⟩, hg'⟩
  have hahead : ahead (g.xack item.id) { c with unackItem := none } = ahead g c := by
    unfold ahead
    cases hph : c.phase with
    | live => rfl
    | recovering startId => exact h.above_xack hg hu hph
  rw [hahead, hpending]
  rfl

theorem ConsumerInv.fetch {s : Stream} {g : Group} {c : RedisChangeStream} {acked : List EntryId} (hg : GroupInv s g acked)
    (h : ConsumerInv g c) :
    GroupInv s (fetch s g c).1 acked ∧ ConsumerInv (fetch s g c).1 (fetch s g c).2 := by
  have hheld := h.held
  obtain ⟨e, rest, hh, hroom, heq⟩ | ⟨e, rest, hh, hfull, heq⟩ | ⟨startId, hh, hph, hnone, heq⟩ |
    ⟨startId, batch, hh, hph, hne, hb, heq⟩ | ⟨hh, hph, heq⟩ := fetch_cases s g c
  · rw [heq]
    rw [hh] at hheld
    refine ⟨hg, ⟨by simpa [ahead] using hheld, ?_⟩⟩
    rw [List.length_append]
    exact hroom
  · rw [heq]
    exact ⟨hg, h⟩
  · rw [heq]
    refine ⟨hg, ⟨?_, h.bounded⟩⟩
    simpa [ahead, hh, hph, hnone] using hheld
  · rw [heq]
    refine ⟨hg, ⟨?_, h.bounded⟩⟩
    simp only [ahead, hh, hph, List.nil_append] at hheld ⊢
    rw [hb, above_lastId hg.sorted, List.take_append_drop]
    exact hheld
  · rw [heq]
    refine ⟨hg.xreadNew _, ⟨?_, h.bounded⟩⟩
    simp only [ahead, hh, hph, List.append_nil] at hheld ⊢
    rw [← List.append_assoc, hheld]
    rfl

/-! ### Runs -/

theorem init_inv (stream : Stream) (h : ∀ e ∈ stream.entries, WellFormed codec e) : Inv codec (.init stream) where
  wellFormed := h
  fresh _ := ⟨rfl, rfl⟩
  group _ h := by cases h
  consumer _ _ h := by cases h

theorem Inv.wellFormed_pending {s : System} (h : Inv codec s) {g : Group} (hg : s.group = some g) :
    ∀ e ∈ g.pending, WellFormed codec e := fun e he =>
  h.wellFormed e ((h.group g hg).mem_pending he)

/-- **Every step keeps the invariant.** -/
theorem step_inv (s : System) (op : Op) (h : Inv codec s) (hop : op.WellFormed codec) : Inv codec (step codec s op) := by
  cases op with
  | xadd e =>
    refine ⟨?_, h.fresh, fun g hg => (h.group g hg).xadd e, h.consumer⟩
    intro a ha
    change a ∈ (s.stream.xadd e).entries at ha
    by_cases he : s.stream.topId < e.id
    · rw [entries_xadd he] at ha
      rcases List.mem_append.1 ha with ha | ha
      · exact h.wellFormed a ha
      · rw [List.mem_singleton.1 ha]; exact hop
    · rw [xadd_of_le he] at ha
      exact h.wellFormed a ha
  | fetch =>
    simp only [step]
    split
    · rename_i g c hg hc
      obtain ⟨hgroup, hconsumer⟩ := (h.consumer g c hg hc).fetch (h.group g hg)
      refine ⟨h.wellFormed, by simp, ?_, ?_⟩
      · rintro g' ⟨rfl⟩; exact hgroup
      · rintro g' c' ⟨rfl⟩ ⟨rfl⟩; exact hconsumer
    · exact h
  | recv =>
    refine ⟨h.wellFormed, ?_, h.group, ?_⟩
    · intro hnone
      obtain ⟨hc, ha⟩ := h.fresh hnone
      exact ⟨by simp [step, hc], ha⟩
    · intro g c' hg hc'
      obtain ⟨c, hc, rfl⟩ := Option.map_eq_some_iff.1 hc'
      exact (h.consumer g c hg hc).recv codec (h.wellFormed_pending codec hg)
  | ack id xackError =>
    obtain ⟨g, c, item, hg, hc, hu, rfl, -, heq⟩ | ⟨heq, -⟩ := ack_cases codec s id xackError
    · obtain ⟨hc', hg'⟩ := (h.consumer g c hg hc).xack (h.group g hg) hu
      rw [heq]
      refine ⟨h.wellFormed, by simp, ?_, ?_⟩
      · rintro g' ⟨rfl⟩; exact hg'
      · rintro g' c' ⟨rfl⟩ ⟨rfl⟩; exact hc'
    · rw [heq]
      exact h
  | stop => exact ⟨h.wellFormed, fun hn => ⟨rfl, (h.fresh hn).2⟩, h.group, fun g c _ hc => by cases hc⟩
  | start config startTimestamp =>
    simp only [step]
    split
    · exact h
    · have hgroup : GroupInv s.stream (xgroupCreate s.group (toLex (startTimestamp, 0))) s.acked := by
        cases hg : s.group with
        | none => rw [(h.fresh hg).2]; exact .create _ _
        | some g => exact h.group g hg
      refine ⟨h.wellFormed, by simp, ?_, ?_⟩
      · rintro g' ⟨rfl⟩; exact hgroup
      · rintro g' c' ⟨rfl⟩ ⟨rfl⟩
        exact .new config fun e he => s.stream.positive e (hgroup.mem_pending he)

/-- **Every run keeps the invariant.** -/
theorem run_inv (s : System) (ops : List Op) (h : Inv codec s) (hops : ∀ op ∈ ops, op.WellFormed codec) :
    Inv codec (Run.run (step codec) s ops) := by
  induction ops generalizing s with
  | nil => exact h
  | cons op ops ih =>
    exact ih _ (step_inv codec s op h (hops op List.mem_cons_self)) fun op' hop' => hops op' (List.mem_cons_of_mem op hop')

end DrasiPlatform.ChangeStream
