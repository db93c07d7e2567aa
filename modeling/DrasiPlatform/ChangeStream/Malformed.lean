/-
Entries that do not decode: does the change stream of a query stay at such an entry until it is acknowledged, as it does
at a decoded one?

`recv` decodes an entry of the channel before it puts it in the slot, and returns the error in between: the entry has left
the channel and is not in the slot. Streams here hold any entries, and runs are any operations, so the invariant is one of
order only, without the accounting of the well-formed case:

- `Ordered`: what a consumer has sent to its channel has increasing ids; the channel is the end of it, and the slot holds
  one of the entries already taken.
- `Past`: an entry that was taken and is not in the slot is never in the slot or at the head of the channel again, so its
  acknowledgement is refused (`Past.ack_refused`), until the consumer is stopped.
- `malformed_blocks_iff`: the promise is kept in a run exactly when, after a malformed entry was taken, the client neither
  acknowledges it nor receives while there is something in the channel.
Witness: `malformed_skipped`.
-/
import Mathlib.Tactic
import DrasiPlatform.ChangeStream.Delivery

namespace DrasiPlatform.ChangeStream

variable {T : Type} (codec : Codec T)

/-! ## The promise -/

/-- the entry that a result of `recv` is about -/
def entryOf : Except ChangeStreamError (Option (Message T)) → Option EntryId
  | .ok (some m) => some m.id
  | .error (.messageError id _) => some id
  | _ => none

/-- the operations of one consumer: up to its stop -/
def untilStop (ops : List Op) : List Op :=
  ops.takeWhile fun op => match op with
    | .stop => false
    | _ => true

/-- the ids acknowledged between two states of a run -/
def newlyAcked (s s' : System) : List EntryId := s'.acked.drop s.acked.length

/-- from `s` on, and until the entry `id` has been acknowledged, `recv` returns nothing but this entry, and its
acknowledgement succeeds whenever Redis answers -/
structure BlocksUntilAcked (s : System) (id : EntryId) (ops : List Op) : Prop where
  pins : ∀ a b, ops = a ++ .recv :: b → id ∉ newlyAcked s (Run.run (step codec) s a) →
    ∀ result, polled codec (Run.run (step codec) s a) = some (.ready result) → entryOf result = some id
  acks : ∀ a b, ops = a ++ .ack id none :: b → id ∉ newlyAcked s (Run.run (step codec) s a) →
    (step codec (Run.run (step codec) s a) (.ack id none)).acked = (Run.run (step codec) s a).acked ++ [id]

/-- in the run `ops`, every entry for which `recv` returns a `MessageError` blocks the stream until it is acknowledged -/
def MalformedBlocks (stream : Stream) (ops : List Op) : Prop :=
  ∀ a b id text, ops = a ++ .recv :: b →
    polled codec (Run.run (step codec) (.init stream) a) = some (.ready (.error (.messageError id text))) →
    BlocksUntilAcked codec (Run.run (step codec) (.init stream) (a ++ [.recv])) id (untilStop b)

/-! ## The condition -/

/-- the entries waiting in the channel -/
def System.channel (s : System) : List StreamEntry := (s.consumer.map (·.buffer)).getD []

/-- `recv` takes the entry `e` from the channel, and it does not decode -/
def TakesMalformed (s : System) (e : StreamEntry) : Prop :=
  ∃ c rest, s.consumer = some c ∧ c.unackItem = none ∧ c.buffer = e :: rest ∧ ¬ WellFormed codec e

/-- after a malformed entry was taken, the client does not acknowledge it and receives from an empty channel only -/
def LeavesAlone (stream : Stream) (ops : List Op) : Prop :=
  ∀ a b e, ops = a ++ .recv :: b → TakesMalformed codec (Run.run (step codec) (.init stream) a) e →
    ∀ c o d, untilStop b = c ++ o :: d →
      o ≠ .ack e.id none ∧ (o = .recv → (Run.run (step codec) (.init stream) (a ++ .recv :: c)).channel = [])

/-! ## Order -/

structure GroupOrdered (g : Group) : Prop where
  sorted : g.pending.Pairwise fun a b => a.id < b.id
  le : ∀ e ∈ g.pending, e.id ≤ g.lastDelivered

structure ConsumerOrdered (g : Group) (c : RedisChangeStream) : Prop where
  sorted : (c.sent ++ c.hand).Pairwise fun a b => a.id < b.id
  delivered : ∀ e ∈ c.sent ++ c.hand, e.id ≤ g.lastDelivered
  /-- what was read is not ahead of the cursor -/
  behind : ∀ startId, c.phase = .recovering startId → ∀ e ∈ c.sent ++ c.hand, e.id ≤ startId
  channel : c.buffer <:+ c.sent
  slot : ∀ item ∈ c.unackItem, WellFormed codec item

structure Ordered (s : System) : Prop where
  fresh : s.group = none → s.consumer = none
  group : ∀ g, s.group = some g → GroupOrdered g
  consumer : ∀ g c, s.group = some g → s.consumer = some c → ConsumerOrdered codec g c

variable {codec}

theorem le_lastId_of_mem {pos : EntryId} {batch : List StreamEntry} (hs : batch.Pairwise fun a b => a.id < b.id)
    {e : StreamEntry} (he : e ∈ batch) : e.id ≤ lastId pos batch := by
  rcases List.eq_nil_or_concat batch with rfl | ⟨b, t, rfl⟩
  · cases he
  · have hlast : lastId pos (b.concat t) = t.id := by simp [lastId]
    rw [hlast]
    rw [List.concat_eq_append] at hs he
    rcases List.mem_append.1 he with he | he
    · exact ((List.pairwise_append.1 hs).2.2 e he t List.mem_cons_self).le
    · rw [List.mem_singleton.1 he]

/-- a batch read above a position that everything before it has reached -/
theorem pairwise_append_above {l l' : List StreamEntry} {pos : EntryId} (hl : l.Pairwise fun a b => a.id < b.id)
    (hle : ∀ e ∈ l, e.id ≤ pos) (hl' : l'.Pairwise fun a b => a.id < b.id) (n : ℕ) :
    (l ++ (above pos l').take n).Pairwise fun a b => a.id < b.id := by
  refine List.pairwise_append.2 ⟨hl, (hl'.filter _).sublist (List.take_sublist ..), ?_⟩
  intro a ha b hb
  exact (hle a ha).trans_lt (mem_above.1 (List.mem_of_mem_take hb)).2

theorem GroupOrdered.xreadNew {s : Stream} {g : Group} (h : GroupOrdered g) (count : ℕ) :
    GroupOrdered (g.xreadNew s count).2 ∧ g.lastDelivered ≤ (g.xreadNew s count).2.lastDelivered := by
  have hmono : g.lastDelivered ≤ lastId g.lastDelivered ((above g.lastDelivered s.entries).take count) :=
    le_lastId fun e he => (mem_above.1 (List.mem_of_mem_take he)).2
  refine ⟨⟨pairwise_append_above h.sorted h.le s.sorted count, ?_⟩, hmono⟩
  intro e he
  rcases List.mem_append.1 he with he | he
  · exact (h.le e he).trans hmono
  · exact le_lastId_of_mem ((s.sorted.filter _).sublist (List.take_sublist ..)) he

theorem GroupOrdered.xack {g : Group} (h : GroupOrdered g) (id : EntryId) : GroupOrdered (g.xack id) :=
  ⟨h.sorted.filter _, fun e he => h.le e (List.mem_of_mem_filter he)⟩

/-- **A step of the reader** keeps the order. -/
theorem ConsumerOrdered.fetch {s : Stream} {g : Group} {c : RedisChangeStream} (hg : GroupOrdered g)
    (h : ConsumerOrdered codec g c) :
    GroupOrdered (fetch s g c).1 ∧ ConsumerOrdered codec (fetch s g c).1 (fetch s g c).2 := by
  obtain ⟨e, rest, hh, -, heq⟩ | ⟨e, rest, -, -, heq⟩ | ⟨startId, hh, hph, -, heq⟩ |
    ⟨startId, batch, hh, hph, -, hb, heq⟩ | ⟨hh, hph, heq⟩ := fetch_cases s g c
  · -- an entry goes from the hand to the channel
    rw [heq]
    have hsame : c.sent ++ [e] ++ rest = c.sent ++ c.hand := by simp [hh]
    obtain ⟨taken, hsent⟩ := h.channel
    refine ⟨hg, ⟨?_, ?_, ?_, ⟨taken, by simp [← hsent]⟩, h.slot⟩⟩
    · exact hsame ▸ h.sorted
    · exact hsame ▸ h.delivered
    · exact hsame ▸ h.behind
  · rw [heq]
    exact ⟨hg, h⟩
  · rw [heq]
    exact ⟨hg, ⟨h.sorted, h.delivered, fun _ hlive => (nomatch hlive), h.channel, h.slot⟩⟩
  · -- a batch of pending entries
    rw [heq]
    have hsorted := h.sorted
    have hbehind := h.behind startId hph
    have hdelivered := h.delivered
    rw [hh, List.append_nil] at hsorted hbehind hdelivered
    have hbatch : batch.Pairwise fun a b => a.id < b.id := by
      rw [hb]
      exact (hg.sorted.filter _).sublist (List.take_sublist ..)
    refine ⟨hg, ⟨?_, ?_, ?_, h.channel, h.slot⟩⟩
    · simp only [hb]
      exact pairwise_append_above hsorted hbehind hg.sorted _
    · intro a ha
      rcases List.mem_append.1 ha with ha | ha
      · exact hdelivered a ha
      · rw [hb] at ha
        exact hg.le a (mem_above.1 (List.mem_of_mem_take ha)).1
    · rintro startId' hph' a ha
      obtain rfl : lastId startId batch = startId' := by simpa using hph'
      rcases List.mem_append.1 ha with ha | ha
      · refine (hbehind a ha).trans (le_lastId ?_)
        intro b hb'
        rw [hb] at hb'
        exact (mem_above.1 (List.mem_of_mem_take hb')).2
      · exact le_lastId_of_mem hbatch ha
  · -- a batch of new entries
    rw [heq]
    have hsorted := h.sorted
    have hdelivered := h.delivered
    rw [hh, List.append_nil] at hsorted hdelivered
    obtain ⟨hg', hmono⟩ := hg.xreadNew (s := s) c.config.fetchBatchSize
    refine ⟨hg', ⟨?_, ?_, fun startId hph' => by simp [hph] at hph', h.channel, h.slot⟩⟩
    · exact pairwise_append_above hsorted hdelivered s.sorted _
    · intro a ha
      rcases List.mem_append.1 ha with ha | ha
      · exact (hdelivered a ha).trans hmono
      · exact le_lastId_of_mem ((s.sorted.filter _).sublist (List.take_sublist ..)) ha

/-! ### One `recv` -/

/-- an error of the decoding names the entry -/
theorem deserializeMessage_error {e : StreamEntry} {err : ChangeStreamError} (h : deserializeMessage codec e = .error err) :
    ∃ text, err = .messageError e.id text := by
  have hdata : ∀ err', deserializeData codec e = .error err' → ∃ text, err' = .messageError e.id text := by
    intro err' h'
    unfold deserializeData at h'
    split at h'
    · rcases hs : codec.fromSlice _ with text | t
      · rw [hs] at h'
        cases h'
        exact ⟨_, rfl⟩
      · rw [hs] at h'
        cases h'
    · cases h'
      exact ⟨_, rfl⟩
    · cases h'
      exact ⟨_, rfl⟩
  have htrace : ∀ field err', deserializeTrace e field = .error err' → ∃ text, err' = .messageError e.id text := by
    intro field err' h'
    unfold deserializeTrace at h'
    split at h' <;> cases h'
    exact ⟨_, rfl⟩
  have htime : ∀ err', deserializeEnqueueTime codec e = .error err' → ∃ text, err' = .messageError e.id text := by
    intro err' h'
    unfold deserializeEnqueueTime at h'
    repeat' split at h'
    all_goals cases h'
    all_goals exact ⟨_, rfl⟩
  unfold deserializeMessage at h
  rcases hd : deserializeData codec e with _ | data
  · simp only [hd, bind, Except.bind] at h
    cases h
    exact hdata _ hd
  rcases hs : deserializeTrace e "tracestate" with _ | traceState
  · simp only [hd, hs, bind, Except.bind] at h
    cases h
    exact htrace _ _ hs
  rcases hp : deserializeTrace e "traceparent" with _ | traceParent
  · simp only [hd, hs, hp, bind, Except.bind] at h
    cases h
    exact htrace _ _ hp
  rcases ht : deserializeEnqueueTime codec e with _ | enqueueTime
  · simp only [hd, hs, hp, ht, bind, Except.bind] at h
    cases h
    exact htime _ ht
  · simp [hd, hs, hp, ht, bind, Except.bind, pure, Except.pure] at h

theorem entryOf_deserializeMessage (e : StreamEntry) : entryOf ((deserializeMessage codec e).map some) = some e.id := by
  cases hd : deserializeMessage codec e with
  | ok m => exact congrArg some (id_of_deserializeMessage hd)
  | error err =>
    obtain ⟨text, rfl⟩ := deserializeMessage_error hd
    rfl

variable (codec) in
/-- the slot is served again; an entry of the channel goes to the slot when it decodes, and nowhere when it does not -/
theorem recv_cases (c : RedisChangeStream) :
    (∃ item, c.unackItem = some item ∧ recv codec c = (.ready ((deserializeMessage codec item).map some), c)) ∨
    (c.unackItem = none ∧ c.buffer = [] ∧ recv codec c = (.pending, c)) ∨
    (∃ e rest m, c.unackItem = none ∧ c.buffer = e :: rest ∧ deserializeMessage codec e = .ok m ∧
      recv codec c = (.ready (.ok (some m)), { c with buffer := rest, unackItem := some e })) ∨
    (∃ e rest err, c.unackItem = none ∧ c.buffer = e :: rest ∧ deserializeMessage codec e = .error err ∧
      recv codec c = (.ready (.error err), { c with buffer := rest })) := by
  cases hu : c.unackItem with
  | some item =>
    refine .inl ⟨item, rfl, ?_⟩
    cases hd : deserializeMessage codec item with
    | ok m => simp [recv, hu, hd, Except.map]
    | error err => simp [recv, hu, hd, Except.map]
  | none =>
    cases hb : c.buffer with
    | nil => exact .inr (.inl ⟨rfl, rfl, recv_empty hu hb⟩)
    | cons e rest =>
      cases hd : deserializeMessage codec e with
      | ok m => exact .inr (.inr (.inl ⟨e, rest, m, rfl, rfl, hd, recv_buffer hu hb hd⟩))
      | error err => exact .inr (.inr (.inr ⟨e, rest, err, rfl, rfl, hd, by simp [recv, hu, hb, hd]⟩))

theorem ConsumerOrdered.recv {g : Group} {c : RedisChangeStream} (h : ConsumerOrdered codec g c) :
    ConsumerOrdered codec g (recv codec c).2 := by
  obtain ⟨item, -, heq⟩ | ⟨-, -, heq⟩ | ⟨e, rest, m, -, hb, hd, heq⟩ | ⟨e, rest, err, -, hb, -, heq⟩ := recv_cases codec c
  · rw [heq]
    exact h
  · rw [heq]
    exact h
  · rw [heq]
    refine ⟨h.sorted, h.delivered, h.behind, (List.suffix_cons e rest).trans (hb ▸ h.channel), ?_⟩
    rintro item hitem
    obtain rfl : e = item := by simpa using hitem
    exact ⟨m, hd⟩
  · rw [heq]
    exact ⟨h.sorted, h.delivered, h.behind, (List.suffix_cons e rest).trans (hb ▸ h.channel), h.slot⟩

theorem ConsumerOrdered.new (g : Group) (config : Config) : ConsumerOrdered codec g (.new config) where
  sorted := .nil
  delivered := by simp [RedisChangeStream.new]
  behind := by simp [RedisChangeStream.new]
  channel := List.suffix_refl _
  slot := by simp [RedisChangeStream.new]

theorem Ordered.of_some {stream : Stream} {g : Group} {c : RedisChangeStream} {acked : List EntryId} (hg : GroupOrdered g)
    (hc : ConsumerOrdered codec g c) : Ordered codec ⟨stream, some g, some c, acked⟩ where
  fresh := by simp
  group g' hg' := Option.some.inj hg' ▸ hg
  consumer g' c' hg' hc' := Option.some.inj hg' ▸ Option.some.inj hc' ▸ hc

/-- **One step** keeps the order, whatever the entries decode to. -/
theorem step_ordered (s : System) (op : Op) (h : Ordered codec s) : Ordered codec (step codec s op) := by
  cases op with
  | xadd e => exact ⟨h.fresh, h.group, h.consumer⟩
  | fetch =>
    simp only [step]
    split
    · rename_i g c hg hc
      obtain ⟨hg', hc'⟩ := (h.consumer g c hg hc).fetch (s := s.stream) (h.group g hg)
      exact .of_some hg' hc'
    · exact h
  | recv =>
    refine ⟨fun hg => by simp [step, h.fresh hg], h.group, ?_⟩
    intro g c' hg hc'
    obtain ⟨c, hc, rfl⟩ := Option.map_eq_some_iff.1 hc'
    exact (h.consumer g c hg hc).recv
  | ack id xackError =>
    obtain ⟨g, c, item, hg, hc, -, -, -, heq⟩ | ⟨heq, -⟩ := ack_cases codec s id xackError
    · have hcons := h.consumer g c hg hc
      rw [heq]
      exact .of_some ((h.group g hg).xack id)
        ⟨hcons.sorted, hcons.delivered, hcons.behind, hcons.channel, by simp⟩
    · rw [heq]
      exact h
  | stop => exact ⟨fun _ => rfl, h.group, fun g c _ hc => (by cases hc)⟩
  | start config startTimestamp =>
    simp only [step]
    split
    · exact h
    · refine .of_some ?_ (.new _ config)
      cases hg : s.group with
      | none => exact ⟨.nil, by simp [xgroupCreate]⟩
      | some g => exact h.group g hg

variable (codec) in
theorem run_ordered (stream : Stream) (ops : List Op) : Ordered codec (Run.run (step codec) (.init stream) ops) := by
  refine Run.run_inv step_ordered _ ops ⟨fun _ => rfl, ?_, ?_⟩
  · rintro _ ⟨⟩
  · rintro _ _ ⟨⟩

/-! ## An entry that was taken and is not held -/

/-- the entry has gone through the channel and is not in the slot -/
structure Past (id : EntryId) (c : RedisChangeStream) : Prop where
  sent : ∃ e ∈ c.sent, e.id = id
  channel : ∀ e ∈ c.buffer, e.id ≠ id
  slot : ∀ item ∈ c.unackItem, item.id ≠ id

theorem Past.fetch {s : Stream} {g : Group} {c : RedisChangeStream} {id : EntryId} (hc : ConsumerOrdered codec g c)
    (h : Past id c) : Past id (fetch s g c).2 := by
  obtain ⟨e, rest, hh, -, heq⟩ | ⟨_, _, -, -, heq⟩ | ⟨_, -, -, -, heq⟩ | ⟨_, _, -, -, -, -, heq⟩ | ⟨-, -, heq⟩ :=
    fetch_cases s g c
  · -- what comes into the channel is above everything sent before
    rw [heq]
    obtain ⟨x, hx, rfl⟩ := h.sent
    have hlt : x.id < e.id := (List.pairwise_append.1 hc.sorted).2.2 x hx e (by simp [hh])
    refine ⟨⟨x, by simp [hx], rfl⟩, ?_, h.slot⟩
    intro y hy
    rcases List.mem_append.1 hy with hy | hy
    · exact h.channel y hy
    · rw [List.mem_singleton.1 hy]
      exact hlt.ne'
  all_goals
    rw [heq]
    exact ⟨h.sent, h.channel, h.slot⟩

theorem Past.recv {c : RedisChangeStream} {id : EntryId} (h : Past id c) : Past id (recv codec c).2 := by
  obtain ⟨_, -, heq⟩ | ⟨-, -, heq⟩ | ⟨e, rest, m, -, hb, -, heq⟩ | ⟨e, rest, err, -, hb, -, heq⟩ := recv_cases codec c
  · rw [heq]
    exact h
  · rw [heq]
    exact h
  · rw [heq]
    refine ⟨h.sent, fun y hy => h.channel y (by simp [hb, hy]), ?_⟩
    rintro item hitem
    obtain rfl : e = item := by simpa using hitem
    exact h.channel e (by simp [hb])
  · rw [heq]
    exact ⟨h.sent, fun y hy => h.channel y (by simp [hb, hy]), h.slot⟩

variable (codec) in
/-- what is received is another entry -/
theorem Past.recv_other {c : RedisChangeStream} {id : EntryId} (h : Past id c) (hb : c.buffer ≠ []) :
    ∃ result, (ChangeStream.recv codec c).1 = .ready result ∧ entryOf result ≠ some id := by
  obtain ⟨item, hu, heq⟩ | ⟨-, hnil, -⟩ | ⟨e, rest, m, -, hcons, hd, heq⟩ | ⟨e, rest, err, -, hcons, hd, heq⟩ :=
    recv_cases codec c
  · refine ⟨_, by rw [heq], ?_⟩
    rw [entryOf_deserializeMessage]
    exact fun hid => h.slot item hu (Option.some.inj hid)
  · exact absurd hnil hb
  all_goals
    refine ⟨(deserializeMessage codec e).map some, by rw [heq, hd, Except.map], ?_⟩
    rw [entryOf_deserializeMessage]
    exact fun hid => h.channel e (by simp [hcons]) (Option.some.inj hid)

/-- its acknowledgement is refused -/
theorem Past.ack_refused {s : System} {c : RedisChangeStream} {id : EntryId} (hc : s.consumer = some c) (h : Past id c)
    (xackError : Option ChangeStreamError) : step codec s (.ack id xackError) = s := by
  obtain ⟨g, c', item, -, hc', hu, hid, -, -⟩ | ⟨heq, -⟩ := ack_cases codec s id xackError
  · obtain rfl : c = c' := Option.some.inj (hc.symm.trans hc')
    exact absurd hid (h.slot item hu)
  · exact heq

theorem Past.step {s : System} {c : RedisChangeStream} {id : EntryId} (hs : Ordered codec s) (hc : s.consumer = some c)
    (h : Past id c) {op : Op} (hop : op ≠ .stop) :
    ∃ c' l, (step codec s op).consumer = some c' ∧ Past id c' ∧ (step codec s op).acked = s.acked ++ l ∧ id ∉ l := by
  cases op with
  | xadd e => exact ⟨c, [], hc, h, (List.append_nil _).symm, List.not_mem_nil⟩
  | fetch =>
    simp only [ChangeStream.step]
    split
    · rename_i g c0 hg hc0
      obtain rfl : c = c0 := Option.some.inj (hc.symm.trans hc0)
      exact ⟨_, [], rfl, h.fetch (hs.consumer g c hg hc), (List.append_nil _).symm, List.not_mem_nil⟩
    · exact ⟨c, [], hc, h, (List.append_nil _).symm, List.not_mem_nil⟩
  | recv =>
    exact ⟨_, [], by rw [ChangeStream.step, hc, Option.map_some], h.recv, (List.append_nil _).symm, List.not_mem_nil⟩
  | ack id' xackError =>
    obtain ⟨g, c0, item, -, hc0, hu, hid, -, heq⟩ | ⟨heq, -⟩ := ack_cases codec s id' xackError
    · obtain rfl : c = c0 := Option.some.inj (hc.symm.trans hc0)
      rw [heq]
      refine ⟨_, [id'], rfl, ⟨h.sent, h.channel, by simp⟩, rfl, ?_⟩
      rw [List.mem_singleton, ← hid]
      exact (h.slot item hu).symm
    · rw [heq]
      exact ⟨c, [], hc, h, (List.append_nil _).symm, List.not_mem_nil⟩
  | stop => exact absurd rfl hop
  | start config startTimestamp =>
    simp only [ChangeStream.step, hc]
    exact ⟨c, [], rfl, h, (List.append_nil _).symm, List.not_mem_nil⟩

/-- **An entry that is past** stays so and is never acknowledged, until the consumer stops. -/
theorem Past.run {s : System} {c : RedisChangeStream} {id : EntryId} (ops : List Op) (hs : Ordered codec s)
    (hc : s.consumer = some c) (h : Past id c) (hops : Op.stop ∉ ops) :
    ∃ c' l, (Run.run (ChangeStream.step codec) s ops).consumer = some c' ∧ Past id c' ∧
      (Run.run (ChangeStream.step codec) s ops).acked = s.acked ++ l ∧ id ∉ l := by
  induction ops generalizing s c with
  | nil => exact ⟨c, [], hc, h, (List.append_nil _).symm, List.not_mem_nil⟩
  | cons op ops ih =>
    rw [List.mem_cons, not_or] at hops
    obtain ⟨c1, l1, hc1, h1, hacked1, hl1⟩ := h.step hs hc (Ne.symm hops.1)
    obtain ⟨c2, l2, hc2, h2, hacked2, hl2⟩ := ih (step_ordered s op hs) hc1 h1 hops.2
    refine ⟨c2, l1 ++ l2, hc2, h2, ?_, by simp [hl1, hl2]⟩
    rw [Run.run_cons, hacked2, hacked1, List.append_assoc]

theorem Past.not_newlyAcked {s : System} {c : RedisChangeStream} {id : EntryId} {ops : List Op} (hs : Ordered codec s)
    (hc : s.consumer = some c) (h : Past id c) (hops : Op.stop ∉ ops) :
    id ∉ newlyAcked s (Run.run (ChangeStream.step codec) s ops) := by
  obtain ⟨-, l, -, -, hacked, hl⟩ := h.run ops hs hc hops
  rw [newlyAcked, hacked, List.drop_left]
  exact hl

/-! ## Taking a malformed entry -/

/-- `recv` answers with an error, and the entry it names is past -/
theorem TakesMalformed.past {s : System} {e : StreamEntry} (h : TakesMalformed codec s e) (hs : Ordered codec s) :
    (∃ text, polled codec s = some (.ready (.error (.messageError e.id text)))) ∧
      ∃ c', (step codec s .recv).consumer = some c' ∧ c'.unackItem = none ∧ Past e.id c' := by
  obtain ⟨c, rest, hc, hu, hb, hmal⟩ := h
  cases hd : deserializeMessage codec e with
  | ok m => exact absurd ⟨m, hd⟩ hmal
  | error err =>
    obtain ⟨text, rfl⟩ := deserializeMessage_error hd
    have hrecv : recv codec c = (.ready (.error (.messageError e.id text)), { c with buffer := rest }) := by
      simp [recv, hu, hb, hd]
    obtain ⟨g, hg⟩ : ∃ g, s.group = some g := by
      rw [← Option.isSome_iff_exists, Option.isSome_iff_ne_none]
      intro hnone
      rw [hs.fresh hnone] at hc
      cases hc
    have hord := hs.consumer g c hg hc
    obtain ⟨taken, hsent⟩ := hord.channel
    rw [hb] at hsent
    have hsorted : (e :: rest).Pairwise fun a b => a.id < b.id := by
      have hsorted := (List.pairwise_append.1 hord.sorted).1
      rw [← hsent] at hsorted
      exact (List.pairwise_append.1 hsorted).2.1
    refine ⟨⟨text, by rw [polled, hc, Option.map_some, hrecv]⟩, { c with buffer := rest }, ?_, hu, ?_⟩
    · rw [step, hc, Option.map_some, hrecv]
    refine ⟨⟨e, by simp [← hsent], rfl⟩, fun x hx => ((List.pairwise_cons.1 hsorted).1 x hx).ne', ?_⟩
    intro item hitem
    rw [hu] at hitem
    cases hitem

/-- only an entry of the channel makes `recv` answer with an error: what is in the slot has been decoded -/
theorem takesMalformed_of_polled {s : System} (hs : Ordered codec s) {id : EntryId} {text : String}
    (h : polled codec s = some (.ready (.error (.messageError id text)))) :
    ∃ e, e.id = id ∧ TakesMalformed codec s e := by
  obtain ⟨c, hc, hpoll⟩ := Option.map_eq_some_iff.1 h
  obtain ⟨item, hu, heq⟩ | ⟨-, -, heq⟩ | ⟨_, _, _, -, -, -, heq⟩ | ⟨e, rest, err, hu, hb, hd, heq⟩ := recv_cases codec c
  · obtain ⟨g, hg⟩ : ∃ g, s.group = some g := by
      rw [← Option.isSome_iff_exists, Option.isSome_iff_ne_none]
      intro hnone
      rw [hs.fresh hnone] at hc
      cases hc
    obtain ⟨m, hm⟩ := (hs.consumer g c hg hc).slot item hu
    simp [heq, hm, Except.map] at hpoll
  · simp [heq] at hpoll
  · simp [heq] at hpoll
  · obtain ⟨text', rfl⟩ := deserializeMessage_error hd
    obtain rfl : e.id = id := by
      simp only [heq, Poll.ready.injEq, Except.error.injEq, ChangeStreamError.messageError.injEq] at hpoll
      exact hpoll.1
    refine ⟨e, rfl, c, rest, hc, hu, hb, ?_⟩
    rintro ⟨m, hm⟩
    rw [hm] at hd
    cases hd

/-- the entry in the slot -/
def System.slot (s : System) : Option StreamEntry := s.consumer.bind (·.unackItem)

/-- the slot stays empty as long as `recv` finds nothing in the channel -/
theorem step_slot {s : System} (h : s.slot = none) {op : Op} (hop : op = .recv → s.channel = []) :
    (step codec s op).slot = none := by
  cases op with
  | xadd e => exact h
  | fetch =>
    simp only [step]
    split
    · rename_i g c hg hc
      have hu : c.unackItem = none := by simpa [System.slot, hc] using h
      obtain ⟨_, _, _, _, heq⟩ | ⟨_, _, _, _, heq⟩ | ⟨_, _, _, _, heq⟩ | ⟨_, _, _, _, _, _, heq⟩ | ⟨_, _, heq⟩ :=
        fetch_cases s.stream g c
      all_goals simpa [System.slot, heq] using hu
    · exact h
  | recv =>
    have hchannel := hop rfl
    cases hc : s.consumer with
    | none => simp [System.slot, step, hc]
    | some c =>
      have hu : c.unackItem = none := by simpa [System.slot, hc] using h
      have hb : c.buffer = [] := by simpa [System.channel, hc] using hchannel
      simp [System.slot, step, hc, recv_empty hu hb, hu]
  | ack id xackError =>
    obtain ⟨g, c, item, -, -, -, -, -, heq⟩ | ⟨heq, -⟩ := ack_cases codec s id xackError
    · rw [heq]
      rfl
    · rw [heq]
      exact h
  | stop => rfl
  | start config startTimestamp =>
    simp only [step]
    split
    · exact h
    · rfl

theorem run_slot {s : System} (ops : List Op) (h : s.slot = none)
    (hops : ∀ a b, ops = a ++ .recv :: b → (Run.run (step codec) s a).channel = []) :
    (Run.run (step codec) s ops).slot = none := by
  induction ops generalizing s with
  | nil => exact h
  | cons op ops ih =>
    refine ih (step_slot h ?_) fun a b hab => hops (op :: a) b (by rw [hab, List.cons_append])
    rintro rfl
    exact hops [] ops rfl

/-! ## Main result -/

theorem stop_not_mem_untilStop {ops a b : List Op} (h : untilStop ops = a ++ b) : Op.stop ∉ a := by
  intro hmem
  have hstop : Op.stop ∈ untilStop ops := h ▸ List.mem_append_left b hmem
  simpa using List.all_eq_true.1 List.all_takeWhile _ hstop

/-- **A malformed entry blocks the stream exactly when nothing tests it.** In a run the promise is kept if and only if,
after `recv` has returned the error, the client does not acknowledge the entry and receives from an empty channel only. -/
theorem malformed_blocks_iff (codec : Codec T) (stream : Stream) (ops : List Op) :
    MalformedBlocks codec stream ops ↔ LeavesAlone codec stream ops := by
  have hord := run_ordered codec stream
  have happ : ∀ a c, Run.run (step codec) (.init stream) (a ++ .recv :: c) =
      Run.run (step codec) (Run.run (step codec) (.init stream) (a ++ [.recv])) c := by
    intro a c
    rw [← Run.run_append, List.append_assoc, List.singleton_append]
  have htake : ∀ a, (Run.run (step codec) (.init stream) (a ++ [.recv])) =
      step codec (Run.run (step codec) (.init stream) a) .recv := by
    intro a
    rw [Run.run_append]
    rfl
  constructor
  · intro h a b e hops hmal c o d hb
    obtain ⟨⟨text, hpoll⟩, c1, hc1, -, hpast⟩ := hmal.past (hord a)
    obtain ⟨hpins, hacks⟩ := h a b e.id text hops hpoll
    rw [← htake] at hc1
    have hstop : Op.stop ∉ c := stop_not_mem_untilStop hb
    have hnot := hpast.not_newlyAcked (hord _) hc1 hstop
    obtain ⟨c2, -, hc2, hpast2, -, -⟩ := hpast.run c (hord _) hc1 hstop
    refine ⟨?_, ?_⟩
    · rintro rfl
      have hlen := congrArg List.length (hacks c d hb hnot)
      rw [hpast2.ack_refused hc2, List.length_append] at hlen
      simp at hlen
    · rintro rfl
      have hpins := hpins c d hb hnot
      rw [happ, System.channel, hc2, Option.map_some, Option.getD_some]
      by_contra hne
      obtain ⟨result, hresult, hother⟩ := hpast2.recv_other codec hne
      exact hother (hpins result (by rw [polled, hc2, Option.map_some, hresult]))
  · intro h a b id text hops hpoll
    obtain ⟨e, rfl, hmal⟩ := takesMalformed_of_polled (hord a) hpoll
    have h := h a b e hops hmal
    obtain ⟨-, c1, hc1, hu1, -⟩ := hmal.past (hord a)
    have hslot1 : (Run.run (step codec) (.init stream) (a ++ [.recv])).slot = none := by
      rw [htake, System.slot, hc1, Option.bind_some, hu1]
    refine ⟨?_, fun c d hb => absurd rfl (h c _ d hb).1⟩
    intro c d hb _ result hready
    -- the slot is empty and so is the channel
    have hslot : (Run.run (step codec) (Run.run (step codec) (.init stream) (a ++ [.recv])) c).slot = none := by
      refine run_slot c hslot1 fun c' d' hc => ?_
      rw [← happ]
      exact (h c' .recv (d' ++ .recv :: d) (by rw [hb, hc, List.append_assoc, List.cons_append])).2 rfl
    have hchannel := (h c .recv d hb).2 rfl
    rw [happ] at hchannel
    obtain ⟨c2, hc2, hready⟩ := Option.map_eq_some_iff.1 hready
    have hu2 : c2.unackItem = none := by simpa [System.slot, hc2] using hslot
    have hb2 : c2.buffer = [] := by simpa [System.channel, hc2] using hchannel
    rw [recv_empty hu2 hb2] at hready
    cases hready

/-- up to the malformed entry `6-0` and the entry `7-0` in the channel -/
def malformedSetup : List Op :=
  [.start ⟨2, 2, by decide, by decide⟩ 5, .xadd (digitEntry 6 120), .xadd (digitEntry 7 49), .fetch, .fetch, .fetch, .fetch]

/-- the client receives twice and acknowledges the malformed entry -/
def malformedSkip : List Op := malformedSetup ++ [.recv, .recv, .ack (toLex (6, 0)) none]

/-- after the error about `6-0` the entry `7-0` is received -/
theorem malformed_skipped : ¬ MalformedBlocks digitCodec .empty malformedSkip := by
  intro h
  obtain ⟨hpins, -⟩ := h malformedSetup [.recv, .ack (toLex (6, 0)) none] (toLex (6, 0)) _ rfl rfl
  have hserved := hpins [] [.ack (toLex (6, 0)) none] rfl (by decide) _ rfl
  revert hserved
  decide

end DrasiPlatform.ChangeStream
