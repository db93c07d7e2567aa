/-
What a client of `RedisChangeStream` can rely on: the stream is sequential.

The state is abstracted to a `Sequential` stream: the entries after the start of the group, of which a prefix is
acknowledged. Every step of the consumer is a step of it or none (`step_refines`), whatever the sizes of the batches and of
the channel, the interleaving, the failed acknowledgements and the restarts. What the pending list, the channel, the slot
and the reader's hand hold never shows.

- `run_refines`, `afterStart_prefix`: the refinement over whole runs; what is behind the group's start only grows.
- `Serves`: `recv` returns the earliest entry that is not acknowledged, returns it again until it is acknowledged, and the
  reader brings it in at most three steps when it is not there yet.
- `Replays`: the recovery loop replays exactly the pending entries, before any new one, in at most
  `2 * pending + 1` steps in which it is not waiting for room in the channel.
- `change_stream_sequential`: all of it, for every run.
Witness: `change_stream_sequential_restart`.
-/
import Mathlib.Tactic
import DrasiPlatform.Core.Sequential
import DrasiPlatform.ChangeStream.RedisChangeStream

namespace DrasiPlatform.ChangeStream

variable {T : Type} (codec : Codec T)

/-! ## Refinement -/

/-- the entries after the start position of the group -/
def System.afterStart (s : System) : List StreamEntry :=
  match s.group with
  | none => []
  | some g => above g.start s.stream.entries

/-- the entries that have not been successfully acknowledged -/
def System.unacked (s : System) : List StreamEntry := s.afterStart.filter fun e => e.id ∉ s.acked

/-- the sequential stream: as many entries are acknowledged as there are successful acknowledgements -/
def System.abs (s : System) : Sequential StreamEntry :=
  ⟨s.afterStart.take s.acked.length, s.afterStart.drop s.acked.length⟩

theorem abs_eq {s : System} {done rest : List StreamEntry} (hdone : done.map (·.id) = s.acked)
    (hsplit : s.afterStart = done ++ rest) : s.abs = ⟨done, rest⟩ := by
  have hlen : s.acked.length = done.length := by rw [← hdone, List.length_map]
  simp [System.abs, hsplit, hlen]

theorem abs_log (s : System) : s.abs.log = s.afterStart := List.take_append_drop _ _

variable {codec}

/-- what waits is pending or undelivered -/
theorem Inv.abs {s : System} (h : Inv codec s) {g : Group} (hg : s.group = some g) :
    s.abs.acked.map (·.id) = s.acked ∧ s.abs.waiting = g.pending ++ above g.lastDelivered s.stream.entries := by
  obtain ⟨done, hdone, hsplit⟩ := (h.group g hg).split
  have hafter : s.afterStart = done ++ (g.pending ++ above g.lastDelivered s.stream.entries) := by
    simp only [System.afterStart, hg, hsplit]
  rw [abs_eq hdone hafter]
  exact ⟨hdone, rfl⟩

/-- what waits is what has not been acknowledged -/
theorem Inv.unacked {s : System} (h : Inv codec s) : s.unacked = s.abs.waiting := by
  cases hg : s.group with
  | none => simp [System.unacked, System.abs, System.afterStart, hg]
  | some g =>
    obtain ⟨hacked, -⟩ := h.abs hg
    have hsorted : s.abs.log.Pairwise fun a b => a.id < b.id := by
      rw [abs_log]
      simp only [System.afterStart, hg]
      exact s.stream.sorted.filter _
    have hnot : ∀ e ∈ s.abs.waiting, e.id ∉ s.acked := by
      intro e he ha
      rw [← hacked] at ha
      obtain ⟨d, hd, hde⟩ := List.mem_map.1 ha
      exact ((List.pairwise_append.1 hsorted).2.2 d hd e he).ne hde
    have hmem : ∀ e ∈ s.abs.acked, e.id ∈ s.acked := fun e he => by
      rw [← hacked]
      exact List.mem_map_of_mem he
    unfold System.unacked
    rw [← abs_log, Sequential.log, List.filter_append, List.filter_eq_nil_iff.2 fun e he => by simpa using hmem e he,
      List.filter_eq_self.2 fun e he => decide_eq_true (hnot e he), List.nil_append]

theorem abs_congr {s s' : System} (hstart : s'.group.map (·.start) = s.group.map (·.start)) (hstream : s'.stream = s.stream)
    (hacked : s'.acked = s.acked) : s'.abs = s.abs := by
  have hafter : s'.afterStart = s.afterStart := by
    unfold System.afterStart
    rw [hstream]
    cases hg : s.group <;> cases hg' : s'.group <;> simp_all
  simp only [System.abs, hafter, hacked]

/-- what an operation does to the sequential stream -/
def Op.abstract (s : System) : Op → List (Sequential.Op StreamEntry)
  | .xadd e =>
    match s.group with
    | some g => if s.stream.topId < e.id ∧ g.start < e.id then [.publish e] else []
    | none => []
  | .ack id none =>
    match s.consumer.bind (·.unackItem) with
    | some item => if item.id = id then [.ack] else []
    | none => []
  | .start _ startTimestamp =>
    match s.group with
    | none => (above (toLex (startTimestamp, 0)) s.stream.entries).map .publish
    | some _ => []
  | _ => []

theorem fetch_start (s : Stream) (g : Group) (c : RedisChangeStream) : (fetch s g c).1.start = g.start := by
  obtain ⟨_, _, _, _, heq⟩ | ⟨_, _, _, _, heq⟩ | ⟨_, _, _, _, heq⟩ | ⟨_, _, _, _, _, _, heq⟩ | ⟨_, _, heq⟩ :=
    fetch_cases s g c
  all_goals simp [heq, Group.xreadNew]

theorem xadd_refines {s : System} (h : Inv codec s) (e : StreamEntry) :
    (step codec s (.xadd e)).abs = Run.run Sequential.step s.abs (Op.abstract s (.xadd e)) := by
  cases hg : s.group with
  | none => simp [Op.abstract, step, System.abs, System.afterStart, hg]
  | some g =>
    by_cases hnew : s.stream.topId < e.id ∧ g.start < e.id
    · have hafter : (step codec s (.xadd e)).afterStart = s.abs.acked ++ (s.abs.waiting ++ [e]) := by
        rw [← List.append_assoc, ← Sequential.log, abs_log]
        simp [step, System.afterStart, hg, entries_xadd hnew.1, above, hnew.2]
      rw [abs_eq (s := step codec s (.xadd e)) (h.abs hg).1 hafter]
      simp [Op.abstract, hg, hnew, Sequential.step]
    · have hsame : (step codec s (.xadd e)).afterStart = s.afterStart := by
        by_cases htop : s.stream.topId < e.id
        · have hstart : ¬ g.start < e.id := fun hs => hnew ⟨htop, hs⟩
          simp [step, System.afterStart, hg, entries_xadd htop, above, hstart]
        · simp [step, System.afterStart, hg, xadd_of_le htop]
      simp only [Op.abstract, hg, hnew, if_false, Run.run_nil, System.abs, hsame]
      rfl

theorem ack_refines {s : System} (h : Inv codec s) (id : EntryId) (xackError : Option ChangeStreamError) :
    (step codec s (.ack id xackError)).abs = Run.run Sequential.step s.abs (Op.abstract s (.ack id xackError)) := by
  obtain ⟨g, c, item, hg, hc, hu, rfl, rfl, heq⟩ | ⟨heq, hno⟩ := ack_cases codec s id xackError
  · -- the slot holds the first pending entry, which is the first one that waits
    obtain ⟨hacked, hwaiting⟩ := h.abs hg
    rw [← (h.consumer g c hg hc).held, hu, Option.toList_some, List.singleton_append, List.cons_append] at hwaiting
    have hafter : (step codec s (.ack item.id none)).afterStart = s.abs.acked ++ s.abs.waiting := by
      rw [← Sequential.log, abs_log, heq]
      simp [System.afterStart, hg, Group.xack]
    rw [hwaiting, ← List.singleton_append, ← List.append_assoc] at hafter
    have hacked' : (s.abs.acked ++ [item]).map (·.id) = (step codec s (.ack item.id none)).acked := by
      rw [heq, List.map_append, hacked]
      rfl
    rw [abs_eq hacked' hafter]
    simp [Op.abstract, hc, hu, Sequential.step, hwaiting]
  · have hnone : Op.abstract s (.ack id xackError) = [] := by
      cases xackError with
      | some err => rfl
      | none =>
        simp only [Op.abstract]
        split
        · rename_i item hitem
          obtain ⟨c, hc, -⟩ := Option.bind_eq_some_iff.1 hitem
          have hg : s.group.isSome := by
            rw [Option.isSome_iff_ne_none]
            intro hnone
            rw [(h.fresh hnone).1] at hc
            cases hc
          exact if_neg fun hid => hno ⟨hg, rfl, item, hitem, hid⟩
        · rfl
    rw [heq, hnone]
    rfl

/-- **Every step refines**: it does to the sequential stream what its abstraction says. -/
theorem step_refines {s : System} (h : Inv codec s) (op : Op) :
    (step codec s op).abs = Run.run Sequential.step s.abs (op.abstract s) := by
  cases op with
  | xadd e => exact xadd_refines h e
  | fetch =>
    refine abs_congr ?_ ?_ ?_ <;> simp only [step] <;> split <;> simp_all [fetch_start]
  | recv => rfl
  | ack id xackError => exact ack_refines h id xackError
  | stop => rfl
  | start config startTimestamp =>
    simp only [step, Op.abstract]
    cases hg : s.group with
    | none =>
      obtain ⟨hc, hacked⟩ := h.fresh hg
      simp only [hc, Sequential.run_publish]
      simp [System.abs, System.afterStart, hg, hacked, xgroupCreate]
    | some g =>
      split
      · rfl
      · exact abs_congr (by simp [xgroupCreate, hg]) rfl rfl

/-- the operations of a run, on the sequential stream -/
def abstractRun (codec : Codec T) : System → List Op → List (Sequential.Op StreamEntry)
  | _, [] => []
  | s, op :: ops => op.abstract s ++ abstractRun codec (step codec s op) ops

/-- **Every run refines** a run of the sequential stream. -/
theorem run_refines {s : System} (ops : List Op) (h : Inv codec s) (hops : ∀ op ∈ ops, op.WellFormed codec) :
    (Run.run (step codec) s ops).abs = Run.run Sequential.step s.abs (abstractRun codec s ops) := by
  induction ops generalizing s with
  | nil => rfl
  | cons op ops ih =>
    have hop := hops op List.mem_cons_self
    rw [Run.run_cons, ih (step_inv codec s op h hop) fun op' hop' => hops op' (List.mem_cons_of_mem op hop'),
      step_refines h op, abstractRun, Run.run_append]

/-- what is behind the group's start is never lost or reordered -/
theorem afterStart_prefix {s : System} (ops : List Op) (h : Inv codec s) (hops : ∀ op ∈ ops, op.WellFormed codec) :
    s.afterStart <+: (Run.run (step codec) s ops).afterStart := by
  rw [← abs_log, ← abs_log, run_refines ops h hops, Sequential.run_log]
  exact List.prefix_append _ _

/-! ## Receiving -/

variable (codec) in
/-- what `recv` answers now -/
def polled (s : System) : Option (Poll (Except ChangeStreamError (Option (Message T)))) :=
  s.consumer.map fun c => (recv codec c).1

variable (codec) in
/-- the reader takes `n` steps -/
def fetches (s : System) (n : ℕ) : System := Run.run (step codec) s (List.replicate n .fetch)

/-- an operation that neither acknowledges nor stops -/
def Op.Keeps : Op → Prop
  | .ack _ none => False
  | .stop => False
  | _ => True

variable (codec) in
/-- what a running consumer gives its client -/
structure Serves (s : System) : Prop where
  /-- an answer is the earliest entry that is not acknowledged -/
  earliest : ∀ result, polled codec s = some (.ready result) →
    ∃ e m, s.unacked.head? = some e ∧ deserializeMessage codec e = .ok m ∧ result = .ok (some m)
  /-- it is given again until it is acknowledged -/
  again : ∀ result, polled codec s = some (.ready result) → ∀ ops, (∀ op ∈ ops, op.Keeps) →
    polled codec (Run.run (step codec) (step codec s .recv) ops) = some (.ready result)
  /-- an entry that is not there yet comes in at most three steps of the reader -/
  comes : ∀ e rest, s.unacked = e :: rest →
    ∃ n ≤ 3, ∃ m, deserializeMessage codec e = .ok m ∧ polled codec (fetches codec s n) = some (.ready (.ok (some m)))
  /-- and without one the client waits -/
  waits : s.unacked = [] → ∀ n, polled codec (fetches codec s n) = some .pending

theorem Inv.head_slot {s : System} (h : Inv codec s) {g : Group} {c : RedisChangeStream} (hg : s.group = some g)
    (hc : s.consumer = some c) : s.unacked = c.unackItem.toList ++ (c.buffer ++ (c.hand ++ ahead g c)) ++
      above g.lastDelivered s.stream.entries := by
  rw [h.unacked, (h.abs hg).2, (h.consumer g c hg hc).held]

theorem Inv.mem_wellFormed {s : System} (h : Inv codec s) {e : StreamEntry} (he : e ∈ s.unacked) : WellFormed codec e := by
  have hafter : e ∈ s.afterStart := (List.mem_filter.1 he).1
  unfold System.afterStart at hafter
  split at hafter
  · cases hafter
  · exact h.wellFormed e (mem_above.1 hafter).1

theorem Inv.group_of_consumer {s : System} (h : Inv codec s) {c : RedisChangeStream} (hc : s.consumer = some c) :
    ∃ g, s.group = some g := by
  rw [← Option.isSome_iff_exists, Option.isSome_iff_ne_none]
  intro hnone
  rw [(h.fresh hnone).1] at hc
  cases hc

/-- the slot and the channel decide the answer -/
theorem Inv.polled_cases {s : System} (h : Inv codec s) {c : RedisChangeStream} (hc : s.consumer = some c) :
    (c.unackItem = none ∧ c.buffer = [] ∧ polled codec s = some .pending) ∨
      ∃ e m, s.unacked.head? = some e ∧ deserializeMessage codec e = .ok m ∧ polled codec s = some (.ready (.ok (some m))) ∧
        ∃ c', (step codec s .recv).consumer = some c' ∧ c'.unackItem = some e := by
  obtain ⟨g, hg⟩ := h.group_of_consumer hc
  have hun := h.head_slot hg hc
  cases hu : c.unackItem with
  | some item =>
    rw [hu] at hun
    obtain ⟨m, hm⟩ := h.mem_wellFormed (e := item) (by rw [hun]; simp)
    refine .inr ⟨item, m, by rw [hun]; rfl, hm, ?_, c, ?_, hu⟩
    · simp [polled, hc, recv_item hu hm]
    · simp [step, hc, recv_item hu hm]
  | none =>
    cases hb : c.buffer with
    | nil => exact .inl ⟨rfl, rfl, by simp [polled, hc, recv_empty hu hb]⟩
    | cons data rest =>
      rw [hu, hb] at hun
      obtain ⟨m, hm⟩ := h.mem_wellFormed (e := data) (by rw [hun]; simp)
      refine .inr ⟨data, m, by rw [hun]; rfl, hm, ?_, { c with buffer := rest, unackItem := some data }, ?_, rfl⟩
      · simp [polled, hc, recv_buffer hu hb hm]
      · simp [step, hc, recv_buffer hu hb hm]

variable (codec) in
/-- the slot is emptied only by an acknowledgement or a stop -/
theorem step_keeps_slot {s : System} {c : RedisChangeStream} {item : StreamEntry} (hc : s.consumer = some c)
    (hu : c.unackItem = some item) {op : Op} (hop : op.Keeps) :
    ∃ c', (step codec s op).consumer = some c' ∧ c'.unackItem = some item := by
  cases op with
  | xadd e => exact ⟨c, hc, hu⟩
  | fetch =>
    simp only [step]
    split
    · rename_i g c0 hg hc0
      obtain rfl : c0 = c := by simpa [hc] using hc0.symm
      refine ⟨_, rfl, ?_⟩
      obtain ⟨_, _, _, _, heq⟩ | ⟨_, _, _, _, heq⟩ | ⟨_, _, _, _, heq⟩ | ⟨_, _, _, _, _, _, heq⟩ | ⟨_, _, heq⟩ :=
        fetch_cases s.stream g c0
      all_goals simpa [heq] using hu
    · exact ⟨c, hc, hu⟩
  | recv =>
    refine ⟨(recv codec c).2, by simp [step, hc], ?_⟩
    simp only [recv, hu]
    split <;> exact hu
  | ack id xackError =>
    obtain ⟨_, _, _, _, _, _, _, rfl, _⟩ | ⟨heq, -⟩ := ack_cases codec s id xackError
    · exact hop.elim
    · rw [heq]; exact ⟨c, hc, hu⟩
  | stop => exact hop.elim
  | start config startTimestamp => exact ⟨c, by simp [step, hc], hu⟩

variable (codec) in
theorem run_keeps_slot {s : System} {c : RedisChangeStream} {item : StreamEntry} (hc : s.consumer = some c)
    (hu : c.unackItem = some item) (ops : List Op) (hops : ∀ op ∈ ops, op.Keeps) :
    ∃ c', (Run.run (step codec) s ops).consumer = some c' ∧ c'.unackItem = some item := by
  induction ops generalizing s c with
  | nil => exact ⟨c, hc, hu⟩
  | cons op ops ih =>
    obtain ⟨c', hc', hu'⟩ := step_keeps_slot codec hc hu (hops op List.mem_cons_self)
    exact ih hc' hu' fun op' hop' => hops op' (List.mem_cons_of_mem op hop')

/-! ### The reader brings the next entry -/

theorem fetches_inv {s : System} (h : Inv codec s) (n : ℕ) : Inv codec (fetches codec s n) :=
  run_inv codec s _ h fun op hop => by rw [List.eq_of_mem_replicate hop]; trivial

/-- the reader does not change what waits -/
theorem fetches_unacked {s : System} (h : Inv codec s) (n : ℕ) : (fetches codec s n).unacked = s.unacked := by
  induction n generalizing s with
  | zero => rfl
  | succ n ih =>
    have h' : Inv codec (step codec s .fetch) := step_inv codec s .fetch h trivial
    have hstep : (step codec s .fetch).unacked = s.unacked := by
      rw [h'.unacked, h.unacked, step_refines h .fetch]
      rfl
    rw [← hstep]
    exact ih h'

/-- a consumer with an empty slot and an empty channel -/
structure Idle (s : System) (g : Group) (c : RedisChangeStream) : Prop where
  group : s.group = some g
  consumer : s.consumer = some c
  slot : c.unackItem = none
  buffer : c.buffer = []

theorem step_fetch {s : System} {g : Group} {c : RedisChangeStream} (hg : s.group = some g) (hc : s.consumer = some c) :
    step codec s .fetch = { s with group := some (fetch s.stream g c).1, consumer := some (fetch s.stream g c).2 } := by
  simp [step, hg, hc]

variable (codec) in
/-- with a batch in hand: the first entry is sent -/
theorem Idle.send {s : System} {g : Group} {c : RedisChangeStream} (h : Idle s g c) (hh : c.hand ≠ []) :
    ∃ c', (step codec s .fetch).consumer = some c' ∧ c'.buffer ≠ [] := by
  rw [step_fetch h.group h.consumer]
  refine ⟨_, rfl, ?_⟩
  obtain ⟨e, rest, hhand⟩ := List.exists_cons_of_ne_nil hh
  simp [fetch, hhand, h.buffer, c.config.bufferSize_pos]

variable (codec) in
/-- with something to read where the reader is: a batch is read -/
theorem Idle.read {s : System} {g : Group} {c : RedisChangeStream} (h : Idle s g c) (hh : c.hand = [])
    (hread : ahead g c ≠ [] ∨ c.phase = .live ∧ above g.lastDelivered s.stream.entries ≠ []) :
    ∃ g' c', Idle (step codec s .fetch) g' c' ∧ c'.hand ≠ [] := by
  rw [step_fetch h.group h.consumer]
  obtain ⟨_, _, hh', -⟩ | ⟨_, _, hh', -⟩ | ⟨startId, -, hph, hnone, -⟩ | ⟨_, batch, -, -, hne, -, heq⟩ | ⟨-, hph, heq⟩ :=
    fetch_cases s.stream g c
  · exact absurd (hh.symm.trans hh') (by simp)
  · exact absurd (hh.symm.trans hh') (by simp)
  · simp [ahead, hph, hnone] at hread
  · rw [heq]
    exact ⟨_, _, ⟨rfl, rfl, h.slot, h.buffer⟩, hne⟩
  · have hu := (hread.resolve_left (by simp [ahead, hph])).2
    rw [heq]
    refine ⟨_, _, ⟨rfl, rfl, h.slot, h.buffer⟩, ?_⟩
    simpa [List.take_eq_nil_iff, c.config.fetchBatchSize_pos.ne'] using hu

variable (codec) in
/-- at the end of the pending list: the reader turns to new entries -/
theorem Idle.turn {s : System} {g : Group} {c : RedisChangeStream} (h : Idle s g c) (hh : c.hand = []) {startId : EntryId}
    (hph : c.phase = .recovering startId) (hnone : ahead g c = []) :
    ∃ c', Idle (step codec s .fetch) g c' ∧ c'.hand = [] ∧ c'.phase = .live := by
  rw [step_fetch h.group h.consumer]
  obtain ⟨_, _, hh', -⟩ | ⟨_, _, hh', -⟩ | ⟨_, -, -, -, heq⟩ | ⟨startId', batch, -, hph', hne, hb, -⟩ | ⟨-, hph', -⟩ :=
    fetch_cases s.stream g c
  · exact absurd (hh.symm.trans hh') (by simp)
  · exact absurd (hh.symm.trans hh') (by simp)
  · rw [heq]
    exact ⟨_, ⟨rfl, rfl, h.slot, h.buffer⟩, hh, rfl⟩
  · simp only [ahead, hph'] at hnone
    exact absurd (by rw [hb, hnone, List.take_nil]) hne
  · rw [hph] at hph'
    cases hph'

/-- the number of steps until the channel has an entry -/
theorem Idle.comes {s : System} (hinv : Inv codec s) {g : Group} {c : RedisChangeStream} (h : Idle s g c)
    (hne : s.unacked ≠ []) :
    ∃ n ≤ 3, ∃ c', (fetches codec s n).consumer = some c' ∧ c'.buffer ≠ [] := by
  have hun := hinv.head_slot h.group h.consumer
  rw [h.slot, h.buffer] at hun
  by_cases hh : c.hand = []
  · by_cases ha : ahead g c = []
    · have hnew : above g.lastDelivered s.stream.entries ≠ [] := by simpa [hun, hh, ha] using hne
      cases hph : c.phase with
      | live =>
        obtain ⟨g1, c1, h1, hh1⟩ := h.read codec hh (.inr ⟨hph, hnew⟩)
        exact ⟨2, by simp, h1.send codec hh1⟩
      | recovering startId =>
        obtain ⟨c1, h1, hh1, hph1⟩ := h.turn codec hh hph ha
        have hstream : (step codec s .fetch).stream = s.stream := by rw [step_fetch h.group h.consumer]
        obtain ⟨g2, c2, h2, hh2⟩ := h1.read codec hh1 (.inr ⟨hph1, by rwa [hstream]⟩)
        exact ⟨3, by simp, h2.send codec hh2⟩
    · obtain ⟨g1, c1, h1, hh1⟩ := h.read codec hh (.inl ha)
      exact ⟨2, by simp, h1.send codec hh1⟩
  · exact ⟨1, by simp, h.send codec hh⟩

variable (codec) in
theorem fetches_consumer {s : System} (n : ℕ) (hc : s.consumer.isSome) : (fetches codec s n).consumer.isSome := by
  induction n generalizing s with
  | zero => exact hc
  | succ n ih =>
    refine ih (s := step codec s .fetch) ?_
    simp only [step]
    split
    · rfl
    · exact hc

/-- **A running consumer serves** the earliest entry that is not acknowledged. -/
theorem Inv.serves {s : System} (h : Inv codec s) {c : RedisChangeStream} (hc : s.consumer = some c) : Serves codec s where
  earliest result hr := by
    obtain ⟨-, -, hp⟩ | ⟨e, m, he, hm, hp, -⟩ := h.polled_cases hc
    · simp [hp] at hr
    · exact ⟨e, m, he, hm, by simpa [hp] using hr.symm⟩
  again result hr ops hops := by
    obtain ⟨-, -, hp⟩ | ⟨e, m, -, hm, hp, c', hc', hu'⟩ := h.polled_cases hc
    · simp [hp] at hr
    · obtain ⟨c'', hc'', hu''⟩ := run_keeps_slot codec hc' hu' ops hops
      simp only [polled, hc'', Option.map_some, recv_item hu'' hm]
      rw [← hr, hp]
  comes e rest hun := by
    have hready : ∃ n ≤ 3, polled codec (fetches codec s n) ≠ some .pending := by
      obtain ⟨hu, hb, -⟩ | ⟨-, m, -, -, hp, -⟩ := h.polled_cases hc
      · obtain ⟨g, hg⟩ := h.group_of_consumer hc
        obtain ⟨n, hn, c', hc', hb'⟩ := Idle.comes h ⟨hg, hc, hu, hb⟩ (by simp [hun])
        refine ⟨n, hn, ?_⟩
        obtain ⟨-, hb'', -⟩ | ⟨-, m, -, -, hp, -⟩ := (fetches_inv h n).polled_cases hc'
        · exact absurd hb'' hb'
        · simp [hp]
      · exact ⟨0, by simp, by simp [fetches, hp]⟩
    obtain ⟨n, hn, hne⟩ := hready
    obtain ⟨c', hc'⟩ := Option.isSome_iff_exists.1 (fetches_consumer codec n (Option.isSome_of_eq_some hc))
    obtain ⟨-, -, hp⟩ | ⟨e', m, he', hm, hp, -⟩ := (fetches_inv h n).polled_cases hc'
    · exact absurd hp hne
    · rw [fetches_unacked h, hun] at he'
      cases he'
      exact ⟨n, hn, m, hm, hp⟩
  waits hun n := by
    obtain ⟨c', hc'⟩ := Option.isSome_iff_exists.1 (fetches_consumer codec n (Option.isSome_of_eq_some hc))
    obtain ⟨-, -, hp⟩ | ⟨e', m, he', -⟩ := (fetches_inv h n).polled_cases hc'
    · exact hp
    · rw [fetches_unacked h, hun] at he'
      cases he'

/-! ## Recovery -/

/-- a step of the recovery loop: in it, and not waiting for room in the channel -/
def recoveryStep (s : System) : Op → Bool
  | .fetch =>
    match s.consumer with
    | some c => c.phase ≠ .live ∧ (c.hand = [] ∨ c.buffer.length < c.config.bufferSize)
    | none => false
  | _ => false

variable (codec) in
/-- the number of steps of the recovery loop in a run -/
def recoverySteps : System → List Op → ℕ
  | _, [] => 0
  | s, op :: ops => (recoveryStep s op).toNat + recoverySteps (step codec s op) ops

/-- where the replay of the entries that were pending at the start (in `g0`) is, after `n` steps of the recovery loop -/
structure Replay (g0 : Group) (s : Stream) (g : Group) (c : RedisChangeStream) (n : ℕ) : Prop where
  moved : g.lastDelivered = g0.lastDelivered ∨ g0.lastDelivered ≤ g.lastDelivered ∧ g.lastDelivered ≤ s.topId
  /-- in the loop: sent, in hand and ahead are the pending entries, and no new entry has been read -/
  recovering : ∀ startId, c.phase = .recovering startId →
    c.sent ++ (c.hand ++ above startId g.pending) = g0.pending ∧ g.lastDelivered = g0.lastDelivered ∧
      n + 2 * (above startId g.pending).length + c.hand.length ≤ 2 * g0.pending.length
  /-- behind it: the pending entries have been sent, and then the new entries, in order -/
  live : c.phase = .live → n ≤ 2 * g0.pending.length + 1 ∧ ∃ new, c.sent ++ c.hand = g0.pending ++ new ∧
    new ++ above g.lastDelivered s.entries = above g0.lastDelivered s.entries

theorem Replay.xadd {g0 : Group} {s : Stream} {g : Group} {c : RedisChangeStream} {n : ℕ} (h : Replay g0 s g c n)
    (e : StreamEntry) : Replay g0 (s.xadd e) g c n := by
  by_cases he : s.topId < e.id
  · refine ⟨?_, h.recovering, fun hph => ⟨(h.live hph).1, ?_⟩⟩
    · rw [topId_xadd he]
      exact h.moved.imp_right fun hmoved => ⟨hmoved.1, hmoved.2.trans he.le⟩
    · obtain ⟨new, hsent, hnew⟩ := (h.live hph).2
      have hiff : g.lastDelivered < e.id ↔ g0.lastDelivered < e.id := by
        rcases h.moved with hm | ⟨h1, h2⟩
        · rw [hm]
        · exact ⟨fun _ => h1.trans_lt (h2.trans_lt he), fun _ => h2.trans_lt he⟩
      refine ⟨new, hsent, ?_⟩
      rw [entries_xadd he, above_append, above_append, ← List.append_assoc, hnew]
      by_cases hl : g.lastDelivered < e.id
      · simp [above, hl, hiff.1 hl]
      · simp [above, hl, mt hiff.2 hl]
  · rw [xadd_of_le he]
    exact h

theorem Replay.fetch {g0 : Group} {s : Stream} {g : Group} {c : RedisChangeStream} {n : ℕ} (h : Replay g0 s g c n)
    (hs : g.pending.Pairwise fun a b => a.id < b.id) :
    Replay g0 s (fetch s g c).1 (fetch s g c).2
      ((decide (c.phase ≠ .live ∧ (c.hand = [] ∨ c.buffer.length < c.config.bufferSize))).toNat + n) := by
  have hone := Bool.toNat_le (decide (c.phase ≠ .live ∧ (c.hand = [] ∨ c.buffer.length < c.config.bufferSize)))
  obtain ⟨e, rest, hh, hroom, heq⟩ | ⟨e, rest, hh, hfull, heq⟩ | ⟨startId, hh, hph, hnone, heq⟩ |
    ⟨startId, batch, hh, hph, hne, hb, heq⟩ | ⟨hh, hph, heq⟩ := fetch_cases s g c
  · -- an entry of the batch is sent
    rw [heq]
    refine ⟨h.moved, fun startId hph => ?_, fun hph => ?_⟩
    · obtain ⟨hsent, hlast, hn⟩ := h.recovering startId hph
      rw [hh] at hsent hn
      refine ⟨by simpa using hsent, hlast, ?_⟩
      simp only [List.length_cons] at hn
      show _ + 2 * (above startId g.pending).length + rest.length ≤ _
      omega
    · have hph' : c.phase = .live := hph
      obtain ⟨hn, new, hsent, hnew⟩ := h.live hph'
      rw [hh] at hsent
      exact ⟨by simpa [hph'] using hn, new, by simpa using hsent, hnew⟩
  · -- the channel is full
    rw [heq]
    have hzero : (decide (c.phase ≠ .live ∧ (c.hand = [] ∨ c.buffer.length < c.config.bufferSize))) = false := by
      simp only [decide_eq_false_iff_not, not_and, not_or]
      exact fun _ => ⟨by simp [hh], hfull⟩
    simpa [hzero] using h
  · -- the last batch was empty: the loop ends
    rw [heq]
    obtain ⟨hsent, hlast, hn⟩ := h.recovering startId hph
    rw [hh, hnone] at hsent hn
    refine ⟨h.moved, fun startId hph' => by simp at hph', fun _ => ⟨?_, [], ?_, ?_⟩⟩
    · simp only [List.length_nil] at hn
      omega
    · simpa [hh] using hsent
    · rw [hlast]; rfl
  · -- the next batch of pending entries
    rw [heq]
    obtain ⟨hsent, hlast, hn⟩ := h.recovering startId hph
    rw [hh] at hsent hn
    refine ⟨h.moved, fun startId' hph' => ?_, fun hph' => by simp at hph'⟩
    simp only [Phase.recovering.injEq] at hph'
    subst hph'
    have habove : above (lastId startId batch) g.pending = (above startId g.pending).drop c.config.fetchBatchSize := by
      rw [hb, above_lastId hs]
    have hsplit : batch ++ (above startId g.pending).drop c.config.fetchBatchSize = above startId g.pending := by
      rw [hb, List.take_append_drop]
    refine ⟨?_, hlast, ?_⟩
    · rw [habove, hsplit]
      exact hsent
    · have hlen := congrArg List.length hsplit
      have hpos := List.length_pos_iff.2 hne
      rw [habove]
      rw [List.length_append] at hlen
      simp only [List.length_nil] at hn
      show _ + 2 * _ + batch.length ≤ _
      omega
  · -- the next batch of new entries
    rw [heq]
    obtain ⟨hn, new, hsent, hnew⟩ := h.live hph
    have hbatch : ∀ e ∈ (above g.lastDelivered s.entries).take c.config.fetchBatchSize,
        e ∈ s.entries ∧ g.lastDelivered < e.id := fun e he => mem_above.1 (List.mem_of_mem_take he)
    have hle : g.lastDelivered ≤ lastId g.lastDelivered ((above g.lastDelivered s.entries).take c.config.fetchBatchSize) :=
      le_lastId fun e he => (hbatch e he).2
    refine ⟨?_, fun startId hph' => by simp [hph] at hph', fun _ => ⟨by simpa [hph] using hn, ?_⟩⟩
    · show lastId g.lastDelivered _ = _ ∨ _ ≤ lastId g.lastDelivered _ ∧ lastId g.lastDelivered _ ≤ _
      rcases eq_or_ne ((above g.lastDelivered s.entries).take c.config.fetchBatchSize) [] with hnil | hne
      · simpa [hnil, lastId] using h.moved
      · refine .inr ⟨?_, lastId_le_topId (fun e he => (hbatch e he).1) hne⟩
        exact (h.moved.elim (fun hm => hm.ge) And.left).trans hle
    · refine ⟨new ++ (above g.lastDelivered s.entries).take c.config.fetchBatchSize, ?_, ?_⟩
      · rw [hh, List.append_nil] at hsent
        rw [← List.append_assoc, ← hsent]
      · show _ ++ above (lastId g.lastDelivered _) s.entries = _
        rw [above_lastId s.sorted, List.append_assoc, List.take_append_drop, hnew]

theorem recv_frame (codec : Codec T) (c : RedisChangeStream) :
    (recv codec c).2.phase = c.phase ∧ (recv codec c).2.hand = c.hand ∧ (recv codec c).2.sent = c.sent := by
  unfold recv
  repeat' split
  all_goals exact ⟨rfl, rfl, rfl⟩

/-- **One step of the replay.** -/
theorem step_replay {g0 : Group} {s : System} {g : Group} {c : RedisChangeStream} {n : ℕ} (h : Replay g0 s.stream g c n)
    (hinv : Inv codec s) (hg : s.group = some g) (hc : s.consumer = some c) (op : Op) (hop : op ≠ .stop) :
    ∃ g' c', (step codec s op).group = some g' ∧ (step codec s op).consumer = some c' ∧
      Replay g0 (step codec s op).stream g' c' ((recoveryStep s op).toNat + n) := by
  cases op with
  | xadd e => exact ⟨g, c, hg, hc, by simpa [recoveryStep, step] using h.xadd e⟩
  | fetch =>
    rw [step_fetch hg hc]
    refine ⟨_, _, rfl, rfl, ?_⟩
    simpa only [recoveryStep, hc] using h.fetch (hinv.group g hg).sorted
  | recv =>
    obtain ⟨hphase, hhand, hsent⟩ := recv_frame codec c
    refine ⟨g, (recv codec c).2, hg, by simp [step, hc], ?_⟩
    simp only [recoveryStep, Bool.toNat_false, Nat.zero_add]
    exact ⟨h.moved, by rw [hphase, hhand, hsent]; exact h.recovering, by rw [hphase, hhand, hsent]; exact h.live⟩
  | ack id xackError =>
    simp only [recoveryStep, Bool.toNat_false, Nat.zero_add]
    obtain ⟨g1, c1, item, hg1, hc1, hu, rfl, -, heq⟩ | ⟨heq, -⟩ := ack_cases codec s id xackError
    · obtain rfl : g1 = g := by simpa [hg] using hg1.symm
      obtain rfl : c1 = c := by simpa [hc] using hc1.symm
      rw [heq]
      refine ⟨_, _, rfl, rfl, h.moved, fun startId hph => ?_, h.live⟩
      rw [(hinv.consumer g1 c1 hg hc).above_xack (hinv.group g1 hg) hu hph]
      exact h.recovering startId hph
    · rw [heq]
      exact ⟨g, c, hg, hc, h⟩
  | stop => exact absurd rfl hop
  | start config startTimestamp =>
    have hsame : step codec s (.start config startTimestamp) = s := by simp [step, hc]
    rw [hsame]
    exact ⟨g, c, hg, hc, by simpa [recoveryStep] using h⟩

/-- **The replay over a run** without a stop. -/
theorem run_replay {g0 : Group} {s : System} {g : Group} {c : RedisChangeStream} {n : ℕ} (h : Replay g0 s.stream g c n)
    (hinv : Inv codec s) (hg : s.group = some g) (hc : s.consumer = some c) (ops : List Op)
    (hops : ∀ op ∈ ops, op.WellFormed codec ∧ op ≠ .stop) :
    ∃ g' c', (Run.run (step codec) s ops).group = some g' ∧ (Run.run (step codec) s ops).consumer = some c' ∧
      Replay g0 (Run.run (step codec) s ops).stream g' c' (recoverySteps codec s ops + n) := by
  induction ops generalizing s g c n with
  | nil => exact ⟨g, c, hg, hc, by simpa [recoverySteps] using h⟩
  | cons op ops ih =>
    obtain ⟨hwf, hstop⟩ := hops op List.mem_cons_self
    obtain ⟨g1, c1, hg1, hc1, h1⟩ := step_replay h hinv hg hc op hstop
    obtain ⟨g2, c2, hg2, hc2, h2⟩ := ih h1 (step_inv codec s op hinv hwf) hg1 hc1 fun op' hop' =>
      hops op' (List.mem_cons_of_mem op hop')
    refine ⟨g2, c2, hg2, hc2, ?_⟩
    rw [recoverySteps, Nat.add_comm (recoveryStep s op).toNat, Nat.add_assoc]
    exact h2

variable (codec) in
/-- what the recovery loop has done in a run `ops` from `s`, a state in which a consumer has just been started -/
def Replays (s : System) (ops : List Op) : Prop :=
  ∃ g0 g c, s.group = some g0 ∧ (Run.run (step codec) s ops).group = some g ∧
    (Run.run (step codec) s ops).consumer = some c ∧
    Replay g0 (Run.run (step codec) s ops).stream g c (recoverySteps codec s ops)

theorem Inv.replays {s : System} (h : Inv codec s) (hc : s.consumer = none) (config : Config) (startTimestamp : ℕ)
    (ops : List Op) (hops : ∀ op ∈ ops, op.WellFormed codec ∧ op ≠ .stop) :
    Replays codec (step codec s (.start config startTimestamp)) ops := by
  have hinv := step_inv codec s (.start config startTimestamp) h trivial
  have hstart : step codec s (.start config startTimestamp) =
      { s with group := some (xgroupCreate s.group (toLex (startTimestamp, 0))), consumer := some (.new config) } := by
    simp [step, hc]
  have hg : (step codec s (.start config startTimestamp)).group =
      some (xgroupCreate s.group (toLex (startTimestamp, 0))) := by rw [hstart]
  have hc' : (step codec s (.start config startTimestamp)).consumer = some (.new config) := by rw [hstart]
  have hall : above .zero (xgroupCreate s.group (toLex (startTimestamp, 0))).pending =
      (xgroupCreate s.group (toLex (startTimestamp, 0))).pending :=
    above_eq_self fun e he => (step codec s (.start config startTimestamp)).stream.positive e
      ((hinv.group _ hg).mem_pending he)
  have h0 : Replay (xgroupCreate s.group (toLex (startTimestamp, 0))) (step codec s (.start config startTimestamp)).stream
      (xgroupCreate s.group (toLex (startTimestamp, 0))) (.new config) 0 := by
    refine ⟨.inl rfl, fun startId hph => ?_, fun hph => by simp [RedisChangeStream.new] at hph⟩
    obtain rfl : EntryId.zero = startId := by simpa [RedisChangeStream.new] using hph
    rw [hall]
    exact ⟨rfl, rfl, by simp [RedisChangeStream.new]⟩
  obtain ⟨g', c', hg', hc'', h'⟩ := run_replay h0 hinv hg hc' ops hops
  exact ⟨_, g', c', hg, hg', hc'', h'⟩

/-! ## The change stream is sequential -/

/-- **The change stream is sequential.** For every stream and every run of well-formed operations (entries added, steps of
the reader, receives, acknowledgements that succeed or fail, stops and starts with any sizes):
the acknowledged ids are a prefix of the entries after the group's start position, in order;
a running consumer serves the earliest entry that has not been acknowledged;
and a consumer that is started next replays exactly the pending entries before any new one, in a bounded number of steps. -/
theorem change_stream_sequential (codec : Codec T) (stream : Stream) (hstream : ∀ e ∈ stream.entries, WellFormed codec e)
    (ops : List Op) (hops : ∀ op ∈ ops, op.WellFormed codec) :
    (Run.run (step codec) (.init stream) ops).acked <+:
        (Run.run (step codec) (.init stream) ops).afterStart.map (·.id) ∧
      ((Run.run (step codec) (.init stream) ops).consumer.isSome → Serves codec (Run.run (step codec) (.init stream) ops)) ∧
      ((Run.run (step codec) (.init stream) ops).consumer = none → ∀ config startTimestamp more,
        (∀ op ∈ more, op.WellFormed codec ∧ op ≠ .stop) →
          Replays codec (step codec (Run.run (step codec) (.init stream) ops) (.start config startTimestamp)) more) := by
  have h := run_inv codec (.init stream) ops (init_inv codec stream hstream) hops
  refine ⟨?_, fun hc => ?_, fun hc config startTimestamp more hmore => h.replays hc config startTimestamp more hmore⟩
  · cases hg : (Run.run (step codec) (.init stream) ops).group with
    | none => rw [(h.fresh hg).2]; exact List.nil_prefix
    | some g =>
      refine ⟨(Run.run (step codec) (.init stream) ops).abs.waiting.map (·.id), ?_⟩
      rw [← abs_log, Sequential.log, List.map_append, (h.abs hg).1]
  · obtain ⟨c, hc⟩ := Option.isSome_iff_exists.1 hc
    exact h.serves hc

/-- `serde_json` on a single digit -/
def digitCodec : Codec ℕ where
  fromSlice bytes :=
    match bytes.data.toList with
    | [b] => if 48 ≤ b ∧ b ≤ 57 then .ok (b.toNat - 48) else .error "expected value"
    | _ => .error "trailing characters"
  utf8Error _ := ""

/-- an entry with a digit as its data -/
def digitEntry (ms : ℕ) (digit : UInt8) : StreamEntry := ⟨toLex (ms, 0), [("data", .data ⟨#[digit]⟩)]⟩

/-- two entries are added, the first one is received and not acknowledged, and the consumer is stopped: a new one serves it -/
theorem change_stream_sequential_restart :
    (∀ op ∈ [Op.start ⟨1, 1, by decide, by decide⟩ 5, .xadd (digitEntry 6 49), .xadd (digitEntry 7 50), .fetch, .fetch, .recv,
        .stop, .start ⟨2, 3, by decide, by decide⟩ 5], op.WellFormed digitCodec) ∧
    Serves digitCodec (Run.run (step digitCodec) (.init .empty)
      [.start ⟨1, 1, by decide, by decide⟩ 5, .xadd (digitEntry 6 49), .xadd (digitEntry 7 50), .fetch, .fetch, .recv,
        .stop, .start ⟨2, 3, by decide, by decide⟩ 5]) := by
  have hops : ∀ op ∈ [Op.start ⟨1, 1, by decide, by decide⟩ 5, .xadd (digitEntry 6 49), .xadd (digitEntry 7 50), .fetch,
      .fetch, .recv, .stop, .start ⟨2, 3, by decide, by decide⟩ 5], op.WellFormed digitCodec := by
    simp only [List.mem_cons, List.not_mem_nil, or_false, forall_eq_or_imp, forall_eq]
    exact ⟨trivial, ⟨_, rfl⟩, ⟨_, rfl⟩, trivial, trivial, trivial, trivial, trivial⟩
  exact ⟨hops, (change_stream_sequential digitCodec .empty (by simp [Stream.empty]) _ hops).2.1 (by decide)⟩

end DrasiPlatform.ChangeStream
