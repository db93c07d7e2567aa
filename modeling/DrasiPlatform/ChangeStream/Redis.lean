/-
The Redis stream a query reads its changes from, and the decoding of its entries
(`query-container/query-host/src/change_stream/redis_change_stream.rs`).

A stream is a log of entries with strictly increasing ids. The consumer group of a query (its only consumer is `qh`)
remembers the last id it has delivered and the entries delivered and not yet acknowledged (the pending list):
- `xadd` appends, and refuses an id that is not above the top one;
- `xgroupCreate` fails when the group exists, which the code takes as success;
- `xreadNew` (`XREADGROUP >`) delivers the next entries and puts them on the pending list;
- `xreadPending` (`XREADGROUP id`) returns the pending entries above an id, in order, and changes nothing;
- `xack` takes an entry off the pending list. An `XACK` that fails has not been applied.

`serde_json::from_slice` and the debug text of a UTF-8 error are the parameters of `Codec`.
-/
import Mathlib.Tactic
import Mathlib.Data.Prod.Lex

namespace DrasiPlatform.ChangeStream

/-! ## Entries and messages -/

/-- an entry id `ms-seq`, ordered lexicographically -/
abbrev EntryId := ℕ ×ₗ ℕ

/-- the position `0`, below every entry -/
def EntryId.zero : EntryId := toLex (0, 0)

/-- `redis::Value` -/
inductive RedisValue where
  | nil
  | int (n : Int)
  | data (bytes : ByteArray)
  | bulk (values : List RedisValue)
  | status (text : String)
  | okay

/-- `redis::streams::StreamId` -/
structure StreamEntry where
  id : EntryId
  map : List (String × RedisValue)

structure Message (T : Type) where
  id : EntryId
  data : T
  enqueueTime : Option UInt64
  traceState : Option String
  traceParent : Option String

inductive ChangeStreamError where
  | ioError (text : String)
  | messageError (id : EntryId) (error : String)
  | ackOutOfSequence
  | other (text : String)
deriving DecidableEq

/-- what the decoding takes from its libraries -/
structure Codec (T : Type) where
  fromSlice : ByteArray → Except String T
  utf8Error : ByteArray → String

/-- `str::parse::<u64>` -/
def parseU64 (s : String) : Option UInt64 :=
  let digits := match s.toList with
    | '+' :: rest => rest
    | chars => chars
  if digits.isEmpty || !digits.all Char.isDigit then none
  else
    let n := digits.foldl (fun n c => 10 * n + (c.toNat - '0'.toNat)) 0
    if n < 2 ^ 64 then some (UInt64.ofNat n) else none

/-- the digits of a number are read back -/
theorem parseU64_repr {n : ℕ} (hn : n < 2 ^ 64) : parseU64 n.repr = some (UInt64.ofNat n) := by
  have hdigit : ∀ c ∈ Nat.toDigits 10 n, c.isDigit := fun c hc => Nat.isDigit_of_mem_toDigits (by decide) (by decide) hc
  have hfold : (Nat.toDigits 10 n).foldl (fun n c => 10 * n + (c.toNat - '0'.toNat)) 0 = n :=
    Nat.ofDigitChars_ten_toDigits
  have hempty : (Nat.toDigits 10 n).isEmpty = false := by simp [Nat.toDigits_ne_nil]
  have hall : (Nat.toDigits 10 n).all Char.isDigit = true := List.all_eq_true.2 hdigit
  have hdigits : ∀ {digits : List Char}, digits = Nat.toDigits 10 n →
      (if digits.isEmpty || !digits.all Char.isDigit then none
        else
          let n := digits.foldl (fun n c => 10 * n + (c.toNat - '0'.toNat)) 0
          if n < 2 ^ 64 then some (UInt64.ofNat n) else none) = some (UInt64.ofNat n) := by
    rintro _ rfl
    simp only [hempty, hall, hfold, hn, Bool.not_true, Bool.or_false, Bool.false_eq_true, if_false, if_true]
  unfold parseU64
  refine hdigits ?_
  rw [Nat.toList_repr]
  split
  · rename_i rest heq
    exact absurd (hdigit '+' (by rw [heq]; exact List.mem_cons_self)) (by decide)
  · rfl

section Deserialize

variable {T : Type} (codec : Codec T) (message : StreamEntry)

def deserializeData : Except ChangeStreamError T :=
  match message.map.lookup "data" with
  | some (.data bytes) => (codec.fromSlice bytes).mapError fun err =>
      .messageError message.id ("Failed to deserialize data: " ++ err)
  | some _ => .error (.messageError message.id "Invalid data type")
  | none => .error (.messageError message.id "Missing data")

/-- a trace header: bytes that are not UTF-8 are dropped, another type is an error -/
def deserializeTrace (field : String) : Except ChangeStreamError (Option String) :=
  match message.map.lookup field with
  | some (.data bytes) => .ok (String.fromUTF8? bytes)
  | some _ => .error (.messageError message.id ("Invalid " ++ field ++ " type"))
  | none => .ok none

/-- the enqueue time: here it is the other type that is dropped, and the bytes that are an error -/
def deserializeEnqueueTime : Except ChangeStreamError (Option UInt64) :=
  match message.map.lookup "enqueue_time" with
  | some (.data bytes) =>
    match String.fromUTF8? bytes with
    | some text =>
      match parseU64 text with
      | some parsed => .ok (some parsed)
      | none => .error (.messageError message.id "Failed to parse enqueue_time")
    | none => .error (.messageError message.id ("Failed to deserialize enqueue_time: " ++ codec.utf8Error bytes))
  | some _ => .ok none
  | none => .ok none

def deserializeMessage : Except ChangeStreamError (Message T) := do
  let data ← deserializeData codec message
  let traceState ← deserializeTrace message "tracestate"
  let traceParent ← deserializeTrace message "traceparent"
  let enqueueTime ← deserializeEnqueueTime codec message
  return { id := message.id, data, enqueueTime, traceState, traceParent }

/-- an entry that decodes -/
def WellFormed : Prop := ∃ m, deserializeMessage codec message = .ok m

end Deserialize

/-- a decoded message carries the id of its entry -/
theorem id_of_deserializeMessage {T : Type} {codec : Codec T} {e : StreamEntry} {m : Message T}
    (h : deserializeMessage codec e = .ok m) : m.id = e.id := by
  unfold deserializeMessage at h
  cases hd : deserializeData codec e with
  | error err => simp [hd, bind, Except.bind] at h
  | ok data =>
    cases hs : deserializeTrace e "tracestate" with
    | error err => simp [hd, hs, bind, Except.bind] at h
    | ok traceState =>
      cases hp : deserializeTrace e "traceparent" with
      | error err => simp [hd, hs, hp, bind, Except.bind] at h
      | ok traceParent =>
        cases ht : deserializeEnqueueTime codec e with
        | error err => simp [hd, hs, hp, ht, bind, Except.bind] at h
        | ok enqueueTime =>
          simp only [hd, hs, hp, ht, bind, Except.bind, pure, Except.pure, Except.ok.injEq] at h
          rw [← h]

/-! ## Streams -/

/-- a stream: its entries, with increasing ids above `0` -/
structure Stream where
  entries : List StreamEntry
  sorted : entries.Pairwise fun a b => a.id < b.id
  positive : ∀ e ∈ entries, EntryId.zero < e.id

/-- the consumer group of a query; `start` is the position it was created at -/
structure Group where
  start : EntryId
  lastDelivered : EntryId
  pending : List StreamEntry

def Stream.empty : Stream := ⟨[], .nil, by simp⟩

/-- the id of the top entry -/
def Stream.topId (s : Stream) : EntryId := (s.entries.getLast?.map (·.id)).getD .zero

theorem Stream.le_topId (s : Stream) {e : StreamEntry} (he : e ∈ s.entries) : e.id ≤ s.topId := by
  have hs := s.sorted
  unfold Stream.topId
  rcases List.eq_nil_or_concat s.entries with hl | ⟨l, t, hl⟩
  · simp [hl] at he
  · rw [List.concat_eq_append] at hl
    rw [hl] at he hs ⊢
    simp only [List.getLast?_concat, Option.map_some, Option.getD_some]
    rcases List.mem_append.1 he with he | he
    · exact ((List.pairwise_append.1 hs).2.2 e he t List.mem_cons_self).le
    · rw [List.mem_singleton.1 he]

theorem Stream.zero_le_topId (s : Stream) : EntryId.zero ≤ s.topId := by
  unfold Stream.topId
  cases hl : s.entries.getLast? with
  | none => exact le_refl _
  | some t => exact (s.positive t (List.mem_of_getLast? hl)).le

/-- `XADD` with an id above the top one -/
def Stream.push (s : Stream) (e : StreamEntry) (h : s.topId < e.id) : Stream where
  entries := s.entries ++ [e]
  sorted := by
    refine List.pairwise_append.2 ⟨s.sorted, List.pairwise_singleton _ _, fun a ha b hb => ?_⟩
    rw [List.mem_singleton.1 hb]
    exact (s.le_topId ha).trans_lt h
  positive := by
    intro a ha
    rcases List.mem_append.1 ha with ha | ha
    · exact s.positive a ha
    · rw [List.mem_singleton.1 ha]; exact s.zero_le_topId.trans_lt h

def Stream.xadd (s : Stream) (e : StreamEntry) : Stream := if h : s.topId < e.id then s.push e h else s

/-- the entries above a position -/
def above (pos : EntryId) (l : List StreamEntry) : List StreamEntry := l.filter fun e => pos < e.id

/-- the id of the last entry of a batch -/
def lastId (pos : EntryId) (batch : List StreamEntry) : EntryId := (batch.getLast?.map (·.id)).getD pos

/-- `XGROUP CREATE .. MKSTREAM`: an existing group stays as it is -/
def xgroupCreate (group : Option Group) (pos : EntryId) : Group := group.getD ⟨pos, pos, []⟩

/-- `XREADGROUP` with an id -/
def Group.xreadPending (g : Group) (startId : EntryId) (count : ℕ) : List StreamEntry :=
  (above startId g.pending).take count

/-- `XREADGROUP` with `>` -/
def Group.xreadNew (g : Group) (s : Stream) (count : ℕ) : List StreamEntry × Group :=
  let batch := (above g.lastDelivered s.entries).take count
  (batch, { g with lastDelivered := lastId g.lastDelivered batch, pending := g.pending ++ batch })

/-- `XACK` -/
def Group.xack (g : Group) (id : EntryId) : Group := { g with pending := g.pending.filter fun e => e.id ≠ id }

/-! ### Positions in sorted lists -/

theorem mem_above {pos : EntryId} {l : List StreamEntry} {e : StreamEntry} : e ∈ above pos l ↔ e ∈ l ∧ pos < e.id := by
  simp [above]

theorem above_append (pos : EntryId) (l l' : List StreamEntry) : above pos (l ++ l') = above pos l ++ above pos l' :=
  List.filter_append ..

theorem above_eq_self {pos : EntryId} {l : List StreamEntry} (h : ∀ e ∈ l, pos < e.id) : above pos l = l :=
  List.filter_eq_self.2 fun e he => by simpa using h e he

/-- a batch read above a position, with the position moved to its last entry: what is above it now is the rest -/
theorem above_lastId {pos : EntryId} {l : List StreamEntry} (hs : l.Pairwise fun a b => a.id < b.id) (n : ℕ) :
    above (lastId pos ((above pos l).take n)) l = (above pos l).drop n := by
  rcases List.eq_nil_or_concat ((above pos l).take n) with hb | ⟨b, t, hb⟩
  · have hnil : (above pos l).drop n = above pos l := by
      conv_rhs => rw [← List.take_append_drop n (above pos l), hb, List.nil_append]
    rw [hnil, hb]
    rfl
  · rw [List.concat_eq_append] at hb
    have hlast : lastId pos (b ++ [t]) = t.id := by simp [lastId]
    have hsplit : above pos l = b ++ t :: (above pos l).drop n := by
      conv_lhs => rw [← List.take_append_drop n (above pos l), hb, List.append_assoc, List.singleton_append]
    have ht : pos < t.id := (mem_above.1 (hsplit ▸ List.mem_append_right b List.mem_cons_self)).2
    -- what is above `t` is above `pos`, and in the sorted rest nothing up to `t` is above it
    have hmove : above t.id l = above t.id (above pos l) := by
      simp only [above, List.filter_filter]
      exact List.filter_congr fun e _ => by simpa using fun h => ht.trans h
    have hsort : (b ++ t :: (above pos l).drop n).Pairwise fun a b => a.id < b.id := hsplit ▸ hs.filter _
    obtain ⟨-, hrest, hbefore⟩ := List.pairwise_append.1 hsort
    have hdrop : above t.id (b ++ [t]) = [] := by
      refine List.filter_eq_nil_iff.2 fun e he => ?_
      rw [decide_eq_true_eq, not_lt]
      rcases List.mem_append.1 he with he | he
      · exact (hbefore e he t List.mem_cons_self).le
      · rw [List.mem_singleton.1 he]
    have hkeep : above t.id ((above pos l).drop n) = (above pos l).drop n :=
      above_eq_self (List.pairwise_cons.1 hrest).1
    rw [hb, hlast, hmove]
    conv_lhs => rw [← List.take_append_drop n (above pos l), hb, above_append, hdrop, hkeep, List.nil_append]

end DrasiPlatform.ChangeStream
