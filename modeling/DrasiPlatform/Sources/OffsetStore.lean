/-
The offsets of the relational reactivator across restarts (`OffsetBackingStore.java`). A start compares the `INSTANCE_ID` of
the process with the one in the state store, clears the offsets where they differ, and loads what is there; Kafka's
`set` puts offsets into the map and saves the whole of it.

The state store answers a copy of its own for every `get`, so that an array is told by its reference as well as by its bytes.
Java's object streams are parameters (`Serialization`). Keys and values of the map are whole byte arrays or null.

The comparison of the two ids is a parameter of the model: `equals` is what the code calls, which compares references.

- `start_equals`: the code clears the offsets at every start.
- `starts_load_saved_iff`: every start of a run loads what was saved under its id exactly when no start under the id of the
  one before it finds any offsets saved.
- `starts_load_saved_of_contentEquals`: with the bytes compared instead, every start of every run does.
Witness `restart_loses_offsets`.
-/
import Mathlib.Tactic
import Mathlib.Data.Finmap
import DrasiPlatform.Core.Run

namespace DrasiPlatform.OffsetStore

open Run

/-! ## Arrays and maps -/

abbrev Bytes := List UInt8

/-- a `byte[]`: the object and its contents -/
structure JavaArray where
  reference : ℕ
  bytes : Bytes
deriving DecidableEq

/-- `equals` of an array, which is that of `Object` -/
def JavaArray.equals (a b : JavaArray) : Bool := a.reference == b.reference

/-- `Arrays.equals` -/
def JavaArray.contentEquals (a b : JavaArray) : Bool := a.bytes == b.bytes

/-- the offsets that the connector has for its partitions -/
abbrev Offsets := Finmap fun _ : Option Bytes => Option Bytes

inductive ConnectException where
  | notAHashMap
  | cause (message : String)
deriving DecidableEq

/-- `ObjectOutputStream` and `SafeObjectInputStream`, for the map -/
structure Serialization where
  writeObject : Offsets → Bytes
  readObject : Bytes → Except ConnectException Offsets

/-- a map that is written is read back; a stream has a header, even that of an empty map -/
structure Serialization.RoundTrips (ser : Serialization) : Prop where
  header : ∀ raw, ser.writeObject raw ≠ []
  read_write : ∀ raw, ser.readObject (ser.writeObject raw) = .ok raw

/-! ## The backing store -/

/-- the state store and the process; `error` is the exception that the last start threw -/
structure State where
  store : String → Option Bytes
  data : Offsets
  error : Option ConnectException
  fresh : ℕ

namespace State

/-- `stateStore.get(key)`, an array of its own -/
def get (s : State) (key : String) : Option JavaArray × State :=
  ((s.store key).map fun bytes => ⟨s.fresh, bytes⟩, { s with fresh := s.fresh + 1 })

def put (key : String) (value : Bytes) (s : State) : State := { s with store := Function.update s.store key (some value) }

def delete (key : String) (s : State) : State := { s with store := Function.update s.store key none }

end State

section Code

variable (same : JavaArray → JavaArray → Bool) (ser : Serialization)

def load (s : State) : State :=
  let (resp, s) := { s with data := ∅, error := none }.get "offset"
  match resp with
  | none => s
  | some resp =>
    if resp.bytes.length = 0 then s
    else match ser.readObject resp.bytes with
      -- a ByteBuffer wraps the array that was read
      | .ok raw => { s with data := raw }
      | .error e => { s with error := some e }

def save (s : State) : State := s.put "offset" (ser.writeObject s.data)

def start (envInstanceId : Bytes) (s : State) : State :=
  let instanceId : JavaArray := ⟨s.fresh, envInstanceId⟩
  let (resp, s) := { s with fresh := s.fresh + 1 }.get "instance_id"
  let matched := match resp with
    | none => false
    | some resp => same resp instanceId
  load ser (if matched then s else (s.delete "offset").put "instance_id" instanceId.bytes)

/-- `MemoryOffsetBackingStore.set`, which puts the values and saves -/
def set (values : Offsets) (s : State) : State := save ser { s with data := values ∪ s.data }

end Code

/-! ## What the offsets are kept for -/

/-- the id of the last start, and the offsets last saved under it -/
structure Kept where
  id : Option Bytes
  offsets : Offsets

/-- what a start under the id should load -/
def Kept.under (k : Kept) (id : Bytes) : Offsets := if k.id = some id then k.offsets else ∅

structure Instance where
  state : State
  kept : Kept

inductive Op where
  | start (instanceId : Bytes)
  | set (values : Offsets)

/-- a start is a restart of the process as well: nothing but the state store is left of it -/
def step (same : JavaArray → JavaArray → Bool) (ser : Serialization) (s : Instance) : Op → Instance
  | .start id => ⟨start same ser id s.state, ⟨some id, s.kept.under id⟩⟩
  | .set values =>
    let state := set ser values s.state
    ⟨state, { s.kept with offsets := state.data }⟩

/-- a start loads what was saved under its id -/
def LoadsSaved (same : JavaArray → JavaArray → Bool) (ser : Serialization) (s : Instance) : Op → Prop
  | .start id =>
    let loaded := (step same ser s (.start id)).state
    loaded.error = none ∧ loaded.data = s.kept.under id
  | .set _ => True

/-- a start under the id of the one before it finds no offsets saved -/
def NothingSaved (s : Instance) : Op → Prop
  | .start id => s.kept.id = some id → s.kept.offsets = ∅
  | .set _ => True

section Start

variable {ser : Serialization}

variable (ser) in
/-- without offsets in the store, the empty map is loaded -/
theorem load_of_none {s : State} (h : s.store "offset" = none) :
    (load ser s).data = ∅ ∧ (load ser s).error = none ∧ (load ser s).store = s.store := by
  simp [load, State.get, h]

variable (ser) in
/-- **The code** finds two arrays different, whatever is in them, and clears the offsets. -/
theorem start_equals (id : Bytes) (s : State) :
    (start JavaArray.equals ser id s).data = ∅ ∧ (start JavaArray.equals ser id s).error = none := by
  have hmatched : ∀ bytes, JavaArray.equals ⟨s.fresh + 1, bytes⟩ ⟨s.fresh, id⟩ = false := fun bytes => by
    simp [JavaArray.equals]
  have hcleared : start JavaArray.equals ser id s =
      load ser ((({ s with fresh := s.fresh + 2 } : State).delete "offset").put "instance_id" id) := by
    unfold start State.get
    cases s.store "instance_id" <;> simp [hmatched]
  rw [hcleared]
  have hnone : ((({ s with fresh := s.fresh + 2 } : State).delete "offset").put "instance_id" id).store "offset" = none := by
    simp [State.put, State.delete, Function.update]
  obtain ⟨hdata, herror, -⟩ := load_of_none ser hnone
  exact ⟨hdata, herror⟩

/-- **Restarts.** In every run, every start loads what was saved under its id exactly when no start under the id of the one
before it finds any offsets saved. -/
theorem starts_load_saved_iff (ser : Serialization) (s : Instance) (ops : List Op) :
    Meets (step JavaArray.equals ser) (LoadsSaved JavaArray.equals ser) s ops ↔
      Meets (step JavaArray.equals ser) NothingSaved s ops := by
  refine meets_congr (fun _ => True) (fun s o _ => ?_) (fun _ _ _ _ => trivial) trivial ops
  cases o with
  | set values => exact Iff.rfl
  | start id =>
    obtain ⟨hdata, herror⟩ := start_equals ser id s.state
    have hloads : LoadsSaved JavaArray.equals ser s (.start id) ↔ ∅ = s.kept.under id := by
      show _ ∧ _ ↔ _
      rw [show (step JavaArray.equals ser s (.start id)).state = start JavaArray.equals ser id s.state from rfl, hdata]
      exact and_iff_right herror
    rw [hloads, Kept.under]
    refine ⟨fun h hid => ?_, ?_⟩
    · rw [if_pos hid] at h
      exact h.symm
    · intro h
      split
      · rename_i hid
        exact (h hid).symm
      · rfl

end Start

/-- the state store and no process yet -/
def fresh : Instance := ⟨⟨fun _ => none, ∅, none, 0⟩, ⟨none, ∅⟩⟩

def savedOffsets : Offsets := Finmap.singleton (some [1]) (some [2])

/-- an offset is saved, and the process is restarted under the id it had -/
def savedRestart : List Op := [.start [97], .set savedOffsets, .start [97]]

/-- however the offsets are serialised, they are lost -/
theorem savedRestart_not_loaded (ser : Serialization) :
    ¬Meets (step JavaArray.equals ser) (LoadsSaved JavaArray.equals ser) fresh savedRestart := by
  rintro ⟨-, -, ⟨-, hloaded⟩, -⟩
  have hdata : ∀ id s, (start JavaArray.equals ser id s).data = ∅ := fun id s => (start_equals ser id s).1
  have hkey := congrArg (fun m : Offsets => m.lookup (some [1])) hloaded
  simp only [step, set, save, State.put, Kept.under, hdata, if_true, Finmap.lookup_empty] at hkey
  rw [savedOffsets, Finmap.lookup_union_left (Finmap.mem_singleton _ _ _ |>.2 rfl), Finmap.lookup_singleton_eq] at hkey
  cases hkey

/-- object streams for the two maps of the run, each in one byte -/
def oneByte : Serialization where
  writeObject raw := if raw = savedOffsets then [1] else [0]
  readObject bytes := .ok (if bytes = [1] then savedOffsets else ∅)

/-- **A restart** of the same instance loses the offsets it saved. -/
theorem restart_loses_offsets :
    oneByte.readObject (oneByte.writeObject savedOffsets) = .ok savedOffsets ∧
      ¬Meets (step JavaArray.equals oneByte) (LoadsSaved JavaArray.equals oneByte) fresh savedRestart := by
  refine ⟨?_, savedRestart_not_loaded oneByte⟩
  simp only [oneByte, if_true]

/-! ## The bytes compared -/

/-- the state store has the id of the last start and the offsets that were saved under it -/
structure Holds (ser : Serialization) (s : Instance) : Prop where
  id : s.state.store "instance_id" = s.kept.id
  offsets : s.state.store "offset" = none ∧ s.kept.offsets = ∅ ∨
    s.state.store "offset" = some (ser.writeObject s.kept.offsets)

section Compared

variable {ser : Serialization}

theorem load_of_written (hser : ser.RoundTrips) {s : State} {offsets : Offsets}
    (h : s.store "offset" = some (ser.writeObject offsets)) :
    (load ser s).data = offsets ∧ (load ser s).error = none ∧ (load ser s).store = s.store := by
  simp [load, State.get, h, hser.header, hser.read_write]

variable (ser) in
/-- a start under another id clears the offsets, one under the same id leaves the store as it is -/
theorem start_contentEquals (id : Bytes) (s : State) :
    (s.store "instance_id" ≠ some id ∧ ∃ cleared : State, start JavaArray.contentEquals ser id s = load ser cleared ∧
        cleared.store "offset" = none ∧ cleared.store "instance_id" = some id) ∨
      s.store "instance_id" = some id ∧ ∃ same : State, start JavaArray.contentEquals ser id s = load ser same ∧
        same.store = s.store := by
  cases hid : s.store "instance_id" with
  | none =>
    refine Or.inl ⟨by simp, (({ s with fresh := s.fresh + 2 } : State).delete "offset").put "instance_id" id, ?_, ?_, ?_⟩
    · simp [start, State.get, hid]
    · simp [State.put, State.delete, Function.update]
    · simp [State.put]
  | some stored =>
    by_cases hsame : stored = id
    · subst hsame
      exact Or.inr ⟨rfl, { s with fresh := s.fresh + 2 }, by simp [start, State.get, hid, JavaArray.contentEquals], rfl⟩
    · refine Or.inl ⟨by simpa using hsame,
        (({ s with fresh := s.fresh + 2 } : State).delete "offset").put "instance_id" id, ?_, ?_, ?_⟩
      · simp [start, State.get, hid, JavaArray.contentEquals, hsame]
      · simp [State.put, State.delete, Function.update]
      · simp [State.put]

theorem step_holds (hser : ser.RoundTrips) (s : Instance) (o : Op) (h : Holds ser s) :
    Holds ser (step JavaArray.contentEquals ser s o) ∧ LoadsSaved JavaArray.contentEquals ser s o := by
  cases o with
  | set values =>
    refine ⟨⟨?_, Or.inr ?_⟩, trivial⟩
    · simpa [step, set, save, State.put, Function.update] using h.id
    · simp [step, set, save, State.put]
  | start id =>
    rcases start_contentEquals ser id s.state with ⟨hother, cleared, hstart, hnone, hid⟩ | ⟨hsame, same, hstart, hstore⟩
    · obtain ⟨hdata, herror, hkeep⟩ := load_of_none ser hnone
      have hunder : s.kept.under id = ∅ := if_neg fun heq => hother (h.id.trans heq)
      refine ⟨⟨?_, Or.inl ⟨?_, hunder⟩⟩, ?_, ?_⟩
      · simp [step, hstart, hkeep, hid]
      · simp [step, hstart, hkeep, hnone]
      · simp [step, hstart, herror]
      · simp [step, hstart, hdata, hunder]
    · have hunder : s.kept.under id = s.kept.offsets := if_pos (h.id.symm.trans hsame)
      have hloaded : (load ser same).data = s.kept.offsets ∧ (load ser same).error = none ∧
          (load ser same).store = same.store := by
        rcases h.offsets with ⟨hnone, hempty⟩ | hwritten
        · rw [hempty]
          exact load_of_none ser (hstore ▸ hnone)
        · exact load_of_written hser (hstore ▸ hwritten)
      obtain ⟨hdata, herror, hkeep⟩ := hloaded
      refine ⟨⟨?_, ?_⟩, ?_, ?_⟩
      · simp [step, hstart, hkeep, hstore, hsame]
      · simpa [step, hstart, hkeep, hstore, hunder] using h.offsets
      · simp [step, hstart, herror]
      · simp [step, hstart, hdata, hunder]

theorem fresh_holds : Holds ser fresh := ⟨rfl, Or.inl ⟨rfl, rfl⟩⟩

/-- **With the bytes compared**, every start of every run loads what was saved under its id. -/
theorem starts_load_saved_of_contentEquals (hser : ser.RoundTrips) (ops : List Op) :
    Meets (step JavaArray.contentEquals ser) (LoadsSaved JavaArray.contentEquals ser) fresh ops := by
  have hall : Meets (step JavaArray.contentEquals ser) (fun _ _ => True) fresh ops := meets_iff_forall.2 fun _ _ => trivial
  have hstep : ∀ s o, Holds ser s → True →
      Holds ser (step JavaArray.contentEquals ser s o) ∧ LoadsSaved JavaArray.contentEquals ser s o :=
    fun s o h _ => step_holds hser s o h
  exact hall.imp hstep fresh_holds

end Compared

end DrasiPlatform.OffsetStore
