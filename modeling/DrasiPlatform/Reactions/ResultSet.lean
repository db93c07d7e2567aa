/-
The two clients of the SignalR reaction that keep a result set: `result-set.ts` (React) and `ResultSet.vue` (Vue).

Each keeps the rows of a query in a map under their hash. A live notification inserts, updates or deletes a row, a control
signal may clear the map, and the items of a reload clear it and fill it again. In the Vue client the case of an update
has no `break`: it goes on into the case of a deletion, and deletes the existing key a second time.

- `React.receive_keyed`, `Vue.receive_keyed`: every row is under its hash, so the set of rows determines the map.
- `clients_agree_iff`: along every sequence of messages the clients hold the same rows after each message exactly when
  deletions are ignored or every update moves its row to another key.
Witness: `updated_in_place_is_lost`, an update whose row stays the same takes it away from the Vue client.
-/
import Mathlib.Tactic
import DrasiPlatform.Core.Run
import DrasiPlatform.Reactions.QueryHub

namespace DrasiPlatform.SignalR

open Run

variable {Row : Type}

/-! ## Maps of rows -/

/-- `Map<number, any>` -/
abbrev Data (Row : Type) := ℕ → Option Row

namespace Data

def empty : Data Row := fun _ => none

def set (data : Data Row) (k : ℕ) (row : Row) : Data Row := Function.update data k (some row)

def delete (data : Data Row) (k : ℕ) : Data Row := Function.update data k none

/-- the rows the map holds -/
def rows (data : Data Row) : Set Row := {row | ∃ k, data k = some row}

@[simp] theorem empty_apply (k : ℕ) : (empty : Data Row) k = none := rfl

theorem set_apply (data : Data Row) (k k' : ℕ) (row : Row) :
    data.set k row k' = if k' = k then some row else data k' := Function.update_apply data k (some row) k'

theorem delete_apply (data : Data Row) (k k' : ℕ) : data.delete k k' = if k' = k then none else data k' :=
  Function.update_apply data k none k'

/-- every row is under its hash -/
def Keyed (hash : Row → ℕ) (data : Data Row) : Prop := ∀ k row, data k = some row → k = hash row

variable {hash : Row → ℕ} {data data' : Data Row}

theorem keyed_empty : Keyed hash (empty : Data Row) := fun k row h => by cases h

theorem Keyed.set (h : Keyed hash data) (row : Row) : Keyed hash (data.set (hash row) row) := by
  intro k row' hk
  rw [set_apply] at hk
  split at hk
  · cases hk
    assumption
  · exact h k row' hk

theorem Keyed.delete (h : Keyed hash data) (k : ℕ) : Keyed hash (data.delete k) := by
  intro k' row hk
  rw [delete_apply] at hk
  split at hk
  · cases hk
  · exact h k' row hk

theorem Keyed.mem_rows (h : Keyed hash data) {row : Row} : row ∈ data.rows ↔ data (hash row) = some row := by
  constructor
  · rintro ⟨k, hk⟩
    rwa [← h k row hk]
  · intro hk
    exact ⟨hash row, hk⟩

/-- rows under their hashes determine the map -/
theorem Keyed.rows_eq_iff (h : Keyed hash data) (h' : Keyed hash data') : data.rows = data'.rows ↔ data = data' := by
  refine ⟨fun hrows => ?_, fun heq => heq ▸ rfl⟩
  have hsub : ∀ k row, data k = some row ↔ data' k = some row := by
    intro k row
    constructor
    · intro hk
      have hmem : row ∈ data'.rows := hrows ▸ ⟨k, hk⟩
      rw [h k row hk]
      exact h'.mem_rows.1 hmem
    · intro hk
      have hmem : row ∈ data.rows := hrows ▸ ⟨k, hk⟩
      rw [h' k row hk]
      exact h.mem_rows.1 hmem
  funext k
  exact Option.ext (hsub k)

end Data

/-! ## What the clients receive -/

/-- live notifications, and the items of a reload -/
inductive Message (Row : Type) where
  | change (item : ChangeNotification Row)
  | control (item : ControlSignalNotification)
  | reload (item : Reload Row)

/-- the property settings that `onUpdate` reads -/
structure Props where
  ignoreDeletes : Bool

section Clients

variable (hash : Row → ℕ)

def getExistingKey (item : ChangeNotification Row) : ℕ :=
  match item.op, item.payload.before, item.payload.after with
  | .D, some before, _ => hash before
  | .U, some before, _ => hash before
  | _, _, some after => hash after
  | _, _, none => 0

/-- `if (item.payload.after) data.set(hash(item.payload.after), item.payload.after)` -/
def setAfter (data : Data Row) (after : Option Row) : Data Row :=
  match after with
  | some row => data.set (hash row) row
  | none => data

namespace React

structure State (Row : Type) where
  data : Data Row
  seq : Option Int

def State.start : State Row := ⟨Data.empty, none⟩

/-- `if (item.seq) state.seq = item.seq` -/
def State.withSeq (s : State Row) (seq : Int) : State Row := { s with seq := if seq ≠ 0 then some seq else s.seq }

def onUpdate (props : Props) (s : State Row) (item : ChangeNotification Row) : State Row :=
  let s := s.withSeq item.seq
  match item.op with
  | .I => { s with data := setAfter hash s.data item.payload.after }
  | .U => { s with data := setAfter hash (s.data.delete (getExistingKey hash item)) item.payload.after }
  | .D => if props.ignoreDeletes then s else { s with data := s.data.delete (getExistingKey hash item) }

def onControl (s : State Row) (item : ControlSignalNotification) : State Row :=
  let s := s.withSeq item.seq
  if item.kind = "deleted" then { s with data := Data.empty } else s

def onReload (s : State Row) (item : Reload Row) : State Row :=
  match item with
  | .header seq => { s with data := Data.empty, seq := some seq }
  | .item payload => { s with data := setAfter hash s.data payload.after }

def receive (props : Props) (s : State Row) : Message Row → State Row
  | .change item => onUpdate hash props s item
  | .control item => onControl s item
  | .reload item => onReload hash s item

end React

namespace Vue

structure State (Row : Type) where
  data : Data Row
  seqNum : Int

def State.start : State Row := ⟨Data.empty, 0⟩

/-- `if (item.seq) seqNum.value = item.seq` -/
def State.withSeq (s : State Row) (seq : Int) : State Row := { s with seqNum := if seq ≠ 0 then seq else s.seqNum }

/-- the case of a deletion -/
def deleteCase (props : Props) (s : State Row) (item : ChangeNotification Row) : State Row :=
  if props.ignoreDeletes then s else { s with data := s.data.delete (getExistingKey hash item) }

def onUpdate (props : Props) (s : State Row) (item : ChangeNotification Row) : State Row :=
  let s := s.withSeq item.seq
  match item.op with
  | .I => { s with data := setAfter hash s.data item.payload.after }
  | .U =>
    -- no `break`: the case of an update goes on into the case of a deletion
    let s := { s with data := setAfter hash (s.data.delete (getExistingKey hash item)) item.payload.after }
    deleteCase hash props s item
  | .D => deleteCase hash props s item

def onControl (s : State Row) (item : ControlSignalNotification) : State Row :=
  let s := s.withSeq item.seq
  if item.kind = "deleted" then { s with data := Data.empty } else s

def onReload (s : State Row) (item : Reload Row) : State Row :=
  match item with
  | .header seq => { s with data := Data.empty, seqNum := seq }
  | .item payload => { s with data := setAfter hash s.data payload.after }

def receive (props : Props) (s : State Row) : Message Row → State Row
  | .change item => onUpdate hash props s item
  | .control item => onControl s item
  | .reload item => onReload hash s item

end Vue

end Clients

/-! ## Rows stay under their hashes -/

section Keyed

variable {hash : Row → ℕ} {props : Props}

theorem Data.Keyed.setAfter {data : Data Row} (h : data.Keyed hash) (after : Option Row) :
    (setAfter hash data after).Keyed hash := by
  cases after with
  | none => exact h
  | some row => exact h.set row

theorem React.receive_keyed {s : React.State Row} (h : s.data.Keyed hash) (m : Message Row) :
    (React.receive hash props s m).data.Keyed hash := by
  cases m with
  | change item =>
    simp only [React.receive, React.onUpdate]
    split
    · exact h.setAfter _
    · exact (h.delete _).setAfter _
    · split
      · exact h
      · exact h.delete _
  | control item =>
    simp only [React.receive, React.onControl]
    split
    · exact Data.keyed_empty
    · exact h
  | reload item =>
    cases item with
    | header seq => exact Data.keyed_empty
    | item payload => exact h.setAfter _

theorem Vue.deleteCase_keyed {s : Vue.State Row} (h : s.data.Keyed hash) (item : ChangeNotification Row) :
    (Vue.deleteCase hash props s item).data.Keyed hash := by
  unfold Vue.deleteCase
  split
  · exact h
  · exact h.delete _

theorem Vue.receive_keyed {s : Vue.State Row} (h : s.data.Keyed hash) (m : Message Row) :
    (Vue.receive hash props s m).data.Keyed hash := by
  cases m with
  | change item =>
    simp only [Vue.receive, Vue.onUpdate]
    split
    · exact h.setAfter _
    · exact Vue.deleteCase_keyed ((h.delete _).setAfter _) item
    · exact Vue.deleteCase_keyed (s := s.withSeq item.seq) h item
  | control item =>
    simp only [Vue.receive, Vue.onControl]
    split
    · exact Data.keyed_empty
    · exact h
  | reload item =>
    cases item with
    | header seq => exact Data.keyed_empty
    | item payload => exact h.setAfter _

end Keyed

/-! ## Agreement -/

section Agreement

variable (hash : Row → ℕ) (props : Props)

/-- the two clients of one query, on the same messages -/
structure Clients (Row : Type) where
  react : React.State Row
  vue : Vue.State Row

def Clients.start : Clients Row := ⟨React.State.start, Vue.State.start⟩

def Clients.receive (c : Clients Row) (m : Message Row) : Clients Row :=
  ⟨React.receive hash props c.react m, Vue.receive hash props c.vue m⟩

def Clients.Agree (c : Clients Row) : Prop := c.react.data.rows = c.vue.data.rows

/-- an update that leaves a row under the key that it deletes first -/
def UpdatesInPlace : Message Row → Prop
  | .change item => item.op = .U ∧ ∃ row ∈ item.payload.after, hash row = getExistingKey hash item
  | _ => False

instance (m : Message Row) : Decidable (UpdatesInPlace hash m) := by
  cases m <;> unfold UpdatesInPlace <;> infer_instance

structure Clients.Inv (c : Clients Row) : Prop where
  react : c.react.data.Keyed hash
  vue : c.vue.data.Keyed hash

variable {hash props}

theorem start_keyed : (Clients.start : Clients Row).Inv hash := ⟨Data.keyed_empty, Data.keyed_empty⟩

theorem receive_inv (c : Clients Row) (m : Message Row) (h : c.Inv hash) : (c.receive hash props m).Inv hash :=
  ⟨React.receive_keyed h.react m, Vue.receive_keyed h.vue m⟩

theorem Clients.Inv.agree_iff {c : Clients Row} (h : c.Inv hash) : c.Agree ↔ c.react.data = c.vue.data :=
  h.react.rows_eq_iff h.vue

theorem setAfter_apply_eq_none {data : Data Row} {k : ℕ} (hk : data k = none) (after : Option Row) :
    setAfter hash data after k = none ↔ ¬∃ row ∈ after, hash row = k := by
  cases after with
  | none => simp [setAfter, hk]
  | some row => simp [setAfter, Data.set_apply, hk, eq_comm]

/-- the second deletion of an update takes away nothing exactly when the update is not in place -/
theorem delete_setAfter_eq_iff (data : Data Row) {k : ℕ} {after : Option Row} :
    setAfter hash (data.delete k) after = (setAfter hash (data.delete k) after).delete k ↔
      ¬∃ row ∈ after, hash row = k := by
  have hdel : (data.delete k) k = none := by simp [Data.delete_apply]
  rw [← setAfter_apply_eq_none hdel after]
  constructor
  · intro heq
    rw [heq, Data.delete_apply, if_pos rfl]
  · intro hnone
    exact (Function.update_eq_self_iff.2 hnone.symm).symm

theorem receive_agree {c : Clients Row} (h : c.Inv hash) (ha : c.Agree) (m : Message Row) :
    (c.receive hash props m).Agree ↔ (props.ignoreDeletes = true ∨ ¬UpdatesInPlace hash m) := by
  have hdata : c.react.data = c.vue.data := h.agree_iff.1 ha
  rw [(receive_inv c m h).agree_iff]
  cases m with
  | change item =>
    cases hop : item.op with
    | I => simp [Clients.receive, React.receive, Vue.receive, React.onUpdate, Vue.onUpdate, React.State.withSeq,
        Vue.State.withSeq, hop, hdata, UpdatesInPlace]
    | U =>
      by_cases hi : props.ignoreDeletes = true
      · simp [Clients.receive, React.receive, Vue.receive, React.onUpdate, Vue.onUpdate, React.State.withSeq,
          Vue.State.withSeq, Vue.deleteCase, hop, hdata, hi]
      · have hupdate : UpdatesInPlace hash (.change item) ↔
            ∃ row ∈ item.payload.after, hash row = getExistingKey hash item := by simp [UpdatesInPlace, hop]
        rw [or_iff_right hi, hupdate, ← delete_setAfter_eq_iff c.vue.data]
        simp [Clients.receive, React.receive, Vue.receive, React.onUpdate, Vue.onUpdate, React.State.withSeq,
          Vue.State.withSeq, Vue.deleteCase, hop, hdata, hi]
    | D =>
      by_cases hi : props.ignoreDeletes = true <;>
        simp [Clients.receive, React.receive, Vue.receive, React.onUpdate, Vue.onUpdate, React.State.withSeq,
          Vue.State.withSeq, Vue.deleteCase, hop, hdata, hi, UpdatesInPlace]
  | control item =>
    by_cases hk : item.kind = "deleted" <;>
      simp [Clients.receive, React.receive, Vue.receive, React.onControl, Vue.onControl, React.State.withSeq,
        Vue.State.withSeq, hk, hdata, UpdatesInPlace]
  | reload item =>
    cases item <;> simp [Clients.receive, React.receive, Vue.receive, React.onReload, Vue.onReload, hdata, UpdatesInPlace]

variable (hash props) in
/-- **The clients agree exactly without updates in place.** Along every sequence of messages from empty, the two clients
hold the same rows after each message if and only if deletions are ignored or no update leaves its row under the key that
it deletes first. -/
theorem clients_agree_iff (messages : List (Message Row)) :
    Throughout (Clients.receive hash props) Clients.Agree Clients.start messages ↔
      ∀ m ∈ messages, props.ignoreDeletes = true ∨ ¬UpdatesInPlace hash m := by
  rw [← meets_iff_forall]
  refine throughout_iff_meets (Clients.Inv hash) (fun c m h (_ : True) => receive_inv c m h)
    (fun c m h _ ha => receive_agree h ha m) start_keyed rfl ?_
  exact meets_iff_forall.2 fun _ _ => trivial

/-- a row is inserted, and an update leaves it as it is -/
def touched : List (Message ℕ) :=
  [.change ⟨.I, 1, ⟨none, none, some 7⟩⟩, .change ⟨.U, 2, ⟨none, some 7, some 7⟩⟩]

/-- the React client keeps the row, the Vue client loses it -/
theorem updated_in_place_is_lost :
    ¬Throughout (Clients.receive id ⟨false⟩) Clients.Agree Clients.start touched := by
  intro h
  have hinv : (run (Clients.receive id ⟨false⟩) Clients.start touched).Inv id :=
    run_inv (fun c m => receive_inv c m) _ _ start_keyed
  have hdata := congrFun (hinv.agree_iff.1 h.last) 7
  have hreact : (run (Clients.receive id ⟨false⟩) Clients.start touched).react.data 7 = some 7 := rfl
  have hvue : (run (Clients.receive id ⟨false⟩) Clients.start touched).vue.data 7 = none := rfl
  rw [hreact, hvue] at hdata
  cases hdata

end Agreement

end DrasiPlatform.SignalR
