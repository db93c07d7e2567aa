/-
The server side of the SignalR reaction: `Format` in `ChangeFormatter.cs`, the groups of `QueryHub.cs`, and the broadcasts
of `ChangeHandler.cs` and `ControlSignalHandler.cs`.

A connection that has subscribed to nothing is to get the notifications of every query, through a default group; one that
has subscribed to queries gets theirs, through the groups named after them. `Subscribe` takes the connection out of the
default group and `Unsubscribe` puts it back, whatever else the connection is subscribed to.

- `received_broadcast`: what a connection gets of a broadcast follows from its membership of two groups.
- `deliversOnce_iff`: every notification arrives once wherever it is wanted exactly when the default group holds the
  connections without subscription.
- `delivery_iff_last_unsubscribe`: along every run, both hold in every state exactly when every `Unsubscribe` takes away
  the last subscription of its connection.
Witness: `remaining_subscription_twice`, a connection subscribed to two queries that leaves one of them gets every
notification of the other one twice.
-/
import Mathlib.Tactic
import DrasiPlatform.Core.Run

namespace DrasiPlatform.SignalR

open Run

/-! ## Notifications (`ChangeFormatter.cs`) -/

section Formatter

variable {Row : Type}

structure UpdatedResultElement (Row : Type) where
  before : Option Row
  after : Option Row

structure ChangeEvent (Row : Type) where
  queryId : String
  sequence : Int
  sourceTimeMs : Int
  addedResults : List Row
  updatedResults : List (UpdatedResultElement Row)
  deletedResults : List Row

inductive ControlSignalKind where
  | bootstrapCompleted
  | bootstrapStarted
  | deleted
  | running
  | stopped
deriving DecidableEq, Repr

/-- the text the enumeration is serialized as -/
def ControlSignalKind.text : ControlSignalKind → String
  | bootstrapCompleted => "bootstrapCompleted"
  | bootstrapStarted => "bootstrapStarted"
  | deleted => "deleted"
  | running => "running"
  | stopped => "stopped"

structure ControlEvent where
  queryId : String
  sequence : Int
  sourceTimeMs : Int
  controlSignal : ControlSignalKind

/-- an item of the result view: a header, or the data of a row -/
structure ViewItem (Row : Type) where
  header : Option Int
  data : Option Row

structure SourceClass where
  queryId : String
  tsMs : Int
deriving DecidableEq, Repr

structure PayloadClass (Row : Type) where
  source : Option SourceClass
  before : Option Row
  after : Option Row
deriving DecidableEq, Repr

inductive ChangeNotificationOp where
  | I
  | U
  | D
deriving DecidableEq, Repr

structure ChangeNotification (Row : Type) where
  op : ChangeNotificationOp
  seq : Int
  payload : PayloadClass Row
deriving DecidableEq, Repr

structure ControlSignalNotification where
  seq : Int
  kind : String
  source : SourceClass
deriving DecidableEq, Repr

inductive Reload (Row : Type) where
  | header (seq : Int)
  | item (payload : PayloadClass Row)
deriving DecidableEq, Repr

/-- a notification of the event, with the rows of one of its results -/
def ChangeEvent.notification (evt : ChangeEvent Row) (op : ChangeNotificationOp) (before after : Option Row) :
    ChangeNotification Row where
  op := op
  seq := evt.sequence
  payload := ⟨some ⟨evt.queryId, evt.sourceTimeMs⟩, before, after⟩

/-- `Format` of a change event: what was added, then what was updated, then what was deleted -/
def format (evt : ChangeEvent Row) : List (ChangeNotification Row) :=
  evt.addedResults.map (fun inputItem => evt.notification .I none (some inputItem)) ++
    evt.updatedResults.map (fun inputItem => evt.notification .U inputItem.before inputItem.after) ++
    evt.deletedResults.map (fun inputItem => evt.notification .D (some inputItem) none)

/-- `Format` of a control event -/
def formatControl (evt : ControlEvent) : ControlSignalNotification where
  seq := evt.sequence
  kind := evt.controlSignal.text
  source := ⟨evt.queryId, evt.sourceTimeMs⟩

/-- `Format` of an item of the view -/
def formatView (item : ViewItem Row) : Reload Row :=
  match item.header with
  | some sequence => .header sequence
  | none => .item ⟨none, none, item.data⟩

end Formatter

/-! ## Groups and broadcasts (`QueryHub.cs`, `ChangeHandler.cs`) -/

section Hub

variable {Conn : Type} [DecidableEq Conn] {Row N : Type}

def DefaultGroupName : String := "_noGroupSubscription_"

/-- the connections of each group -/
abbrev Groups (Conn : Type) := String → Finset Conn

def addToGroup (groups : Groups Conn) (c : Conn) (groupName : String) : Groups Conn :=
  Function.update groups groupName (insert c (groups groupName))

def removeFromGroup (groups : Groups Conn) (c : Conn) (groupName : String) : Groups Conn :=
  Function.update groups groupName ((groups groupName).erase c)

def onConnectedAsync (groups : Groups Conn) (c : Conn) : Groups Conn :=
  addToGroup groups c DefaultGroupName

def subscribe (groups : Groups Conn) (c : Conn) (groupName : String) : Groups Conn :=
  addToGroup (removeFromGroup groups c DefaultGroupName) c groupName

def unsubscribe (groups : Groups Conn) (c : Conn) (groupName : String) : Groups Conn :=
  removeFromGroup (addToGroup groups c DefaultGroupName) c groupName

/-- a call of `SendAsync` on a group -/
structure Send (N : Type) where
  group : String
  method : String
  arg : N

/-- each result goes to the default group and to the group of the query -/
def broadcast (queryId : String) (results : List N) : List (Send N) :=
  results.flatMap fun result => [⟨DefaultGroupName, queryId, result⟩, ⟨queryId, queryId, result⟩]

def handleChange (evt : ChangeEvent Row) : List (Send (ChangeNotification Row)) := broadcast evt.queryId (format evt)

def handleControlSignal (evt : ControlEvent) : List (Send ControlSignalNotification) :=
  broadcast evt.queryId [formatControl evt]

/-- what the connection gets: each send to a group it is a member of, once -/
def received (groups : Groups Conn) (c : Conn) (sends : List (Send N)) : List (String × N) :=
  (sends.filter fun s => c ∈ groups s.group).map fun s => (s.method, s.arg)

@[simp] theorem mem_addToGroup {groups : Groups Conn} {c c' : Conn} {g g' : String} :
    c' ∈ addToGroup groups c g g' ↔ c' ∈ groups g' ∨ (c' = c ∧ g' = g) := by
  by_cases hg : g' = g
  · subst hg
    simp [addToGroup, or_comm]
  · simp [addToGroup, hg]

@[simp] theorem mem_removeFromGroup {groups : Groups Conn} {c c' : Conn} {g g' : String} :
    c' ∈ removeFromGroup groups c g g' ↔ c' ∈ groups g' ∧ ¬(c' = c ∧ g' = g) := by
  by_cases hg : g' = g
  · subst hg
    simp [removeFromGroup, and_comm]
  · simp [removeFromGroup, hg]

/-- a result reaches a connection once through each of the two groups it is a member of -/
theorem received_broadcast (groups : Groups Conn) (c : Conn) (queryId : String) (results : List N) :
    received groups c (broadcast queryId results) = results.flatMap fun result =>
      (if c ∈ groups DefaultGroupName then [(queryId, result)] else []) ++
        (if c ∈ groups queryId then [(queryId, result)] else []) := by
  induction results with
  | nil => rfl
  | cons result results ih =>
    have hcons : received groups c (broadcast queryId (result :: results)) =
        received groups c [⟨DefaultGroupName, queryId, result⟩, ⟨queryId, queryId, result⟩] ++
          received groups c (broadcast queryId results) := by
      rw [received, broadcast, List.flatMap_cons, List.filter_append, List.map_append]
      rfl
    rw [hcons, ih, List.flatMap_cons]
    by_cases hd : c ∈ groups DefaultGroupName <;> by_cases hq : c ∈ groups queryId <;> simp [received, hd, hq]

end Hub

/-! ## Calls of the connections -/

section Session

variable {Conn : Type} [DecidableEq Conn] {Row : Type}

inductive HubCall (Conn : Type) where
  | onConnectedAsync (c : Conn)
  | subscribe (c : Conn) (groupName : String)
  | unsubscribe (c : Conn) (groupName : String)
deriving DecidableEq

/-- the groups, and beside them what the connections have asked for -/
structure Session (Conn : Type) where
  groups : Groups Conn
  connected : Finset Conn
  subscriptions : Conn → Finset String

def Session.start : Session Conn := ⟨fun _ => ∅, ∅, fun _ => ∅⟩

def Session.step (s : Session Conn) : HubCall Conn → Session Conn
  | .onConnectedAsync c => { s with groups := onConnectedAsync s.groups c, connected := insert c s.connected }
  | .subscribe c g =>
    { s with
      groups := SignalR.subscribe s.groups c g
      subscriptions := Function.update s.subscriptions c (insert g (s.subscriptions c)) }
  | .unsubscribe c g =>
    { s with
      groups := SignalR.unsubscribe s.groups c g
      subscriptions := Function.update s.subscriptions c ((s.subscriptions c).erase g) }

/-- a connection connects once, calls after that, and names queries -/
def Session.legal (s : Session Conn) : HubCall Conn → Prop
  | .onConnectedAsync c => c ∉ s.connected
  | .subscribe c g => c ∈ s.connected ∧ g ≠ DefaultGroupName
  | .unsubscribe c g => c ∈ s.connected ∧ g ≠ DefaultGroupName

instance (s : Session Conn) (o : HubCall Conn) : Decidable (s.legal o) := by
  cases o <;> unfold Session.legal <;> infer_instance

/-- the notifications of the query are meant for the connection -/
def Session.Wants (s : Session Conn) (c : Conn) (queryId : String) : Prop :=
  c ∈ s.connected ∧ (queryId ∈ s.subscriptions c ∨ s.subscriptions c = ∅)

instance (s : Session Conn) (c : Conn) (queryId : String) : Decidable (s.Wants c queryId) :=
  inferInstanceAs (Decidable (_ ∧ _))

/-- the default group holds the connections without subscription -/
def Session.DefaultIffNone (s : Session Conn) : Prop :=
  ∀ c ∈ s.connected, c ∈ s.groups DefaultGroupName ↔ s.subscriptions c = ∅

variable (Row) in
/-- each notification of a query reaches once every connection it is meant for, and no other -/
def Session.DeliversOnce (s : Session Conn) : Prop :=
  ∀ evt : ChangeEvent Row, evt.queryId ≠ DefaultGroupName → ∀ c,
    received s.groups c (handleChange evt) =
      if s.Wants c evt.queryId then (format evt).map fun result => (evt.queryId, result) else []

/-- an `Unsubscribe` takes away the last subscription of its connection -/
def Session.LastUnsubscribe (s : Session Conn) : HubCall Conn → Prop
  | .unsubscribe c g => s.subscriptions c ⊆ {g}
  | _ => True

instance (s : Session Conn) (o : HubCall Conn) : Decidable (s.LastUnsubscribe o) := by
  cases o <;> unfold Session.LastUnsubscribe <;> infer_instance

/-- the groups of the queries are the subscriptions, and only connections are in groups -/
structure Session.Inv (s : Session Conn) : Prop where
  groups : ∀ c g, g ≠ DefaultGroupName → (c ∈ s.groups g ↔ g ∈ s.subscriptions c)
  named : ∀ c, DefaultGroupName ∉ s.subscriptions c
  default : ∀ c ∈ s.groups DefaultGroupName, c ∈ s.connected
  connected : ∀ c, c ∉ s.connected → s.subscriptions c = ∅

omit [DecidableEq Conn] in
theorem start_inv : (Session.start : Session Conn).Inv :=
  ⟨fun _ _ _ => by simp [Session.start], fun _ => by simp [Session.start], fun _ h => by simp [Session.start] at h,
    fun _ _ => rfl⟩

theorem step_inv (s : Session Conn) (o : HubCall Conn) (h : s.Inv) (hl : s.legal o) : (s.step o).Inv := by
  cases o with
  | onConnectedAsync c =>
    refine ⟨fun c' g hg => ?_, h.named, fun c' hc' => ?_, fun c' hc' => ?_⟩
    · simpa [Session.step, onConnectedAsync, hg] using h.groups c' g hg
    · simp only [Session.step, onConnectedAsync, mem_addToGroup, and_true] at hc'
      exact Finset.mem_insert.2 (hc'.symm.imp_right (h.default c'))
    · exact h.connected c' fun hmem => hc' (Finset.mem_insert_of_mem hmem)
  | subscribe c g =>
    obtain ⟨hc, hg⟩ := hl
    refine ⟨fun c' g' hg' => ?_, fun c' => ?_, fun c' hc' => ?_, fun c' hc' => ?_⟩
    · by_cases hcc : c' = c
      · subst hcc
        simp [Session.step, SignalR.subscribe, hg', h.groups c' g' hg', or_comm]
      · simp [Session.step, SignalR.subscribe, hcc, h.groups c' g' hg']
    · by_cases hcc : c' = c
      · subst hcc
        simp [Session.step, h.named c', Ne.symm hg]
      · simpa [Session.step, hcc] using h.named c'
    · simp only [Session.step, SignalR.subscribe, mem_addToGroup, mem_removeFromGroup, and_true] at hc'
      rcases hc' with hc' | ⟨rfl, -⟩
      · exact h.default c' hc'.1
      · exact hc
    · have hcc : c' ≠ c := fun heq => hc' (heq ▸ hc)
      simpa [Session.step, hcc] using h.connected c' hc'
  | unsubscribe c g =>
    obtain ⟨hc, hg⟩ := hl
    refine ⟨fun c' g' hg' => ?_, fun c' => ?_, fun c' hc' => ?_, fun c' hc' => ?_⟩
    · by_cases hcc : c' = c
      · subst hcc
        simp [Session.step, SignalR.unsubscribe, hg', h.groups c' g' hg', and_comm]
      · simp [Session.step, SignalR.unsubscribe, hcc, h.groups c' g' hg']
    · by_cases hcc : c' = c
      · subst hcc
        simp [Session.step, h.named c']
      · simpa [Session.step, hcc] using h.named c'
    · simp only [Session.step, SignalR.unsubscribe, mem_addToGroup, mem_removeFromGroup, and_true] at hc'
      rcases hc'.1 with hc' | rfl
      · exact h.default c' hc'
      · exact hc
    · have hcc : c' ≠ c := fun heq => hc' (heq ▸ hc)
      simpa [Session.step, hcc] using h.connected c' hc'

/-! ## Delivery -/

theorem received_of_default_iff_none {s : Session Conn} (h : s.Inv) (hd : s.DefaultIffNone) {evt : ChangeEvent Row}
    (hq : evt.queryId ≠ DefaultGroupName) (c : Conn) :
    received s.groups c (handleChange evt) =
      if s.Wants c evt.queryId then (format evt).map fun result => (evt.queryId, result) else [] := by
  have hgroup : c ∈ s.groups evt.queryId ↔ evt.queryId ∈ s.subscriptions c := h.groups c evt.queryId hq
  rw [handleChange, received_broadcast]
  by_cases hc : c ∈ s.connected
  · have hdef : c ∈ s.groups DefaultGroupName ↔ s.subscriptions c = ∅ := hd c hc
    by_cases hsub : s.subscriptions c = ∅
    · simp [hgroup, hdef, hsub, Session.Wants, hc, List.map_eq_flatMap]
    · by_cases hmem : evt.queryId ∈ s.subscriptions c <;>
        simp [hgroup, hdef, hsub, hmem, Session.Wants, hc, List.map_eq_flatMap]
  · have hdef : c ∉ s.groups DefaultGroupName := fun hmem => hc (h.default c hmem)
    simp [hgroup, hdef, h.connected c hc, Session.Wants, hc]

/-- an event of one notification -/
def oneResult (Row : Type) (queryId : String) : ChangeEvent Row := ⟨queryId, 1, 0, [], [⟨none, none⟩], []⟩

/-- **Delivery is decided by the default group.** Every notification arrives once wherever it is wanted, and nowhere else,
exactly when the default group holds the connections without subscription. -/
theorem deliversOnce_iff {s : Session Conn} (h : s.Inv) : s.DeliversOnce Row ↔ s.DefaultIffNone := by
  constructor
  · intro hdel c hc
    constructor
    · intro hdef
      by_contra hsub
      obtain ⟨g, hg⟩ := Finset.nonempty_iff_ne_empty.2 hsub
      have hne : g ≠ DefaultGroupName := fun heq => h.named c (heq ▸ hg)
      have hone := congrArg List.length (hdel (oneResult Row g) hne c)
      rw [handleChange, received_broadcast] at hone
      simp [oneResult, format, hdef, (h.groups c g hne).2 hg, Session.Wants, hc, hg] at hone
    · intro hsub
      by_contra hdef
      have hne : "" ≠ DefaultGroupName := by decide
      have hgroup : c ∉ s.groups "" := by simp [h.groups c "" hne, hsub]
      have hone := congrArg List.length (hdel (oneResult Row "") hne c)
      rw [handleChange, received_broadcast] at hone
      simp [oneResult, format, hdef, hgroup, Session.Wants, hc, hsub] at hone
  · intro hdef evt hq c
    exact received_of_default_iff_none h hdef hq c

theorem step_defaultIffNone {s : Session Conn} {o : HubCall Conn} (h : s.Inv) (hl : s.legal o)
    (hd : s.DefaultIffNone) : (s.step o).DefaultIffNone ↔ s.LastUnsubscribe o := by
  cases o with
  | onConnectedAsync c =>
    refine iff_of_true (fun c' hc' => ?_) trivial
    rcases Finset.mem_insert.1 hc' with rfl | hmem
    · simpa [Session.step, onConnectedAsync] using h.connected c' hl
    · have hcc : c' ≠ c := fun heq => hl (heq ▸ hmem)
      simpa [Session.step, onConnectedAsync, hcc] using hd c' hmem
  | subscribe c g =>
    refine iff_of_true (fun c' hc' => ?_) trivial
    by_cases hcc : c' = c
    · subst hcc
      simp [Session.step, SignalR.subscribe, Ne.symm hl.2]
    · simpa [Session.step, SignalR.subscribe, hcc] using hd c' hc'
  | unsubscribe c g =>
    have hself : c ∈ (s.step (.unsubscribe c g)).groups DefaultGroupName := by
      simp [Session.step, SignalR.unsubscribe, Ne.symm hl.2]
    have hnone : (s.step (.unsubscribe c g)).subscriptions c = ∅ ↔ s.subscriptions c ⊆ {g} := by
      simp [Session.step, Finset.erase_eq_empty_iff, Finset.subset_singleton_iff]
    constructor
    · intro hdef
      exact hnone.1 ((hdef c hl.1).1 hself)
    · intro hlast c' hc'
      by_cases hcc : c' = c
      · subst hcc
        exact iff_of_true hself (hnone.2 hlast)
      · simpa [Session.step, SignalR.unsubscribe, hcc] using hd c' hc'

variable (Row) in
/-- **Delivery exactly once.** Along every run of calls, in every state the default group holds exactly the connections
without subscription and every notification reaches exactly once each connection it is meant for and no other, if and only
if every `Unsubscribe` takes away the last subscription of its connection. -/
theorem delivery_iff_last_unsubscribe (calls : List (HubCall Conn))
    (hl : Meets Session.step Session.legal Session.start calls) :
    Throughout Session.step (fun s => s.DefaultIffNone ∧ s.DeliversOnce Row) Session.start calls ↔
      Meets Session.step Session.LastUnsubscribe Session.start calls := by
  have hstart : (Session.start : Session Conn).DefaultIffNone := fun c hc => by simp [Session.start] at hc
  refine throughout_iff_meets Session.Inv step_inv (fun s o h ho hP => ?_) start_inv
    ⟨hstart, (deliversOnce_iff start_inv).2 hstart⟩ hl
  rw [deliversOnce_iff (step_inv s o h ho), and_self]
  exact step_defaultIffNone h ho hP.1

/-- two connections, one of which subscribes to a query and leaves it again -/
def leavesAll : List (HubCall ℕ) :=
  [.onConnectedAsync 0, .onConnectedAsync 1, .subscribe 0 "q1", .unsubscribe 0 "q1", .subscribe 1 "q2"]

/-- witness for `delivery_iff_last_unsubscribe` -/
theorem leavesAll_delivered :
    Throughout Session.step (fun s => s.DefaultIffNone ∧ s.DeliversOnce ℕ) Session.start leavesAll :=
  (delivery_iff_last_unsubscribe ℕ leavesAll (by decide)).2 (by decide)

/-- a connection subscribes to two queries and leaves one of them -/
def leavesOne : List (HubCall ℕ) :=
  [.onConnectedAsync 0, .subscribe 0 "q1", .subscribe 0 "q2", .unsubscribe 0 "q1"]

/-- after it left one of two queries a connection gets the notifications of the other one twice -/
theorem remaining_subscription_twice :
    Meets Session.step Session.legal Session.start leavesOne ∧
      (received (run Session.step Session.start leavesOne).groups 0 (handleChange (oneResult ℕ "q2"))).length = 2 ∧
      ¬Throughout Session.step (fun s => s.DefaultIffNone ∧ s.DeliversOnce ℕ) Session.start leavesOne := by
  refine ⟨by decide, by decide, fun h => ?_⟩
  have hdef : 0 ∈ (run Session.step Session.start leavesOne).groups DefaultGroupName := by decide
  have hnone : (run Session.step Session.start leavesOne).subscriptions 0 = ∅ :=
    (h.last.1 0 (by decide)).1 hdef
  exact absurd hnone (by decide)

end Session

end DrasiPlatform.SignalR
