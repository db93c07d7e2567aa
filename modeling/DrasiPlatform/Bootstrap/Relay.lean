/-
The way of the initial data into a query: the proxy's snapshot, relayed by the query API of the source
(`sources/shared/query-api/src/main.rs`, `acquire_v1` and `acquire_v2`), decoded by the query host
(`query-container/query-host/src/source_client.rs`) and bootstrapped by its worker (`bootstrap` in `query_worker.rs`).

The worker is the program of `QueryHost.QueryWorker`: what the stations before it answer is the list of outcomes of the
calls it waits on (`Env.calls`), and `bootstrap` runs the program on them. `serde` on one line of the stream is the
parameter `decode`. Every station can fail where the source lets it: the subscription event, the invocation of the proxy,
the proxy's stream after any number of elements, the connection of the host, the decoding of a line, `end_id.unwrap()` (the
task panics), the processing of a change, each publish.

- `items_leads`, `source_leads`, `sources_leads`: what a source's stream makes of the worker, element by element.
- `never_truncated_iff`: a bootstrap is complete or ends in an error, and no failure of a relayed stream is lost, exactly
  when no relayed stream fails or the host sees another failure.
Witness: `truncated_bootstrap_completes`.
-/
import Mathlib.Tactic
import DrasiPlatform.Core.Json
import DrasiPlatform.Core.Run
import DrasiPlatform.QueryHost.QueryWorker

namespace DrasiPlatform.Bootstrap

open Json QueryHost

/-! ## Elements -/

structure BootstrapElement where
  id : String
  labels : List String
  properties : List (String × Value)
  startId : Option String
  endId : Option String

/-- the JSON the query API sends -/
def BootstrapElement.json (e : BootstrapElement) : Value :=
  .object [("id", .string e.id), ("labels", .ofStrings e.labels), ("properties", .object e.properties),
    ("startId", (e.startId.map Value.string).getD .null), ("endId", (e.endId.map Value.string).getD .null)]

/-- `v1::BootstrapNode` -/
structure BootstrapNode where
  id : String
  labels : List String
  properties : List (String × Value)

/-- `v1::BootstrapRelation` -/
structure BootstrapRelation where
  id : String
  labels : List String
  properties : List (String × Value)
  startId : String
  endId : String

def BootstrapNode.element (n : BootstrapNode) : BootstrapElement := ⟨n.id, n.labels, n.properties, none, none⟩

def BootstrapRelation.element (r : BootstrapRelation) : BootstrapElement :=
  ⟨r.id, r.labels, r.properties, some r.startId, some r.endId⟩

/-- `SourceChange::Insert` of a node, or of a relation between two nodes -/
structure SourceChange where
  sourceId : String
  id : String
  labels : List String
  properties : List (String × Value)
  /-- the in node and the out node of a relation -/
  nodes : Option (String × String)

/-- `into_source_change`; `none` where a relation has no end and `unwrap` panics -/
def BootstrapElement.intoSourceChange (e : BootstrapElement) (sourceId : String) : Option SourceChange :=
  match e.startId with
  | some startId => e.endId.map fun endId => ⟨sourceId, e.id, e.labels, e.properties, some (startId, endId)⟩
  | none => some ⟨sourceId, e.id, e.labels, e.properties, none⟩

/-! ## The query API -/

/-- the proxy's answer to `acquire-stream`: its snapshot, and where the stream fails, if it does -/
structure ProxyStream where
  snapshot : List Value
  failsAfter : Option (ℕ × String)

def ProxyStream.items (p : ProxyStream) : List (Except String Value) :=
  match p.failsAfter with
  | none => p.snapshot.map .ok
  | some (n, error) => (p.snapshot.take n).map .ok ++ [.error error]

/-- `v1::BootstrapEvents` -/
structure BootstrapEvents where
  nodes : List BootstrapNode
  rels : List BootstrapRelation

def BootstrapEvents.lines (events : BootstrapEvents) : List Value :=
  events.nodes.map (·.element.json) ++ events.rels.map (·.element.json)

/-- a response: an error status with its text, or a body of JSON lines -/
inductive Response where
  | failure (status text : String)
  | body (lines : List Value)

/-- the loop over the proxy's stream: an error is logged and ends the body as its end does -/
def relay : List (Except String Value) → List Value
  | [] => []
  | .ok element :: items => element :: relay items
  | .error _ :: _ => []

def acquireV1 : Except String (Except String BootstrapEvents) → Response
  | .error e => .failure "500 Internal Server Error" ("Error invoking acquire: " ++ e)
  | .ok (.error e) => .failure "500 Internal Server Error" ("Error parsing the response from the proxy: " ++ e)
  | .ok (.ok events) => .body events.lines

def acquireV2 : Except String ProxyStream → Response
  | .error e => .failure "502 Bad Gateway" ("Error invoking acquire-stream: " ++ e)
  | .ok proxy => .body (relay proxy.items)

/-- how a publish ends -/
inductive Published where
  | accepted
  | rejected
  | failed (error : String)

/-- everything that answers while one source is bootstrapped -/
structure Source where
  id : String
  /-- the host's request to the query API -/
  send : Except String Unit
  /-- the publish of the subscription event -/
  dispatchControlEvent : Except String Unit
  supportsStream : Bool
  acquire : Except String (Except String BootstrapEvents)
  acquireStream : Except String ProxyStream
  /-- where the host's own connection breaks, if it does -/
  breaksAfter : Option (ℕ × String)
  /-- `process_source_change` and the publish of its results, for the element of each number -/
  process : ℕ → Except String Unit
  publish : ℕ → Published

def handleSubscription (src : Source) : Response :=
  match src.dispatchControlEvent with
  | .error e => .failure "500 Internal Server Error" ("Error publishing the subscription event: " ++ e)
  | .ok _ => if src.supportsStream then acquireV2 src.acquireStream else acquireV1 src.acquire

/-! ## The query host -/

def fetchFailed (sourceId inner : String) : String :=
  "Failed to fetch data from source '" ++ sourceId ++ "': " ++ inner

def processFailed (elementId sourceId inner : String) : String :=
  "Failed to process element '" ++ elementId ++ "' from source '" ++ sourceId ++ "': " ++ inner

def publishError (inner : String) : String := "Failed to publish: " ++ inner

section Host

variable (decode : Value → Except String BootstrapElement)

/-- an item of the stream of `SourceClient::subscribe` -/
inductive Item where
  | element (change : SourceChange)
  | error (text : String)
  | panic

def item (sourceId : String) (line : Value) : Item :=
  match decode line with
  | .error e => .error (fetchFailed sourceId e)
  | .ok element =>
    match element.intoSourceChange sourceId with
    | some change => .element change
    | none => .panic

/-- the stream over the body, as far as the connection holds -/
def received (src : Source) (lines : List Value) : List Item :=
  match src.breaksAfter with
  | none => lines.map (item decode src.id)
  | some (n, error) => (lines.take n).map (item decode src.id) ++ [.error (fetchFailed src.id error)]

/-- `SourceClient::subscribe` -/
def subscribe (src : Source) : Except String (List Item) :=
  match src.send with
  | .error e => .error (fetchFailed src.id e)
  | .ok _ =>
    match handleSubscription src with
    | .failure status text => .error (fetchFailed src.id (status ++ " " ++ text))
    | .body lines => .ok (received decode src lines)

/-- the outcome of a call the worker waits on, or the panic of its task -/
inductive Call where
  | call (event : Event SourceChange)
  | panic

/-- `process_source_change` -/
def processCall (src : Source) (change : SourceChange) : Except String Unit → Call
  | .ok _ => .call .ok
  | .error e => .call (.fail (processFailed change.id src.id e))

def Published.call : Published → Call
  | .accepted => .call .ok
  | .rejected => .call .rejected
  | .failed e => .call (.fail (publishError e))

/-- the clear of the indexes, the outcome of which is ignored -/
def clearCall : Except String Unit → Call
  | .ok _ => .call .ok
  | .error e => .call (.fail e)

/-- the outcomes over the items from number `k` on, up to the end of the stream -/
def itemCalls (src : Source) : ℕ → List Item → List Call
  | _, [] => [.call .ok]
  | k, .element change :: items =>
    .call (.element change) :: processCall src change (src.process k) :: (src.publish k).call :: itemCalls src (k + 1) items
  | k, .error e :: items => .call (.fail e) :: itemCalls src (k + 1) items
  | k, .panic :: items => .panic :: itemCalls src (k + 1) items

def sourceCalls (src : Source) : List Call :=
  match subscribe decode src with
  | .error e => [.call (.fail e)]
  | .ok items => .call .ok :: itemCalls src 0 items

/-- everything that answers while a query is bootstrapped -/
structure Env where
  isVolatile : Bool
  sources : List Source
  /-- the publish of BootstrapStarted -/
  started : Published
  clear : Except String Unit
  /-- the publish of BootstrapCompleted -/
  completed : Published

def Env.spec (E : Env) : QuerySpec := ⟨E.isVolatile, E.sources.map (·.id)⟩

/-- the outcomes of the calls of `bootstrap`, and the turn after it that writes Running -/
def Env.calls (E : Env) : List Call :=
  E.started.call :: clearCall E.clear :: (E.sources.flatMap (sourceCalls decode) ++ [E.completed.call, .call .ok])

variable {Index Row : Type} [DecidableEq Row]

/-- a worker: where it is, its index and what it has done -/
structure Worker (Index Row : Type) where
  pc : Pc SourceChange Row
  index : Index
  effects : List (Effect SourceChange Row)

def applyIndex (Q : ContinuousQuery SourceChange Index Row) (index : Index) : Effect SourceChange Row → Index
  | .process change => Q.process change index
  | .clearIndex => Q.empty
  | _ => index

/-- the worker's program takes the outcome of the call it waits on; a task that has ended takes nothing -/
def Worker.step (Q : ContinuousQuery SourceChange Index Row) (spec : QuerySpec) (w : Worker Index Row) :
    Call → Worker Index Row
  | .call event =>
    match startup Q spec ⟨.bootstrapping, w.index, none, none⟩ w.pc event with
    | none => w
    | some (pc, effects) => ⟨pc, effects.foldl (applyIndex Q) w.index, w.effects ++ effects⟩
  | .panic =>
    match w.pc with
    | .finished => w
    | _ => ⟨.finished, w.index, w.effects ++ [.drop]⟩

/-- the worker of a query in Bootstrapping, from the start of `bootstrap` on -/
def bootstrap (Q : ContinuousQuery SourceChange Index Row) (E : Env) : Worker Index Row :=
  Run.run (Worker.step Q E.spec) ⟨.bootstrapStarted, Q.empty, []⟩ (E.calls decode)

/-! ## The promise -/

/-- the changes that effects process, in order -/
def processed (effects : List (Effect SourceChange Row)) : List SourceChange :=
  effects.filterMap fun e => match e with
    | .process change => some change
    | _ => none

/-- the effects before BootstrapCompleted is published -/
def beforeCompleted (effects : List (Effect SourceChange Row)) : List (Effect SourceChange Row) :=
  effects.takeWhile fun e => match e with
    | .publishControl .bootstrapCompleted _ => false
    | _ => true

/-- the worker enters Running -/
def Running (effects : List (Effect SourceChange Row)) : Prop := .setState .running ∈ effects

/-- the elements of the source's snapshot -/
def Source.snapshot (src : Source) : List Value :=
  if src.supportsStream then
    match src.acquireStream with
    | .ok proxy => proxy.snapshot
    | .error _ => []
  else
    match src.acquire with
    | .ok (.ok events) => events.lines
    | _ => []

/-- the query API sees the proxy's stream fail while it relays it -/
def Source.RelayFails (src : Source) : Prop :=
  src.supportsStream = true ∧ ∃ proxy, src.acquireStream = .ok proxy ∧ proxy.failsAfter.isSome

/-- the change that a line stands for -/
def lineChange (sourceId : String) (line : Value) : Option SourceChange :=
  match decode line with
  | .error _ => none
  | .ok element => element.intoSourceChange sourceId

/-- a bootstrap is complete or ends in an error, and a failure of a relayed stream is not lost -/
structure NeverTruncated (Q : ContinuousQuery SourceChange Index Row) (E : Env) : Prop where
  complete : Running (bootstrap decode Q E).effects →
    (processed (beforeCompleted (bootstrap decode Q E).effects)).map some =
      E.sources.flatMap fun src => src.snapshot.map (lineChange decode src.id)
  reaches : ∀ src ∈ E.sources, src.RelayFails → ¬ Running (bootstrap decode Q E).effects

/-! ## The condition -/

/-- the items are elements, and each is processed and its results published -/
def ItemsOk (src : Source) : ℕ → List Item → Prop
  | _, [] => True
  | k, .element _ :: items => src.process k = .ok () ∧ (∀ e, src.publish k ≠ .failed e) ∧ ItemsOk src (k + 1) items
  | _, .error _ :: _ => False
  | _, .panic :: _ => False

/-- the subscription is answered with these items, and nothing fails over them -/
def Source.Seen (src : Source) (items : List Item) : Prop := subscribe decode src = .ok items ∧ ItemsOk src 0 items

/-- the host sees no failure: the subscriptions, the lines of their bodies, the processing and the publishes -/
structure NoVisibleFailure (E : Env) : Prop where
  started : ∀ e, E.started ≠ .failed e
  completed : ∀ e, E.completed ≠ .failed e
  sources : ∀ src ∈ E.sources, ∃ items, src.Seen decode items

/-! ## Steps of the worker -/

/-- neither Running nor BootstrapCompleted -/
def Plain (effects : List (Effect SourceChange Row)) : Prop :=
  ∀ e ∈ effects, e ≠ .setState .running ∧ ∀ accepted, e ≠ .publishControl .bootstrapCompleted accepted

/-- the worker comes to `pc`, has processed `changes` on the way and has not reported completion -/
structure Leads (w w' : Worker Index Row) (pc : Pc SourceChange Row) (changes : List SourceChange) : Prop where
  pc : w'.pc = pc
  effects : ∃ es, w'.effects = w.effects ++ es ∧ Plain es ∧ processed es = changes

omit [DecidableEq Row] in
theorem Leads.trans {w w₁ w₂ : Worker Index Row} {pc₁ pc₂ : Pc SourceChange Row} {c₁ c₂ : List SourceChange}
    (h₁ : Leads w w₁ pc₁ c₁) (h₂ : Leads w₁ w₂ pc₂ c₂) : Leads w w₂ pc₂ (c₁ ++ c₂) := by
  obtain ⟨es₁, heq₁, hplain₁, hproc₁⟩ := h₁.effects
  obtain ⟨es₂, heq₂, hplain₂, hproc₂⟩ := h₂.effects
  refine ⟨h₂.pc, es₁ ++ es₂, by rw [heq₂, heq₁, List.append_assoc], ?_, ?_⟩
  · intro e he
    exact (List.mem_append.1 he).elim (hplain₁ e) (hplain₂ e)
  · rw [← hproc₁, ← hproc₂]
    exact List.filterMap_append

section Steps

variable {decode} {Q : ContinuousQuery SourceChange Index Row} {spec : QuerySpec}

theorem Leads.step {w : Worker Index Row} {event : Event SourceChange} {pc : Pc SourceChange Row}
    {es : List (Effect SourceChange Row)}
    (h : startup Q spec ⟨.bootstrapping, w.index, none, none⟩ w.pc event = some (pc, es)) (hplain : Plain es) :
    Leads w (Worker.step Q spec w (.call event)) pc (processed es) := by
  simp only [Worker.step, h]
  exact ⟨rfl, es, rfl, hplain, rfl⟩

/-- a worker that has ended takes no further outcome -/
theorem run_finished {w : Worker Index Row} (h : w.pc = .finished) (calls : List Call) :
    Run.run (Worker.step Q spec) w calls = w := by
  induction calls with
  | nil => rfl
  | cons call calls ih =>
    have hstep : Worker.step Q spec w call = w := by
      rcases w with ⟨pc, index, effects⟩
      obtain rfl : pc = .finished := h
      cases call with
      | call event => cases event <;> rfl
      | panic => rfl
    rw [Run.run_cons, hstep, ih]

/-- the worker comes to its end, with no report of completion -/
def Ends (w w' : Worker Index Row) : Prop := ∃ changes, Leads w w' .finished changes

variable (Q spec) in
theorem Ends.run {w w' : Worker Index Row} (h : Ends w w') (calls : List Call) :
    Ends w (Run.run (Worker.step Q spec) w' calls) := by
  obtain ⟨changes, hleads⟩ := h
  rw [run_finished hleads.pc]
  exact ⟨changes, hleads⟩

omit [DecidableEq Row] in
theorem Leads.ends {w w₁ w₂ : Worker Index Row} {pc : Pc SourceChange Row} {changes : List SourceChange}
    (h₁ : Leads w w₁ pc changes) (h₂ : Ends w₁ w₂) : Ends w w₂ := by
  obtain ⟨changes', h₂⟩ := h₂
  exact ⟨_, h₁.trans h₂⟩

theorem ends_of_fail {w : Worker Index Row} {event : Event SourceChange} {es : List (Effect SourceChange Row)}
    (h : startup Q spec ⟨.bootstrapping, w.index, none, none⟩ w.pc event = some (.finished, es)) (hplain : Plain es) :
    Ends w (Worker.step Q spec w (.call event)) :=
  ⟨_, Leads.step h hplain⟩

variable (Q spec) in
/-- the processing of one change and the publish of its results -/
theorem change_leads (src : Source) (k : ℕ) {w : Worker Index Row} {ids : List String} {change : SourceChange}
    (hpc : w.pc = .bootstrapProcess ids change) :
    (src.process k = .ok () ∧ (∀ e, src.publish k ≠ .failed e) →
      Leads w (Worker.step Q spec (Worker.step Q spec w (processCall src change (src.process k))) (src.publish k).call)
        (.initialData ids) [change]) ∧
    (¬ (src.process k = .ok () ∧ ∀ e, src.publish k ≠ .failed e) →
      Ends w (Worker.step Q spec (Worker.step Q spec w (processCall src change (src.process k))) (src.publish k).call)) := by
  cases hproc : src.process k with
  | error e =>
    have hfail : startup Q spec ⟨.bootstrapping, w.index, none, none⟩ w.pc (.fail (processFailed change.id src.id e)) =
        some (.finished, [.setState (.terminalError (processFailed change.id src.id e)), .drop]) := by
      rw [hpc]; rfl
    exact ⟨fun h => absurd h.1 (by simp), fun _ => (ends_of_fail hfail (by simp [Plain])).run Q spec [(src.publish k).call]⟩
  | ok _ =>
    obtain ⟨results, hok⟩ : ∃ results, startup Q spec ⟨.bootstrapping, w.index, none, none⟩ w.pc .ok =
        some (.bootstrapPublish ids results, [.process change, .increment]) := ⟨_, by rw [hpc]; rfl⟩
    have hw₁ : Leads w (Worker.step Q spec w (.call .ok)) _ [change] := Leads.step hok (by simp [Plain])
    show (_ → Leads w (Worker.step Q spec (Worker.step Q spec w (.call .ok)) _) _ _) ∧
      (_ → Ends w (Worker.step Q spec (Worker.step Q spec w (.call .ok)) _))
    generalize Worker.step Q spec w (.call .ok) = w₁ at hw₁
    cases hpub : src.publish k with
    | accepted =>
      have hnext : startup Q spec ⟨.bootstrapping, w₁.index, none, none⟩ w₁.pc .ok =
          some (.initialData ids, [.publishChange results true]) := by
        rw [hw₁.pc]; rfl
      exact ⟨fun _ => hw₁.trans (Leads.step hnext (by simp [Plain])), fun h => absurd ⟨rfl, by simp⟩ h⟩
    | rejected =>
      have hnext : startup Q spec ⟨.bootstrapping, w₁.index, none, none⟩ w₁.pc .rejected =
          some (.initialData ids, [.publishChange results false]) := by
        rw [hw₁.pc]; rfl
      exact ⟨fun _ => hw₁.trans (Leads.step hnext (by simp [Plain])), fun h => absurd ⟨rfl, by simp⟩ h⟩
    | failed e =>
      have hnext : startup Q spec ⟨.bootstrapping, w₁.index, none, none⟩ w₁.pc (.fail (publishError e)) =
          some (.finished, [.publishChange results false, .setState (.terminalError (publishError e)), .drop]) := by
        rw [hw₁.pc]; rfl
      exact ⟨fun h => absurd rfl (h.2 e), fun _ => hw₁.ends (ends_of_fail hnext (by simp [Plain]))⟩

/-- the changes of the elements among the items -/
def itemChanges (items : List Item) : List SourceChange :=
  items.filterMap fun i => match i with
    | .element change => some change
    | _ => none

variable (Q spec) in
/-- **A source's stream**, element by element: all of it is processed, or the worker ends. -/
theorem items_leads (src : Source) (items : List Item) (k : ℕ) {w : Worker Index Row} {id : String} {ids : List String}
    (hpc : w.pc = .initialData (id :: ids)) :
    (ItemsOk src k items →
      Leads w (Run.run (Worker.step Q spec) w (itemCalls src k items)) (nextSource ids) (itemChanges items)) ∧
    (¬ ItemsOk src k items → Ends w (Run.run (Worker.step Q spec) w (itemCalls src k items))) := by
  induction items generalizing k w with
  | nil =>
    have hend : startup Q spec ⟨.bootstrapping, w.index, none, none⟩ w.pc .ok = some (nextSource ids, []) := by
      rw [hpc]; rfl
    exact ⟨fun _ => Leads.step hend (by simp [Plain]), fun h => absurd trivial h⟩
  | cons i items ih =>
    cases i with
    | error e =>
      have hfail : startup Q spec ⟨.bootstrapping, w.index, none, none⟩ w.pc (.fail e) =
          some (.finished, [.setState (.terminalError e), .drop]) := by
        rw [hpc]; rfl
      exact ⟨fun h => h.elim, fun _ => (ends_of_fail hfail (by simp [Plain])).run Q spec _⟩
    | panic =>
      have hstep : Ends w (Worker.step Q spec w .panic) := by
        simp only [Worker.step, hpc]
        exact ⟨[], rfl, [.drop], rfl, by simp [Plain], rfl⟩
      exact ⟨fun h => h.elim, fun _ => hstep.run Q spec _⟩
    | element change =>
      have helement : startup Q spec ⟨.bootstrapping, w.index, none, none⟩ w.pc (.element change) =
          some (.bootstrapProcess (id :: ids) change, []) := by
        rw [hpc]; rfl
      have hw₁ : Leads w (Worker.step Q spec w (.call (.element change))) _ [] := Leads.step helement (by simp [Plain])
      rw [itemCalls, Run.run_cons, Run.run_cons, Run.run_cons]
      generalize Worker.step Q spec w (.call (.element change)) = w₁ at hw₁
      obtain ⟨hgood, hbad⟩ := change_leads Q spec src k hw₁.pc
      by_cases hchange : src.process k = .ok () ∧ ∀ e, src.publish k ≠ .failed e
      · have hw₂ := hw₁.trans (hgood hchange)
        generalize Worker.step Q spec (Worker.step Q spec w₁ _) _ = w₂ at hw₂
        obtain ⟨hrest, hend⟩ := ih (k + 1) hw₂.pc
        exact ⟨fun h => hw₂.trans (hrest h.2.2), fun h => hw₂.ends (hend fun hitems => h ⟨hchange.1, hchange.2, hitems⟩)⟩
      · exact ⟨fun h => absurd ⟨h.1, h.2.1⟩ hchange, fun _ => (hw₁.ends (hbad hchange)).run Q spec _⟩

/-! ### Sources -/

/-- the changes that a source's stream brings -/
def sourceChanges (decode : Value → Except String BootstrapElement) (src : Source) : List SourceChange :=
  match subscribe decode src with
  | .ok items => itemChanges items
  | .error _ => []

variable (decode Q spec) in
/-- **One source**: its stream is processed to its end, or the worker ends. -/
theorem source_leads (src : Source) {w : Worker Index Row} {id : String} {ids : List String}
    (hpc : w.pc = .subscribe (id :: ids)) :
    ((∃ items, src.Seen decode items) →
      Leads w (Run.run (Worker.step Q spec) w (sourceCalls decode src)) (nextSource ids) (sourceChanges decode src)) ∧
    (¬ (∃ items, src.Seen decode items) → Ends w (Run.run (Worker.step Q spec) w (sourceCalls decode src))) := by
  unfold sourceCalls sourceChanges Source.Seen
  cases hsub : subscribe decode src with
  | error e =>
    have hfail : startup Q spec ⟨.bootstrapping, w.index, none, none⟩ w.pc (.fail e) =
        some (.finished, [.setState (.terminalError e), .drop]) := by
      rw [hpc]; rfl
    exact ⟨fun h => absurd h (by simp), fun _ => ends_of_fail hfail (by simp [Plain])⟩
  | ok items =>
    have hok : startup Q spec ⟨.bootstrapping, w.index, none, none⟩ w.pc .ok =
        some (.initialData (id :: ids), [.subscribe id]) := by
      rw [hpc]; rfl
    have hw₁ : Leads w (Worker.step Q spec w (.call .ok)) _ [] := Leads.step hok (by simp [Plain])
    simp only [Run.run_cons]
    generalize Worker.step Q spec w (.call .ok) = w₁ at hw₁
    obtain ⟨hgood, hbad⟩ := items_leads Q spec src items 0 hw₁.pc
    refine ⟨?_, fun h => hw₁.ends (hbad fun hitems => h ⟨items, rfl, hitems⟩)⟩
    rintro ⟨items', hsame, hitems⟩
    obtain rfl : items = items' := Except.ok.inj hsame
    exact hw₁.trans (hgood hitems)

variable (decode Q spec) in
/-- **All sources**, in order. -/
theorem sources_leads (sources : List Source) {w : Worker Index Row} (hpc : w.pc = nextSource (sources.map (·.id))) :
    ((∀ src ∈ sources, ∃ items, src.Seen decode items) →
      Leads w (Run.run (Worker.step Q spec) w (sources.flatMap (sourceCalls decode))) .bootstrapCompleted
        (sources.flatMap (sourceChanges decode))) ∧
    (¬ (∀ src ∈ sources, ∃ items, src.Seen decode items) →
      Ends w (Run.run (Worker.step Q spec) w (sources.flatMap (sourceCalls decode)))) := by
  induction sources generalizing w with
  | nil => exact ⟨fun _ => ⟨hpc, [], by simp, by simp [Plain], rfl⟩, fun h => absurd (by simp) h⟩
  | cons src sources ih =>
    obtain ⟨hgood, hbad⟩ := source_leads decode Q spec src hpc
    simp only [List.flatMap_cons, Run.run_append, List.forall_mem_cons]
    by_cases hsrc : ∃ items, src.Seen decode items
    · have hw₁ := hgood hsrc
      generalize Run.run (Worker.step Q spec) w (sourceCalls decode src) = w₁ at hw₁
      obtain ⟨hrest, hend⟩ := ih hw₁.pc
      exact ⟨fun h => hw₁.trans (hrest h.2), fun h => hw₁.ends (hend fun hsources => h ⟨hsrc, hsources⟩)⟩
    · exact ⟨fun h => absurd h.1 hsrc, fun _ => (hbad hsrc).run Q spec _⟩

/-! ### The whole bootstrap -/

omit [DecidableEq Row] in
theorem Plain.not_running {es : List (Effect SourceChange Row)} (h : Plain es) : ¬ Running es := fun hr => (h _ hr).1 rfl

omit [DecidableEq Row] in
/-- what is processed before the report of a bootstrap that runs to its end -/
theorem processed_report {es : List (Effect SourceChange Row)} (h : Plain es) (accepted : Bool) :
    processed (beforeCompleted (es ++ (QueryHost.control .bootstrapCompleted accepted ++ [.bootstrapped] ++ [.setState .running]))) =
      processed es := by
  have hpass : ∀ e ∈ es, (match e with
      | .publishControl .bootstrapCompleted _ => false
      | _ => true) = true := by
    intro e he
    split
    · exact absurd rfl ((h _ he).2 _)
    · rfl
  unfold beforeCompleted
  rw [List.takeWhile_append_of_pos hpass]
  simp [processed, QueryHost.control]

omit [DecidableEq Row] in
theorem Ends.not_running {w w' : Worker Index Row} (h : Ends w w') (hw : w.effects = []) : ¬ Running w'.effects := by
  obtain ⟨_, -, es, heq, hplain, -⟩ := h
  rw [heq, hw, List.nil_append]
  exact hplain.not_running

variable (Q spec) in
/-- BootstrapStarted and the clear of the indexes -/
theorem started_leads (started : Published) (clear : Except String Unit) {w : Worker Index Row}
    (hpc : w.pc = .bootstrapStarted) :
    ((∀ e, started ≠ .failed e) →
      Leads w (Worker.step Q spec (Worker.step Q spec w started.call) (clearCall clear)) (nextSource spec.subscriptions) []) ∧
    (¬ (∀ e, started ≠ .failed e) →
      Ends w (Worker.step Q spec (Worker.step Q spec w started.call) (clearCall clear))) := by
  have hclear : ∀ {w₁ : Worker Index Row}, w₁.pc = .bootstrapClear →
      Leads w₁ (Worker.step Q spec w₁ (clearCall clear)) (nextSource spec.subscriptions) [] := by
    intro w₁ hpc₁
    cases clear with
    | ok _ =>
      have hok : startup Q spec ⟨.bootstrapping, w₁.index, none, none⟩ w₁.pc .ok =
          some (nextSource spec.subscriptions, [.clearIndex]) := by
        rw [hpc₁]; rfl
      exact Leads.step hok (by simp [Plain])
    | error e =>
      have hfail : startup Q spec ⟨.bootstrapping, w₁.index, none, none⟩ w₁.pc (.fail e) =
          some (nextSource spec.subscriptions, []) := by
        rw [hpc₁]; rfl
      exact Leads.step hfail (by simp [Plain])
  cases started with
  | accepted =>
    have hstart : startup Q spec ⟨.bootstrapping, w.index, none, none⟩ w.pc .ok =
        some (.bootstrapClear, QueryHost.control .bootstrapStarted true) := by
      rw [hpc]; rfl
    have hw₁ : Leads w (Worker.step Q spec w (.call .ok)) _ [] := Leads.step hstart (by simp [Plain, QueryHost.control])
    exact ⟨fun _ => hw₁.trans (hclear hw₁.pc), fun h => absurd (by simp) h⟩
  | rejected =>
    have hstart : startup Q spec ⟨.bootstrapping, w.index, none, none⟩ w.pc .rejected =
        some (.bootstrapClear, QueryHost.control .bootstrapStarted false) := by
      rw [hpc]; rfl
    have hw₁ : Leads w (Worker.step Q spec w (.call .rejected)) _ [] :=
      Leads.step hstart (by simp [Plain, QueryHost.control])
    exact ⟨fun _ => hw₁.trans (hclear hw₁.pc), fun h => absurd (by simp) h⟩
  | failed e =>
    have hfail : startup Q spec ⟨.bootstrapping, w.index, none, none⟩ w.pc (.fail (publishError e)) = some (.finished,
        QueryHost.control .bootstrapStarted false ++ [.setState (.terminalError (publishError e)), .drop]) := by
      rw [hpc]; rfl
    exact ⟨fun h => absurd rfl (h e),
      fun _ => (ends_of_fail hfail (by simp [Plain, QueryHost.control])).run Q spec [clearCall clear]⟩

variable (Q spec) in
/-- BootstrapCompleted and the turn that writes Running -/
theorem completed_effects (completed : Published) {w : Worker Index Row} (hpc : w.pc = .bootstrapCompleted) :
    ((∀ e, completed ≠ .failed e) → ∃ accepted,
      (Worker.step Q spec (Worker.step Q spec w completed.call) (.call .ok)).effects = w.effects ++
        (QueryHost.control .bootstrapCompleted accepted ++ [.bootstrapped] ++ [.setState .running])) ∧
    (¬ (∀ e, completed ≠ .failed e) → ∃ error,
      (Worker.step Q spec (Worker.step Q spec w completed.call) (.call .ok)).effects = w.effects ++
        (QueryHost.control .bootstrapCompleted false ++ [.setState (.terminalError error), .drop])) := by
  rcases w with ⟨pc, index, effects⟩
  obtain rfl : pc = .bootstrapCompleted := hpc
  cases completed with
  | accepted => exact ⟨fun _ => ⟨true, List.append_assoc ..⟩, fun h => absurd (by simp) h⟩
  | rejected => exact ⟨fun _ => ⟨false, List.append_assoc ..⟩, fun h => absurd (by simp) h⟩
  | failed e => exact ⟨fun h => absurd rfl (h e), fun _ => ⟨publishError e, rfl⟩⟩

variable (decode Q) in
/-- **A bootstrap runs to its end** exactly when the host sees no failure, and then it has processed what came in. -/
theorem bootstrap_running (E : Env) :
    (NoVisibleFailure decode E → Running (bootstrap decode Q E).effects ∧
      processed (beforeCompleted (bootstrap decode Q E).effects) = E.sources.flatMap (sourceChanges decode)) ∧
    (¬ NoVisibleFailure decode E → ¬ Running (bootstrap decode Q E).effects) := by
  obtain ⟨hstart, hnostart⟩ := started_leads Q E.spec E.started E.clear
    (w := ⟨.bootstrapStarted, Q.empty, []⟩) rfl
  unfold bootstrap Env.calls
  simp only [Run.run_cons, Run.run_append, Run.run_nil]
  by_cases hs : ∀ e, E.started ≠ .failed e
  · have hw₂ := hstart hs
    generalize Worker.step Q E.spec (Worker.step Q E.spec _ _) _ = w₂ at hw₂
    obtain ⟨hgood, hbad⟩ := sources_leads decode Q E.spec E.sources hw₂.pc
    by_cases hsrc : ∀ src ∈ E.sources, ∃ items, src.Seen decode items
    · obtain ⟨hpc₃, es, heq, hplain, hproc⟩ := hw₂.trans (hgood hsrc)
      generalize Run.run (Worker.step Q E.spec) w₂ _ = w₃ at hpc₃ heq
      obtain ⟨hdone, hfail⟩ := completed_effects Q E.spec E.completed hpc₃
      rw [heq, List.nil_append] at hdone hfail
      refine ⟨fun h => ?_, fun h => ?_⟩
      · obtain ⟨accepted, heffects⟩ := hdone h.completed
        rw [heffects, processed_report hplain, hproc, List.nil_append]
        exact ⟨by simp [Running], rfl⟩
      · obtain ⟨error, heffects⟩ := hfail fun hc => h ⟨hs, hc, hsrc⟩
        rw [heffects]
        intro hrun
        rcases List.mem_append.1 hrun with hrun | hrun
        · exact hplain.not_running hrun
        · simp [QueryHost.control] at hrun
    · have hends := (hw₂.ends (hbad hsrc)).run Q E.spec [E.completed.call, .call .ok]
      exact ⟨fun h => absurd h.sources hsrc, fun _ => hends.not_running rfl⟩
  · have hends := ((hnostart hs).run Q E.spec (E.sources.flatMap (sourceCalls decode))).run Q E.spec
      [E.completed.call, .call .ok]
    exact ⟨fun h => absurd h.started hs, fun _ => hends.not_running rfl⟩

end Steps

/-! ## What comes in -/

theorem not_itemsOk_error (src : Source) (items : List Item) (k : ℕ) (e : String) :
    ¬ ItemsOk src k (items ++ [.error e]) := by
  induction items generalizing k with
  | nil => exact id
  | cons i items ih =>
    cases i with
    | element change => exact fun h => ih (k + 1) h.2.2
    | error e => exact id
    | panic => exact id

/-- lines over which nothing fails all bring a change -/
theorem itemChanges_lines (src : Source) (lines : List Value) (k : ℕ)
    (h : ItemsOk src k (lines.map (item decode src.id))) :
    (itemChanges (lines.map (item decode src.id))).map some = lines.map (lineChange decode src.id) := by
  induction lines generalizing k with
  | nil => rfl
  | cons line lines ih =>
    rw [List.map_cons] at h
    cases hi : item decode src.id line with
    | element change =>
      rw [hi] at h
      have hchange : lineChange decode src.id line = some change := by
        unfold item at hi
        unfold lineChange
        split at hi
        · cases hi
        · split at hi
          · rename_i hinto
            cases hi
            exact hinto
          · cases hi
      rw [List.map_cons, List.map_cons, hi, hchange, ← ih (k + 1) h.2.2]
      rfl
    | error e =>
      rw [hi] at h
      exact h.elim
    | panic =>
      rw [hi] at h
      exact h.elim

theorem relay_ok (elements : List Value) : relay (elements.map .ok) = elements := by
  induction elements with
  | nil => rfl
  | cons element elements ih => rw [List.map_cons, relay, ih]

/-- without a failure the relay passes on the whole snapshot -/
theorem body_eq_snapshot {src : Source} {lines : List Value} (hresp : handleSubscription src = .body lines)
    (h : ¬ src.RelayFails) : lines = src.snapshot := by
  unfold handleSubscription at hresp
  unfold Source.snapshot
  split at hresp
  · cases hresp
  · by_cases hstream : src.supportsStream = true
    · rw [if_pos hstream] at hresp ⊢
      cases hacq : src.acquireStream with
      | error e =>
        rw [hacq] at hresp
        cases hresp
      | ok proxy =>
        rw [hacq] at hresp
        obtain rfl := Response.body.inj hresp
        have hnone : proxy.failsAfter = none := by
          rw [← Option.not_isSome_iff_eq_none]
          exact fun hsome => h ⟨hstream, proxy, hacq, hsome⟩
        simp only [ProxyStream.items, hnone, relay_ok]
    · rw [if_neg hstream] at hresp ⊢
      rcases hacq : src.acquire with e | e | events
      · rw [hacq] at hresp
        cases hresp
      · rw [hacq] at hresp
        cases hresp
      · rw [hacq] at hresp
        exact (Response.body.inj hresp).symm

/-- **A source without a failure brings its whole snapshot.** -/
theorem sourceChanges_eq {src : Source} {items : List Item} (hseen : src.Seen decode items) (h : ¬ src.RelayFails) :
    (sourceChanges decode src).map some = src.snapshot.map (lineChange decode src.id) := by
  obtain ⟨hsub, hitems⟩ := hseen
  simp only [sourceChanges, hsub]
  unfold subscribe at hsub
  split at hsub
  · cases hsub
  · split at hsub
    · cases hsub
    · rename_i lines hresp
      obtain rfl := Except.ok.inj hsub
      rw [← body_eq_snapshot hresp h]
      unfold received at hitems ⊢
      split at hitems
      · exact itemChanges_lines decode src lines 0 hitems
      · exact absurd hitems (not_itemsOk_error src _ 0 _)

/-! ## Main result -/

/-- **A truncated bootstrap, exactly.** A bootstrap either processes every element of every snapshot before it reports
completion or ends in an error, and loses no failure of a relayed stream, if and only if no proxy's stream fails while it is
relayed or the host sees some other failure itself. -/
theorem never_truncated_iff (Q : ContinuousQuery SourceChange Index Row) (E : Env) :
    NeverTruncated decode Q E ↔ (∀ src ∈ E.sources, ¬ src.RelayFails) ∨ ¬ NoVisibleFailure decode E := by
  obtain ⟨hgood, hbad⟩ := bootstrap_running decode Q E
  constructor
  · intro h
    by_cases hvisible : NoVisibleFailure decode E
    · exact .inl fun src hsrc hrelay => h.reaches src hsrc hrelay (hgood hvisible).1
    · exact .inr hvisible
  · rintro (h | h)
    · refine ⟨fun hrun => ?_, fun src hsrc hrelay => absurd hrelay (h src hsrc)⟩
      have hvisible : NoVisibleFailure decode E := by
        by_contra hnot
        exact hbad hnot hrun
      rw [(hgood hvisible).2, List.map_flatMap]
      refine List.flatMap_congr fun src hsrc => ?_
      obtain ⟨items, hseen⟩ := hvisible.sources src hsrc
      exact sourceChanges_eq decode hseen (h src hsrc)
    · exact ⟨fun hrun => absurd hrun (hbad h), fun _ _ _ => hbad h⟩

end Host

/-- `serde` on nodes without properties -/
def nodeDecode (line : Value) : Except String BootstrapElement :=
  match (line.get "id").asStr, (line.get "labels").labels with
  | some id, some labels => .ok ⟨id, labels, [], none, none⟩
  | none, _ => .error "missing field id"
  | _, none => .error "missing field labels"

/-- the query that returns the ids of all elements -/
def idQuery : ContinuousQuery SourceChange (List String) String where
  empty := []
  process change ids := change.id :: ids
  rows ids := ids.toFinset

def nodeLine (id : String) : Value := (BootstrapNode.element ⟨id, ["Person"], []⟩).json

/-- a source with two nodes, whose stream breaks after the first one; everything else answers -/
def truncatedSource : Source where
  id := "people"
  send := .ok ()
  dispatchControlEvent := .ok ()
  supportsStream := true
  acquire := .error "not supported"
  acquireStream := .ok ⟨[nodeLine "n1", nodeLine "n2"], some (1, "connection reset")⟩
  breaksAfter := none
  process _ := .ok ()
  publish _ := .accepted

def truncatedEnv : Env := ⟨false, [truncatedSource], .accepted, .ok (), .accepted⟩

/-- **The rest of the data is missing, and the query runs.** -/
theorem truncated_bootstrap_completes :
    Running (bootstrap nodeDecode idQuery truncatedEnv).effects ∧
      (processed (beforeCompleted (bootstrap nodeDecode idQuery truncatedEnv).effects)).map (·.id) = ["n1"] ∧
      ¬ NeverTruncated nodeDecode idQuery truncatedEnv := by
  have hvisible : NoVisibleFailure nodeDecode truncatedEnv := by
    refine ⟨by simp [truncatedEnv], by simp [truncatedEnv], fun src hsrc => ?_⟩
    obtain rfl : src = truncatedSource := by simpa [truncatedEnv] using hsrc
    exact ⟨_, rfl, rfl, by simp [truncatedSource], trivial⟩
  obtain ⟨hrun, hproc⟩ := (bootstrap_running nodeDecode idQuery truncatedEnv).1 hvisible
  refine ⟨hrun, by rw [hproc]; rfl, fun h => ?_⟩
  exact h.reaches truncatedSource (by simp [truncatedEnv]) ⟨rfl, _, rfl, rfl⟩ hrun

end DrasiPlatform.Bootstrap
