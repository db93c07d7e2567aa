/-
The resource services of the management API (`control-planes/mgmt_api/src/domain/resource_services`): `set` and `delete` of
the standard service (queries, query containers) and of the extensible one (sources, reactions).

Both services are generic in the specification, the validators and the actor behind the resource, as in the source. One
call sees the outcome of its repository write and the answer of the actor (`Call`). A write that reports an error may have
been applied all the same (the reply was lost).

`set` validates, WRITES the specification to the repository and only then asks the actor to configure itself; `delete`
asks the actor first and removes the specification last.

- `set_atomic_iff`: after a failed `set` the repository answers what it answered before, if and only if the request fails
  before the write, or the write is not applied, or nothing fails behind it, or the repository held that very
  specification already; for both services.
- `delete_atomic`: a `delete` that fails at the actor leaves the repository alone.
- `reconfigure_refused`: a query actor that is configured refuses, so every second `set` of a query fails and leaves the
  repository with a specification that the actor does not run.
Witness: `refused_set_changes_spec` (two `set`s of one query with different texts).
-/
import Mathlib.Tactic
import DrasiPlatform.QueryHost.Host

namespace DrasiPlatform.MgmtApi

/-! ## Model -/

inductive DomainError where
  | notFound
  | invalid (message : String)
  | queryContainerOffline
  | internal (inner : String)
  | undefinedSetting (message : String)
  | invalidSpec (message : String)
  | jsonParseError (message : String)
deriving DecidableEq, Repr

structure Resource (TSpec TStatus : Type) where
  id : String
  spec : TSpec
  status : Option TStatus
deriving DecidableEq, Repr

/-- what is sent to the actor -/
structure ResourceRequest (TApiSpec : Type) where
  id : String
  spec : TApiSpec
deriving DecidableEq, Repr

/-- `ResourceSpecRepository`: one document for each id -/
abbrev Repository (TSpec : Type) := String → Option TSpec

/-- the outcome of a write to the repository; a write that reports an error may have been applied -/
inductive Outcome where
  | ok
  | error (inner : String) (applied : Bool)
deriving DecidableEq, Repr

def Outcome.applied : Outcome → Bool
  | .ok => true
  | .error _ applied => applied

def Outcome.result : Outcome → Except DomainError Unit
  | .ok => .ok ()
  | .error inner _ => .error (.internal inner)

namespace Repository

variable {TSpec : Type}

def get (repo : Repository TSpec) (id : String) : Except DomainError TSpec :=
  match repo id with
  | some spec => .ok spec
  | none => .error .notFound

/-- `replace_one` with `upsert` -/
def set (repo : Repository TSpec) (id : String) (spec : TSpec) (outcome : Outcome) : Repository TSpec :=
  if outcome.applied then Function.update repo id (some spec) else repo

def delete (repo : Repository TSpec) (id : String) (outcome : Outcome) : Repository TSpec :=
  if outcome.applied then Function.update repo id none else repo

theorem get_eq_iff (repo repo' : Repository TSpec) (id : String) : repo.get id = repo'.get id ↔ repo id = repo' id := by
  unfold get
  cases repo id <;> cases repo' id <;> simp

end Repository

/-- the repository of a service and the actors behind its resources -/
structure World (TSpec Actors : Type) where
  repo : Repository TSpec
  actors : Actors

/-- what one call sees: the outcome of its repository write, and how the actor of a type and id answers a method -/
structure Call (TApiSpec Actors : Type) where
  write : Outcome
  configure : Actors → String → String → ResourceRequest TApiSpec → Except String Unit × Actors
  deprovision : Actors → String → String → Except String Unit × Actors

section

variable {TSpec TStatus TApiSpec Actors ProviderSpec : Type}

/-- the validators one after the other, up to the first error -/
def validateAll (validators : List (TSpec → Except DomainError Unit)) (spec : TSpec) : Except DomainError Unit :=
  match validators with
  | [] => .ok ()
  | validator :: validators =>
    match validator spec with
    | .ok _ => validateAll validators spec
    | .error e => .error e

/-- what both services do with a valid specification: the repository write, then `configure` of the actor -/
def store (actorType : TSpec → String) (into : TSpec → TApiSpec) (C : Call TApiSpec Actors) (w : World TSpec Actors)
    (id : String) (spec : TSpec) : Except DomainError (Resource TSpec TStatus) × World TSpec Actors :=
  let w := { w with repo := w.repo.set id spec C.write }
  match C.write.result with
  | .error e => (.error e, w)
  | .ok _ =>
    let request : ResourceRequest TApiSpec := ⟨id, into spec⟩
    match C.configure w.actors (actorType spec) id request with
    | (.error e, actors) => (.error (.internal e), { w with actors := actors })
    | (.ok _, actors) => (.ok ⟨id, spec, none⟩, { w with actors := actors })

/-- what both services do to remove a resource: `deprovision` of the actor, then the repository -/
def remove (actorType : TSpec → String) (C : Call TApiSpec Actors) (w : World TSpec Actors) (id : String) (spec : TSpec) :
    Except DomainError Unit × World TSpec Actors :=
  match C.deprovision w.actors (actorType spec) id with
  | (.error e, actors) => (.error (.internal e), { w with actors := actors })
  | (.ok _, actors) => (C.write.result, { repo := w.repo.delete id C.write, actors := actors })

/-- `StandardResourceDomainServiceImpl` -/
structure StandardService (TSpec TStatus TApiSpec : Type) where
  actorType : TSpec → String
  validators : List (TSpec → Except DomainError Unit)
  into : TSpec → TApiSpec

def StandardService.set (S : StandardService TSpec TStatus TApiSpec) (C : Call TApiSpec Actors) (w : World TSpec Actors)
    (id : String) (resource : TSpec) : Except DomainError (Resource TSpec TStatus) × World TSpec Actors :=
  match validateAll S.validators resource with
  | .error e => (.error e, w)
  | .ok _ => store S.actorType S.into C w id resource

def StandardService.delete (S : StandardService TSpec TStatus TApiSpec) (C : Call TApiSpec Actors) (w : World TSpec Actors)
    (id : String) : Except DomainError Unit × World TSpec Actors :=
  match w.repo.get id with
  | .error e => (.error e, w)
  | .ok spec => remove S.actorType C w id spec

/-- `ExtensibleResourceDomainServiceImpl`: the provider's schema gives default values and is validated against -/
structure ExtensibleService (TSpec TStatus TApiSpec ProviderSpec : Type) where
  kind : TSpec → String
  providerRepo : Repository ProviderSpec
  actorType : TSpec → String
  validators : List (ProviderSpec → TSpec → Except DomainError Unit)
  populateDefaultValues : TSpec → ProviderSpec → Except DomainError TSpec
  into : TSpec → TApiSpec

/-- the text of an error that is wrapped as an internal one -/
def DomainError.message : DomainError → String
  | .notFound => "Resource not found"
  | .invalid message => "Invalid: " ++ message
  | .queryContainerOffline => "QueryContainerOffline"
  | .internal inner => "Internal: " ++ inner
  | .undefinedSetting message => "UndefinedSetting: " ++ message
  | .invalidSpec message => "InvalidSpec: " ++ message
  | .jsonParseError message => "JsonParseError: " ++ message

/-- the first part of `set`: schema, default values, validation; the specification that will be stored -/
def ExtensibleService.prepare (X : ExtensibleService TSpec TStatus TApiSpec ProviderSpec) (source : TSpec) :
    Except DomainError TSpec :=
  match X.providerRepo.get (X.kind source) with
  | .error .notFound => .error (.invalid ("Schema not initialized for kind: " ++ X.kind source))
  | .error e => .error (.internal e.message)
  | .ok schema =>
    match X.populateDefaultValues source schema with
    | .error e => .error (.internal e.message)
    | .ok source =>
      match validateAll (X.validators.map fun validate => validate schema) source with
      | .error e => .error e
      | .ok _ => .ok source

def ExtensibleService.set (X : ExtensibleService TSpec TStatus TApiSpec ProviderSpec) (C : Call TApiSpec Actors)
    (w : World TSpec Actors) (id : String) (source : TSpec) :
    Except DomainError (Resource TSpec TStatus) × World TSpec Actors :=
  match X.prepare source with
  | .error e => (.error e, w)
  | .ok source => store X.actorType X.into C w id source

/-- the `deprovision` handlers of the services are called first; their errors are only logged -/
def ExtensibleService.delete (X : ExtensibleService TSpec TStatus TApiSpec ProviderSpec) (C : Call TApiSpec Actors)
    (w : World TSpec Actors) (id : String) : Except DomainError Unit × World TSpec Actors :=
  match w.repo.get id with
  | .error e => (.error e, w)
  | .ok spec => remove X.actorType C w id spec

/-! ## Atomicity -/

/-- if the call failed, the repository answers for the id what it answered before -/
def AtomicOnError {α : Type} (w : World TSpec Actors) (id : String) (answer : Except DomainError α × World TSpec Actors) :
    Prop :=
  ∀ e, answer.1 = .error e → answer.2.repo.get id = w.repo.get id

theorem repo_set_eq_iff (repo : Repository TSpec) (id : String) (spec : TSpec) (outcome : Outcome) :
    repo.set id spec outcome id = repo id ↔ outcome.applied = false ∨ repo id = some spec := by
  unfold Repository.set
  cases outcome.applied <;> simp [eq_comm]

/-- the common part of the two `set`s -/
theorem store_atomic_iff (actorType : TSpec → String) (into : TSpec → TApiSpec) (C : Call TApiSpec Actors)
    (w : World TSpec Actors) (id : String) (spec : TSpec) :
    AtomicOnError w id
        (store actorType into C w id spec : Except DomainError (Resource TSpec TStatus) × World TSpec Actors) ↔
      C.write.applied = false ∨ w.repo id = some spec ∨
        (C.write = .ok ∧ (C.configure w.actors (actorType spec) id ⟨id, into spec⟩).1 = .ok ()) := by
  have hunchanged : ∀ actors : Actors, ((⟨w.repo.set id spec C.write, actors⟩ : World TSpec Actors).repo.get id =
      w.repo.get id) ↔ C.write.applied = false ∨ w.repo id = some spec := by
    intro actors
    rw [Repository.get_eq_iff]
    exact repo_set_eq_iff _ _ _ _
  unfold AtomicOnError store
  cases hw : C.write with
  | error inner applied =>
    rw [hw] at hunchanged
    simpa [Outcome.result] using hunchanged w.actors
  | ok =>
    rw [hw] at hunchanged
    rcases hc : C.configure w.actors (actorType spec) id ⟨id, into spec⟩ with ⟨e | u, actors⟩
    · simpa [Outcome.result, hc] using hunchanged actors
    · simp [Outcome.result, hc]

/-- **When `set` is atomic on error.** In both services, for every resource id, every specification, every state of the
repository and of the actors and every outcome of the remote calls: if `set` fails, the repository answers for the id
what it answered before, exactly when the request is rejected before the write, or the write is not applied, or the
repository held the (default-merged) specification already, or the write and the actor's `configure` both succeed. -/
theorem set_atomic_iff (S : StandardService TSpec TStatus TApiSpec)
    (X : ExtensibleService TSpec TStatus TApiSpec ProviderSpec) (C : Call TApiSpec Actors) (w : World TSpec Actors) (id : String) (spec : TSpec) :
    (AtomicOnError w id (S.set C w id spec) ↔
      (∃ e, validateAll S.validators spec = .error e) ∨ C.write.applied = false ∨ w.repo id = some spec ∨
        (C.write = .ok ∧ (C.configure w.actors (S.actorType spec) id ⟨id, S.into spec⟩).1 = .ok ())) ∧
    (AtomicOnError w id (X.set C w id spec) ↔
      ∀ merged, X.prepare spec = .ok merged → C.write.applied = false ∨ w.repo id = some merged ∨
        (C.write = .ok ∧ (C.configure w.actors (X.actorType merged) id ⟨id, X.into merged⟩).1 = .ok ())) := by
  constructor
  · unfold StandardService.set
    cases hv : validateAll S.validators spec with
    | error e => simp [AtomicOnError]
    | ok u =>
      simp only [reduceCtorEq, exists_false, false_or]
      exact store_atomic_iff _ _ _ _ _ _
  · unfold ExtensibleService.set
    cases hp : X.prepare spec with
    | error e => simp [AtomicOnError]
    | ok merged =>
      simp only [Except.ok.injEq, forall_eq']
      exact store_atomic_iff _ _ _ _ _ _

/-- **`delete` is atomic when the actor fails**: nothing is removed before `deprovision` has succeeded. -/
theorem delete_atomic (S : StandardService TSpec TStatus TApiSpec)
    (X : ExtensibleService TSpec TStatus TApiSpec ProviderSpec) (C : Call TApiSpec Actors) (w : World TSpec Actors) (id : String)
    (hfail : ∀ actorType, ∃ e, (C.deprovision w.actors actorType id).1 = .error e) :
    (S.delete C w id).2.repo = w.repo ∧ (X.delete C w id).2.repo = w.repo := by
  have hremove : ∀ (actorType : TSpec → String) (spec : TSpec), (remove actorType C w id spec).2.repo = w.repo := by
    intro actorType spec
    obtain ⟨e, he⟩ := hfail (actorType spec)
    unfold remove
    rcases hd : C.deprovision w.actors (actorType spec) id with ⟨_ | u, actors⟩
    · rfl
    · rw [hd] at he; cases he
  constructor
  · unfold StandardService.delete
    split
    · rfl
    · exact hremove _ _
  · unfold ExtensibleService.delete
    split
    · rfl
    · exact hremove _ _

end

/-! ## Queries -/

structure QuerySubscription where
  id : String
  nodes : List String
  relations : List String
  pipeline : List String
deriving DecidableEq, Repr

structure SourceMiddlewareConfig where
  kind : String
  name : String
deriving DecidableEq, Repr

structure QuerySources where
  subscriptions : List QuerySubscription
  middleware : List SourceMiddlewareConfig
deriving DecidableEq, Repr

/-- the domain model's `QuerySpec` (joins, the view's settings and the middleware's own configuration are left out) -/
structure QuerySpec where
  container : String
  mode : String
  query : String
  sources : QuerySources
  storageProfile : Option String
  transient : Option Bool
deriving DecidableEq, Repr

structure QueryStatus where
  status : String
deriving DecidableEq, Repr

/-- the first middleware of a pipeline that is not defined, with the subscription that names it -/
def undefinedMiddleware (spec : QuerySpec) : Option (String × String) :=
  (spec.sources.subscriptions.flatMap fun sub => sub.pipeline.map fun mw => (mw, sub.id)).find? fun (mw, _) =>
    !(spec.sources.middleware.map (·.name)).contains mw

/-- `QuerySpecValidator`; `getContainer` answers whether the container's status says it is available, `none` if it has no
status -/
def querySpecValidator (getContainer : String → Except DomainError (Option Bool)) (spec : QuerySpec) :
    Except DomainError Unit :=
  match getContainer spec.container with
  | .error .notFound => .error (.invalid ("Query container " ++ spec.container ++ " does not exist"))
  | .error e => .error e
  | .ok status =>
    match undefinedMiddleware spec with
    | some (mw, sub) =>
      .error (.invalidSpec ("Middleware '" ++ mw ++ "' referenced in pipeline for subscription '" ++ sub ++
        "' is not defined in sources.middleware"))
    | none =>
      match status with
      | some true => .ok ()
      | _ => .error .queryContainerOffline

/-- `QueryDomainServiceImpl` -/
def queryService (getContainer : String → Except DomainError (Option Bool)) :
    StandardService QuerySpec QueryStatus QuerySpec where
  actorType spec := spec.container ++ ".ContinuousQuery"
  validators := [querySpecValidator getContainer]
  into spec := spec

/-- `QueryContainerDomainServiceImpl`: no validators -/
def queryContainerService {TSpec TStatus TApiSpec : Type} (into : TSpec → TApiSpec) :
    StandardService TSpec TStatus TApiSpec where
  actorType _ := "QueryContainerResource"
  validators := []
  into := into

/-- the response of `QueryActor::configure` and the configuration it leaves in the actor; `persist`, `reminder` and
`worker` are the outcomes of the three awaits -/
def queryActorConfigure {Spec : Type} (persist reminder worker : Bool) (config : Option Spec) (spec : Spec) :
    Except String Unit × Option Spec :=
  if config.isSome then (.error "409 Query already configured", config)
  else if !persist then (.error "500 Error persisting state", some spec)
  else if !reminder then (.error "500 Error registering reminder", some spec)
  else if !worker then (.error "500 Error initializing worker", some spec)
  else (.ok (), some spec)

/-- the query host refuses exactly as its own model does: a configured actor is left as it is -/
theorem queryActorConfigure_refused {Change Index Row : Type} (s : QueryHost.Host Change Index Row)
    (spec : QueryHost.QuerySpec) (h : s.actor.config.isSome = true) (persist reminder worker : Bool) :
    queryActorConfigure persist reminder worker s.actor.config spec =
      (.error "409 Query already configured", s.actor.config) ∧ QueryHost.configure s spec = s := by
  constructor
  · simp [queryActorConfigure, h]
  · obtain ⟨old, hold⟩ := Option.isSome_iff_exists.1 h
    simp [QueryHost.configure, hold]

/-- the query actors of a host: the configuration of each, by actor type and id -/
abbrev QueryActors := String → String → Option QuerySpec

/-- a call to the query service whose write succeeds; the actor's own awaits end as the three outcomes say -/
def queryCall (persist reminder worker : Bool) : Call QuerySpec QueryActors where
  write := .ok
  configure actors actorType id request :=
    let (answer, config) := queryActorConfigure persist reminder worker (actors actorType id) request.spec
    (answer, Function.update actors actorType (Function.update (actors actorType) id config))
  deprovision actors actorType id := (.ok (), Function.update actors actorType (Function.update (actors actorType) id none))

/-- **A configured query refuses.** When the actor of a query has a configuration, every valid `set` of the query fails,
and it leaves the repository with the new specification and the actor with the old one. -/
theorem reconfigure_refused (getContainer : String → Except DomainError (Option Bool)) (w : World QuerySpec QueryActors)
    (id : String) (old spec : QuerySpec) (hold : w.actors (spec.container ++ ".ContinuousQuery") id = some old)
    (hvalid : querySpecValidator getContainer spec = .ok ()) (persist reminder worker : Bool) :
    (((queryService getContainer).set (queryCall persist reminder worker) w id spec).1 =
        .error (.internal "409 Query already configured")) ∧
    ((queryService getContainer).set (queryCall persist reminder worker) w id spec).2.repo id = some spec ∧
    ((queryService getContainer).set (queryCall persist reminder worker) w id spec).2.actors
      (spec.container ++ ".ContinuousQuery") id = some old := by
  simp [StandardService.set, queryService, validateAll, hvalid, store, queryCall, Outcome.result, queryActorConfigure, hold,
    Repository.set, Outcome.applied]

/-- a query over one source -/
def itemQuery (query : String) : QuerySpec :=
  ⟨"default", "query", query, ⟨[⟨"shop", ["Item"], [], []⟩], []⟩, none, none⟩

/-- the first `set` of the query, on an empty platform with the container available -/
def firstSet : Except DomainError (Resource QuerySpec QueryStatus) × World QuerySpec QueryActors :=
  (queryService fun _ => .ok (some true)).set (queryCall true true true) ⟨fun _ => none, fun _ _ => none⟩ "q"
    (itemQuery "MATCH (i) RETURN i")

/-- the second one, with another text -/
def secondSet : Except DomainError (Resource QuerySpec QueryStatus) × World QuerySpec QueryActors :=
  (queryService fun _ => .ok (some true)).set (queryCall true true true) firstSet.2 "q" (itemQuery "MATCH (i) RETURN i.id")

/-- **A refused `set` changes the specification.** A query is set, and set again with another text: the second call fails
because the actor is configured, and the repository holds the second text. -/
theorem refused_set_changes_spec :
    firstSet.1 = .ok ⟨"q", itemQuery "MATCH (i) RETURN i", none⟩ ∧
    secondSet.1 = .error (.internal "409 Query already configured") ∧
    firstSet.2.repo.get "q" = .ok (itemQuery "MATCH (i) RETURN i") ∧
    secondSet.2.repo.get "q" = .ok (itemQuery "MATCH (i) RETURN i.id") ∧
    ¬ AtomicOnError firstSet.2 "q" secondSet := by
  refine ⟨rfl, rfl, rfl, rfl, ?_⟩
  intro h
  have hrepo := h _ rfl
  rw [Repository.get_eq_iff] at hrepo
  revert hrepo
  decide

end DrasiPlatform.MgmtApi
