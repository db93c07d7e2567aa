/-
The reconciler of a resource (`control-planes/kubernetes_provider/src/controller/reconciler.rs`): one pass over the objects
a `KubernetesSpec` describes, kind by kind, and the removal of them.

Every kind looks its object up, creates it when the API answers 404, and otherwise decides by its own test whether to
write: config maps, the pub/sub component and ingresses compare the data or the spec, the deployment and the service
account compare the annotation `drasi/spechash` with a hash of the spec, volume claims are never written again. The
deployment is merged (`Patch::Merge`), the others are replaced. An error ends the kind and is logged, a panic (`unwrap` of a
missing annotation) ends the task.

Services are looked up under their short name and created under `resource_id-name`, without an annotation.

What a spec builder promises is `WellFormed`: keys of maps differ, an object carries the name it is listed under, and no
spec manages `drasi-config`. The status of the deployment is left out.

- `quiet_createOrUpdate_iff`: an object is left in peace iff it is there and up to date.
- `eval_logAll`: an error ends its kind, a panic the pass.
- `mem_deletions`: a removal deletes what the spec describes, but for the component and the volume claims.
- `uses_reconcile`: a pass, or a removal, reads and writes the objects of its spec and no other.
- `eval_kinds`: the kinds are independent; each leaves what it would leave alone.
-/
import Mathlib.Tactic
import DrasiPlatform.Core.Programs
import DrasiPlatform.Provider.Cluster

namespace DrasiPlatform.Provider

open DrasiPlatform.Programs

/-! ## Model -/

structure KubernetesSpec (D : Type) where
  resourceId : String
  serviceName : String
  deployment : DeploymentSpec D
  services : List (String × D)
  configMaps : List (String × Object D)
  volumeClaims : List (String × Object D)
  ingresses : Option (List (String × Object D))
  pubSub : Option (Object D)
  serviceAccount : Option (Object D)
  removed : Bool
deriving DecidableEq

inductive Stop where
  | api (code : ℕ)
  | panic
deriving DecidableEq

variable {D : Type}

abbrev Task (D α : Type) := Prog (Request D) (Response D) Stop α

/-- the call, with its error passed on -/
def expect (q : Request D) : Task D Unit := do
  match ← Prog.ask q with
  | .error code => .stop (.api code)
  | _ => pure ()

/-- the call, where an object that is missing is no error -/
def ignoreMissing (q : Request D) : Task D Unit := do
  match ← Prog.ask q with
  | .error code => if code = 404 then pure () else .stop (.api code)
  | _ => pure ()

/-- get the object; create it when it is missing, update it when it is not up to date. A test that answers nothing is an
`unwrap` that panics -/
def createOrUpdate (key : Key) (object : Object D) (upToDate : Object D → Option Bool) (update : Request D) :
    Task D Unit := do
  match ← Prog.ask (.get key) with
  | .found current =>
    match upToDate current with
    | none => .stop .panic
    | some true => pure ()
    | some false => expect update
  | .error code => if code = 404 then expect (.create key.kind object) else .stop (.api code)
  | _ => pure ()

/-- `metadata.annotations.unwrap()["drasi/spechash"]` -/
def specHash (object : Object D) : Option String := object.metadata.annotations.bind (List.lookup "drasi/spechash")

/-- an annotation is set, in a new map if there is none -/
def annotate (key value : String) (object : Object D) : Object D :=
  { object with
    metadata := { object.metadata with annotations := some (insertEntry key value (object.metadata.annotations.getD [])) } }

namespace KubernetesSpec

variable (env : Env D) (spec : KubernetesSpec D)

/-- `format!("{}-{}", resource_id, name)` -/
def fullName (name : String) : String := spec.resourceId ++ "-" ++ name

/-- `calc_deployment_hash` -/
def deploymentHash : String := env.hashDeployment spec.deployment spec.configMaps

/-- `calc_service_account_hash` -/
def serviceAccountHash : String := env.hashServiceAccount spec.serviceAccount

def deploymentKey : Key := ⟨.deployment, spec.fullName spec.serviceName⟩

/-- the names of the objects the spec describes -/
def names : Kind → List String
  | .deployment => [spec.fullName spec.serviceName]
  | .service => spec.services.map fun p => spec.fullName p.1
  | .ingress => (spec.ingresses.getD []).map Prod.fst
  | .configMap => spec.configMaps.map Prod.fst
  | .volumeClaim => spec.volumeClaims.map Prod.fst
  | .component => spec.pubSub.toList.map fun p => p.metadata.name.getD ""
  | .serviceAccount => spec.serviceAccount.toList.map fun a => a.metadata.name.getD ""

def deploymentObject : Object D where
  metadata := ⟨some (spec.fullName spec.serviceName), spec.deployment.matchLabels,
    some [("drasi/spechash", spec.deploymentHash env)]⟩
  body := .deployment { spec.deployment with strategy := some "RollingUpdate" }

def serviceObject (name : String) (service : D) : Object D where
  metadata := ⟨some (spec.fullName name), spec.deployment.matchLabels, none⟩
  body := .other service

end KubernetesSpec

/-- the part of an object that config maps, components and ingresses are compared by -/
def Body.same [DecidableEq D] : Body D → Body D → Bool
  | .deployment s, .deployment s' => s = s'
  | .configMap d _, .configMap d' _ => d = d'
  | .ingress s, .ingress s' => s = s'
  | .other s, .other s' => s = s'
  | _, _ => false

/-! ### Ingresses -/

structure IngressConfig where
  service : String
  namespace_ : String
  className : String
  ip : Option String
  annotations : Entries
deriving DecidableEq

/-- `char::is_whitespace` -/
def isWhitespace (c : Char) : Bool :=
  (9 ≤ c.toNat && c.toNat ≤ 13) || (0x2000 ≤ c.toNat && c.toNat ≤ 0x200a) ||
    [0x20, 0x85, 0xa0, 0x1680, 0x2028, 0x2029, 0x202f, 0x205f, 0x3000].contains c.toNat

def trim (s : String) : String :=
  String.ofList (((s.toList.dropWhile isWhitespace).reverse.dropWhile isWhitespace).reverse)

/-- `split_once('=')` -/
def splitOnce (pair : String) : Option (String × String) :=
  match pair.splitOn "=" with
  | k :: v :: rest => some (k, "=".intercalate (v :: rest))
  | _ => none

def parseIngressAnnotations (text : String) : Entries :=
  ((text.splitOn ",").filterMap splitOnce).foldl (fun m p => insertEntry (trim p.1) (trim p.2) m) []

/-- a setting that is there and not empty -/
def setting (data : Entries) (key : String) : Option String := (data.lookup key).filter (· ≠ "")

/-- the settings of `drasi-config` over the defaults of the process -/
def ingressConfig (env : Env D) (current : Option (Object D)) : IngressConfig :=
  match current.map Object.body with
  | some (.configMap (some data) _) =>
    { service := (setting data "INGRESS_LOAD_BALANCER_SERVICE").getD env.runtimeConfig.ingressLoadBalancerService
      namespace_ := (setting data "INGRESS_LOAD_BALANCER_NAMESPACE").getD env.runtimeConfig.ingressLoadBalancerNamespace
      className := (setting data "INGRESS_CLASS_NAME").getD env.runtimeConfig.ingressClassName
      ip := setting data "INGRESS_IP"
      annotations := ((data.lookup "INGRESS_ANNOTATIONS").map parseIngressAnnotations).getD [] }
  | _ =>
    { service := env.runtimeConfig.ingressLoadBalancerService
      namespace_ := env.runtimeConfig.ingressLoadBalancerNamespace
      className := env.runtimeConfig.ingressClassName
      ip := none
      annotations := [] }

def getDynamicIngressConfig (env : Env D) : Task D IngressConfig := do
  match ← Prog.ask (.get drasiConfig) with
  | .found object => pure (ingressConfig env (some object))
  | _ => pure (ingressConfig env none)

def getIngressExternalIp (env : Env D) : Task D (Option String) := do
  let config ← getDynamicIngressConfig env
  match config.ip with
  | some ip => pure (some ip)
  | none =>
    match ← Prog.ask (.loadBalancer config.namespace_ config.service) with
    | .address host => pure host
    | _ => pure none

/-- the host of a rule: without an address there is no host in place of a placeholder -/
def renderHost (ip : Option String) (host : String) : Option String :=
  if host.contains "PLACEHOLDER" then ip.map fun ip => host.replace "PLACEHOLDER" (ip ++ ".nip.io") else some host

def renderRule (ip : Option String) (rule : IngressRule D) : IngressRule D where
  host := rule.host.bind (renderHost ip)
  paths := rule.paths.map fun paths => paths.map fun path => { path with pathType := "Prefix" }

/-- the ingress with the dynamic configuration -/
def renderIngress (config : IngressConfig) (ip : Option String) (ingress : Object D) : Object D :=
  let annotated := config.annotations.foldl (fun o e => annotate e.1 e.2 o) ingress
  match annotated.body with
  | .ingress (some spec) =>
    { annotated with
      body := .ingress (some
        { spec with
          ingressClassName := some config.className
          rules := spec.rules.map fun rules => rules.map (renderRule ip) }) }
  | _ => annotated

/-! ### One pass -/

/-- an error is logged, a panic ends the task -/
def logged (p : Task D Unit) : Task D (List ℕ) :=
  (p.bind fun _ => .ret []).handle fun
    | .api code => .ret [code]
    | .panic => .stop .panic

/-- one after the other, with the errors that are logged -/
def logAll : List (Task D Unit) → Task D (List ℕ)
  | [] => .ret []
  | p :: ps => do
    let errors ← logged p
    let rest ← logAll ps
    pure (errors ++ rest)

/-- the deployment, the services, the config maps, the ingresses and the service account are deleted -/
def deprovision (spec : KubernetesSpec D) : Task D Unit := do
  ignoreMissing (.delete spec.deploymentKey)
  .forEach (fun p => ignoreMissing (.delete ⟨.service, spec.fullName p.1⟩)) spec.services
  .forEach (fun p => ignoreMissing (.delete ⟨.configMap, p.1⟩)) spec.configMaps
  .forEach (fun p => ignoreMissing (.delete ⟨.ingress, p.1⟩)) (spec.ingresses.getD [])
  match spec.serviceAccount.bind (·.metadata.name) with
  | some name => ignoreMissing (.delete ⟨.serviceAccount, name⟩)
  | none => pure ()

section

variable [DecidableEq D] (env : Env D) (spec : KubernetesSpec D)

def reconcileConfigMaps : Task D Unit :=
  .forEach (fun p => createOrUpdate ⟨.configMap, p.1⟩ p.2 (fun c => some (c.body.same p.2.body))
    (.replace ⟨.configMap, p.1⟩ p.2)) spec.configMaps

/-- `entry(name).or_insert(..).commit(..)` -/
def reconcilePersistentVolumeClaims : Task D Unit :=
  .forEach (fun p => createOrUpdate ⟨.volumeClaim, p.1⟩ p.2 (fun _ => some true) (.replace ⟨.volumeClaim, p.1⟩ p.2))
    spec.volumeClaims

def reconcileComponents : Task D Unit :=
  match spec.pubSub with
  | none => .ret ()
  | some pubSub =>
    match pubSub.metadata.name with
    | none => .stop .panic
    | some name =>
      createOrUpdate ⟨.component, name⟩ pubSub (fun c => some (c.body.same pubSub.body)) (.replace ⟨.component, name⟩ pubSub)

def reconcileServiceAccount : Task D Unit :=
  match spec.serviceAccount with
  | none => .ret ()
  | some account =>
    let newAccount := annotate "drasi/spechash" (spec.serviceAccountHash env) account
    match account.metadata.name with
    | none => .stop .panic
    | some name =>
      createOrUpdate ⟨.serviceAccount, name⟩ newAccount
        (fun c => (specHash c).map fun h => h = spec.serviceAccountHash env) (.replace ⟨.serviceAccount, name⟩ newAccount)

def reconcileDeployment : Task D Unit :=
  createOrUpdate spec.deploymentKey (spec.deploymentObject env)
    (fun c => (specHash c).map fun h => h = spec.deploymentHash env)
    (.patch spec.deploymentKey (spec.deploymentObject env))

/-- looked up by `name`, created as `resource_id-name` -/
def reconcileServices : Task D Unit :=
  .forEach (fun p => createOrUpdate ⟨.service, p.1⟩ (spec.serviceObject p.1 p.2)
    (fun c => (specHash c).map fun h => h = spec.deploymentHash env)
    (.replace ⟨.service, p.1⟩ (spec.serviceObject p.1 p.2))) spec.services

def reconcileIngresses : Task D Unit :=
  match spec.ingresses with
  | none => .ret ()
  | some ingresses => do
    let ip ← getIngressExternalIp env
    .forEach (fun p => do
      let config ← getDynamicIngressConfig env
      let ingress := renderIngress config ip p.2
      createOrUpdate ⟨.ingress, p.1⟩ ingress (fun c => some (c.body.same ingress.body)) (.replace ⟨.ingress, p.1⟩ ingress))
      ingresses

def reconcileKind : Kind → Task D Unit
  | .configMap => reconcileConfigMaps spec
  | .volumeClaim => reconcilePersistentVolumeClaims spec
  | .component => reconcileComponents spec
  | .serviceAccount => reconcileServiceAccount env spec
  | .deployment => reconcileDeployment env spec
  | .service => reconcileServices env spec
  | .ingress => reconcileIngresses env spec

/-- the kinds in the order of `reconcile` -/
def passOrder : List Kind :=
  [.configMap, .volumeClaim, .component, .serviceAccount, .deployment, .service, .ingress]

/-- one pass, with the errors that are logged -/
def reconcile : Task D (List ℕ) :=
  if spec.removed then logged (deprovision spec) else logAll (passOrder.map (reconcileKind env spec))

end

/-! ## One object -/

section

variable {env : Env D} {c : Cluster D} {key : Key} {object current : Object D} {upToDate : Object D → Option Bool}
  {update : Request D}

theorem serve_get (key : Key) (c : Cluster D) : (apiServer env).serve (.get key) c = c :=
  Server.serve_of_isRead (isRead_get key) c

theorem answered_get (key : Key) (c : Cluster D) :
    (apiServer env).answered (.get key) c = (match c key with | some o => .found o | none => .error 404) := by
  simp only [Server.answered, apiServer, Request.key]
  cases c key <;> rfl

theorem eval_upToDate (h : c key = some current) (hc : upToDate current = some true) :
    (apiServer env).eval (createOrUpdate key object upToDate update) c = ⟨.ok (), c, [.get key]⟩ := by
  simp [createOrUpdate, Server.eval, answered_get, serve_get, h, hc]

theorem eval_panic (h : c key = some current) (hc : upToDate current = none) :
    (apiServer env).eval (createOrUpdate key object upToDate update) c = ⟨.error .panic, c, [.get key]⟩ := by
  simp [createOrUpdate, Server.eval, answered_get, serve_get, h, hc]

theorem eval_expect_done {q : Request D} (h : (apiServer env).answered q c = .done) :
    (apiServer env).eval (expect q) c = ⟨.ok (), (apiServer env).serve q c, [q]⟩ := by
  simp [expect, Server.eval, h]

theorem eval_expect_error {q : Request D} (code : ℕ) (h : (apiServer env).answered q c = .error code) :
    (apiServer env).eval (expect q) c = ⟨.error (.api code), (apiServer env).serve q c, [q]⟩ := by
  simp [expect, Server.eval, h]

theorem eval_missing (h : c key = none) :
    (apiServer env).eval (createOrUpdate key object upToDate update) c =
      ⟨((apiServer env).eval (expect (.create key.kind object)) c).result,
        ((apiServer env).eval (expect (.create key.kind object)) c).store,
        .get key :: ((apiServer env).eval (expect (.create key.kind object)) c).requests⟩ := by
  simp [createOrUpdate, Server.eval, answered_get, serve_get, h]

theorem eval_outdated (h : c key = some current) (hc : upToDate current = some false) :
    (apiServer env).eval (createOrUpdate key object upToDate update) c =
      ⟨((apiServer env).eval (expect update) c).result, ((apiServer env).eval (expect update) c).store,
        .get key :: ((apiServer env).eval (expect update) c).requests⟩ := by
  simp [createOrUpdate, Server.eval, answered_get, serve_get, h, hc]

theorem eval_create {kind : Kind} {name : String} (hn : object.metadata.name = some name) (hfree : c ⟨kind, name⟩ = none) :
    (apiServer env).eval (expect (.create kind object)) c =
      ⟨.ok (), Function.update c ⟨kind, name⟩ (some object), [.create kind object]⟩ := by
  rw [eval_expect_done]
  · simp [Server.serve, apiServer, Request.key, Request.effect, hn, hfree]
  · simp [Server.answered, apiServer, Request.key, Request.answer, hn, hfree]

theorem eval_create_taken {kind : Kind} {name : String} (hn : object.metadata.name = some name)
    (htaken : c ⟨kind, name⟩ = some current) :
    (apiServer env).eval (expect (.create kind object)) c = ⟨.error (.api 409), c, [.create kind object]⟩ := by
  rw [eval_expect_error 409]
  · have hserve : (apiServer env).serve (.create kind object) c = Function.update c ⟨kind, name⟩ (c ⟨kind, name⟩) := by
      simp [Server.serve, apiServer, Request.key, Request.effect, hn, htaken]
    rw [hserve, Function.update_eq_self]
  · simp [Server.answered, apiServer, Request.key, Request.answer, hn, htaken]

theorem eval_replace (hn : object.metadata.name = some key.name) (h : c key = some current) :
    (apiServer env).eval (expect (.replace key object)) c =
      ⟨.ok (), Function.update c key (some object), [.replace key object]⟩ := by
  rw [eval_expect_done]
  · simp [Server.serve, apiServer, Request.key, Request.effect, hn, h]
  · simp [Server.answered, apiServer, Request.key, Request.answer, hn, h]

theorem eval_patch (h : c key = some current) :
    (apiServer env).eval (expect (.patch key object)) c =
      ⟨.ok (), Function.update c key (some (env.mergePatch current object)), [.patch key object]⟩ := by
  rw [eval_expect_done]
  · simp [Server.serve, apiServer, Request.key, Request.effect, h]
  · simp [Server.answered, apiServer, Request.key, Request.answer, h]

theorem requests_expect (q : Request D) (c : Cluster D) : ((apiServer env).eval (expect q) c).requests = [q] := by
  simp only [expect, Prog.bind_eq, Prog.ask_bind, Server.eval]
  split <;> rfl

/-- no call is made that creates, replaces, patches or deletes -/
def Quiet (env : Env D) {α : Type} (p : Task D α) (c : Cluster D) (a : α) : Prop :=
  (apiServer env).Silent (fun q => q.isMutation = false) p c a

/-- **An object is left in peace** iff it is there and up to date. -/
theorem quiet_createOrUpdate_iff (hu : update.isMutation = true) :
    Quiet env (createOrUpdate key object upToDate update) c () ↔
      ∃ current, c key = some current ∧ upToDate current = some true := by
  unfold Quiet Server.Silent
  rcases hc : c key with _ | current
  · rw [eval_missing hc, requests_expect]
    simp [Request.isMutation]
  · rcases hup : upToDate current with _ | _ | _
    · rw [eval_panic hc hup]
      simp [hup]
    · rw [eval_outdated hc hup, requests_expect]
      simp [hu, hup]
    · rw [eval_upToDate hc hup]
      simp [hup, Request.isMutation]

/-- what a replaced object is afterwards -/
def settled (same : Object D → Bool) (object : Object D) : Option (Object D) → Object D
  | some current => if same current then current else object
  | none => object

/-- an object that carries its name, and is replaced when it is not the same -/
theorem eval_item {same : Object D → Bool} (hn : object.metadata.name = some key.name) :
    ((apiServer env).eval (createOrUpdate key object (fun c => some (same c)) (.replace key object)) c).result = .ok () ∧
      ((apiServer env).eval (createOrUpdate key object (fun c => some (same c)) (.replace key object)) c).store =
        Function.update c key (some (settled same object (c key))) := by
  rcases hc : c key with _ | current
  · rw [eval_missing hc, eval_create hn hc]
    exact ⟨rfl, rfl⟩
  · rcases hs : same current with _ | _
    · rw [eval_outdated hc (by rw [hs]), eval_replace hn hc]
      simp [settled, hs]
    · rw [eval_upToDate hc (by rw [hs])]
      simp [settled, hs, ← hc]

theorem settled_eq_iff {same : Object D → Bool} (object : Object D) (current : Option (Object D)) :
    settled same object current = object ↔ ∀ o, current = some o → same o = true → o = object := by
  rcases current with _ | o
  · simp [settled]
  · by_cases hs : same o = true
    · simp [settled, hs]
    · simp [settled, hs]

end

/-! ## One pass -/

section

variable {env : Env D} {spec : KubernetesSpec D} {c : Cluster D}

theorem eval_logged (env : Env D) (p : Task D Unit) (c : Cluster D) :
    ((apiServer env).eval (logged p) c).store = ((apiServer env).eval p c).store ∧
      ((apiServer env).eval (logged p) c).requests = ((apiServer env).eval p c).requests ∧
      ((apiServer env).eval (logged p) c).result = (match ((apiServer env).eval p c).result with
        | .ok _ => .ok []
        | .error (.api code) => .ok [code]
        | .error .panic => .error .panic) := by
  unfold logged
  rcases hp : ((apiServer env).eval p c).result with (code | _) | ⟨⟩
  · have hb := Server.eval_bind_error (f := fun _ => (Prog.ret [] : Task D (List ℕ))) hp
    rw [Server.eval_handle_error (e := .api code) (by rw [hb]), hb]
    simp [Server.eval]
  · have hb := Server.eval_bind_error (f := fun _ => (Prog.ret [] : Task D (List ℕ))) hp
    rw [Server.eval_handle_error (e := .panic) (by rw [hb]), hb]
    simp [Server.eval]
  · have hb := Server.eval_bind_ok (f := fun _ => (Prog.ret [] : Task D (List ℕ))) hp
    rw [Server.eval_handle_ok (a := []) (by rw [hb]; rfl), hb]
    simp [Server.eval]

/-- the result is no panic -/
def NoPanic {α : Type} : Except Stop α → Prop
  | .error .panic => False
  | _ => True

theorem eval_logAll (env : Env D) (ps : List (Task D Unit)) (c : Cluster D) :
    ((∃ errors, ((apiServer env).eval (logAll ps) c).result = .ok errors) ↔ (apiServer env).EachResult NoPanic ps c) ∧
      ((apiServer env).EachResult NoPanic ps c →
        ((apiServer env).eval (logAll ps) c).store = (apiServer env).storeAfter ps c) := by
  induction ps generalizing c with
  | nil => exact ⟨by simp [logAll, Server.eval, Server.EachResult], fun _ => rfl⟩
  | cons p ps ih =>
    obtain ⟨hstore, -, hres⟩ := eval_logged env p c
    obtain ⟨ihdone, ihstore⟩ := ih ((apiServer env).eval p c).store
    have hcont : ∀ errors, ((apiServer env).eval (logged p) c).result = .ok errors →
        ((∃ l, ((apiServer env).eval (logAll (p :: ps)) c).result = .ok l) ↔
          ∃ l, ((apiServer env).eval (logAll ps) ((apiServer env).eval p c).store).result = .ok l) ∧
        ((∃ l, ((apiServer env).eval (logAll ps) ((apiServer env).eval p c).store).result = .ok l) →
          ((apiServer env).eval (logAll (p :: ps)) c).store =
            ((apiServer env).eval (logAll ps) ((apiServer env).eval p c).store).store) := by
      intro errors herr
      rw [logAll, Prog.bind_eq, Server.eval_bind_ok herr, hstore]
      simp only [Prog.bind_eq]
      rcases hps : ((apiServer env).eval (logAll ps) ((apiServer env).eval p c).store).result with e | l
      · rw [Server.eval_bind_error hps]
        simp
      · rw [Server.eval_bind_ok hps]
        simp [Server.eval]
    rcases hp : ((apiServer env).eval p c).result with (code | _) | ⟨⟩
    · rw [hp] at hres
      obtain ⟨hdone, hst⟩ := hcont [code] hres
      rw [hdone, ihdone, Server.EachResult, hp]
      refine ⟨by simp [NoPanic], fun h => ?_⟩
      exact (hst (ihdone.2 h.2)).trans (ihstore h.2)
    · rw [hp] at hres
      rw [logAll, Prog.bind_eq, Server.eval_bind_error hres, Server.EachResult, hp]
      simp [NoPanic]
    · rw [hp] at hres
      obtain ⟨hdone, hst⟩ := hcont [] hres
      rw [hdone, ihdone, Server.EachResult, hp]
      refine ⟨by simp [NoPanic], fun h => ?_⟩
      exact (hst (ihdone.2 h.2)).trans (ihstore h.2)

theorem quiet_logged_iff (p : Task D Unit) (c : Cluster D) : Quiet env (logged p) c [] ↔ Quiet env p c () := by
  obtain ⟨-, hreq, hres⟩ := eval_logged env p c
  unfold Quiet Server.Silent
  rw [hreq, hres]
  rcases ((apiServer env).eval p c).result with (code | _) | ⟨⟩ <;> simp

theorem quiet_logAll_iff (ps : List (Task D Unit)) (c : Cluster D) :
    Quiet env (logAll ps) c [] ↔ ∀ p ∈ ps, Quiet env p c () := by
  have hreads : ∀ q : Request D, q.isMutation = false → (apiServer env).IsRead q := fun _ => isRead_of_not_isMutation
  induction ps with
  | nil => simp [Quiet, Server.Silent, logAll, Server.eval]
  | cons p ps ih =>
    have hsplit : Quiet env (logAll (p :: ps)) c [] ↔ Quiet env (logged p) c [] ∧ Quiet env (logAll ps) c [] := by
      unfold Quiet
      rw [logAll, Prog.bind_eq, Server.silent_bind_iff hreads]
      simp only [Prog.bind_eq, Server.silent_bind_iff hreads]
      constructor
      · rintro ⟨a, ha, b, hb, hend⟩
        have hnil : a ++ b = [] := by
          have hret := hend.1
          simp only [Server.eval, Prog.pure_eq, Except.ok.injEq] at hret
          exact hret
        obtain ⟨rfl, rfl⟩ := List.append_eq_nil_iff.1 hnil
        exact ⟨ha, hb⟩
      · rintro ⟨ha, hb⟩
        exact ⟨[], ha, [], hb, rfl, by simp [Server.eval]⟩
    rw [hsplit, quiet_logged_iff, List.forall_mem_cons]
    exact and_congr_right fun _ => ih

/-! ## What a spec builder promises -/

/-- a map of objects that carry the names they are listed under -/
def Listed (l : List (String × Object D)) : Prop := (l.map Prod.fst).Nodup ∧ ∀ p ∈ l, p.2.metadata.name = some p.1

structure WellFormed (spec : KubernetesSpec D) : Prop where
  configMaps : Listed spec.configMaps
  volumeClaims : Listed spec.volumeClaims
  ingresses : Listed (spec.ingresses.getD [])
  services : (spec.services.map Prod.fst).Nodup
  pubSub : ∀ p ∈ spec.pubSub, p.metadata.name.isSome
  serviceAccount : ∀ a ∈ spec.serviceAccount, a.metadata.name.isSome
  drasiConfig : "drasi-config" ∉ spec.configMaps.map Prod.fst

/-! ## What a kind asks -/

/-- a kind writes its objects -/
def writeKeys (spec : KubernetesSpec D) (kind : Kind) : Set Key := {k | k.kind = kind ∧ k.name ∈ spec.names kind}

/-- and reads them, the services under their short names, and `drasi-config` -/
def readKeys (spec : KubernetesSpec D) (kind : Kind) : Set Key :=
  {k | k ∈ writeKeys spec kind ∨ (kind = .service ∧ k.kind = .service ∧ k.name ∈ spec.services.map Prod.fst) ∨
    k = drasiConfig}

/-- what a piece of the kind may ask -/
def OfKind (env : Env D) (spec : KubernetesSpec D) (kind : Kind) (q : Request D) : Prop :=
  q.key ∈ readKeys spec kind ∧ ((apiServer env).IsRead q ∨ q.key ∈ writeKeys spec kind)

theorem drasiConfig_notMem_writeKeys (h : WellFormed spec) (kind : Kind) : drasiConfig ∉ writeKeys spec kind := by
  rintro ⟨rfl, hname⟩
  exact h.drasiConfig hname

theorem disjoint_keys (h : WellFormed spec) (i j : Kind) (hij : i ≠ j) : Disjoint (writeKeys spec i) (readKeys spec j) := by
  rw [Set.disjoint_left]
  rintro k hw (hr | hr | rfl)
  · exact hij (hw.1.symm.trans hr.1)
  · exact hij (hw.1.symm.trans (hr.2.1.trans hr.1.symm))
  · exact drasiConfig_notMem_writeKeys h i hw

theorem ofKind_get {kind : Kind} {name : String} (h : name ∈ spec.names kind) : OfKind env spec kind (.get ⟨kind, name⟩) :=
  ⟨.inl ⟨rfl, h⟩, .inl (isRead_get _)⟩

theorem ofKind_write {kind : Kind} {name : String} (h : name ∈ spec.names kind) {q : Request D} (hq : q.key = ⟨kind, name⟩) :
    OfKind env spec kind q := by
  have hw : q.key ∈ writeKeys spec kind := by
    rw [hq]
    exact ⟨rfl, h⟩
  exact ⟨.inl hw, .inr hw⟩

theorem uses_expect {P : Request D → Prop} {q : Request D} (h : P q) : (expect q).Uses P := by
  refine ⟨h, ?_⟩
  intro a
  cases a <;> trivial

theorem uses_ignoreMissing {P : Request D → Prop} {q : Request D} (h : P q) : (ignoreMissing q).Uses P := by
  refine ⟨h, ?_⟩
  intro a
  rcases a with current | _ | code | _
  · trivial
  · trivial
  · by_cases hc : code = 404
    · simp [hc, Prog.Uses]
    · simp [hc, Prog.Uses]
  · trivial

theorem uses_createOrUpdate {P : Request D → Prop} {key : Key} {object : Object D} {upToDate : Object D → Option Bool}
    {update : Request D} (hget : P (.get key)) (hcreate : P (.create key.kind object)) (hupdate : P update) :
    (createOrUpdate key object upToDate update).Uses P := by
  refine ⟨hget, ?_⟩
  intro a
  rcases a with current | _ | code | _
  · rcases hup : upToDate current with _ | _ | _
    · simp [Prog.Uses, hup]
    · simpa [hup] using uses_expect hupdate
    · simp [Prog.Uses, hup]
  · trivial
  · by_cases hc : code = 404
    · simpa [hc] using uses_expect hcreate
    · simp [hc, Prog.Uses]
  · trivial

/-- an object of the spec that carries its name -/
theorem uses_object {kind : Kind} {name : String} (h : name ∈ spec.names kind) {object : Object D}
    {upToDate : Object D → Option Bool} {update : Request D} (hn : object.metadata.name = some name)
    (hupdate : update.key = ⟨kind, name⟩) :
    (createOrUpdate ⟨kind, name⟩ object upToDate update).Uses (OfKind env spec kind) := by
  refine uses_createOrUpdate (ofKind_get h) (ofKind_write h ?_) (ofKind_write h hupdate)
  simp [Request.key, hn]

theorem uses_getDynamicIngressConfig {kind : Kind} : (getDynamicIngressConfig env).Uses (OfKind env spec kind) := by
  refine ⟨⟨.inr (.inr rfl), .inl (isRead_get _)⟩, ?_⟩
  intro a
  cases a <;> trivial

theorem uses_getIngressExternalIp {kind : Kind} : (getIngressExternalIp env).Uses (OfKind env spec kind) := by
  refine Prog.uses_bind uses_getDynamicIngressConfig ?_
  intro config
  rcases config.ip with _ | ip
  · refine ⟨⟨.inr (.inr rfl), .inl (isRead_loadBalancer _ _)⟩, ?_⟩
    intro a
    cases a <;> trivial
  · trivial

theorem fullName_ne (spec : KubernetesSpec D) (name : String) : spec.fullName name ≠ name := by
  intro h
  have hlen := congrArg String.length h
  simp only [KubernetesSpec.fullName, String.length_append] at hlen
  have hdash : "-".length = 1 := rfl
  omega

theorem renderIngress_name (config : IngressConfig) (ip : Option String) (ingress : Object D) :
    (renderIngress config ip ingress).metadata.name = ingress.metadata.name := by
  have hfold : ∀ (l : Entries) (o : Object D),
      (l.foldl (fun o e => annotate e.1 e.2 o) o).metadata.name = o.metadata.name := by
    intro l
    induction l with
    | nil => exact fun _ => rfl
    | cons e l ih => exact fun o => ih (annotate e.1 e.2 o)
  unfold renderIngress
  dsimp only
  split
  · exact hfold _ _
  · exact hfold _ _

theorem uses_reconcileServices (env : Env D) (spec : KubernetesSpec D) :
    (reconcileServices env spec).Uses (OfKind env spec .service) := by
  refine Prog.uses_forEach ?_
  intro p hp
  have hshort : (⟨.service, p.1⟩ : Key) ∈ readKeys spec .service := .inr (.inl ⟨rfl, rfl, List.mem_map_of_mem hp⟩)
  refine uses_createOrUpdate ⟨hshort, .inl (isRead_get _)⟩ ?_ ⟨hshort, .inl ?_⟩
  · exact ofKind_write (List.mem_map.2 ⟨p, hp, rfl⟩) rfl
  · -- the object names the full name, so the API refuses it
    refine isRead_replace_other ?_
    intro he
    exact fullName_ne spec p.1 (Option.some.inj he)

/-! ## What a spec asks -/

/-- the objects a spec describes -/
def KubernetesSpec.writes (spec : KubernetesSpec D) : Set Key := {k | k.name ∈ spec.names k.kind}

/-- what a pass or a removal may look at -/
def KubernetesSpec.reads (spec : KubernetesSpec D) : Set Key :=
  {k | k ∈ spec.writes ∨ (k.kind = .service ∧ k.name ∈ spec.services.map Prod.fst) ∨ k = drasiConfig}

/-- what a pass or a removal may ask -/
def KubernetesSpec.Asks (env : Env D) (spec : KubernetesSpec D) (q : Request D) : Prop :=
  q.key ∈ spec.reads ∧ ((apiServer env).IsRead q ∨ q.key ∈ spec.writes)

theorem asks_of_ofKind {kind : Kind} {q : Request D} (h : OfKind env spec kind q) : spec.Asks env q := by
  have hw : ∀ k ∈ writeKeys spec kind, k ∈ spec.writes := by
    rintro k ⟨rfl, hk⟩
    exact hk
  obtain ⟨hr, hd⟩ := h
  refine ⟨?_, hd.imp_right (hw _)⟩
  rcases hr with hr | ⟨-, hr⟩ | hr
  · exact .inl (hw _ hr)
  · exact .inr (.inl hr)
  · exact .inr (.inr hr)

theorem asks_delete {key : Key} (h : key ∈ spec.writes) : spec.Asks env (.delete key) := ⟨.inl h, .inr h⟩

/-- what a removal deletes, in its order -/
def KubernetesSpec.deletions (spec : KubernetesSpec D) : List Key :=
  spec.deploymentKey :: (spec.services.map (fun p => ⟨.service, spec.fullName p.1⟩) ++
    (spec.configMaps.map (fun p => ⟨.configMap, p.1⟩) ++
      ((spec.ingresses.getD []).map (fun p => ⟨.ingress, p.1⟩) ++
        (spec.serviceAccount.bind (·.metadata.name)).toList.map (Key.mk .serviceAccount))))

theorem deprovision_eq (spec : KubernetesSpec D) :
    deprovision spec = .forEach (fun key => ignoreMissing (.delete key)) spec.deletions := by
  have hlast : (match spec.serviceAccount.bind (·.metadata.name) with
      | some name => ignoreMissing (.delete ⟨.serviceAccount, name⟩)
      | none => pure ()) = (.forEach (fun key => ignoreMissing (.delete key))
        ((spec.serviceAccount.bind (·.metadata.name)).toList.map (Key.mk .serviceAccount)) : Task D Unit) := by
    rcases spec.serviceAccount.bind (·.metadata.name) with _ | name
    · rfl
    · exact (Prog.forEach_singleton _ _).symm
  rw [deprovision, hlast, KubernetesSpec.deletions, Prog.forEach, Prog.forEach_append, Prog.forEach_append,
    Prog.forEach_append]
  simp only [Prog.forEach_map]
  rfl

theorem mem_writes_of_mem_deletions {spec : KubernetesSpec D} {key : Key} (h : key ∈ spec.deletions) :
    key ∈ spec.writes := by
  simp only [KubernetesSpec.deletions, List.mem_cons, List.mem_append, List.mem_map, Option.mem_toList,
    Option.bind_eq_some_iff] at h
  rcases h with rfl | ⟨p, hp, rfl⟩ | ⟨p, hp, rfl⟩ | ⟨p, hp, rfl⟩ | ⟨name, ⟨account, ha, hn⟩, rfl⟩
  · exact List.mem_singleton.2 rfl
  · exact List.mem_map.2 ⟨p, hp, rfl⟩
  · exact List.mem_map.2 ⟨p, hp, rfl⟩
  · exact List.mem_map.2 ⟨p, hp, rfl⟩
  · refine List.mem_map.2 ⟨account, Option.mem_toList.2 ha, ?_⟩
    rw [hn]
    rfl

/-- **A removal deletes what the spec describes**, but for the component and the volume claims. -/
theorem mem_deletions {spec : KubernetesSpec D} (h : WellFormed spec) {key : Key} (hw : key ∈ spec.writes)
    (hcomp : key.kind ≠ .component) (hpvc : key.kind ≠ .volumeClaim) : key ∈ spec.deletions := by
  obtain ⟨kind, name⟩ := key
  change name ∈ spec.names kind at hw
  simp only [KubernetesSpec.deletions, List.mem_cons, List.mem_append, List.mem_map]
  cases kind with
  | component => exact absurd rfl hcomp
  | volumeClaim => exact absurd rfl hpvc
  | deployment =>
    rw [List.mem_singleton.1 hw]
    exact .inl rfl
  | service =>
    obtain ⟨p, hp, rfl⟩ := List.mem_map.1 hw
    exact .inr (.inl ⟨p, hp, rfl⟩)
  | configMap =>
    obtain ⟨p, hp, rfl⟩ := List.mem_map.1 hw
    exact .inr (.inr (.inl ⟨p, hp, rfl⟩))
  | ingress =>
    obtain ⟨p, hp, rfl⟩ := List.mem_map.1 hw
    exact .inr (.inr (.inr (.inl ⟨p, hp, rfl⟩)))
  | serviceAccount =>
    obtain ⟨account, ha, rfl⟩ := List.mem_map.1 hw
    have hacc : spec.serviceAccount = some account := Option.mem_toList.1 ha
    obtain ⟨name, hn⟩ := Option.isSome_iff_exists.1 (h.serviceAccount account hacc)
    refine .inr (.inr (.inr (.inr ⟨name, ?_, by rw [hn]; rfl⟩)))
    simp [hacc, hn]

/-- a removal deletes objects of the spec -/
theorem uses_deprovision (spec : KubernetesSpec D) :
    (deprovision spec).Uses fun q => ∃ key ∈ spec.writes, q = .delete key := by
  rw [deprovision_eq]
  refine Prog.uses_forEach ?_
  intro key hkey
  exact uses_ignoreMissing ⟨key, mem_writes_of_mem_deletions hkey, rfl⟩

theorem uses_logged {P : Request D → Prop} {p : Task D Unit} (h : p.Uses P) : (logged p).Uses P := by
  refine Prog.uses_handle (Prog.uses_bind h fun _ => trivial) ?_
  intro e
  cases e <;> trivial

theorem uses_logAll {P : Request D → Prop} {ps : List (Task D Unit)} (h : ∀ p ∈ ps, p.Uses P) : (logAll ps).Uses P := by
  induction ps with
  | nil => trivial
  | cons p ps ih =>
    refine Prog.uses_bind (uses_logged (h p List.mem_cons_self)) ?_
    intro errors
    refine Prog.uses_bind (ih fun q hq => h q (List.mem_cons_of_mem p hq)) ?_
    intro rest
    trivial

end

section

variable [DecidableEq D] {env : Env D} {spec : KubernetesSpec D}

/-- **Each kind keeps to its own objects.** -/
theorem uses_reconcileKind (h : WellFormed spec) (kind : Kind) : (reconcileKind env spec kind).Uses (OfKind env spec kind) := by
  cases kind with
  | configMap =>
    refine Prog.uses_forEach ?_
    intro p hp
    exact uses_object (List.mem_map_of_mem hp) (h.configMaps.2 p hp) rfl
  | volumeClaim =>
    refine Prog.uses_forEach ?_
    intro p hp
    exact uses_object (List.mem_map_of_mem hp) (h.volumeClaims.2 p hp) rfl
  | component =>
    unfold reconcileKind reconcileComponents
    rcases hp : spec.pubSub with _ | pubSub
    · trivial
    · dsimp only
      rcases hn : pubSub.metadata.name with _ | name
      · trivial
      · have hmem : name ∈ spec.names .component := by simp [KubernetesSpec.names, hp, hn]
        exact uses_object hmem hn rfl
  | serviceAccount =>
    unfold reconcileKind reconcileServiceAccount
    rcases ha : spec.serviceAccount with _ | account
    · trivial
    · dsimp only
      rcases hn : account.metadata.name with _ | name
      · trivial
      · have hmem : name ∈ spec.names .serviceAccount := by simp [KubernetesSpec.names, ha, hn]
        exact uses_object hmem hn rfl
  | deployment =>
    exact uses_object (List.mem_singleton.2 rfl) rfl rfl
  | service => exact uses_reconcileServices env spec
  | ingress =>
    unfold reconcileKind reconcileIngresses
    rcases hi : spec.ingresses with _ | ingresses
    · trivial
    · refine Prog.uses_bind uses_getIngressExternalIp ?_
      intro ip
      refine Prog.uses_forEach ?_
      intro p hp
      have hlisted : p ∈ spec.ingresses.getD [] := by
        rw [hi]
        exact hp
      refine Prog.uses_bind uses_getDynamicIngressConfig ?_
      intro config
      refine uses_object (List.mem_map_of_mem hlisted) ?_ rfl
      rw [renderIngress_name]
      exact h.ingresses.2 p hlisted

/-- **A pass keeps to the objects of its spec**, and so does a removal. -/
theorem uses_reconcile (h : WellFormed spec) : (reconcile env spec).Uses (spec.Asks env) := by
  unfold reconcile
  split
  · refine uses_logged ((uses_deprovision spec).mono ?_)
    rintro q ⟨key, hkey, rfl⟩
    exact asks_delete hkey
  · refine uses_logAll ?_
    intro p hp
    obtain ⟨kind, -, rfl⟩ := List.mem_map.1 hp
    exact (uses_reconcileKind h kind).mono fun _ => asks_of_ofKind

/-! ## The kinds are independent -/

theorem mem_passOrder (kind : Kind) : kind ∈ passOrder := by
  cases kind <;> decide

/-- **The kinds are independent.** A pass that ends leaves at every key what its kind leaves alone, and it ends unless a
kind alone panics. -/
theorem eval_kinds (env : Env D) (h : WellFormed spec) (hrem : spec.removed = false) (c : Cluster D) :
    ((∃ errors, ((apiServer env).eval (reconcile env spec) c).result = .ok errors) ↔
      ∀ kind, NoPanic ((apiServer env).eval (reconcileKind env spec kind) c).result) ∧
    ((∃ errors, ((apiServer env).eval (reconcile env spec) c).result = .ok errors) →
      ∀ kind, ∀ k ∈ readKeys spec kind,
        ((apiServer env).eval (reconcile env spec) c).store k =
          ((apiServer env).eval (reconcileKind env spec kind) c).store k) := by
  let kinded : List (Kind × Task D Unit) := passOrder.map fun kind => (kind, reconcileKind env spec kind)
  have hrec : reconcile env spec = logAll (kinded.map Prod.snd) := by
    rw [reconcile, hrem, List.map_map]
    rfl
  have hkinds : kinded.map Prod.fst = passOrder := rfl
  have hnodup : (kinded.map Prod.fst).Nodup := by
    rw [hkinds]
    decide
  have hmem : ∀ kind, (kind, reconcileKind env spec kind) ∈ kinded := by
    intro kind
    exact List.mem_map.2 ⟨kind, mem_passOrder kind, rfl⟩
  have hwithin : (apiServer env).Within (readKeys spec) (writeKeys spec) kinded := by
    intro x hx
    obtain ⟨kind, -, rfl⟩ := List.mem_map.1 hx
    exact uses_reconcileKind h kind
  obtain ⟨hdone, hstore⟩ := eval_logAll env (kinded.map Prod.snd) c
  have heach := Server.eachResult_alone hwithin (disjoint_keys h) hnodup NoPanic c
  rw [hrec]
  refine ⟨hdone.trans (heach.trans ⟨?_, ?_⟩), ?_⟩
  · intro hall kind
    exact hall _ (hmem kind)
  · intro hall x hx
    obtain ⟨kind, -, rfl⟩ := List.mem_map.1 hx
    exact hall kind
  · intro hend kind k hk
    rw [hstore (hdone.1 hend)]
    exact Server.storeAfter_alone hwithin (disjoint_keys h) hnodup c _ (hmem kind) k hk

end

end DrasiPlatform.Provider
