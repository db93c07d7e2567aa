/-
The objects of a Kubernetes namespace and the API the provider calls (`control-planes/kubernetes_provider`), as a server of
requests on a store from (kind, name) to objects.

An object is its metadata (name, labels, annotations) and a body: the spec of a deployment with the fields the provider
sets, the data of a config map, the spec of an ingress, or the spec of any other kind; `D` stands for what the provider
copies and compares only. `create` answers 409 when the name is taken, `replace`, `patch` and `delete` answer 404 when the
object is missing, `replace` answers 400 when the object names another one, and an object without a name is refused. What
a merge patch does to an object is the API server's, a parameter.

`BTreeMap`s are lists in the order of their keys.

- `lookup_insertEntry`: reading back an annotation.
- `isRead_get`, `isRead_loadBalancer`, `isRead_replace_other`: the requests that change nothing.
-/
import Mathlib.Tactic
import DrasiPlatform.Core.Programs

namespace DrasiPlatform.Provider

open DrasiPlatform.Programs

/-! ## Objects -/

/-- `BTreeMap<String, String>` -/
abbrev Entries := List (String × String)

/-- `BTreeMap::insert` -/
def insertEntry (key value : String) : Entries → Entries
  | [] => [(key, value)]
  | (k, v) :: l =>
    if key = k then (key, value) :: l
    else if key < k then (key, value) :: (k, v) :: l
    else (k, v) :: insertEntry key value l

@[simp] theorem lookup_insertEntry (key value : String) (l : Entries) :
    (insertEntry key value l).lookup key = some value := by
  induction l with
  | nil => simp [insertEntry]
  | cons e l ih =>
    obtain ⟨k, v⟩ := e
    by_cases hk : key = k
    · simp [insertEntry, hk]
    · by_cases hlt : key < k
      · simp [insertEntry, hk, hlt]
      · have hb : (key == k) = false := by simpa using hk
        simp [insertEntry, hk, hlt, List.lookup_cons, hb, ih]

structure ObjectMeta where
  name : Option String
  labels : Entries
  annotations : Option Entries
deriving DecidableEq

/-- `matchLabels` of the selector, the type of the update strategy, and the rest of the spec -/
structure DeploymentSpec (D : Type) where
  matchLabels : Entries
  strategy : Option String
  rest : D
deriving DecidableEq

structure IngressPath (D : Type) where
  pathType : String
  rest : D
deriving DecidableEq

structure IngressRule (D : Type) where
  host : Option String
  paths : Option (List (IngressPath D))
deriving DecidableEq

structure IngressSpec (D : Type) where
  ingressClassName : Option String
  rules : Option (List (IngressRule D))
  rest : D
deriving DecidableEq

inductive Body (D : Type) where
  | deployment (spec : DeploymentSpec D)
  | configMap (data : Option Entries) (rest : D)
  | ingress (spec : Option (IngressSpec D))
  | other (spec : D)
deriving DecidableEq

structure Object (D : Type) where
  metadata : ObjectMeta
  body : Body D
deriving DecidableEq

inductive Kind where
  | deployment
  | service
  | ingress
  | configMap
  | volumeClaim
  | component
  | serviceAccount
deriving DecidableEq, Repr

structure Key where
  kind : Kind
  name : String
deriving DecidableEq, Repr

abbrev Cluster (D : Type) := Key → Option (Object D)

/-! ## The API -/

inductive Request (D : Type) where
  | get (key : Key)
  | create (kind : Kind) (object : Object D)
  | replace (key : Key) (object : Object D)
  | patch (key : Key) (object : Object D)
  | delete (key : Key)
  /-- the address of the load balancer of a service in another namespace -/
  | loadBalancer (namespace_ service : String)
deriving DecidableEq

inductive Response (D : Type) where
  | found (object : Object D)
  | done
  | error (code : ℕ)
  | address (host : Option String)
deriving DecidableEq

structure RuntimeConfig where
  ingressClassName : String
  ingressLoadBalancerService : String
  ingressLoadBalancerNamespace : String

/-- what the provider's process is given, and what is the API server's and the `hashers` crate's own -/
structure Env (D : Type) where
  runtimeConfig : RuntimeConfig
  mergePatch : Object D → Object D → Object D
  loadBalancer : String → String → Option String
  /-- `SpookyHasher` over the deployment and the config maps, as hexadecimal digits -/
  hashDeployment : DeploymentSpec D → List (String × Object D) → String
  hashServiceAccount : Option (Object D) → String

variable {D : Type}

/-- the config map the ingress configuration is read from -/
def drasiConfig : Key := ⟨.configMap, "drasi-config"⟩

def Request.key : Request D → Key
  | .get key => key
  | .create kind object => ⟨kind, object.metadata.name.getD ""⟩
  | .replace key _ => key
  | .patch key _ => key
  | .delete key => key
  | .loadBalancer _ _ => drasiConfig

def Request.answer (env : Env D) (request : Request D) (current : Option (Object D)) : Response D :=
  match request, current with
  | .get _, some object => .found object
  | .get _, none => .error 404
  | .create _ object, none => if object.metadata.name.isSome then .done else .error 422
  | .create _ object, some _ => if object.metadata.name.isSome then .error 409 else .error 422
  | .replace key object, some _ => if object.metadata.name = some key.name then .done else .error 400
  | .replace _ _, none => .error 404
  | .patch _ _, some _ => .done
  | .patch _ _, none => .error 404
  | .delete _, some _ => .done
  | .delete _, none => .error 404
  | .loadBalancer namespace_ service, _ => .address (env.loadBalancer namespace_ service)

def Request.effect (env : Env D) (request : Request D) (current : Option (Object D)) : Option (Object D) :=
  match request, current with
  | .create _ object, none => if object.metadata.name.isSome then some object else none
  | .replace key object, some old => if object.metadata.name = some key.name then some object else some old
  | .patch _ object, some old => some (env.mergePatch old object)
  | .delete _, _ => none
  | _, current => current

/-- the API server of the namespace -/
def apiServer (env : Env D) : Server Key (Object D) (Request D) (Response D) where
  key := Request.key
  answer := Request.answer env
  effect := Request.effect env

variable {env : Env D}

@[simp] theorem apiServer_key (q : Request D) : (apiServer env).key q = q.key := rfl

theorem isRead_get (key : Key) : (apiServer env).IsRead (.get key) := by
  intro v
  rfl

theorem isRead_loadBalancer (namespace_ service : String) : (apiServer env).IsRead (.loadBalancer namespace_ service) := by
  intro v
  rfl

/-- a replace whose object names another one is refused -/
theorem isRead_replace_other {key : Key} {object : Object D} (h : object.metadata.name ≠ some key.name) :
    (apiServer env).IsRead (.replace key object) := by
  intro v
  cases v with
  | none => rfl
  | some old => simp [apiServer, Request.effect, h]

/-- a create leaves what was there or the object -/
theorem effect_create {kind : Kind} {object o : Object D} {current : Option (Object D)}
    (h : Request.effect env (.create kind object) current = some o) : current = some o ∨ o = object := by
  rcases current with _ | old
  · simp only [Request.effect] at h
    split at h
    · exact .inr (Option.some.inj h).symm
    · cases h
  · exact .inl h

/-- a create, replace, patch or delete call -/
def Request.isMutation : Request D → Bool
  | .get _ => false
  | .loadBalancer _ _ => false
  | _ => true

theorem isRead_of_not_isMutation {q : Request D} (h : q.isMutation = false) : (apiServer env).IsRead q := by
  cases q with
  | get key => exact isRead_get key
  | loadBalancer n s => exact isRead_loadBalancer n s
  | _ => cases h

end DrasiPlatform.Provider
