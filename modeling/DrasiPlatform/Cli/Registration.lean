/-
The registrations of the command line client (`cli/sdk/registry/config.go`): what is known of an environment, and how it is
written to a file and read again.

A registration of a Kubernetes cluster has the bytes of its configuration, in base64; one of a Docker container has the
registration of the cluster inside, and so on. A document is read by its `kind`; one of no known kind reads as nothing. A key
of a document is looked for as it is written: that `encoding/json` also takes a key of another case is left out.

- `unmarshal_marshal`: what is written is read back, to any depth.
-/
import Mathlib.Tactic
import DrasiPlatform.Core.Base64
import DrasiPlatform.Core.JsonText

namespace DrasiPlatform.Cli

open Json

inductive Kind where
  | docker
  | kubernetes
deriving DecidableEq

def Kind.text : Kind → String
  | .docker => "docker"
  | .kubernetes => "kubernetes"

/-- `KubernetesConfig` and `DockerConfig`, with the id of their `Config` -/
inductive Registration where
  | kubernetes (ns : String) (kubeConfig : List UInt8) (id : String)
  | docker (containerId : Option String) (internalConfig : Option Registration) (id : String)

namespace Registration

def getKind : Registration → Kind
  | .kubernetes .. => .kubernetes
  | .docker .. => .docker

def getId : Registration → String
  | .kubernetes _ _ id => id
  | .docker _ _ id => id

def bytesJson (bytes : List UInt8) : Value := .string (String.ofList (Base64.encode bytes))

/-- `MarshalJSON` -/
def marshal : Registration → Value
  | .kubernetes ns kubeConfig id =>
    .object [("namespace", .string ns), ("kubeconfig", bytesJson kubeConfig), ("id", .string id),
      ("kind", .string Kind.kubernetes.text)]
  | .docker containerId internalConfig id =>
    .object ((containerId.toList.map fun c => ("containerId", .string c)) ++
      [("internalConfig", match internalConfig with
        | some config => marshal config
        | none => .null),
      ("id", .string id), ("kind", .string Kind.docker.text)])

/-! ## Reading -/

/-- a `string` field: what is absent or `null` leaves it empty -/
def stringField (fields : List (String × Value)) (name : String) : Except String String :=
  match (Value.object fields).get name with
  | .null => .ok ""
  | .string s => .ok s
  | _ => .error "json: cannot unmarshal into Go value of type string"

/-- a `*string` field -/
def pointerField (fields : List (String × Value)) (name : String) : Except String (Option String) :=
  match (Value.object fields).get name with
  | .null => .ok none
  | .string s => .ok (some s)
  | _ => .error "json: cannot unmarshal into Go value of type string"

/-- a `[]byte` field -/
def bytesField (fields : List (String × Value)) (name : String) : Except String (List UInt8) :=
  match (Value.object fields).get name with
  | .null => .ok []
  | .string s =>
    match Base64.decode s.toList with
    | some bytes => .ok bytes
    | none => .error "illegal base64 data"
  | _ => .error "json: cannot unmarshal into Go value of type []uint8"

mutual

/-- `UnmarshalJSON`; nothing for a document of no known kind -/
def unmarshal : Value → Except String (Option Registration)
  | .null => .ok none
  | .object fields => do
    let id ← stringField fields "id"
    let kind ← stringField fields "kind"
    if kind = Kind.kubernetes.text then
      let ns ← stringField fields "namespace"
      let kubeConfig ← bytesField fields "kubeconfig"
      return some (.kubernetes ns kubeConfig id)
    else if kind = Kind.docker.text then
      let containerId ← pointerField fields "containerId"
      let internalConfig ← internalConfig fields
      return some (.docker containerId internalConfig id)
    else return none
  | _ => .error "json: cannot unmarshal into Go value of type registry.Config"

/-- the registration in the field `internalConfig`, which must be there -/
def internalConfig : List (String × Value) → Except String (Option Registration)
  | [] => .error "unexpected end of JSON input"
  | (k, v) :: fields => if k = "internalConfig" then unmarshal v else internalConfig fields

end

theorem bytesField_bytesJson {fields : List (String × Value)} {name : String} {bytes : List UInt8}
    (h : (Value.object fields).get name = bytesJson bytes) : bytesField fields name = .ok bytes := by
  simp only [bytesField, h, bytesJson, String.toList_ofList, Base64.decode_encode]

theorem unmarshal_kubernetes (ns : String) (kubeConfig : List UInt8) (id : String) :
    unmarshal (kubernetes ns kubeConfig id).marshal = .ok (some (.kubernetes ns kubeConfig id)) := by
  have hbytes : bytesField [("namespace", .string ns), ("kubeconfig", bytesJson kubeConfig), ("id", .string id),
      ("kind", .string Kind.kubernetes.text)] "kubeconfig" = .ok kubeConfig := bytesField_bytesJson rfl
  have hread : unmarshal (kubernetes ns kubeConfig id).marshal = (bytesField [("namespace", .string ns),
      ("kubeconfig", bytesJson kubeConfig), ("id", .string id), ("kind", .string Kind.kubernetes.text)] "kubeconfig").map
        fun bytes => some (.kubernetes ns bytes id) := by
    rfl
  rw [hread, hbytes]
  rfl

/-- a container is read back when what is inside is -/
theorem unmarshal_docker (containerId : Option String) {internal : Option Registration} (id : String)
    (h : unmarshal (internal.elim .null marshal) = .ok internal) :
    unmarshal (docker containerId internal id).marshal = .ok (some (.docker containerId internal id)) := by
  have hread : unmarshal (docker containerId internal id).marshal =
      (unmarshal (internal.elim .null marshal)).map fun config => some (.docker containerId config id) := by
    cases containerId <;> cases internal <;> rfl
  rw [hread, h]
  rfl

/-- **A registration is read back.** -/
theorem unmarshal_marshal : (r : Registration) → unmarshal r.marshal = .ok (some r)
  | .kubernetes ns kubeConfig id => unmarshal_kubernetes ns kubeConfig id
  | .docker containerId none id => unmarshal_docker containerId id rfl
  | .docker containerId (some config) id => unmarshal_docker containerId id (unmarshal_marshal config)

theorem plain_docker (containerId : Option String) {internal : Option Registration} (id : String)
    (h : JsonText.Plain (internal.elim .null marshal)) : JsonText.Plain (docker containerId internal id).marshal := by
  have hfields : ∀ f ∈ [("internalConfig", internal.elim .null marshal), ("id", .string id),
      ("kind", .string Kind.docker.text)], JsonText.Plain f.2 := by
    simp only [List.mem_cons, List.not_mem_nil, or_false, forall_eq_or_imp, forall_eq]
    exact ⟨h, .string _, .string _⟩
  cases internal <;> refine .object _ fun f hf => (List.mem_append.1 hf).elim (fun hid => ?_) (hfields f) <;>
    cases containerId <;> simp at hid <;> exact hid ▸ .string _

/-- the document of a registration has no number -/
theorem plain_marshal : (r : Registration) → JsonText.Plain r.marshal
  | .kubernetes ns kubeConfig id => by
    refine .object _ ?_
    simp only [bytesJson, List.mem_cons, List.not_mem_nil, or_false, forall_eq_or_imp, forall_eq]
    exact ⟨.string _, .string _, .string _, .string _⟩
  | .docker containerId none id => plain_docker containerId id .null
  | .docker containerId (some config) id => plain_docker containerId id (plain_marshal config)

end Registration

end DrasiPlatform.Cli
