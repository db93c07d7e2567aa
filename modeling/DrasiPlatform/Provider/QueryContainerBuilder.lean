/-
The objects of a query container: `QueryContainerSpecBuilder::build`
(`control-planes/kubernetes_provider/src/spec_builder/query_container.rs`). The environment of the query host is
`queryHostEnv`; here are the three deployments, the service of the view service, and the volumes of the stores.

The number of query hosts is a `u16` that is cast to an `i32`. The builder cannot panic.

- `lookup_insertVolumes`, `lookup_insertClaims`: what the loop over the stores leaves under the name of a claim; of two
  stores with a claim of one name the later one is claimed for.
- `volumes_claimed`: the volumes are those that are claimed.
-/
import Mathlib.Tactic
import DrasiPlatform.Provider.BuiltObjects

namespace DrasiPlatform.Provider

namespace QueryContainerSpecBuilder

def defaultStorageClass : String := "azurefile-csi-premium"

def defaultStorageSize : String := "10Gi"

/-! ## Volumes -/

/-- the name of the claim and of the volume of a RocksDb store, and its storage class -/
def storeClaim (id name : String) : StorageSpec → Option (String × String)
  | .rocksDb _ storageClass _ =>
    let storageClass := storageClass.getD defaultStorageClass
    some (id ++ "-" ++ name ++ "-store-" ++ storageClass, storageClass)
  | _ => none

def claimObject (pvName storageClass : String) : Object Detail where
  metadata := ⟨some pvName, [], none⟩
  body := .other (.volumeClaim ["ReadWriteMany"] defaultStorageSize storageClass)

/-- `persistent_volumes`, over the stores -/
def insertVolumes (id : String) (volumes : StrMap String) : List (Σ _ : String, StorageSpec) → StrMap String
  | [] => volumes
  | ⟨name, spec⟩ :: stores =>
    match storeClaim id name spec with
    | some (pvName, _) => insertVolumes id (volumes.insert pvName "/data") stores
    | none => insertVolumes id volumes stores

/-- `persistent_volume_claims`, over the stores -/
def insertClaims (id : String) (claims : StrMap (Object Detail)) :
    List (Σ _ : String, StorageSpec) → StrMap (Object Detail)
  | [] => claims
  | ⟨name, spec⟩ :: stores =>
    match storeClaim id name spec with
    | some (pvName, storageClass) => insertClaims id (claims.insert pvName (claimObject pvName storageClass)) stores
    | none => insertClaims id claims stores

/-! ## Specifications -/

variable (config : BuilderConfig) (instanceId id : String) (queryHostCount : UInt16) (spec : QueryContainerSpec)

def serviceSpec (serviceName : String) (deployment : DeploymentSpec Detail) (services : StrMap ServiceSpec)
    (volumeClaims : StrMap (Object Detail)) : BuiltSpec where
  resourceType := .queryContainer
  resourceId := id
  serviceName := serviceName
  deployment := deployment
  services := serviceEntries services
  configMaps := []
  volumeClaims := sorted volumeClaims
  ingresses := none
  pubSub := none
  serviceAccount := none
  removed := false

def publishApi : BuiltSpec :=
  let env := ((∅ : StrMap ConfigValue).insert "QUERY_NODE_ID" (.inline id)).insert "INSTANCE_ID" (.inline instanceId)
  serviceSpec id "publish-api"
    (buildDeploymentSpec config .queryContainer id "publish-api" "query-container-publish-api" false 1 (some 4000) env none
      none none none) ∅ ∅

def queryHost : BuiltSpec :=
  serviceSpec id "query-host"
    (buildDeploymentSpec config .queryContainer id "query-host" "query-container-query-host" false
      queryHostCount.toNat (some 3000) (queryHostEnv id spec) none none
      (some (insertVolumes id ∅ spec.storage.entries)) none) ∅ (insertClaims id ∅ spec.storage.entries)

def viewSvc : BuiltSpec :=
  let env := (((∅ : StrMap ConfigValue).insert "QUERY_NODE_ID" (.inline id)).insert "VIEW_STORE_TYPE"
    (.inline "mongo")).insert "INSTANCE_ID" (.inline instanceId)
  serviceSpec id "view-svc"
    (buildDeploymentSpec config .queryContainer id "view-svc" "query-container-view-svc" false 1 (some 8080) env
      (some ((∅ : StrMap ℤ).insert "api" 80)) none none none)
    ((∅ : StrMap ServiceSpec).insert "view-svc"
      (clusterIp (drasiLabels .queryContainer id "view-svc") none 80 (.inr "api"))) ∅

def build : List BuiltSpec :=
  [publishApi config instanceId id, queryHost config id queryHostCount spec, viewSvc config instanceId id]

/-! ## What is mounted -/

/-- the claims of the RocksDb stores, in the order of the map -/
def storeClaims (stores : List (Σ _ : String, StorageSpec)) : List (String × String) :=
  stores.filterMap fun store => storeClaim id store.1 store.2

theorem lookup_insertVolumes (volumes : StrMap String) (stores : List (Σ _ : String, StorageSpec)) (key : String) :
    (insertVolumes id volumes stores).lookup key =
      (Writes.last key ((storeClaims id stores).map fun c => (c.1, "/data"))).or (volumes.lookup key) := by
  induction stores generalizing volumes with
  | nil => rfl
  | cons store stores ih =>
    rcases store with ⟨name, spec⟩
    rw [insertVolumes, storeClaims, List.filterMap_cons]
    cases storeClaim id name spec with
    | none => exact ih volumes
    | some claim =>
      simp only [ih, lookup_insert_or, List.map_cons, Writes.last, Option.or_assoc]
      rfl

theorem lookup_insertClaims (claims : StrMap (Object Detail)) (stores : List (Σ _ : String, StorageSpec)) (key : String) :
    (insertClaims id claims stores).lookup key =
      (Writes.last key ((storeClaims id stores).map fun c => (c.1, claimObject c.1 c.2))).or (claims.lookup key) := by
  induction stores generalizing claims with
  | nil => rfl
  | cons store stores ih =>
    rcases store with ⟨name, spec⟩
    rw [insertClaims, storeClaims, List.filterMap_cons]
    cases storeClaim id name spec with
    | none => exact ih claims
    | some claim =>
      simp only [ih, lookup_insert_or, List.map_cons, Writes.last, Option.or_assoc]
      rfl

/-- **Every volume is claimed**, and every claim is mounted. -/
theorem volumes_claimed (stores : List (Σ _ : String, StorageSpec)) (name : String) :
    name ∈ insertVolumes id ∅ stores ↔ name ∈ insertClaims id ∅ stores := by
  rw [← AList.lookup_isSome, ← AList.lookup_isSome, lookup_insertVolumes, lookup_insertClaims, AList.lookup_empty,
    AList.lookup_empty, Option.or_none, Option.or_none, Option.isSome_iff_exists, Option.isSome_iff_exists,
    Writes.exists_last_iff, Writes.exists_last_iff, List.map_map, List.map_map]
  rfl

end QueryContainerSpecBuilder

end DrasiPlatform.Provider
