/-
The objects of a source and of a reaction: `SourceSpecBuilder::build`, `ReactionSpecBuilder::build`, `build_deployment_spec`
and `apply_identity` (`control-planes/kubernetes_provider/src/spec_builder/{source,reaction,mod,identity}.rs`).

A builder answers nothing where the process panics: an `unwrap` of a text that is no number, or the `panic!` of
`apply_identity`. A map that is only handed on is the list of its entries in the order of the keys. The reconciler reads a
part of what is built; the rest of it is `Detail`.

- `SourceSpecBuilder.build_isSome_iff`, `ReactionSpecBuilder.build_isSome_iff`: a builder gets to its end exactly when, for
  every service, the port of the sidecar and the targets of the endpoints are numbers, and the identity can be applied.
-/
import Mathlib.Tactic
import DrasiPlatform.Provider.QueryContainer
import DrasiPlatform.Provider.Reconciler

namespace DrasiPlatform.Provider

/-! ## Requests -/

inductive ResourceType where
  | source
  | reaction
  | queryContainer
deriving DecidableEq

def ResourceType.text : ResourceType → String
  | .source => "source"
  | .reaction => "reaction"
  | .queryContainer => "query-container"

inductive EndpointSetting where
  | internal
  | external
deriving DecidableEq

structure Endpoint where
  setting : EndpointSetting
  target : String
deriving DecidableEq

structure Service where
  replica : Option String
  image : String
  externalImage : Option Bool
  endpoints : Option (StrMap Endpoint)
  dapr : Option (StrMap ConfigValue)
  properties : Option (StrMap ConfigValue)

inductive ServiceIdentity where
  | microsoftEntraWorkloadID (clientId : String)
  | microsoftEntraApplication (tenantId clientId : ConfigValue) (secret certificate : Option ConfigValue)
  | connectionString (value : ConfigValue)
  | accessKey (value : ConfigValue)
  | awsIamRole (roleArn : ConfigValue)
  | awsIamAccessKey (accessKeyId secretAccessKey awsRegion : ConfigValue)

structure SourceSpec where
  kind : String
  services : Option (StrMap Service)
  properties : Option (StrMap ConfigValue)
  identity : Option ServiceIdentity

structure ReactionSpec where
  kind : String
  tag : Option String
  services : Option (StrMap Service)
  properties : Option (StrMap ConfigValue)
  queries : StrMap String
  identity : Option ServiceIdentity

/-! ## Integers -/

/-- the number that decimal digits stand for -/
def parseDigits (digits : List Char) : Option ℕ :=
  if digits ≠ [] ∧ digits.all Char.isDigit then some (Nat.ofDigitChars 10 digits 0) else none

/-- `str::parse::<i32>` -/
def parseI32 (text : String) : Option ℤ :=
  match text.toList with
  | '-' :: digits => ((parseDigits digits).filter (· ≤ 2 ^ 31)).map fun n => -(n : ℤ)
  | '+' :: digits => ((parseDigits digits).filter (· < 2 ^ 31)).map fun n => (n : ℤ)
  | digits => ((parseDigits digits).filter (· < 2 ^ 31)).map fun n => (n : ℤ)

/-- `str::parse::<u16>` -/
def parseU16 (text : String) : Option ℕ :=
  match text.toList with
  | '+' :: digits => (parseDigits digits).filter (· < 2 ^ 16)
  | digits => (parseDigits digits).filter (· < 2 ^ 16)

/-! ## Objects -/

structure ServicePort where
  name : Option String
  port : ℤ
  targetPort : ℤ ⊕ String

structure ServiceSpec where
  type_ : String
  selector : Entries
  ports : List ServicePort

structure ResourceRequirements where
  limitsCpu : String
  limitsMemory : String
  requestsCpu : String
  requestsMemory : String

structure VolumeMount where
  name : String
  readOnly : Option Bool
  mountPath : String

inductive Volume where
  | persistentVolumeClaim (name : String)
  | configMap (name : String)

structure Container where
  name : String
  image : String
  imagePullPolicy : String
  terminationMessagePolicy : String
  env : List EnvVar
  resources : ResourceRequirements
  ports : List (String × ℤ)
  volumeMounts : List VolumeMount

structure PodTemplate where
  labels : Entries
  annotations : Entries
  serviceAccountName : Option String
  containers : List Container
  volumes : List Volume

/-- the parts of the objects that the reconciler only hands on -/
inductive Detail where
  | deployment (replicas : ℤ) (template : PodTemplate)
  | service (spec : ServiceSpec)
  | backend (path serviceName : String) (port : ℤ)
  | component (type_ version : String) (metadata : List EnvVar)
  | volumeClaim (accessModes : List String) (storage storageClass : String)
  | empty

/-- a `KubernetesSpec`, with the type of its resource -/
structure BuiltSpec extends KubernetesSpec Detail where
  resourceType : ResourceType

structure BuilderConfig extends RuntimeConfig where
  imagePrefix : String
  imageTag : String
  imagePullPolicy : String
  daprConfig : String
  daprSidecar : String
  pubSubType : String
  pubSubVersion : String
  pubSubConfig : List EnvVar
  ingressAnnotations : Entries

/-! ## Deployments -/

def sortEntries {V : Type} (l : List (String × V)) : List (String × V) := l.mergeSort fun a b => a.1 ≤ b.1

/-- the entries of a map in the order of the keys -/
def sorted {V : Type} (m : StrMap V) : List (String × V) := sortEntries (m.entries.map fun e => (e.1, e.2))

/-- the three labels of an object, in the order of their keys -/
def drasiLabels (resourceType : ResourceType) (resourceId serviceName : String) : Entries :=
  [("drasi/resource", resourceId), ("drasi/service", serviceName), ("drasi/type", resourceType.text)]

def getDefaultResourceRequirements (image : String) : ResourceRequirements :=
  if image = "query-container-query-host" then ⟨"250m", "4Gi", "250m", "512Mi"⟩ else ⟨"200m", "512Mi", "50m", "128Mi"⟩

def podAnnotations (config : BuilderConfig) (appId : String) (appPort : Option ℕ) (appProtocol : Option String) : Entries :=
  let annotations := insertEntry "dapr.io/enabled" "true" []
  let annotations := insertEntry "dapr.io/app-id" appId annotations
  let annotations := insertEntry "dapr.io/config" config.daprConfig annotations
  let annotations := insertEntry "dapr.io/sidecar-image" config.daprSidecar annotations
  let annotations := appPort.elim annotations fun port => insertEntry "dapr.io/app-port" port.repr annotations
  appProtocol.elim annotations fun protocol => insertEntry "dapr.io/app-protocol" protocol annotations

def buildDeploymentSpec (config : BuilderConfig) (resourceType : ResourceType) (resourceId serviceName image : String)
    (externalImage : Bool) (replicas : ℤ) (appPort : Option ℕ) (envVars : StrMap ConfigValue)
    (endpoints : Option (StrMap ℤ)) (configVolumes persistentVolumes : Option (StrMap String))
    (appProtocol : Option String) : DeploymentSpec Detail :=
  let matchLabels := drasiLabels resourceType resourceId serviceName
  let claims := (persistentVolumes.map sorted).getD []
  let configs := (configVolumes.map sorted).getD []
  { matchLabels := matchLabels
    strategy := none
    rest := .deployment replicas
      { labels := matchLabels
        annotations := podAnnotations config (resourceId ++ "-" ++ serviceName) appPort appProtocol
        serviceAccountName := none
        containers := [
          { name := serviceName
            image := if externalImage then image else config.imagePrefix ++ image ++ ":" ++ config.imageTag
            imagePullPolicy := config.imagePullPolicy
            terminationMessagePolicy := "FallbackToLogsOnError"
            env := mapEnvVars envVars
            resources := getDefaultResourceRequirements image
            ports := (endpoints.map sorted).getD []
            volumeMounts := (claims.map fun v => ⟨v.1, none, v.2⟩) ++ configs.map fun v => ⟨v.1, some true, v.2⟩ }]
        volumes := (claims.map fun v => .persistentVolumeClaim v.1) ++ configs.map fun v => .configMap v.1 } }

/-! ## Identities -/

def ServiceIdentity.idType : ServiceIdentity → String
  | .microsoftEntraWorkloadID _ => "MicrosoftEntraWorkloadID"
  | .microsoftEntraApplication _ _ _ _ => "MicrosoftEntraApplication"
  | .connectionString _ => "ConnectionString"
  | .accessKey _ => "AccessKey"
  | .awsIamRole _ => "AwsIamRole"
  | .awsIamAccessKey _ _ _ => "AwsIamAccessKey"

def ServiceIdentity.envVars : ServiceIdentity → StrMap ConfigValue
  | .microsoftEntraWorkloadID _ => ∅
  | .microsoftEntraApplication tenantId clientId secret certificate =>
    let env := ((∅ : StrMap ConfigValue).insert "AZURE_TENANT_ID" tenantId).insert "AZURE_CLIENT_ID" clientId
    let env := secret.elim env fun secret => env.insert "AZURE_CLIENT_SECRET" secret
    certificate.elim env fun certificate => env.insert "AZURE_CLIENT_CERTIFICATE" certificate
  | .connectionString value => (∅ : StrMap ConfigValue).insert "CONNECTION_STRING" value
  | .accessKey value => (∅ : StrMap ConfigValue).insert "ACCESS_KEY" value
  | .awsIamRole roleArn =>
    ((∅ : StrMap ConfigValue).insert "AWS_ROLE_ARN" roleArn).insert "AWS_WEB_IDENTITY_TOKEN_FILE"
      (.inline "/var/run/secrets/eks.amazonaws.com/serviceaccount/token")
  | .awsIamAccessKey accessKeyId secretAccessKey awsRegion =>
    (((∅ : StrMap ConfigValue).insert "AWS_ACCESS_KEY_ID" accessKeyId).insert "AWS_SECRET_ACCESS_KEY"
      secretAccessKey).insert "AWS_REGION" awsRegion

namespace BuiltSpec

/-- a change of the pods of the deployment -/
def mapPod (f : PodTemplate → PodTemplate) (spec : BuiltSpec) : BuiltSpec :=
  match spec.deployment.rest with
  | .deployment replicas template =>
    { spec with deployment := { spec.deployment with rest := .deployment replicas (f template) } }
  | _ => spec

/-- a service account, if there is none -/
def withServiceAccount (spec : BuiltSpec) : BuiltSpec :=
  match spec.serviceAccount with
  | some _ => spec
  | none =>
    let name := spec.resourceType.text ++ "." ++ spec.resourceId
    let labels : Entries := [("drasi/resource", spec.resourceId), ("drasi/type", spec.resourceType.text)]
    mapPod (fun pod => { pod with serviceAccountName := some name })
      { spec with serviceAccount := some ⟨⟨some name, labels, some []⟩, .other .empty⟩ }

/-- an annotation of the service account -/
def annotateAccount (key value : String) (spec : BuiltSpec) : BuiltSpec :=
  { spec with serviceAccount := spec.serviceAccount.map (annotate key value) }

/-- what an identity leaves on the account and on the pods; a role that is no inline value panics -/
def markIdentity (spec : BuiltSpec) : ServiceIdentity → Option BuiltSpec
  | .microsoftEntraWorkloadID clientId =>
    some ((spec.annotateAccount "azure.workload.identity/client-id" clientId).mapPod fun pod =>
      { pod with labels := insertEntry "azure.workload.identity/use" "true" pod.labels })
  | .awsIamRole (.inline arn) => some (spec.annotateAccount "eks.amazonaws.com/role-arn" arn)
  | .awsIamRole (.secret _ _) => none
  | _ => some spec

/-- `apply_identity` -/
def applyIdentity (spec : BuiltSpec) (identity : ServiceIdentity) : Option BuiltSpec :=
  (spec.withServiceAccount.markIdentity identity).map <| mapPod fun pod =>
    { pod with
      containers := pod.containers.map fun container =>
        { container with
          env := container.env ++ ⟨"IDENTITY_TYPE", some identity.idType, none⟩ :: mapEnvVars identity.envVars } }

end BuiltSpec

/-- the last step of both builders -/
def identified (identity : Option ServiceIdentity) (spec : BuiltSpec) : Option BuiltSpec :=
  identity.elim (some spec) spec.applyIdentity

/-! ## Services -/

/-- `app-port` of the sidecar's settings: nothing if it is not set, a panic if it is no port -/
def Service.appPort (service : Service) : Option (Option ℕ) :=
  match service.dapr.bind (AList.lookup "app-port") with
  | some (.inline value) => (parseU16 value).map some
  | _ => some none

def Service.appProtocol (service : Service) : Option String :=
  match service.dapr.bind (AList.lookup "app-protocol") with
  | some (.inline value) => some value
  | _ => none

def clusterIp (selector : Entries) (name : Option String) (port : ℤ) (targetPort : ℤ ⊕ String) : ServiceSpec :=
  ⟨"ClusterIP", selector, [⟨name, port, targetPort⟩]⟩

/-- an ingress for `<resource>.drasi.PLACEHOLDER`, with one path to the service -/
def ingressObject (config : BuilderConfig) (id name : String) (labels : Entries) (serviceName : String) (port : ℤ) :
    Object Detail where
  metadata := ⟨some name, labels, if config.ingressAnnotations = [] then none else some config.ingressAnnotations⟩
  body := .ingress (some ⟨some config.ingressClassName,
    some [⟨some (id ++ ".drasi.PLACEHOLDER"), some [⟨"Prefix", .backend "/" serviceName port⟩]⟩], .empty⟩)

/-- what the loop over the endpoints of a service has collected -/
structure Exposed where
  services : StrMap ServiceSpec
  ingresses : StrMap (Object Detail)
  ports : StrMap ℤ

def Exposed.none : Exposed := ⟨∅, ∅, ∅⟩

/-- the services of a specification, as the reconciler reads them -/
def serviceEntries (services : StrMap ServiceSpec) : List (String × Detail) :=
  (sorted services).map fun e => (e.1, .service e.2)

namespace SourceSpecBuilder

variable (config : BuilderConfig) (instanceId id : String)

/-- one of the services every source has -/
def platformSpec (serviceName image : String) (appPort : ℕ) (endpoints : Option (StrMap ℤ))
    (services : StrMap ServiceSpec) : BuiltSpec where
  resourceType := .source
  resourceId := id
  serviceName := serviceName
  deployment := buildDeploymentSpec config .source id serviceName image false 1 (some appPort)
    (((∅ : StrMap ConfigValue).insert "SOURCE_ID" (.inline id)).insert "INSTANCE_ID" (.inline instanceId))
    endpoints none none none
  services := serviceEntries services
  configMaps := []
  volumeClaims := []
  ingresses := none
  pubSub := none
  serviceAccount := none
  removed := false

def platformSpecs : List BuiltSpec :=
  [platformSpec config instanceId id "change-router" "source-change-router" 3000 none ∅,
    platformSpec config instanceId id "change-dispatcher" "source-change-dispatcher" 3000 none ∅,
    platformSpec config instanceId id "query-api" "source-query-api" 80 (some ((∅ : StrMap ℤ).insert "api" 80))
      ((∅ : StrMap ServiceSpec).insert "query-api"
        (clusterIp (drasiLabels .source id "query-api") none 80 (.inr "api")))]

/-- the environment of a service: the resource's properties, the two names of the builder, the service's properties -/
def env (source : SourceSpec) (service : Service) : StrMap ConfigValue :=
  let env := source.properties.getD ∅
  let env := (env.insert "SOURCE_ID" (.inline id)).insert "INSTANCE_ID" (.inline instanceId)
  service.properties.elim env fun properties => extend env properties.entries

/-- one endpoint; its target is unwrapped as a port -/
def addEndpoint (serviceName : String) (exposed : Exposed) (endpoint : Σ _ : String, Endpoint) : Option Exposed := do
  let port ← parseI32 endpoint.2.target
  let service := clusterIp (drasiLabels .source id serviceName) (some endpoint.1) port (.inl port)
  let exposed := { exposed with services := exposed.services.insert endpoint.1 service }
  match endpoint.2.setting with
  | .internal => some exposed
  | .external =>
    let ingressName := id ++ "-" ++ endpoint.1
    let ingress := ingressObject config id ingressName [] (id ++ "-" ++ serviceName) port
    some { exposed with ingresses := exposed.ingresses.insert ingressName ingress }

/-- a service named `proxy` is always reachable at port 80 -/
def applyProxySvc (spec : BuiltSpec) (appPort : Option ℕ) : BuiltSpec :=
  let service := clusterIp (drasiLabels spec.resourceType spec.resourceId spec.serviceName) none 80
    (.inl ((appPort.getD 80 : ℕ) : ℤ))
  { spec with
    services := sortEntries (("proxy", .service service) :: spec.services.filter fun e => e.1 ≠ "proxy") }

/-- the body of the loop over the services -/
def buildService (source : SourceSpec) (entry : Σ _ : String, Service) : Option BuiltSpec := do
  let service := entry.2
  let appPort ← service.appPort
  let replica := (service.replica.bind parseI32).getD 1
  let exposed ← ((service.endpoints.getD ∅).entries).foldlM (addEndpoint config id entry.1) Exposed.none
  let spec : BuiltSpec :=
    { resourceType := .source
      resourceId := id
      serviceName := entry.1
      deployment := buildDeploymentSpec config .source id entry.1 service.image (service.externalImage.getD false)
        replica appPort (env instanceId id source service) none none none service.appProtocol
      services := serviceEntries exposed.services
      configMaps := []
      volumeClaims := []
      ingresses := if exposed.ingresses.entries = [] then none else some (sorted exposed.ingresses)
      pubSub := none
      serviceAccount := none
      removed := false }
  let spec := if entry.1 = "proxy" then applyProxySvc spec appPort else spec
  identified source.identity spec

def build (source : SourceSpec) : Option (List BuiltSpec) :=
  ((source.services.getD ∅).entries.mapM (buildService config instanceId id source)).map
    (platformSpecs config instanceId id ++ ·)

end SourceSpecBuilder

namespace ReactionSpecBuilder

variable (config : BuilderConfig) (calcHash : ReactionSpec → String) (instanceId id : String)

/-- the environment of every service: the reaction's properties under the three names of the builder -/
def env (reaction : ReactionSpec) : StrMap ConfigValue :=
  let env := reaction.properties.getD ∅
  let env := env.insert "CONFIG_HASH" (.inline (calcHash reaction))
  let env := env.insert "INSTANCE_ID" (.inline instanceId)
  env.insert "PubsubName" (.inline ("drasi-pubsub-" ++ id))

/-- one endpoint; its target is unwrapped as a port -/
def addEndpoint (serviceName : String) (exposed : Exposed) (endpoint : Σ _ : String, Endpoint) : Option Exposed := do
  let port ← parseI32 endpoint.2.target
  let labels := drasiLabels .reaction id serviceName
  let service := clusterIp labels (some endpoint.1) port (.inr endpoint.1)
  let exposed := { exposed with ports := exposed.ports.insert endpoint.1 port }
  match endpoint.2.setting with
  | .internal => some { exposed with services := exposed.services.insert endpoint.1 service }
  | .external =>
    let serviceKey := serviceName ++ "-" ++ endpoint.1
    let ingressName := id ++ "-reaction-ingress"
    let ingress := ingressObject config id ingressName labels (id ++ "-" ++ serviceKey) port
    some { exposed with
      services := exposed.services.insert serviceKey service
      ingresses := exposed.ingresses.insert ingressName ingress }

/-- the body of the loop over the services -/
def buildService (reaction : ReactionSpec) (entry : Σ _ : String, Service) : Option BuiltSpec := do
  let service := entry.2
  let labels := drasiLabels .reaction id entry.1
  let configName := id ++ "-" ++ entry.1 ++ "-queries"
  let pubSubName := "drasi-pubsub-" ++ id
  let appPort ← service.appPort
  let exposed ← ((service.endpoints.getD ∅).entries).foldlM (addEndpoint config id entry.1) Exposed.none
  let replica ← parseI32 (service.replica.getD "1")
  identified reaction.identity
    { resourceType := .reaction
      resourceId := id
      serviceName := entry.1
      deployment := buildDeploymentSpec config .reaction id entry.1 service.image (service.externalImage.getD false)
        replica (some (appPort.getD 80)) (env calcHash instanceId id reaction) (some exposed.ports)
        (some ((∅ : StrMap String).insert configName "/etc/queries")) none service.appProtocol
      services := serviceEntries exposed.services
      configMaps := [(configName, ⟨⟨some configName, labels, none⟩, .configMap (some (sorted reaction.queries)) .empty⟩)]
      volumeClaims := []
      ingresses := some (sorted exposed.ingresses)
      pubSub := some ⟨⟨some pubSubName, labels, none⟩, .other (.component config.pubSubType config.pubSubVersion
        (config.pubSubConfig ++ [⟨"consumerID", some id, none⟩]))⟩
      serviceAccount := none
      removed := false }

def build (reaction : ReactionSpec) : Option (List BuiltSpec) :=
  (reaction.services.getD ∅).entries.mapM (buildService config calcHash instanceId id reaction)

end ReactionSpecBuilder

/-! ## What makes a builder panic -/

theorem isSome_mapM_iff {α β : Type} (f : α → Option β) (l : List α) : (l.mapM f).isSome ↔ ∀ a ∈ l, (f a).isSome := by
  induction l with
  | nil => simp
  | cons a l ih =>
    rw [List.mapM_cons, List.forall_mem_cons, ← ih]
    cases f a <;> cases l.mapM f <;> simp

/-- a loop whose every turn panics or not by its own element -/
theorem isSome_foldlM_iff {α β : Type} {f : β → α → Option β} {p : α → Prop} (h : ∀ b a, (f b a).isSome ↔ p a)
    (l : List α) (b : β) : (l.foldlM f b).isSome ↔ ∀ a ∈ l, p a := by
  induction l generalizing b with
  | nil => simp
  | cons a l ih =>
    rw [List.foldlM_cons, List.forall_mem_cons, ← h b a]
    cases f b a with
    | none => simp
    | some b' => simpa using ih b'

theorem isSome_bind_iff {α β : Type} (x : Option α) {f : α → Option β} {p : Prop} (h : ∀ a, (f a).isSome ↔ p) :
    (x >>= f).isSome ↔ x.isSome ∧ p := by
  cases x with
  | none => simp
  | some a => simpa using h a

theorem forall_entries_iff {V : Type} (m : StrMap V) (p : (Σ _ : String, V) → Prop) :
    (∀ e ∈ m.entries, p e) ↔ ∀ key value, m.lookup key = some value → p ⟨key, value⟩ := by
  constructor
  · intro h key value hlookup
    exact h _ (AList.mem_lookup_iff.1 hlookup)
  · rintro h ⟨key, value⟩ he
    exact h key value (AList.mem_lookup_iff.2 he)

/-- every text of a service that a builder unwraps as a port is one -/
structure Service.PortsParse (service : Service) : Prop where
  appPort : ∀ value, service.dapr.bind (AList.lookup "app-port") = some (.inline value) → (parseU16 value).isSome
  targets : ∀ name endpoint, (service.endpoints.getD ∅).lookup name = some endpoint → (parseI32 endpoint.target).isSome

/-- the identity is none, or not a role in a secret -/
def IdentityApplies (identity : Option ServiceIdentity) : Prop := ∀ name key, identity ≠ some (.awsIamRole (.secret name key))

theorem isSome_appPort_iff (service : Service) :
    service.appPort.isSome ↔
      ∀ value, service.dapr.bind (AList.lookup "app-port") = some (.inline value) → (parseU16 value).isSome := by
  unfold Service.appPort
  cases service.dapr.bind (AList.lookup "app-port") with
  | none => simp
  | some setting => cases setting <;> simp

/-- the loop over the endpoints of a builder panics at a target that is no number -/
theorem portsParse_iff {addEndpoint : Exposed → (Σ _ : String, Endpoint) → Option Exposed}
    (hadd : ∀ exposed endpoint, (addEndpoint exposed endpoint).isSome ↔ (parseI32 endpoint.2.target).isSome)
    (service : Service) :
    service.PortsParse ↔ service.appPort.isSome ∧
      ((service.endpoints.getD ∅).entries.foldlM addEndpoint Exposed.none).isSome := by
  rw [isSome_foldlM_iff hadd, forall_entries_iff, isSome_appPort_iff]
  constructor
  · intro h
    exact ⟨h.appPort, h.targets⟩
  · intro h
    exact ⟨h.1, h.2⟩

theorem isSome_identified_iff (identity : Option ServiceIdentity) (spec : BuiltSpec) :
    (identified identity spec).isSome ↔ IdentityApplies identity := by
  cases identity with
  | none => simp [identified, IdentityApplies]
  | some identity =>
    simp only [identified, Option.elim_some, BuiltSpec.applyIdentity, Option.isSome_map, IdentityApplies]
    cases identity with
    | awsIamRole roleArn => cases roleArn <;> simp [BuiltSpec.markIdentity]
    | _ => simp [BuiltSpec.markIdentity]

namespace SourceSpecBuilder

variable (config : BuilderConfig) (instanceId id : String)

theorem isSome_addEndpoint_iff (serviceName : String) (exposed : Exposed) (endpoint : Σ _ : String, Endpoint) :
    (addEndpoint config id serviceName exposed endpoint).isSome ↔ (parseI32 endpoint.2.target).isSome := by
  unfold addEndpoint
  cases parseI32 endpoint.2.target with
  | none => simp
  | some port => cases endpoint.2.setting <;> simp

theorem isSome_buildService_iff (source : SourceSpec) (name : String) (service : Service) :
    (buildService config instanceId id source ⟨name, service⟩).isSome ↔
      service.PortsParse ∧ IdentityApplies source.identity := by
  have hbuild : (buildService config instanceId id source ⟨name, service⟩).isSome ↔ service.appPort.isSome ∧
      ((service.endpoints.getD ∅).entries.foldlM (addEndpoint config id name) Exposed.none).isSome ∧
        IdentityApplies source.identity :=
    isSome_bind_iff _ fun _ => isSome_bind_iff _ fun _ => isSome_identified_iff _ _
  rw [hbuild, portsParse_iff (isSome_addEndpoint_iff config id name), and_assoc]

/-- **When the source builder panics.** It gets to its end exactly when the ports of every service are numbers and the
identity is not a role in a secret; a replica count that is no number is taken as one. -/
theorem build_isSome_iff (source : SourceSpec) :
    (build config instanceId id source).isSome ↔
      ∀ name service, (source.services.getD ∅).lookup name = some service →
        service.PortsParse ∧ IdentityApplies source.identity := by
  rw [build, Option.isSome_map, isSome_mapM_iff, forall_entries_iff]
  simp only [isSome_buildService_iff]

end SourceSpecBuilder

namespace ReactionSpecBuilder

variable (config : BuilderConfig) (calcHash : ReactionSpec → String) (instanceId id : String)

theorem isSome_addEndpoint_iff (serviceName : String) (exposed : Exposed) (endpoint : Σ _ : String, Endpoint) :
    (addEndpoint config id serviceName exposed endpoint).isSome ↔ (parseI32 endpoint.2.target).isSome := by
  unfold addEndpoint
  cases parseI32 endpoint.2.target with
  | none => simp
  | some port => cases endpoint.2.setting <;> simp

theorem isSome_buildService_iff (reaction : ReactionSpec) (name : String) (service : Service) :
    (buildService config calcHash instanceId id reaction ⟨name, service⟩).isSome ↔
      service.PortsParse ∧ (parseI32 (service.replica.getD "1")).isSome ∧ IdentityApplies reaction.identity := by
  have hbuild : (buildService config calcHash instanceId id reaction ⟨name, service⟩).isSome ↔ service.appPort.isSome ∧
      ((service.endpoints.getD ∅).entries.foldlM (addEndpoint config id name) Exposed.none).isSome ∧
        (parseI32 (service.replica.getD "1")).isSome ∧ IdentityApplies reaction.identity :=
    isSome_bind_iff _ fun _ => isSome_bind_iff _ fun _ => isSome_bind_iff _ fun _ => isSome_identified_iff _ _
  rw [hbuild, portsParse_iff (isSome_addEndpoint_iff config id name), and_assoc]

/-- **When the reaction builder panics.** Unlike a source's, the replica count of a reaction's service is unwrapped. -/
theorem build_isSome_iff (reaction : ReactionSpec) :
    (build config calcHash instanceId id reaction).isSome ↔
      ∀ name service, (reaction.services.getD ∅).lookup name = some service →
        service.PortsParse ∧ (parseI32 (service.replica.getD "1")).isSome ∧ IdentityApplies reaction.identity := by
  rw [build, isSome_mapM_iff, forall_entries_iff]
  simp only [isSome_buildService_iff]

end ReactionSpecBuilder

end DrasiPlatform.Provider
