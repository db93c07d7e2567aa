/-
Whether the same request builds the same objects again: two requests that are equal as values, whose hash maps may be
walked in different orders (`control-planes/kubernetes_provider/src/spec_builder/{reaction,query_container}.rs`).

What a builder puts into a `BTreeMap` or sorts does not depend on the order. The hash of a reaction's specification does,
and so do the numbers of a query container's stores; of two endpoints that write one key the later one is kept.

- `sorted_congr`, `mapEnvVars_congr`: what is sorted tells maps of one content not apart.
- `perm_mapM_iff`: loops over two such maps build the same, up to order, if and only if they do so for every key.
- `ReactionSpecBuilder.buildService_eq_iff`, `QueryContainerSpecBuilder.queryHost_eq_iff`: when a service, and the query
  host, are built alike.
- `equal_requests_build_equal_iff`: both.
Witness: `equal_requests_build_equal_same_order`; requests that are built differently: `equal_requests_build_different`.
-/
import Mathlib.Tactic
import DrasiPlatform.Provider.Collisions
import DrasiPlatform.Provider.SpecText

namespace DrasiPlatform.Provider

/-! ## Equal values -/

/-- equal as values: every key has equal values, in whatever order the maps are walked -/
def MapEqual {V : Type} (r : V → V → Prop) (m m' : StrMap V) : Prop :=
  ∀ key, Option.Rel r (m.lookup key) (m'.lookup key)

structure Service.Equal (service service' : Service) : Prop where
  replica : service.replica = service'.replica
  image : service.image = service'.image
  externalImage : service.externalImage = service'.externalImage
  endpoints : Option.Rel (MapEqual Eq) service.endpoints service'.endpoints
  dapr : Option.Rel (MapEqual Eq) service.dapr service'.dapr
  properties : Option.Rel (MapEqual Eq) service.properties service'.properties

structure ReactionSpec.Equal (reaction reaction' : ReactionSpec) : Prop where
  kind : reaction.kind = reaction'.kind
  tag : reaction.tag = reaction'.tag
  services : Option.Rel (MapEqual Service.Equal) reaction.services reaction'.services
  properties : Option.Rel (MapEqual Eq) reaction.properties reaction'.properties
  queries : MapEqual Eq reaction.queries reaction'.queries
  identity : reaction.identity = reaction'.identity

structure QueryContainerSpec.Equal (spec spec' : QueryContainerSpec) : Prop where
  results : MapEqual Eq spec.results spec'.results
  storage : MapEqual Eq spec.storage spec'.storage
  defaultStore : spec.defaultStore = spec'.defaultStore

theorem rel_refl {A : Type} {r : A → A → Prop} (hr : ∀ a, r a a) (o : Option A) : Option.Rel r o o := by
  cases o with
  | none => exact .none
  | some a => exact .some (hr a)

theorem mapEqual_of_lookup {V : Type} {m m' : StrMap V} (h : ∀ key, m.lookup key = m'.lookup key) : MapEqual Eq m m' := by
  intro key
  rw [h key]
  exact rel_refl (fun _ => rfl) _

theorem MapEqual.lookup {V : Type} {m m' : StrMap V} (h : MapEqual Eq m m') (key : String) :
    m.lookup key = m'.lookup key := by
  have hkey := h key
  revert hkey
  cases m.lookup key <;> cases m'.lookup key <;> rintro (hvalue | -)
  · rfl
  · rw [hvalue]

/-- a map that may be missing counts as empty -/
theorem MapEqual.getD {V : Type} {r : V → V → Prop} {m m' : Option (StrMap V)} (h : Option.Rel (MapEqual r) m m') :
    MapEqual r (m.getD ∅) (m'.getD ∅) := by
  cases h with
  | some h => exact h
  | none => exact fun _ => .none

theorem bind_lookup {V : Type} {m m' : Option (StrMap V)} (h : Option.Rel (MapEqual Eq) m m') (key : String) :
    m.bind (AList.lookup key) = m'.bind (AList.lookup key) := by
  cases h with
  | some h => exact h.lookup key
  | none => rfl

theorem MapEqual.entries_perm {V : Type} {m m' : StrMap V} (h : MapEqual Eq m m') : m.entries.Perm m'.entries := by
  refine List.lookup_ext m.nodupKeys m'.nodupKeys fun key value => ?_
  have hkey : m.entries.dlookup key = m'.entries.dlookup key := h.lookup key
  rw [hkey]

/-! ## What is sorted -/

/-- lists of the same elements, told apart by their keys, have one order of the keys -/
theorem mergeSort_congr {A : Type} (key : A → String) {l l' : List A} (hperm : l.Perm l') (hnodup : (l.map key).Nodup) :
    l.mergeSort (fun a b => decide (key a ≤ key b)) = l'.mergeSort (fun a b => decide (key a ≤ key b)) := by
  have hsorted : ∀ l : List A, (l.mergeSort fun a b => decide (key a ≤ key b)).Pairwise fun a b => key a ≤ key b := by
    intro l
    have htrans : ∀ a b c : A, decide (key a ≤ key b) → decide (key b ≤ key c) → decide (key a ≤ key c) :=
      fun a b c hab hbc => decide_eq_true (String.le_trans (of_decide_eq_true hab) (of_decide_eq_true hbc))
    have htotal : ∀ a b : A, decide (key a ≤ key b) || decide (key b ≤ key a) :=
      fun a b => by simpa using String.le_total (key a) (key b)
    have h := List.pairwise_mergeSort htrans htotal l
    exact h.imp fun hle => of_decide_eq_true hle
  refine ((List.mergeSort_perm l _).trans (hperm.trans (List.mergeSort_perm l' _).symm)).eq_of_pairwise
    (fun a b ha hb hab hba => ?_) (hsorted l) (hsorted l')
  have ha' : a ∈ l := (List.mergeSort_perm l _).mem_iff.1 ha
  have hb' : b ∈ l := hperm.mem_iff.2 ((List.mergeSort_perm l' _).mem_iff.1 hb)
  exact List.inj_on_of_nodup_map hnodup ha' hb' (String.le_antisymm hab hba)

/-- **A map is handed on in one order.** -/
theorem sorted_congr {V : Type} {m m' : StrMap V} (h : MapEqual Eq m m') : sorted m = sorted m' := by
  refine mergeSort_congr Prod.fst (h.entries_perm.map _) ?_
  rw [List.map_map]
  exact m.nodupKeys

theorem mapEnvVars_congr {env env' : StrMap ConfigValue} (h : MapEqual Eq env env') : mapEnvVars env = mapEnvVars env' := by
  refine mergeSort_congr EnvVar.name (h.entries_perm.map _) ?_
  exact ((mapEnvVars_perm env).map _).nodup_iff.1 (nodup_mapEnvVars env)

/-! ## Loops over the entries -/

theorem MapEqual.exists_right {V : Type} {r : V → V → Prop} {m m' : StrMap V} (h : MapEqual r m m') {key : String}
    {value : V} (hvalue : m.lookup key = some value) : ∃ value', m'.lookup key = some value' := by
  have hkey := h key
  rw [hvalue] at hkey
  cases hvalue' : m'.lookup key with
  | none =>
    rw [hvalue'] at hkey
    cases hkey
  | some value' => exact ⟨value', rfl⟩

theorem MapEqual.exists_left {V : Type} {r : V → V → Prop} {m m' : StrMap V} (h : MapEqual r m m') {key : String}
    {value : V} (hvalue : m'.lookup key = some value) : ∃ value', m.lookup key = some value' := by
  have hkey := h key
  rw [hvalue] at hkey
  cases hvalue' : m.lookup key with
  | none =>
    rw [hvalue'] at hkey
    cases hkey
  | some value' => exact ⟨value', rfl⟩

theorem mem_mapM_iff {A B : Type} {f : A → Option B} {l : List A} {ys : List B} (h : l.mapM f = some ys) (b : B) :
    b ∈ ys ↔ ∃ a ∈ l, f a = some b := by
  constructor
  · exact fun hb => exists_of_mem_mapM h hb
  · rintro ⟨a, ha, hfa⟩
    obtain ⟨b', hb', hfa'⟩ := exists_of_mapM h ha
    cases hfa.symm.trans hfa'
    exact hb'

/-- what is named after its key occurs once -/
theorem nodup_mapM {V B : Type} {m : StrMap V} {f : (Σ _ : String, V) → Option B} {name : B → String}
    (hf : ∀ e b, f e = some b → name b = e.1) {ys : List B} (h : m.entries.mapM f = some ys) : ys.Nodup := by
  have hnames : List.Forall₂ Eq (m.entries.map Sigma.fst) (ys.map name) :=
    List.forall₂_map_left_iff.2 (List.forall₂_map_right_iff.2 (forall₂_mapM (fun e b hb => (hf e b hb).symm) h))
  rw [List.forall₂_eq_eq_eq] at hnames
  exact List.Nodup.of_map name (hnames ▸ m.nodupKeys)

/-- **Loops over maps with the same keys** build the same, up to order, if and only if they do so for every key. -/
theorem perm_mapM_iff {V B : Type} {m m' : StrMap V} {f g : (Σ _ : String, V) → Option B} (name : B → String)
    {r : V → V → Prop} (hequal : MapEqual r m m') (hf : ∀ e b, f e = some b → name b = e.1)
    (hg : ∀ e b, g e = some b → name b = e.1) {ys zs : List B} (hys : m.entries.mapM f = some ys)
    (hzs : m'.entries.mapM g = some zs) :
    ys.Perm zs ↔ ∀ key v v', m.lookup key = some v → m'.lookup key = some v' → f ⟨key, v⟩ = g ⟨key, v'⟩ := by
  have hmem := fun b => mem_mapM_iff hys b
  have hmem' := fun b => mem_mapM_iff hzs b
  rw [List.perm_ext_iff_of_nodup (nodup_mapM hf hys) (nodup_mapM hg hzs)]
  constructor
  · intro h key v v' hv hv'
    obtain ⟨b, hb, hfb⟩ := exists_of_mapM hys (AList.mem_lookup_iff.1 hv)
    obtain ⟨e, he, hge⟩ := (hmem' b).1 ((h b).1 hb)
    have hkey : e.1 = key := (hg e b hge).symm.trans (hf _ b hfb)
    have he' := AList.mem_lookup_iff.2 he
    rw [hkey, hv'] at he'
    rcases e with ⟨key', w⟩
    cases hkey
    cases he'
    rw [hfb, hge]
  · intro h b
    rw [hmem, hmem']
    constructor
    · rintro ⟨⟨key, v⟩, he, hfe⟩
      have hv := AList.mem_lookup_iff.2 he
      obtain ⟨v', hv'⟩ := hequal.exists_right hv
      exact ⟨⟨key, v'⟩, AList.mem_lookup_iff.1 hv', (h key v v' hv hv').symm.trans hfe⟩
    · rintro ⟨⟨key, v'⟩, he, hge⟩
      have hv' := AList.mem_lookup_iff.2 he
      obtain ⟨v, hv⟩ := hequal.exists_left hv'
      exact ⟨⟨key, v⟩, AList.mem_lookup_iff.1 hv, (h key v v' hv hv').trans hge⟩

/-! ## Reactions -/

namespace ReactionSpecBuilder

variable {config : BuilderConfig} {digest : String → String} {instanceId id : String} {reaction reaction' : ReactionSpec}

theorem lookup_ports {serviceName : String} {endpoints : List (Σ _ : String, Endpoint)} {exposed exposed' : Exposed}
    (h : endpoints.foldlM (addEndpoint config id serviceName) exposed = some exposed') (key : String) :
    exposed'.ports.lookup key =
      (Writes.last key (endpoints.map fun e => (e.1, e.2.port))).or (exposed.ports.lookup key) := by
  induction endpoints generalizing exposed with
  | nil =>
    cases h
    rfl
  | cons endpoint endpoints ih =>
    rw [List.foldlM_cons] at h
    obtain ⟨next, hnext, hrest⟩ := Option.bind_eq_some_iff.1 h
    have hports : next.ports = exposed.ports.insert endpoint.1 endpoint.2.port := by
      obtain ⟨port, hport, hadd⟩ := Option.bind_eq_some_iff.1 hnext
      rw [Endpoint.port, hport, Option.getD_some]
      cases hsetting : endpoint.2.setting <;> rw [hsetting] at hadd <;> cases hadd <;> rfl
    rw [ih hrest, hports, lookup_insert_or, List.map_cons, Writes.last, Option.or_assoc]

/-- of the endpoints that write one key, and of those that write the ingress, the last one is the same -/
structure SameLast (serviceName : String) (endpoints endpoints' : List (Σ _ : String, Endpoint)) : Prop where
  services : ∀ key, Writes.last key (endpoints.map fun e => (serviceKey serviceName e, e)) =
    Writes.last key (endpoints'.map fun e => (serviceKey serviceName e, e))
  ingress : (endpoints.filter fun e => e.2.setting = .external).getLast? =
    (endpoints'.filter fun e => e.2.setting = .external).getLast?

theorem last_serviceWrites (serviceName key : String) (endpoints : List (Σ _ : String, Endpoint)) :
    Writes.last key ((rule config id serviceName).serviceWrites endpoints) =
      (Writes.last key (endpoints.map fun e => (serviceKey serviceName e, e))).map (rule config id serviceName).service := by
  rw [← Writes.last_map_value key (rule config id serviceName).service, List.map_map]
  rfl

/-- the ingress of a reaction has one name -/
theorem last_ingressWrites (serviceName name : String) (endpoints : List (Σ _ : String, Endpoint)) :
    Writes.last name ((rule config id serviceName).ingressWrites endpoints) =
      if id ++ "-reaction-ingress" = name then
        ((endpoints.filter fun e => e.2.setting = .external).getLast?).map (rule config id serviceName).ingress
      else none := by
  rw [EndpointRule.ingressWrites]
  induction endpoints.filter fun e => e.2.setting = .external with
  | nil => simp [Writes.last]
  | cons e l ih =>
    rw [List.map_cons, Writes.last, ih, List.getLast?_cons]
    by_cases hname : id ++ "-reaction-ingress" = name
    · rw [if_pos hname, if_pos hname]
      cases l.getLast? <;> simp [rule, hname]
    · rw [if_neg hname, if_neg hname]
      exact if_neg hname

/-- what is made of the endpoint tells the endpoint -/
theorem eq_of_map_eq {B : Type} {g : (Σ _ : String, Endpoint) → B} (hg : ∀ e e', g e = g e' → e.1 = e'.1)
    {m m' : StrMap Endpoint} (hequal : MapEqual Eq m m') {o o' : Option (Σ _ : String, Endpoint)}
    (ho : ∀ e ∈ o, e ∈ m.entries) (ho' : ∀ e ∈ o', e ∈ m'.entries) (h : o.map g = o'.map g) : o = o' := by
  cases o with
  | none => exact (Option.map_eq_none_iff.1 h.symm).symm
  | some e =>
    obtain ⟨e', rfl, he'⟩ := Option.map_eq_some_iff.1 h.symm
    have hkey := hg e' e he'
    have hvalue := AList.mem_lookup_iff.2 (ho e rfl)
    have hvalue' := AList.mem_lookup_iff.2 (ho' e' rfl)
    rw [hkey, ← hequal.lookup, hvalue] at hvalue'
    rcases e with ⟨key, value⟩
    rcases e' with ⟨key', value'⟩
    cases hkey
    cases hvalue'
    rfl

theorem appPort_congr {service service' : Service} (h : service.Equal service') : service.appPort = service'.appPort := by
  rw [Service.appPort, Service.appPort, bind_lookup h.dapr]

theorem appProtocol_congr {service service' : Service} (h : service.Equal service') :
    service.appProtocol = service'.appProtocol := by
  rw [Service.appProtocol, Service.appProtocol, bind_lookup h.dapr]

theorem env_congr (instanceId id : String) (h : reaction.Equal reaction') (hdigest : digest reaction.text = digest reaction'.text) :
    mapEnvVars (env (ReactionSpec.calcHash digest) instanceId id reaction) =
      mapEnvVars (env (ReactionSpec.calcHash digest) instanceId id reaction') := by
  refine mapEnvVars_congr (mapEqual_of_lookup fun key => ?_)
  simp only [env, lookup_insert_or, (MapEqual.getD h.properties).lookup key, ReactionSpec.calcHash, hdigest]

/-- **Built alike**, when the hashes agree and the last endpoints do. -/
theorem buildService_congr (h : reaction.Equal reaction') (hdigest : digest reaction.text = digest reaction'.text)
    {name : String} {service service' : Service} (hservice : service.Equal service')
    (hlast : SameLast name (service.endpoints.getD ∅).entries (service'.endpoints.getD ∅).entries) {spec spec' : BuiltSpec}
    (hspec : buildService config (ReactionSpec.calcHash digest) instanceId id reaction ⟨name, service⟩ = some spec)
    (hspec' : buildService config (ReactionSpec.calcHash digest) instanceId id reaction' ⟨name, service'⟩ = some spec') :
    spec = spec' := by
  obtain ⟨appPort, hport, hspec⟩ := Option.bind_eq_some_iff.1 hspec
  obtain ⟨exposed, hexposed, hspec⟩ := Option.bind_eq_some_iff.1 hspec
  obtain ⟨replica, hreplica, hspec⟩ := Option.bind_eq_some_iff.1 hspec
  obtain ⟨appPort', hport', hspec'⟩ := Option.bind_eq_some_iff.1 hspec'
  obtain ⟨exposed', hexposed', hspec'⟩ := Option.bind_eq_some_iff.1 hspec'
  obtain ⟨replica', hreplica', hspec'⟩ := Option.bind_eq_some_iff.1 hspec'
  have hlookup := (rule config id name).lookup_exposed (adds_addEndpoint config id) hexposed
  have hlookup' := (rule config id name).lookup_exposed (adds_addEndpoint config id) hexposed'
  have hservices : serviceEntries exposed.services = serviceEntries exposed'.services := by
    rw [serviceEntries, serviceEntries, sorted_congr (mapEqual_of_lookup fun key => ?_)]
    rw [(hlookup key).1, (hlookup' key).1, last_serviceWrites, last_serviceWrites, hlast.services]
  have hingresses : sorted exposed.ingresses = sorted exposed'.ingresses := by
    refine sorted_congr (mapEqual_of_lookup fun key => ?_)
    rw [(hlookup key).2, (hlookup' key).2, last_ingressWrites, last_ingressWrites, hlast.ingress]
  have hports : sorted exposed.ports = sorted exposed'.ports := by
    refine sorted_congr (mapEqual_of_lookup fun key => ?_)
    rw [lookup_ports hexposed, lookup_ports hexposed', last_entries _ fun e : Σ _ : String, Endpoint => e.2.port,
      last_entries _ fun e : Σ _ : String, Endpoint => e.2.port, (MapEqual.getD hservice.endpoints).lookup key]
  have hqueries := sorted_congr h.queries
  have henv := env_congr instanceId id h hdigest
  obtain rfl : appPort = appPort' := Option.some.inj (hport.symm.trans ((appPort_congr hservice).trans hport'))
  obtain rfl : replica = replica' := by
    rw [hservice.replica] at hreplica
    exact Option.some.inj (hreplica.symm.trans hreplica')
  simp only [buildDeploymentSpec, Option.map_some, Option.getD_some, henv, hports, hservices, hingresses, hqueries,
    h.identity, hservice.image, hservice.externalImage, appProtocol_congr hservice] at hspec
  exact Option.some.inj (hspec.symm.trans hspec')

/-- the container of a service shows the hash of the specification -/
theorem defines_hash {entry : Σ _ : String, Service} {spec : BuiltSpec}
    (h : buildService config (ReactionSpec.calcHash digest) instanceId id reaction entry = some spec) :
    ∃ container, spec.containers = [container] ∧
      ∀ value, container.Defines "CONFIG_HASH" value ↔ value = .inline (digest reaction.text) := by
  obtain ⟨-, container, hcontainer, henv, -⟩ := buildService_container h
  have hkey : "CONFIG_HASH" ∉ (identityVars reaction.identity).map (·.name) := by
    intro hmem
    have hkeys : "CONFIG_HASH" ∉ "IDENTITY_TYPE" :: identityKeys := by decide
    exact hkeys ((identityVars_names reaction.identity).2 _ hmem)
  refine ⟨container, hcontainer, fun value => ?_⟩
  rw [defines_iff henv hkey, env, AList.lookup_insert_ne (by decide), AList.lookup_insert_ne (by decide),
    AList.lookup_insert, Option.some_inj, eq_comm]
  rfl

/-- **When a service is built alike.** -/
theorem buildService_eq_iff (h : reaction.Equal reaction') {name : String} {service service' : Service}
    (hservice : service.Equal service') {spec spec' : BuiltSpec}
    (hspec : buildService config (ReactionSpec.calcHash digest) instanceId id reaction ⟨name, service⟩ = some spec)
    (hspec' : buildService config (ReactionSpec.calcHash digest) instanceId id reaction' ⟨name, service'⟩ = some spec') :
    spec = spec' ↔ digest reaction.text = digest reaction'.text ∧
      SameLast name (service.endpoints.getD ∅).entries (service'.endpoints.getD ∅).entries := by
  refine ⟨?_, fun hsame => buildService_congr h hsame.1 hservice hsame.2 hspec hspec'⟩
  rintro rfl
  have hendpoints := MapEqual.getD hservice.endpoints
  obtain ⟨-, -, hservices, hingresses⟩ := buildService_objects hspec
  obtain ⟨-, -, hservices', hingresses'⟩ := buildService_objects hspec'
  refine ⟨?_, fun key => ?_, ?_⟩
  · obtain ⟨container, hcontainer, hdefines⟩ := defines_hash hspec
    obtain ⟨container', hcontainer', hdefines'⟩ := defines_hash hspec'
    obtain rfl : container = container' := List.singleton_inj.1 (hcontainer.symm.trans hcontainer')
    exact ConfigValue.inline.inj ((hdefines' _).1 ((hdefines _).2 rfl))
  · have hmem : ∀ (endpoints : List (Σ _ : String, Endpoint)) (e : Σ _ : String, Endpoint),
        e ∈ Writes.last key (endpoints.map fun e => (serviceKey name e, e)) → e ∈ endpoints := by
      intro endpoints e he
      obtain ⟨e', he', heq⟩ := List.mem_map.1 (Writes.mem_of_last he)
      cases heq
      exact he'
    refine eq_of_map_eq (g := (rule config id name).service) (fun e e' heq => ?_) hendpoints (hmem _) (hmem _) ?_
    · simp only [rule, clusterIp, ServiceSpec.mk.injEq, List.cons.injEq, ServicePort.mk.injEq, Option.some.injEq] at heq
      exact heq.2.2.1.1
    · rw [← last_serviceWrites, ← last_serviceWrites]
      refine Option.ext fun built => ?_
      have hiff := (hservices key (.service built)).symm.trans (hservices' key (.service built))
      simpa using hiff
  · have hmem : ∀ (endpoints : List (Σ _ : String, Endpoint)) (e : Σ _ : String, Endpoint),
        e ∈ (endpoints.filter fun e => e.2.setting = .external).getLast? → e ∈ endpoints :=
      fun endpoints e he => List.mem_of_mem_filter (List.mem_of_getLast? he)
    refine eq_of_map_eq (g := (rule config id name).ingress) (fun e e' heq => ?_) hendpoints (hmem _) (hmem _) ?_
    · have hbackends : e.1 = e'.1 ∧ e.2.port = e'.2.port := by
        simpa [rule, ingressObject, Object.backends] using congrArg Object.backends heq
      exact hbackends.1
    · refine Option.ext fun object => ?_
      have hiff := (hingresses (id ++ "-reaction-ingress") object).symm.trans (hingresses' (id ++ "-reaction-ingress") object)
      rw [last_ingressWrites, last_ingressWrites, if_pos rfl, if_pos rfl] at hiff
      exact hiff

/-- two different texts with one hash -/
def Collide (digest : String → String) (reaction reaction' : ReactionSpec) : Prop :=
  reaction.text ≠ reaction'.text ∧ digest reaction.text = digest reaction'.text

theorem digest_eq_iff : digest reaction.text = digest reaction'.text ↔ reaction = reaction' ∨ Collide digest reaction reaction' := by
  rw [← ReactionSpec.text_eq_iff, Collide]
  constructor
  · intro h
    by_cases htext : reaction.text = reaction'.text
    · exact .inl htext
    · exact .inr ⟨htext, h⟩
  · rintro (htext | ⟨-, h⟩)
    · rw [htext]
    · exact h

/-- **When a reaction is built alike**: it has no services, the maps are walked in the same order, or else the hashes
collide and the last endpoints of every service agree. -/
theorem build_perm_iff (h : reaction.Equal reaction') {specs specs' : List BuiltSpec}
    (hspecs : build config (ReactionSpec.calcHash digest) instanceId id reaction = some specs)
    (hspecs' : build config (ReactionSpec.calcHash digest) instanceId id reaction' = some specs') :
    specs.Perm specs' ↔ (reaction.services.getD ∅).entries = [] ∨ reaction = reaction' ∨
      Collide digest reaction reaction' ∧ ∀ name service service', (reaction.services.getD ∅).lookup name = some service →
        (reaction'.services.getD ∅).lookup name = some service' →
          SameLast name (service.endpoints.getD ∅).entries (service'.endpoints.getD ∅).entries := by
  have hservices := MapEqual.getD h.services
  have hname : ∀ {reaction : ReactionSpec} (e : Σ _ : String, Service) spec,
      buildService config (ReactionSpec.calcHash digest) instanceId id reaction e = some spec → spec.serviceName = e.1 :=
    fun _ _ hspec => (buildService_objects hspec).2.1
  have heach : specs.Perm specs' ↔ ∀ name service service', (reaction.services.getD ∅).lookup name = some service →
      (reaction'.services.getD ∅).lookup name = some service' → digest reaction.text = digest reaction'.text ∧
        SameLast name (service.endpoints.getD ∅).entries (service'.endpoints.getD ∅).entries := by
    rw [perm_mapM_iff (fun spec : BuiltSpec => spec.serviceName) hservices hname hname hspecs hspecs']
    refine forall₃_congr fun name service service' => forall₂_congr fun hlookup hlookup' => ?_
    obtain ⟨spec, -, hspec⟩ := exists_of_mapM hspecs (AList.mem_lookup_iff.1 hlookup)
    obtain ⟨spec', -, hspec'⟩ := exists_of_mapM hspecs' (AList.mem_lookup_iff.1 hlookup')
    have hservice : service.Equal service' := by
      have hkey := hservices name
      rw [hlookup, hlookup'] at hkey
      cases hkey
      assumption
    rw [hspec, hspec', Option.some_inj]
    exact buildService_eq_iff h hservice hspec hspec'
  rw [heach]
  constructor
  · intro hall
    by_cases hempty : (reaction.services.getD ∅).entries = []
    · exact .inl hempty
    · obtain ⟨e, he⟩ := List.exists_mem_of_ne_nil _ hempty
      have hlookup := AList.mem_lookup_iff.2 he
      obtain ⟨service', hlookup'⟩ := hservices.exists_right hlookup
      refine .inr ((digest_eq_iff.1 (hall _ _ _ hlookup hlookup').1).imp_right fun hcollide => ⟨hcollide, ?_⟩)
      exact fun name service service' hlookup hlookup' => (hall name service service' hlookup hlookup').2
  · rintro (hempty | rfl | ⟨hcollide, hlast⟩) name service service' hlookup hlookup'
    · have hmem : ⟨name, service⟩ ∈ (reaction.services.getD ∅).entries := AList.mem_lookup_iff.1 hlookup
      rw [hempty] at hmem
      cases hmem
    · cases hlookup.symm.trans hlookup'
      exact ⟨rfl, ⟨fun _ => rfl, rfl⟩⟩
    · exact ⟨hcollide.2, hlast name service service' hlookup hlookup'⟩

end ReactionSpecBuilder

/-! ## Query containers -/

namespace QueryContainerSpecBuilder

variable {config : BuilderConfig} {instanceId id : String} {queryHostCount : UInt16} {spec spec' : QueryContainerSpec}

theorem insertFields_congr {index : ℕ} {env env' : StrMap ConfigValue} (h : ∀ key, env.lookup key = env'.lookup key)
    (fields : List (String × ConfigValue)) (key : String) :
    (insertFields index env fields).lookup key = (insertFields index env' fields).lookup key := by
  induction fields generalizing env env' with
  | nil => exact h key
  | cons field fields ih =>
    refine ih fun key' => ?_
    rw [lookup_insert_or, lookup_insert_or, h key']

theorem insertStores_congr {index : ℕ} {env env' : StrMap ConfigValue} (h : ∀ key, env.lookup key = env'.lookup key)
    (stores : List (Σ _ : String, StorageSpec)) (key : String) :
    (insertStores index env stores).lookup key = (insertStores index env' stores).lookup key := by
  induction stores generalizing index env env' with
  | nil => exact h key
  | cons store stores ih => exact ih (insertFields_congr h _)

/-- **The variable of a number** is the name of the store that has it in the walk. -/
theorem lookup_storeKey {stores : List (Σ _ : String, StorageSpec)} {j : ℕ} (hj : j < stores.length) (index : ℕ)
    (env : StrMap ConfigValue) :
    (insertStores index env stores).lookup (storeKey (index + j) "") = some (.inline stores[j].1) := by
  have hempty : IsSuffix "" := by simp [IsSuffix]
  induction stores generalizing index env j with
  | nil => cases hj
  | cons store stores ih =>
    rcases store with ⟨name, storage⟩
    cases j with
    | zero =>
      have hlater : ∀ i ≥ index + 1, ∀ suffix, IsSuffix suffix → storeKey index "" ≠ storeKey i suffix := by
        intro i hi suffix hs hkey
        have := ((storeKey_inj hempty hs).1 hkey).1
        omega
      have hname : (storeFields name storage).reverse.lookup "" = some (.inline name) := by
        cases storage with
        | memory enableArchive => rfl
        | redis connectionString cacheSize => cases cacheSize <;> rfl
        | rocksDb enableArchive storageClass directIo => rfl
      rw [insertStores, Nat.add_zero, lookup_insertStores_ne _ hlater,
        lookup_insertFields hempty env (isSuffix_storeFields name storage), hname]
      rfl
    | succ j =>
      have hrest := ih (Nat.lt_of_succ_lt_succ hj) (index + 1) (insertFields index env (storeFields name storage))
      rw [insertStores, ← Nat.add_assoc, Nat.add_right_comm, hrest]
      rfl

theorem lookup_queryHostEnv_congr (h : spec.Equal spec') (hstores : spec.storage.entries = spec'.storage.entries)
    (key : String) : (queryHostEnv id spec).lookup key = (queryHostEnv id spec').lookup key := by
  rw [queryHostEnv, queryHostEnv, hstores]
  refine insertStores_congr (fun key => ?_) _ key
  have hresults : spec.results.entries.dlookup key = spec'.results.entries.dlookup key := h.results.lookup key
  rw [lookup_insert_or, lookup_insert_or, lookup_extend_entries spec.results.nodupKeys,
    lookup_extend_entries spec'.results.nodupKeys, hresults, h.defaultStore]

/-- variables tell the map they are made of -/
theorem lookup_of_mapEnvVars {env env' : StrMap ConfigValue} (h : mapEnvVars env = mapEnvVars env') (key : String) :
    env.lookup key = env'.lookup key := by
  have hfilter := filter_mapEnvVars env key
  rw [h, filter_mapEnvVars env' key] at hfilter
  have hhead := congrArg List.head? hfilter
  rw [Option.head?_toList, Option.head?_toList] at hhead
  exact Option.map_injective (fun _ _ => envVar_inj) hhead.symm

variable (config id queryHostCount) in
/-- **When a query host is built alike**: the stores are walked in the same order. -/
theorem queryHost_eq_iff (h : spec.Equal spec') :
    queryHost config id queryHostCount spec = queryHost config id queryHostCount spec' ↔
      spec.storage.entries = spec'.storage.entries := by
  constructor
  · intro heq
    have hcontainers := congrArg BuiltSpec.containers heq
    have henv : mapEnvVars (queryHostEnv id spec) = mapEnvVars (queryHostEnv id spec') :=
      congrArg Container.env (List.singleton_inj.1 hcontainers)
    refine List.ext_getElem h.storage.entries_perm.length_eq fun j hj hj' => ?_
    have hname := lookup_of_mapEnvVars henv (storeKey (0 + j) "")
    rw [queryHostEnv, queryHostEnv, lookup_storeKey hj, lookup_storeKey hj'] at hname
    have hkey := ConfigValue.inline.inj (Option.some.inj hname)
    have hvalue : spec.storage.lookup spec.storage.entries[j].1 = some spec.storage.entries[j].2 :=
      AList.mem_lookup_iff.2 (List.getElem_mem hj)
    have hvalue' : spec'.storage.lookup spec'.storage.entries[j].1 = some spec'.storage.entries[j].2 :=
      AList.mem_lookup_iff.2 (List.getElem_mem hj')
    rw [← hkey, ← h.storage.lookup, hvalue] at hvalue'
    exact Sigma.ext hkey (heq_of_eq (Option.some.inj hvalue'))
  · intro hstores
    have henv : mapEnvVars (queryHostEnv id spec) = mapEnvVars (queryHostEnv id spec') :=
      mapEnvVars_congr (mapEqual_of_lookup (lookup_queryHostEnv_congr h hstores))
    simp only [queryHost, serviceSpec, buildDeploymentSpec, henv, hstores]

/-- **When a query container is built alike.** -/
theorem build_perm_iff (h : spec.Equal spec') :
    (build config instanceId id queryHostCount spec).Perm (build config instanceId id queryHostCount spec') ↔
      spec.storage.entries = spec'.storage.entries := by
  rw [build, build, List.perm_cons, ← queryHost_eq_iff config id queryHostCount h]
  exact (List.perm_append_right_iff [viewSvc config instanceId id]).trans List.singleton_perm_singleton

end QueryContainerSpecBuilder

/-! ## Both -/

/-- **Equal requests are built alike**, up to the order of the specifications: a reaction, if and only if it has no
services or its maps are walked in the same order (or, if not, the hashes collide and the last endpoints agree); a query
container, if and only if its stores are walked in the same order. -/
theorem equal_requests_build_equal_iff (config : BuilderConfig) (digest : String → String) (instanceId id : String)
    {reaction reaction' : ReactionSpec} {reactionSpecs reactionSpecs' : List BuiltSpec} (queryHostCount : UInt16)
    {container container' : QueryContainerSpec} (hreaction : reaction.Equal reaction') (hcontainer : container.Equal container')
    (hspecs : ReactionSpecBuilder.build config (ReactionSpec.calcHash digest) instanceId id reaction = some reactionSpecs)
    (hspecs' : ReactionSpecBuilder.build config (ReactionSpec.calcHash digest) instanceId id reaction' =
      some reactionSpecs') :
    (reactionSpecs.Perm reactionSpecs' ↔ (reaction.services.getD ∅).entries = [] ∨ reaction = reaction' ∨
      ReactionSpecBuilder.Collide digest reaction reaction' ∧
        ∀ name service service', (reaction.services.getD ∅).lookup name = some service →
          (reaction'.services.getD ∅).lookup name = some service' → ReactionSpecBuilder.SameLast name
            (service.endpoints.getD ∅).entries (service'.endpoints.getD ∅).entries) ∧
    ((QueryContainerSpecBuilder.build config instanceId id queryHostCount container).Perm
        (QueryContainerSpecBuilder.build config instanceId id queryHostCount container') ↔
      container.storage.entries = container'.storage.entries) :=
  ⟨ReactionSpecBuilder.build_perm_iff hreaction hspecs hspecs', QueryContainerSpecBuilder.build_perm_iff hcontainer⟩

/-- two entries in the one order or in the other -/
def twoEntries {V : Type} (inOrder : Bool) (value value' : V) : StrMap V :=
  if inOrder then (AList.singleton "b" value').insert "a" value else (AList.singleton "a" value).insert "b" value'

theorem twoEntries_equal {V : Type} (value value' : V) (inOrder inOrder' : Bool) :
    MapEqual Eq (twoEntries inOrder value value') (twoEntries inOrder' value value') := by
  refine mapEqual_of_lookup fun key => AList.perm_lookup ?_
  cases inOrder <;> cases inOrder'
  · exact List.Perm.refl _
  · exact List.Perm.swap _ _ []
  · exact List.Perm.swap _ _ []
  · exact List.Perm.refl _

/-- a reaction with two properties -/
def twoProperties (inOrder : Bool) (services : Option (StrMap Service)) : ReactionSpec :=
  ⟨"Http", none, services, some (twoEntries inOrder (.inline "1") (.inline "2")), ∅, none⟩

theorem twoProperties_equal (inOrder inOrder' : Bool) (services : Option (StrMap Service)) :
    (twoProperties inOrder services).Equal (twoProperties inOrder' services) := by
  have hmap : ∀ {V : Type} (m : Option (StrMap V)), Option.Rel (MapEqual Eq) m m :=
    fun m => rel_refl (fun m => mapEqual_of_lookup fun _ => rfl) m
  have hservice : ∀ service : Service, service.Equal service := fun _ => ⟨rfl, rfl, rfl, hmap _, hmap _, hmap _⟩
  exact ⟨rfl, rfl, rel_refl (fun m key => rel_refl hservice _) _, .some (twoEntries_equal _ _ _ _),
    mapEqual_of_lookup fun _ => rfl, rfl⟩

/-- a query container with two variables for its results and two stores -/
def twoStores (resultsInOrder storesInOrder : Bool) : QueryContainerSpec :=
  ⟨twoEntries resultsInOrder (.inline "1") (.inline "2"), twoEntries storesInOrder (.memory true) (.memory false), "a"⟩

theorem twoStores_equal (resultsInOrder storesInOrder resultsInOrder' storesInOrder' : Bool) :
    (twoStores resultsInOrder storesInOrder).Equal (twoStores resultsInOrder' storesInOrder') :=
  ⟨twoEntries_equal _ _ _ _, twoEntries_equal _ _ _ _, rfl⟩

/-- a reaction without services, and stores in one order -/
theorem equal_requests_build_equal_same_order :
    ∃ specs specs',
      ReactionSpecBuilder.build defaultConfig (ReactionSpec.calcHash id) "drasi" "r1" (twoProperties true none) =
        some specs ∧
      ReactionSpecBuilder.build defaultConfig (ReactionSpec.calcHash id) "drasi" "r1" (twoProperties false none) =
        some specs' ∧
      specs.Perm specs' ∧
      (QueryContainerSpecBuilder.build defaultConfig "drasi" "r1" 1 (twoStores true true)).Perm
        (QueryContainerSpecBuilder.build defaultConfig "drasi" "r1" 1 (twoStores false true)) := by
  refine ⟨_, _, rfl, rfl, ?_⟩
  obtain ⟨hreaction, hcontainer⟩ := equal_requests_build_equal_iff defaultConfig id "drasi" "r1" 1
    (twoProperties_equal true false none) (twoStores_equal true true false true) rfl rfl
  exact ⟨hreaction.2 (.inl rfl), hcontainer.2 rfl⟩

/-- a reaction with its properties in two orders, by a hash that does not collide, and a query container with its stores
in two orders -/
theorem equal_requests_build_different :
    (∃ specs specs',
      ReactionSpecBuilder.build defaultConfig (ReactionSpec.calcHash id) "drasi" "r1"
        (twoProperties true (exposing "reaction" webhook)) = some specs ∧
      ReactionSpecBuilder.build defaultConfig (ReactionSpec.calcHash id) "drasi" "r1"
        (twoProperties false (exposing "reaction" webhook)) = some specs' ∧
      (twoProperties true (exposing "reaction" webhook)).Equal (twoProperties false (exposing "reaction" webhook)) ∧
      ¬ specs.Perm specs') ∧
    (twoStores true true).Equal (twoStores true false) ∧
    ¬ (QueryContainerSpecBuilder.build defaultConfig "drasi" "c1" 1 (twoStores true true)).Perm
        (QueryContainerSpecBuilder.build defaultConfig "drasi" "c1" 1 (twoStores true false)) := by
  refine ⟨?_, twoStores_equal true true true false, fun h => ?_⟩
  · have hequal := twoProperties_equal true false (exposing "reaction" webhook)
    obtain ⟨specs, hspecs⟩ : ∃ specs, ReactionSpecBuilder.build defaultConfig (ReactionSpec.calcHash id) "drasi" "r1"
        (twoProperties true (exposing "reaction" webhook)) = some specs := ⟨_, rfl⟩
    obtain ⟨specs', hspecs'⟩ : ∃ specs', ReactionSpecBuilder.build defaultConfig (ReactionSpec.calcHash id) "drasi" "r1"
        (twoProperties false (exposing "reaction" webhook)) = some specs' := ⟨_, rfl⟩
    refine ⟨specs, specs', hspecs, hspecs', hequal, fun h => ?_⟩
    rcases (ReactionSpecBuilder.build_perm_iff hequal hspecs hspecs').1 h with hempty | hsame | ⟨⟨hne, heq⟩, -⟩
    · cases hempty
    · have hproperties := congrArg (fun r => ((r.properties.getD ∅).entries.map Sigma.fst).head?) hsame
      exact absurd hproperties (by decide)
    · exact hne heq
  · have hstores := (QueryContainerSpecBuilder.build_perm_iff (twoStores_equal true true true false)).1 h
    exact absurd (congrArg (fun entries => (entries.map Sigma.fst).head?) hstores) (by decide)

end DrasiPlatform.Provider
