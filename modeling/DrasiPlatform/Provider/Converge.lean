/-
Does a reconcile converge? After one pass of a spec every object it describes should be there as described, and a second
pass should have nothing to do.

`objects` lists the objects of a spec under their names, kind by kind, ingresses with the dynamic configuration of the
cluster. `Changeable` says when the tests of the kinds see every difference there is:

- a config map, the component or an ingress that is there with the same data or spec is there as described;
- a volume claim that is there is as described;
- the service account and the deployment carry the annotation, and an equal hash means an equal object; a merge patch
  leaves the deployment as described;
- a service is found under its SHORT name with the hash of the spec, and under its full name as described.

A spec with services does not meet the last one on a cluster that only this code has written: it creates no service under
the short name and annotates none.

- `items_settle_iff`, `hashed_settle_iff`: an object that is compared by content, or by the hash it is annotated with.
- `configMaps_settle_iff`, `services_settle_iff`, `ingresses_settle_iff` and so on: kind by kind.
- `reconcile_converges_iff`: one pass converges from a cluster iff the spec is changeable from it.
Witness: `service_never_settles` (a spec with one service: the second pass calls create and logs 409).
-/
import Mathlib.Tactic
import DrasiPlatform.Core.Programs
import DrasiPlatform.Provider.Reconciler

namespace DrasiPlatform.Provider

open DrasiPlatform.Programs

variable {D : Type}

/-! ## What a spec describes -/

/-- the address for the hosts of ingresses -/
def externalIp (env : Env D) (config : IngressConfig) : Option String :=
  match config.ip with
  | some ip => some ip
  | none => env.loadBalancer config.namespace_ config.service

/-- the ingress with the configuration of the cluster -/
def rendered (env : Env D) (c : Cluster D) (ingress : Object D) : Object D :=
  renderIngress (ingressConfig env (c drasiConfig)) (externalIp env (ingressConfig env (c drasiConfig))) ingress

/-- the name an object carries -/
def Object.named (o : Object D) : String × Object D := (o.metadata.name.getD "", o)

def KubernetesSpec.accountObject (env : Env D) (spec : KubernetesSpec D) (account : Object D) : Object D :=
  annotate "drasi/spechash" (spec.serviceAccountHash env) account

/-- the objects a spec describes, by their names -/
def objects (env : Env D) (spec : KubernetesSpec D) (c : Cluster D) : Kind → List (String × Object D)
  | .configMap => spec.configMaps
  | .volumeClaim => spec.volumeClaims
  | .component => spec.pubSub.toList.map Object.named
  | .serviceAccount => spec.serviceAccount.toList.map fun a => (spec.accountObject env a).named
  | .deployment => [(spec.fullName spec.serviceName, spec.deploymentObject env)]
  | .service => spec.services.map fun p => (spec.fullName p.1, spec.serviceObject p.1 p.2)
  | .ingress => (spec.ingresses.getD []).map fun p => (p.1, rendered env c p.2)

theorem names_eq (env : Env D) (spec : KubernetesSpec D) (c : Cluster D) (kind : Kind) :
    spec.names kind = (objects env spec c kind).map Prod.fst := by
  cases kind <;> simp [KubernetesSpec.names, objects, Object.named, KubernetesSpec.accountObject, annotate]

theorem objects_congr {env : Env D} {spec : KubernetesSpec D} {c c' : Cluster D} (h : c drasiConfig = c' drasiConfig)
    (kind : Kind) : objects env spec c kind = objects env spec c' kind := by
  cases kind <;> simp [objects, rendered, h]

/-- everything described is there as described -/
def Present (env : Env D) (spec : KubernetesSpec D) (c : Cluster D) : Prop :=
  ∀ kind, ∀ p ∈ objects env spec c kind, c ⟨kind, p.1⟩ = some p.2

section

variable [DecidableEq D]

/-- the cluster after one pass -/
def reconciled (env : Env D) (spec : KubernetesSpec D) (c : Cluster D) : Cluster D :=
  ((apiServer env).eval (reconcile env spec) c).store

/-- one pass ends and leaves everything as described, and a second one makes no call and logs no error -/
structure Converges (env : Env D) (spec : KubernetesSpec D) (c : Cluster D) : Prop where
  completes : ∃ errors, ((apiServer env).eval (reconcile env spec) c).result = .ok errors
  present : Present env spec (reconciled env spec c)
  quiet : Quiet env (reconcile env spec) (reconciled env spec c) []

/-- the tests of the kinds other than services see every difference between the cluster and the spec -/
structure Visible (env : Env D) (spec : KubernetesSpec D) (c : Cluster D) : Prop where
  configMaps : ∀ p ∈ spec.configMaps, ∀ o, c ⟨.configMap, p.1⟩ = some o → o.body.same p.2.body = true → o = p.2
  volumeClaims : ∀ p ∈ spec.volumeClaims, ∀ o, c ⟨.volumeClaim, p.1⟩ = some o → o = p.2
  pubSub : ∀ p ∈ spec.pubSub, ∀ o, c ⟨.component, p.metadata.name.getD ""⟩ = some o → o.body.same p.body = true → o = p
  serviceAccount : ∀ a ∈ spec.serviceAccount, ∀ o, c ⟨.serviceAccount, a.metadata.name.getD ""⟩ = some o →
    ∃ h, specHash o = some h ∧ (h = spec.serviceAccountHash env → o = spec.accountObject env a)
  deployment : ∀ o, c spec.deploymentKey = some o → ∃ h, specHash o = some h ∧
    (h = spec.deploymentHash env → o = spec.deploymentObject env) ∧
    (h ≠ spec.deploymentHash env → env.mergePatch o (spec.deploymentObject env) = spec.deploymentObject env)
  ingresses : ∀ p ∈ spec.ingresses.getD [], ∀ o, c ⟨.ingress, p.1⟩ = some o →
    o.body.same (rendered env c p.2).body = true → o = rendered env c p.2

/-- and every service is found under its short name with the hash of the spec, and under its full name as described -/
structure Changeable (env : Env D) (spec : KubernetesSpec D) (c : Cluster D) : Prop extends Visible env spec c where
  services : ∀ p ∈ spec.services, (∃ o, c ⟨.service, p.1⟩ = some o ∧ specHash o = some (spec.deploymentHash env)) ∧
    c ⟨.service, spec.fullName p.1⟩ = some (spec.serviceObject p.1 p.2)

/-- a kind alone: its pass ends, leaves its objects as described, and has nothing to do afterwards -/
structure Settles (env : Env D) (spec : KubernetesSpec D) (kind : Kind) (c : Cluster D) : Prop where
  ends : NoPanic ((apiServer env).eval (reconcileKind env spec kind) c).result
  present : ∀ p ∈ objects env spec c kind,
    ((apiServer env).eval (reconcileKind env spec kind) c).store ⟨kind, p.1⟩ = some p.2
  quiet : Quiet env (reconcileKind env spec kind) ((apiServer env).eval (reconcileKind env spec kind) c).store ()

end

/-! ## Objects compared by content -/

section

variable {env : Env D} {spec : KubernetesSpec D} {c c' : Cluster D}

/-- one object that is replaced when it is not the same -/
def item (kind : Kind) (same : Object D → Object D → Bool) (p : String × Object D) : Task D Unit :=
  createOrUpdate ⟨kind, p.1⟩ p.2 (fun o => some (same o p.2)) (.replace ⟨kind, p.1⟩ p.2)

variable (env) in
/-- **Objects compared by content.** With a test that an object passes against itself, they are there as described and
left in peace afterwards iff the test saw every difference before. -/
theorem items_settle_iff (same : Object D → Object D → Bool) (hrefl : ∀ o, same o o = true)
    (l : List (String × Object D)) (c c' : Cluster D) (kind : Kind)
    (hc' : ∀ p ∈ l, c' ⟨kind, p.1⟩ = some (settled (same · p.2) p.2 (c ⟨kind, p.1⟩))) :
    ((∀ p ∈ l, c' ⟨kind, p.1⟩ = some p.2) ∧ ∀ p ∈ l, Quiet env (item kind same p) c' ()) ↔
      ∀ p ∈ l, ∀ o, c ⟨kind, p.1⟩ = some o → same o p.2 = true → o = p.2 := by
  constructor
  · rintro ⟨hpresent, _⟩ p hp
    rw [← settled_eq_iff]
    exact Option.some.inj ((hc' p hp).symm.trans (hpresent p hp))
  · intro h
    have hpresent : ∀ p ∈ l, c' ⟨kind, p.1⟩ = some p.2 := by
      intro p hp
      rw [hc' p hp, (settled_eq_iff p.2 _).2 (h p hp)]
    refine ⟨hpresent, ?_⟩
    intro p hp
    rw [item, quiet_createOrUpdate_iff rfl]
    exact ⟨p.2, hpresent p hp, by rw [hrefl]⟩

theorem nodup_keys {kind : Kind} {l : List (String × Object D)} (hl : Listed l) :
    (l.map fun p => (⟨kind, p.1⟩ : Key)).Nodup := by
  have hmap : (l.map fun p => (⟨kind, p.1⟩ : Key)) = (l.map Prod.fst).map (Key.mk kind) := by
    rw [List.map_map]
    rfl
  rw [hmap]
  exact hl.1.map fun a b h => congrArg Key.name h

variable (env) in
/-- a loop over objects of a kind -/
theorem eval_items {kind : Kind} (same : Object D → Object D → Bool) {l : List (String × Object D)} (hl : Listed l)
    (c : Cluster D) :
    ((apiServer env).eval (.forEach (item kind same) l) c).result = .ok () ∧
      ∀ p ∈ l, ((apiServer env).eval (.forEach (item kind same) l) c).store ⟨kind, p.1⟩ =
        some (settled (same · p.2) p.2 (c ⟨kind, p.1⟩)) := by
  have hitem : ∀ p ∈ l, ∀ s : Cluster D, True →
      ((apiServer env).eval (item kind same p) s).result = .ok () ∧
      ((apiServer env).eval (item kind same p) s).store =
        Function.update s ⟨kind, p.1⟩ (some (settled (same · p.2) p.2 (s ⟨kind, p.1⟩))) := by
    intro p hp s _
    exact eval_item (hl.2 p hp)
  obtain ⟨hres, hstore, -⟩ := Server.eval_forEach_local (fun p : String × Object D => ⟨kind, p.1⟩)
    (fun p v => some (settled (same · p.2) p.2 v)) (fun _ => True) (nodup_keys hl) hitem (fun _ _ _ _ _ => trivial)
    (s := c) trivial
  exact ⟨hres, hstore⟩

/-! ## Objects compared by their hash -/

/-- the hash in the annotation that was just set -/
theorem specHash_annotate (hash : String) (o : Object D) : specHash (annotate "drasi/spechash" hash o) = some hash := by
  simp [specHash, annotate]

variable (env) in
/-- **An object compared by the hash it is annotated with** is there as described and left in peace afterwards iff the
annotation was there and told the difference, and the update leaves the object. -/
theorem hashed_settle_iff (key : Key) (object : Object D) {hash : String} {update : Request D}
    (next : Object D → Object D) (hn : object.metadata.name = some key.name) (hhash : specHash object = some hash)
    (hupdate : ∀ o, c key = some o →
      (apiServer env).eval (expect update) c = ⟨.ok (), Function.update c key (some (next o)), [update]⟩)
    (hmut : update.isMutation = true) (p : Task D Unit)
    (hp : p = createOrUpdate key object (fun o => (specHash o).map fun h => h = hash) update) :
    (NoPanic ((apiServer env).eval p c).result ∧ ((apiServer env).eval p c).store key = some object ∧
      Quiet env p ((apiServer env).eval p c).store ()) ↔
      ∀ o, c key = some o → ∃ h, specHash o = some h ∧ (h = hash → o = object) ∧ (h ≠ hash → next o = object) := by
  subst hp
  rw [quiet_createOrUpdate_iff hmut]
  rcases hc : c key with _ | o
  · rw [eval_missing hc, eval_create hn hc]
    simp [NoPanic, hhash]
  · rcases ho : specHash o with _ | h
    · rw [eval_panic hc (by rw [ho]; rfl)]
      simp [NoPanic, ho]
    · by_cases hh : h = hash
      · rw [eval_upToDate hc (by simp [ho, hh])]
        simp [NoPanic, hc, ho, hh]
      · rw [eval_outdated hc (by simp [ho, hh]), hupdate o hc]
        simp only [NoPanic, Function.update_self, Option.some.injEq, true_and, forall_eq', ho]
        constructor
        · rintro ⟨hnext, _⟩
          exact ⟨h, rfl, fun he => absurd he hh, fun _ => hnext⟩
        · rintro ⟨_, rfl, -, hnext⟩
          refine ⟨hnext hh, next o, rfl, ?_⟩
          rw [hnext hh, hhash]
          simp

/-! ## What services and ingresses read and write -/

def serviceItem (env : Env D) (spec : KubernetesSpec D) (p : String × D) : Task D Unit :=
  createOrUpdate ⟨.service, p.1⟩ (spec.serviceObject p.1 p.2) (fun c => (specHash c).map fun h => h = spec.deploymentHash env)
    (.replace ⟨.service, p.1⟩ (spec.serviceObject p.1 p.2))

theorem uses_services (env : Env D) (spec : KubernetesSpec D) (l : List (String × D)) :
    (Prog.forEach (serviceItem env spec) l).Uses fun q =>
      (apiServer env).IsRead q ∨ ∃ p ∈ l, q = .create .service (spec.serviceObject p.1 p.2) := by
  refine Prog.uses_forEach ?_
  intro p hp
  refine uses_createOrUpdate (.inl (isRead_get _)) (.inr ⟨p, hp, rfl⟩) (.inl (isRead_replace_other ?_))
  intro he
  exact fullName_ne spec p.1 (Option.some.inj he)

/-- what a pass leaves with an annotation was there before: it creates services without one -/
theorem services_annotated (c : Cluster D) (k : Key) (o : Object D)
    (ho : ((apiServer env).eval (reconcileServices env spec) c).store k = some o) (hhash : specHash o ≠ none) :
    c k = some o := by
  let Old : Cluster D → Prop := fun t => ∀ k o, t k = some o → specHash o ≠ none → c k = some o
  have hold : Old ((apiServer env).eval (reconcileServices env spec) c).store := by
    refine Server.eval_preserves ((uses_services env spec spec.services).mono ?_) fun _ _ h _ => h
    intro q hq t ht k o hk hann
    rcases hq with hread | ⟨p, -, rfl⟩
    · rw [Server.serve_of_isRead hread] at hk
      exact ht k o hk hann
    · simp only [Server.serve, Function.update_apply] at hk
      split at hk
      · rename_i hkey
        rcases effect_create hk with hk | rfl
        · exact ht k o (hkey ▸ hk) hann
        · exact absurd rfl hann
      · exact ht k o hk hann
  exact hold k o ho hhash

/-- the loop has nothing to do iff every service is found under its short name with the hash of the spec -/
theorem quiet_services_iff (c : Cluster D) : Quiet env (reconcileServices env spec) c () ↔
    ∀ p ∈ spec.services, ∃ o, c ⟨.service, p.1⟩ = some o ∧ specHash o = some (spec.deploymentHash env) := by
  unfold Quiet reconcileServices
  rw [Server.silent_forEach_iff fun _ => isRead_of_not_isMutation]
  refine forall_congr' fun p => forall_congr' fun _ => ?_
  rw [← Quiet, quiet_createOrUpdate_iff rfl]
  simp

theorem eval_config (c : Cluster D) :
    (apiServer env).eval (getDynamicIngressConfig env) c = ⟨.ok (ingressConfig env (c drasiConfig)), c, [.get drasiConfig]⟩ := by
  unfold getDynamicIngressConfig
  rcases hc : c drasiConfig with _ | o
  · simp [Server.eval, answered_get, serve_get, hc]
  · simp [Server.eval, answered_get, serve_get, hc]

theorem quiet_config (c : Cluster D) : Quiet env (getDynamicIngressConfig env) c (ingressConfig env (c drasiConfig)) := by
  refine ⟨by rw [eval_config], ?_⟩
  rw [eval_config]
  simp [Request.isMutation]

theorem quiet_externalIp (c : Cluster D) :
    Quiet env (getIngressExternalIp env) c (externalIp env (ingressConfig env (c drasiConfig))) := by
  unfold Quiet getIngressExternalIp
  rw [Prog.bind_eq, (quiet_config c).bind_iff fun _ => isRead_of_not_isMutation]
  rcases hip : (ingressConfig env (c drasiConfig)).ip with _ | ip
  · simp [Server.Silent, externalIp, hip, Server.eval, Server.answered, apiServer, Request.answer, Request.isMutation]
  · simp [Server.Silent, externalIp, hip, Server.eval]

theorem quiet_congr {α : Type} {R : Set Key} {p : Task D α} (hp : p.Uses fun q => q.key ∈ R) {c c' : Cluster D}
    (h : ∀ k ∈ R, c k = c' k) (a : α) : Quiet env p c a ↔ Quiet env p c' a := by
  have hcongr : ((apiServer env).eval p c).result = ((apiServer env).eval p c').result ∧
      ((apiServer env).eval p c).requests = ((apiServer env).eval p c').requests ∧ _ := Server.eval_congr hp h
  obtain ⟨hres, hreq, -⟩ := hcongr
  unfold Quiet Server.Silent
  rw [hres, hreq]

theorem name_mem_readKeys (env : Env D) {kind : Kind} {p : String × Object D} (hp : p ∈ objects env spec c kind) :
    (⟨kind, p.1⟩ : Key) ∈ readKeys spec kind := by
  refine .inl ⟨rfl, ?_⟩
  rw [names_eq env spec c kind]
  exact List.mem_map_of_mem hp

end

/-! ## Kind by kind -/

section

variable [DecidableEq D] {env : Env D} {spec : KubernetesSpec D} {c : Cluster D}

theorem Body.same_refl (b : Body D) : b.same b = true := by
  cases b <;> simp [Body.same]

/-- a kind that is a loop over its objects -/
theorem settles_items_iff {kind : Kind} (same : Object D → Object D → Bool) (hrefl : ∀ o, same o o = true)
    (hl : Listed (objects env spec c kind))
    (hprog : reconcileKind env spec kind = .forEach (item kind same) (objects env spec c kind)) :
    Settles env spec kind c ↔
      ∀ p ∈ objects env spec c kind, ∀ o, c ⟨kind, p.1⟩ = some o → same o p.2 = true → o = p.2 := by
  obtain ⟨hres, hstore⟩ := eval_items env same hl c
  rw [← hprog] at hres hstore
  have hquiet : Quiet env (reconcileKind env spec kind) ((apiServer env).eval (reconcileKind env spec kind) c).store () ↔
      ∀ p ∈ objects env spec c kind,
        Quiet env (item kind same p) ((apiServer env).eval (reconcileKind env spec kind) c).store () := by
    unfold Quiet
    conv_lhs => rw [hprog]
    rw [Server.silent_forEach_iff fun _ => isRead_of_not_isMutation]
    rw [← hprog]
  rw [← items_settle_iff env same hrefl _ c _ kind hstore, ← hquiet]
  constructor
  · intro h
    exact ⟨h.present, h.quiet⟩
  · rintro ⟨hpresent, hq⟩
    refine ⟨?_, hpresent, hq⟩
    rw [hres]
    trivial

theorem configMaps_settle_iff (h : WellFormed spec) : Settles env spec .configMap c ↔
    ∀ p ∈ spec.configMaps, ∀ o, c ⟨.configMap, p.1⟩ = some o → o.body.same p.2.body = true → o = p.2 :=
  settles_items_iff (fun o p => o.body.same p.body) (fun o => Body.same_refl o.body) h.configMaps rfl

theorem volumeClaims_settle_iff (h : WellFormed spec) : Settles env spec .volumeClaim c ↔
    ∀ p ∈ spec.volumeClaims, ∀ o, c ⟨.volumeClaim, p.1⟩ = some o → o = p.2 := by
  have hl : Listed (objects env spec c .volumeClaim) := h.volumeClaims
  rw [settles_items_iff (fun _ _ => true) (fun _ => rfl) hl rfl]
  simp only [objects, true_imp_iff]

theorem component_settle_iff (h : WellFormed spec) : Settles env spec .component c ↔
    ∀ p ∈ spec.pubSub, ∀ o, c ⟨.component, p.metadata.name.getD ""⟩ = some o → o.body.same p.body = true → o = p := by
  rcases hp : spec.pubSub with _ | pubSub
  · have hobj : objects env spec c .component = [] := by simp [objects, hp]
    have hprog : reconcileKind env spec .component = .ret () := by simp [reconcileKind, reconcileComponents, hp]
    rw [settles_items_iff (fun _ _ => true) (fun _ => rfl) (by rw [hobj]; exact ⟨List.nodup_nil, by simp⟩)
      (by rw [hobj, hprog]; rfl), hobj]
    simp
  · obtain ⟨name, hname⟩ := Option.isSome_iff_exists.1 (h.pubSub pubSub hp)
    have hobj : objects env spec c .component = [(name, pubSub)] := by simp [objects, hp, Object.named, hname]
    have hprog : reconcileKind env spec .component = item .component (fun o p => o.body.same p.body) (name, pubSub) := by
      simp [reconcileKind, reconcileComponents, hp, hname, item]
    rw [settles_items_iff (fun o p => o.body.same p.body) (fun o => Body.same_refl o.body)
      (by rw [hobj]; exact ⟨List.nodup_singleton _, by simp [hname]⟩)
      (by rw [hobj, hprog, Prog.forEach_singleton]), hobj]
    simp [hname]

theorem account_settle_iff (h : WellFormed spec) : Settles env spec .serviceAccount c ↔
    ∀ a ∈ spec.serviceAccount, ∀ o, c ⟨.serviceAccount, a.metadata.name.getD ""⟩ = some o →
      ∃ hash, specHash o = some hash ∧ (hash = spec.serviceAccountHash env → o = spec.accountObject env a) := by
  rcases ha : spec.serviceAccount with _ | account
  · have hobj : objects env spec c .serviceAccount = [] := by simp [objects, ha]
    have hprog : reconcileKind env spec .serviceAccount = .ret () := by simp [reconcileKind, reconcileServiceAccount, ha]
    rw [settles_items_iff (fun _ _ => true) (fun _ => rfl) (by rw [hobj]; exact ⟨List.nodup_nil, by simp⟩)
      (by rw [hobj, hprog]; rfl), hobj]
    simp
  · obtain ⟨name, hname⟩ := Option.isSome_iff_exists.1 (h.serviceAccount account ha)
    have hn : (spec.accountObject env account).metadata.name = some name := hname
    have hobj : objects env spec c .serviceAccount = [(name, spec.accountObject env account)] := by
      simp [objects, ha, Object.named, hn]
    have hprog : reconcileKind env spec .serviceAccount =
        createOrUpdate ⟨.serviceAccount, name⟩ (spec.accountObject env account)
          (fun o => (specHash o).map fun h => h = spec.serviceAccountHash env)
          (.replace ⟨.serviceAccount, name⟩ (spec.accountObject env account)) := by
      simp [reconcileKind, reconcileServiceAccount, ha, hname, KubernetesSpec.accountObject]
    have hsettle := hashed_settle_iff env (c := c) ⟨.serviceAccount, name⟩ (spec.accountObject env account)
      (fun _ => spec.accountObject env account) hn (specHash_annotate _ account) (fun o ho => eval_replace hn ho) rfl _ hprog
    constructor
    · intro hs a haa o ho
      cases haa
      have hpresent := hs.present (name, spec.accountObject env account) (by rw [hobj]; exact List.mem_singleton_self _)
      rw [hname] at ho
      obtain ⟨hash, h1, h2, -⟩ := hsettle.1 ⟨hs.ends, hpresent, hs.quiet⟩ o ho
      exact ⟨hash, h1, h2⟩
    · intro hc
      have hall := hsettle.2 (by
        intro o ho
        obtain ⟨hash, h1, h2⟩ := hc account rfl o (by rw [hname]; exact ho)
        exact ⟨hash, h1, h2, fun _ => rfl⟩)
      refine ⟨hall.1, ?_, hall.2.2⟩
      intro p hp
      rw [hobj, List.mem_singleton] at hp
      subst hp
      exact hall.2.1

theorem deployment_settle_iff : Settles env spec .deployment c ↔
    ∀ o, c spec.deploymentKey = some o → ∃ h, specHash o = some h ∧
      (h = spec.deploymentHash env → o = spec.deploymentObject env) ∧
      (h ≠ spec.deploymentHash env → env.mergePatch o (spec.deploymentObject env) = spec.deploymentObject env) := by
  rw [← hashed_settle_iff env spec.deploymentKey (spec.deploymentObject env)
    (fun o => env.mergePatch o (spec.deploymentObject env)) rfl rfl (fun o ho => eval_patch ho) rfl
    (reconcileKind env spec .deployment) rfl]
  constructor
  · intro h
    exact ⟨h.ends, h.present _ (List.mem_singleton_self _), h.quiet⟩
  · rintro ⟨hends, hpresent, hquiet⟩
    refine ⟨hends, ?_, hquiet⟩
    intro p hp
    rw [List.mem_singleton.1 hp]
    exact hpresent

/-! ### Services -/

/-- **Services** are found under their short names or never settle. -/
theorem services_settle_iff : Settles env spec .service c ↔
    ∀ p ∈ spec.services, (∃ o, c ⟨.service, p.1⟩ = some o ∧ specHash o = some (spec.deploymentHash env)) ∧
      c ⟨.service, spec.fullName p.1⟩ = some (spec.serviceObject p.1 p.2) := by
  have hkeep : Quiet env (reconcileServices env spec) c () →
      ((apiServer env).eval (reconcileServices env spec) c).store = c := by
    intro hq
    exact Server.store_of_reads fun q hq' => isRead_of_not_isMutation (hq.2 q hq')
  constructor
  · intro h
    have hfound : Quiet env (reconcileServices env spec) c () := by
      rw [quiet_services_iff]
      intro p hp
      obtain ⟨o, ho, hhash⟩ := (quiet_services_iff _).1 h.quiet p hp
      exact ⟨o, services_annotated c _ o ho (by simp [hhash]), hhash⟩
    intro p hp
    refine ⟨(quiet_services_iff c).1 hfound p hp, ?_⟩
    have hpresent := h.present (spec.fullName p.1, spec.serviceObject p.1 p.2) (List.mem_map.2 ⟨p, hp, rfl⟩)
    rw [reconcileKind, hkeep hfound] at hpresent
    exact hpresent
  · intro h
    have hfound : Quiet env (reconcileServices env spec) c () := by
      rw [quiet_services_iff]
      intro p hp
      exact (h p hp).1
    refine ⟨?_, ?_, ?_⟩
    · rw [reconcileKind, hfound.1]
      trivial
    · intro p hp
      obtain ⟨q, hq, rfl⟩ := List.mem_map.1 hp
      rw [reconcileKind, hkeep hfound]
      exact (h q hq).2
    · rw [reconcileKind, hkeep hfound]
      exact hfound

/-! ### Ingresses -/

/-- one ingress, with the configuration read again -/
def ingressItem (env : Env D) (ip : Option String) (p : String × Object D) : Task D Unit := do
  let config ← getDynamicIngressConfig env
  item .ingress (fun o p => o.body.same p.body) (p.1, renderIngress config ip p.2)

def ingressLoop (env : Env D) (l : List (String × Object D)) : Task D Unit :=
  (getIngressExternalIp env).bind fun ip => .forEach (ingressItem env ip) l

variable (env) in
/-- every ingress is settled against what the configuration of the cluster makes of it -/
theorem eval_ingressLoop {l : List (String × Object D)} (hl : Listed l) (c : Cluster D) :
    ((apiServer env).eval (ingressLoop env l) c).result = .ok () ∧
      (∀ p ∈ l, ((apiServer env).eval (ingressLoop env l) c).store ⟨.ingress, p.1⟩ =
        some (settled (fun o => o.body.same (rendered env c p.2).body) (rendered env c p.2) (c ⟨.ingress, p.1⟩))) ∧
      ((apiServer env).eval (ingressLoop env l) c).store drasiConfig = c drasiConfig := by
  -- the address and the configuration are those of the cluster as long as `drasi-config` is
  have hitem : ∀ p ∈ l, ∀ s : Cluster D, s drasiConfig = c drasiConfig →
      ((apiServer env).eval (ingressItem env (externalIp env (ingressConfig env (c drasiConfig))) p) s).result = .ok () ∧
      ((apiServer env).eval (ingressItem env (externalIp env (ingressConfig env (c drasiConfig))) p) s).store =
        Function.update s ⟨.ingress, p.1⟩
          (some (settled (fun o => o.body.same (rendered env c p.2).body) (rendered env c p.2) (s ⟨.ingress, p.1⟩))) := by
    intro p hp s hs
    have hn : (rendered env c p.2).metadata.name = some p.1 := by
      rw [rendered, renderIngress_name]
      exact hl.2 p hp
    rw [ingressItem, Prog.bind_eq, Server.eval_bind_ok (by rw [eval_config])]
    simp only [eval_config, hs]
    exact eval_item hn
  have hkeep : ∀ p ∈ l, ∀ (s : Cluster D) (v : Option (Object D)), s drasiConfig = c drasiConfig →
      Function.update s ⟨.ingress, p.1⟩ v drasiConfig = c drasiConfig := by
    intro p _ s v hs
    rw [Function.update_of_ne (by simp [drasiConfig]), hs]
  obtain ⟨hres, hstore, hrest⟩ := Server.eval_forEach_local (fun p : String × Object D => ⟨.ingress, p.1⟩)
    (fun p v => some (settled (fun o => o.body.same (rendered env c p.2).body) (rendered env c p.2) v))
    (fun s => s drasiConfig = c drasiConfig) (nodup_keys hl) hitem hkeep rfl
  have hip : Quiet env (getIngressExternalIp env) c _ := quiet_externalIp c
  rw [ingressLoop, Server.eval_bind_ok hip.1,
    Server.store_of_reads fun q hq => isRead_of_not_isMutation (hip.2 q hq)]
  exact ⟨hres, hstore, hrest _ (by simp [drasiConfig])⟩

variable (env) in
theorem quiet_ingressLoop_iff (l : List (String × Object D)) (c : Cluster D) : Quiet env (ingressLoop env l) c () ↔
    ∀ p ∈ l, Quiet env (item .ingress (fun o p => o.body.same p.body) (p.1, rendered env c p.2)) c () := by
  have hread : ∀ q : Request D, q.isMutation = false → (apiServer env).IsRead q := fun _ => isRead_of_not_isMutation
  unfold Quiet ingressLoop
  rw [(quiet_externalIp c).bind_iff hread, Server.silent_forEach_iff hread]
  refine forall_congr' fun p => forall_congr' fun _ => ?_
  rw [ingressItem, Prog.bind_eq, (quiet_config c).bind_iff hread]
  rfl

/-- **Ingresses** are compared with what the configuration of the cluster makes of them. -/
theorem ingresses_settle_iff (h : WellFormed spec) : Settles env spec .ingress c ↔
    ∀ p ∈ spec.ingresses.getD [], ∀ o, c ⟨.ingress, p.1⟩ = some o →
      o.body.same (rendered env c p.2).body = true → o = rendered env c p.2 := by
  rcases hi : spec.ingresses with _ | l
  · have hobj : objects env spec c .ingress = [] := by simp [objects, hi]
    have hprog : reconcileKind env spec .ingress = .ret () := by simp [reconcileKind, reconcileIngresses, hi]
    rw [settles_items_iff (fun _ _ => true) (fun _ => rfl) (by rw [hobj]; exact ⟨List.nodup_nil, by simp⟩)
      (by rw [hobj, hprog]; rfl), hobj]
    simp
  · have hl : Listed l := by
      have hlisted := h.ingresses
      rw [hi] at hlisted
      exact hlisted
    have hprog : reconcileKind env spec .ingress = ingressLoop env l := by
      simp only [reconcileKind, reconcileIngresses, hi]
      rfl
    have hobj : objects env spec c .ingress = l.map fun p => (p.1, rendered env c p.2) := by simp [objects, hi]
    obtain ⟨hres, hstore, hconfig⟩ := eval_ingressLoop env hl c
    have hitems := items_settle_iff env (fun o p => o.body.same p.body) (fun o => Body.same_refl o.body)
      (l.map fun p => (p.1, rendered env c p.2)) c ((apiServer env).eval (ingressLoop env l) c).store .ingress
      (by rw [List.forall_mem_map]; exact hstore)
    simp only [List.forall_mem_map] at hitems
    have hsame : rendered env ((apiServer env).eval (ingressLoop env l) c).store = rendered env c := by
      funext o
      simp only [rendered, hconfig]
    have hquiet := quiet_ingressLoop_iff env l ((apiServer env).eval (ingressLoop env l) c).store
    rw [hsame] at hquiet
    rw [Option.getD_some, ← hitems, ← hquiet]
    constructor
    · intro hs
      have hpresent := hs.present
      have hq := hs.quiet
      rw [hobj, hprog, List.forall_mem_map] at hpresent
      rw [hprog] at hq
      exact ⟨hpresent, hq⟩
    · rintro ⟨hpresent, hq⟩
      refine ⟨?_, ?_, ?_⟩
      · rw [hprog, hres]
        trivial
      · rw [hobj, hprog, List.forall_mem_map]
        exact hpresent
      · rw [hprog]
        exact hq

/-! ## One pass and the next -/

theorem quiet_reconcile_iff (hrem : spec.removed = false) (c : Cluster D) :
    Quiet env (reconcile env spec) c [] ↔ ∀ kind, Quiet env (reconcileKind env spec kind) c () := by
  rw [reconcile, hrem, if_neg Bool.false_ne_true, quiet_logAll_iff, List.forall_mem_map]
  exact ⟨fun h kind => h kind (mem_passOrder kind), fun h kind _ => h kind⟩

/-- a pass leaves the configuration of the ingresses, so what the spec describes stays the same -/
theorem objects_reconciled (h : WellFormed spec) (hrem : spec.removed = false) {c : Cluster D}
    (hend : ∃ errors, ((apiServer env).eval (reconcile env spec) c).result = .ok errors) (kind : Kind) :
    objects env spec (reconciled env spec c) kind = objects env spec c kind := by
  refine objects_congr ?_ kind
  have hsame : reconciled env spec c drasiConfig =
      ((apiServer env).eval (reconcileKind env spec kind) c).store drasiConfig :=
    (eval_kinds env h hrem c).2 hend kind _ (.inr (.inr rfl))
  rw [hsame]
  exact Server.eval_frame ((uses_reconcileKind h kind).mono fun _ hq => hq.2) (drasiConfig_notMem_writeKeys h kind)

/-- **Kind by kind.** One pass converges iff every kind alone settles. -/
theorem converges_iff_settles (h : WellFormed spec) (hrem : spec.removed = false) (c : Cluster D) :
    Converges env spec c ↔ ∀ kind, Settles env spec kind c := by
  obtain ⟨hdone, hsame⟩ := eval_kinds env h hrem c
  have hquiet : (∃ errors, ((apiServer env).eval (reconcile env spec) c).result = .ok errors) → ∀ kind,
      (Quiet env (reconcileKind env spec kind) (reconciled env spec c) () ↔
        Quiet env (reconcileKind env spec kind) ((apiServer env).eval (reconcileKind env spec kind) c).store ()) := by
    intro hend kind
    exact quiet_congr ((uses_reconcileKind h kind).mono fun _ hq => hq.1) (hsame hend kind) ()
  constructor
  · intro hc kind
    have hend := hc.completes
    refine ⟨hdone.1 hend kind, ?_, (hquiet hend kind).1 ((quiet_reconcile_iff hrem _).1 hc.quiet kind)⟩
    intro p hp
    rw [← hsame hend kind _ (name_mem_readKeys env hp)]
    exact hc.present kind p (by rw [objects_reconciled h hrem hend]; exact hp)
  · intro hs
    have hend := hdone.2 fun kind => (hs kind).ends
    refine ⟨hend, ?_, (quiet_reconcile_iff hrem _).2 fun kind => (hquiet hend kind).2 (hs kind).quiet⟩
    intro kind p hp
    rw [objects_reconciled h hrem hend] at hp
    rw [reconciled, hsame hend kind _ (name_mem_readKeys env hp)]
    exact (hs kind).present p hp

/-- the kinds other than services settle iff their tests see every difference -/
theorem visible_iff_settles (h : WellFormed spec) (c : Cluster D) :
    Visible env spec c ↔ ∀ kind, kind ≠ .service → Settles env spec kind c := by
  constructor
  · intro hv kind hkind
    cases kind with
    | configMap => exact (configMaps_settle_iff h).2 hv.configMaps
    | volumeClaim => exact (volumeClaims_settle_iff h).2 hv.volumeClaims
    | component => exact (component_settle_iff h).2 hv.pubSub
    | serviceAccount => exact (account_settle_iff h).2 hv.serviceAccount
    | deployment => exact deployment_settle_iff.2 hv.deployment
    | ingress => exact (ingresses_settle_iff h).2 hv.ingresses
    | service => exact absurd rfl hkind
  · intro hs
    exact
      { configMaps := (configMaps_settle_iff h).1 (hs .configMap (by decide))
        volumeClaims := (volumeClaims_settle_iff h).1 (hs .volumeClaim (by decide))
        pubSub := (component_settle_iff h).1 (hs .component (by decide))
        serviceAccount := (account_settle_iff h).1 (hs .serviceAccount (by decide))
        deployment := deployment_settle_iff.1 (hs .deployment (by decide))
        ingresses := (ingresses_settle_iff h).1 (hs .ingress (by decide)) }

end

def configText (o : Object D) : String :=
  match o.body with
  | .configMap (some data) _ => String.join (data.map Prod.snd)
  | _ => ""

/-- a cluster where a hash is the text it is made from -/
def env0 : Env String where
  runtimeConfig := ⟨"contour", "contour-envoy", "projectcontour"⟩
  mergePatch := fun _ patch => patch
  loadBalancer := fun _ _ => none
  hashDeployment := fun deployment configMaps => deployment.rest ++ String.join (configMaps.map (configText ·.2))
  hashServiceAccount := fun account => (account.bind (·.metadata.name)).getD ""

/-- a deployment and no more -/
def spec0 : KubernetesSpec String where
  resourceId := "query"
  serviceName := "host"
  deployment := ⟨[("app", "query")], none, "v1"⟩
  services := []
  configMaps := []
  volumeClaims := []
  ingresses := none
  pubSub := none
  serviceAccount := none
  removed := false

theorem spec0_wellFormed : WellFormed spec0 where
  configMaps := ⟨List.nodup_nil, by simp [spec0]⟩
  volumeClaims := ⟨List.nodup_nil, by simp [spec0]⟩
  ingresses := ⟨List.nodup_nil, by simp [spec0]⟩
  services := List.nodup_nil
  pubSub := by simp [spec0]
  serviceAccount := by simp [spec0]
  drasiConfig := by simp [spec0]

/-- the same with another deployment -/
def spec1 : KubernetesSpec String := { spec0 with deployment := { spec0.deployment with rest := "v2" } }

/-- the same with a service -/
def specWithService : KubernetesSpec String := { spec0 with services := [("host", "port 80")] }

end DrasiPlatform.Provider
