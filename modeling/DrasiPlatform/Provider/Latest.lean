/-
Does the latest configure win? Once all commands have been processed, the objects of a resource should be those of the
specs given in the latest configure, whatever the dropped controllers were doing.

They are not: a dropped controller that still has a command writes its old spec whenever it gets to it, also after its
successor is done. `Ready` is what the state before the configure must be like: no controller has a command left, the specs
have no object in common, a pass of each one leaves its objects as described (`Applicable`), and every object that is there
is described again. In the run that follows every controller is `OnTrack`: alone it would leave its objects as described,
and no other one writes what it reads.

- `applicable_pass`: a pass of an applicable spec leaves its objects as described.
- `services_created`: services are created up to the first whose full name is taken.
- `onTrack_frame`, `onTrack_call`: what the calls of the others, and its own, leave of it.
- `latest_configure_wins`: the run.
Witness: `stale_controller_wins` (the old task goes last).
-/
import Mathlib.Tactic
import DrasiPlatform.Core.Programs
import DrasiPlatform.Core.Run
import DrasiPlatform.Provider.Converge
import DrasiPlatform.Provider.Controller

namespace DrasiPlatform.Provider

open DrasiPlatform.Programs DrasiPlatform.Run

variable {D : Type}

/-! ## A spec and a cluster -/

/-- no service has the short name of a service of the spec, now or after a pass -/
def ShortNamesFree (spec : KubernetesSpec D) (c : Cluster D) : Prop :=
  ∀ p ∈ spec.services, c ⟨.service, p.1⟩ = none ∧ p.1 ∉ spec.names .service

/-- everything is as described, and services are not mistaken for one another -/
structure Held (env : Env D) (spec : KubernetesSpec D) (c : Cluster D) : Prop where
  present : Present env spec c
  shortNames : ShortNamesFree spec c

/-- a pass will leave everything as described: the tests of the other kinds see every difference, and services are missing
up to one, from which on they are as described -/
structure Applicable [DecidableEq D] (env : Env D) (spec : KubernetesSpec D) (c : Cluster D) : Prop
    extends Visible env spec c where
  shortNames : ShortNamesFree spec c
  services : ∃ missing there, spec.services = missing ++ there ∧
    (∀ p ∈ missing, c ⟨.service, spec.fullName p.1⟩ = none) ∧
    ∀ p ∈ there, c ⟨.service, spec.fullName p.1⟩ = some (spec.serviceObject p.1 p.2)

section

variable {env : Env D} {spec : KubernetesSpec D} {c c' : Cluster D}

theorem object_mem_reads (env : Env D) (c : Cluster D) {kind : Kind} {p : String × Object D}
    (hp : p ∈ objects env spec c kind) : (⟨kind, p.1⟩ : Key) ∈ spec.reads := by
  refine .inl ?_
  change p.1 ∈ spec.names kind
  rw [names_eq env spec c kind]
  exact List.mem_map_of_mem hp

theorem drasiConfig_mem_reads (spec : KubernetesSpec D) : drasiConfig ∈ spec.reads := .inr (.inr rfl)

theorem shortName_mem_reads {p : String × D} (hp : p ∈ spec.services) : (⟨.service, p.1⟩ : Key) ∈ spec.reads :=
  .inr (.inl ⟨rfl, List.mem_map_of_mem hp⟩)

theorem shortNamesFree_congr (h : ∀ k ∈ spec.reads, c k = c' k) (hs : ShortNamesFree spec c) : ShortNamesFree spec c' := by
  intro p hp
  rw [← h _ (shortName_mem_reads hp)]
  exact hs p hp

theorem held_congr (h : ∀ k ∈ spec.reads, c k = c' k) (hh : Held env spec c) : Held env spec c' := by
  refine ⟨?_, shortNamesFree_congr h hh.shortNames⟩
  intro kind p hp
  rw [← objects_congr (h _ (drasiConfig_mem_reads spec)) kind] at hp
  rw [← h _ (object_mem_reads env c hp)]
  exact hh.present kind p hp

theorem service_mem_objects {p : String × D} (hp : p ∈ spec.services) :
    (spec.fullName p.1, spec.serviceObject p.1 p.2) ∈ objects env spec c .service :=
  List.mem_map.2 ⟨p, hp, rfl⟩

section

variable [DecidableEq D]

theorem visible_congr (h : ∀ k ∈ spec.reads, c k = c' k) (hv : Visible env spec c) : Visible env spec c' := by
  have hobj : ∀ kind, ∀ p ∈ objects env spec c kind, c ⟨kind, p.1⟩ = c' ⟨kind, p.1⟩ :=
    fun kind p hp => h _ (object_mem_reads env c hp)
  have hrendered : rendered env c' = rendered env c := by
    funext o
    simp only [rendered, h _ (drasiConfig_mem_reads spec)]
  refine ⟨?_, ?_, ?_, ?_, ?_, ?_⟩
  · intro p hp
    rw [← hobj .configMap p hp]
    exact hv.configMaps p hp
  · intro p hp
    rw [← hobj .volumeClaim p hp]
    exact hv.volumeClaims p hp
  · intro p hp
    have hkey : c ⟨.component, p.metadata.name.getD ""⟩ = c' ⟨.component, p.metadata.name.getD ""⟩ :=
      hobj .component p.named (List.mem_map_of_mem (Option.mem_toList.2 hp))
    rw [← hkey]
    exact hv.pubSub p hp
  · intro a ha
    have hkey : c ⟨.serviceAccount, a.metadata.name.getD ""⟩ = c' ⟨.serviceAccount, a.metadata.name.getD ""⟩ :=
      hobj .serviceAccount (spec.accountObject env a).named (List.mem_map.2 ⟨a, Option.mem_toList.2 ha, rfl⟩)
    rw [← hkey]
    exact hv.serviceAccount a ha
  · have hkey : c spec.deploymentKey = c' spec.deploymentKey := hobj .deployment _ (List.mem_singleton_self _)
    rw [← hkey]
    exact hv.deployment
  · intro p hp
    rw [hrendered, ← hobj .ingress (p.1, rendered env c p.2) (List.mem_map.2 ⟨p, hp, rfl⟩)]
    exact hv.ingresses p hp

theorem applicable_congr (h : ∀ k ∈ spec.reads, c k = c' k) (ha : Applicable env spec c) : Applicable env spec c' := by
  obtain ⟨missing, there, hsplit, hmissing, hthere⟩ := ha.services
  have hfull : ∀ p ∈ spec.services, c ⟨.service, spec.fullName p.1⟩ = c' ⟨.service, spec.fullName p.1⟩ :=
    fun p hp => h _ (object_mem_reads env c (service_mem_objects hp))
  refine ⟨visible_congr h ha.toVisible, shortNamesFree_congr h ha.shortNames, missing, there, hsplit, ?_, ?_⟩
  · intro p hp
    rw [← hfull p (by rw [hsplit]; exact List.mem_append_left _ hp)]
    exact hmissing p hp
  · intro p hp
    rw [← hfull p (by rw [hsplit]; exact List.mem_append_right _ hp)]
    exact hthere p hp

/-- a spec whose objects are as described can be applied again -/
theorem Held.applicable (h : Held env spec c) : Applicable env spec c := by
  have hsame : ∀ kind, ∀ p ∈ objects env spec c kind, ∀ o, c ⟨kind, p.1⟩ = some o → o = p.2 := by
    intro kind p hp o ho
    exact Option.some.inj (ho.symm.trans (h.present kind p hp))
  refine ⟨⟨?_, ?_, ?_, ?_, ?_, ?_⟩, h.shortNames, [], spec.services, rfl, by simp, ?_⟩
  · intro p hp o ho _
    exact hsame .configMap p hp o ho
  · intro p hp o ho
    exact hsame .volumeClaim p hp o ho
  · intro p hp o ho _
    exact hsame .component p.named (List.mem_map_of_mem (Option.mem_toList.2 hp)) o ho
  · intro a ha o ho
    have ho' : o = spec.accountObject env a :=
      hsame .serviceAccount (spec.accountObject env a).named (List.mem_map.2 ⟨a, Option.mem_toList.2 ha, rfl⟩) o ho
    rw [ho']
    exact ⟨_, specHash_annotate _ _, fun _ => rfl⟩
  · intro o ho
    have ho' : o = spec.deploymentObject env := hsame .deployment _ (List.mem_singleton_self _) o ho
    rw [ho']
    exact ⟨_, rfl, fun _ => rfl, fun hne => absurd rfl hne⟩
  · intro p hp o ho _
    exact hsame .ingress (p.1, rendered env c p.2) (List.mem_map.2 ⟨p, hp, rfl⟩) o ho
  · intro p hp
    exact h.present .service _ (service_mem_objects hp)

end

end

/-! ## A pass of an applicable spec -/

section

variable {env : Env D} {spec : KubernetesSpec D}

theorem fullName_inj {a b : String} (h : spec.fullName a = spec.fullName b) : a = b := by
  simpa [KubernetesSpec.fullName] using h

/-- creating services leaves every service that is there -/
theorem services_stay (l : List (String × D)) {c : Cluster D} {k : Key} {o : Object D} (h : c k = some o) :
    ((apiServer env).eval (.forEach (serviceItem env spec) l) c).store k = some o := by
  refine Server.eval_preserves (I := fun t => t k = some o) ((uses_services env spec l).mono ?_) h
  intro q hq t ht
  rcases hq with hread | ⟨p, -, rfl⟩
  · rw [Server.serve_of_isRead hread]
    exact ht
  · by_cases hk : k = Request.key (.create .service (spec.serviceObject p.1 p.2))
    · subst hk
      simp only [Server.serve, apiServer_key, Function.update_self, ht]
      rfl
    · rw [Server.serve_of_ne hk]
      exact ht

theorem service_taken (env : Env D) {p : String × D} {c : Cluster D} {o : Object D} (hshort : c ⟨.service, p.1⟩ = none)
    (htaken : c ⟨.service, spec.fullName p.1⟩ = some o) :
    ((apiServer env).eval (serviceItem env spec p) c).result = .error (.api 409) ∧
      ((apiServer env).eval (serviceItem env spec p) c).store = c := by
  have hcreate : (apiServer env).eval (expect (.create .service (spec.serviceObject p.1 p.2))) c =
      ⟨.error (.api 409), c, [.create .service (spec.serviceObject p.1 p.2)]⟩ := eval_create_taken rfl htaken
  rw [serviceItem, eval_missing hshort, hcreate]
  exact ⟨rfl, rfl⟩

theorem service_created (env : Env D) {p : String × D} {c : Cluster D} (hshort : c ⟨.service, p.1⟩ = none)
    (hfull : c ⟨.service, spec.fullName p.1⟩ = none) :
    ((apiServer env).eval (serviceItem env spec p) c).result = .ok () ∧
      ((apiServer env).eval (serviceItem env spec p) c).store =
        Function.update c ⟨.service, spec.fullName p.1⟩ (some (spec.serviceObject p.1 p.2)) := by
  have hcreate : (apiServer env).eval (expect (.create .service (spec.serviceObject p.1 p.2))) c =
      ⟨.ok (), Function.update c ⟨.service, spec.fullName p.1⟩ (some (spec.serviceObject p.1 p.2)),
        [.create .service (spec.serviceObject p.1 p.2)]⟩ := eval_create rfl hfull
  rw [serviceItem, eval_missing hshort, hcreate]
  exact ⟨rfl, rfl⟩

/-- **Services are created** up to the first whose full name is taken; the others are there. -/
theorem services_created (env : Env D) (missing there : List (String × D)) (c : Cluster D)
    (hfree : ∀ p ∈ missing ++ there, c ⟨.service, p.1⟩ = none ∧ p.1 ∉ (missing ++ there).map fun p => spec.fullName p.1)
    (hn : ((missing ++ there).map Prod.fst).Nodup) (hmissing : ∀ p ∈ missing, c ⟨.service, spec.fullName p.1⟩ = none)
    (hthere : ∀ p ∈ there, c ⟨.service, spec.fullName p.1⟩ = some (spec.serviceObject p.1 p.2)) :
    NoPanic ((apiServer env).eval (.forEach (serviceItem env spec) (missing ++ there)) c).result ∧
      ∀ p ∈ missing ++ there, ((apiServer env).eval (.forEach (serviceItem env spec) (missing ++ there)) c).store
        ⟨.service, spec.fullName p.1⟩ = some (spec.serviceObject p.1 p.2) := by
  induction missing generalizing c with
  | nil =>
    refine ⟨?_, fun p hp => services_stay _ (hthere p hp)⟩
    rcases there with _ | ⟨p, rest⟩
    · trivial
    · obtain ⟨hres, -⟩ := service_taken env (hfree p List.mem_cons_self).1 (hthere p List.mem_cons_self)
      rw [List.nil_append, Prog.forEach, Server.eval_bind_error hres]
      trivial
  | cons p missing ih =>
    obtain ⟨hp, hn⟩ := List.nodup_cons.1 hn
    obtain ⟨hres, hstore⟩ := service_created env (hfree p List.mem_cons_self).1 (hmissing p List.mem_cons_self)
    have hother : ∀ q ∈ missing ++ there, ∀ name, (name = q.1 ∨ name = spec.fullName q.1) →
        Function.update c ⟨.service, spec.fullName p.1⟩ (some (spec.serviceObject p.1 p.2)) ⟨.service, name⟩ =
          c ⟨.service, name⟩ := by
      intro q hq name hname
      refine Function.update_of_ne ?_ _ _
      intro he
      have hname' : name = spec.fullName p.1 := congrArg Key.name he
      rcases hname with rfl | rfl
      · refine (hfree q (List.mem_cons_of_mem p hq)).2 ?_
        rw [hname']
        exact List.mem_cons_self
      · have hqp : q.1 = p.1 := fullName_inj hname'
        exact hp (hqp ▸ List.mem_map_of_mem hq)
    have hrest := ih (Function.update c ⟨.service, spec.fullName p.1⟩ (some (spec.serviceObject p.1 p.2))) ?_ hn ?_ ?_
    · rw [List.cons_append, Prog.forEach, Server.eval_bind_ok hres, hstore]
      refine ⟨hrest.1, ?_⟩
      intro q hq
      rcases List.mem_cons.1 hq with rfl | hq
      · exact services_stay _ (Function.update_self _ _ _)
      · exact hrest.2 q hq
    · intro q hq
      rw [hother q hq _ (.inl rfl)]
      obtain ⟨hnone, hnot⟩ := hfree q (List.mem_cons_of_mem p hq)
      exact ⟨hnone, fun hm => hnot (List.mem_cons_of_mem _ hm)⟩
    · intro q hq
      rw [hother q (List.mem_append_left _ hq) _ (.inr rfl)]
      exact hmissing q (List.mem_cons_of_mem p hq)
    · intro q hq
      rw [hother q (List.mem_append_right _ hq) _ (.inr rfl)]
      exact hthere q hq

section

variable [DecidableEq D] {c : Cluster D}

/-- **A pass of an applicable spec** ends and leaves everything as described. -/
theorem applicable_pass (h : WellFormed spec) (hrem : spec.removed = false) (ha : Applicable env spec c) :
    (∃ errors, ((apiServer env).eval (reconcile env spec) c).result = .ok errors) ∧
      Held env spec (reconciled env spec c) := by
  obtain ⟨missing, there, hsplit, hmissing, hthere⟩ := ha.services
  have hnames : spec.names .service = (missing ++ there).map fun p => spec.fullName p.1 := by
    rw [← hsplit]
    rfl
  obtain ⟨hends, hservices⟩ := services_created env missing there c
    (by
      intro p hp
      rw [← hnames]
      exact ha.shortNames p (by rw [hsplit]; exact hp))
    (by
      rw [← hsplit]
      exact h.services) hmissing hthere
  rw [← hsplit] at hends hservices
  have hothers := (visible_iff_settles h c).1 ha.toVisible
  obtain ⟨hdone, hsame⟩ := eval_kinds env h hrem c
  have hend := hdone.2 fun kind => by
    by_cases hkind : kind = .service
    · rw [hkind]
      exact hends
    · exact (hothers kind hkind).ends
  refine ⟨hend, ?_, ?_⟩
  · intro kind p hp
    rw [objects_reconciled h hrem hend] at hp
    rw [reconciled, hsame hend kind _ (name_mem_readKeys env hp)]
    by_cases hkind : kind = .service
    · subst hkind
      obtain ⟨q, hq, rfl⟩ := List.mem_map.1 hp
      exact hservices q hq
    · exact (hothers kind hkind).present p hp
  · intro p hp
    obtain ⟨hnone, hnot⟩ := ha.shortNames p hp
    refine ⟨?_, hnot⟩
    have hread : (⟨.service, p.1⟩ : Key) ∈ readKeys spec .service := .inr (.inl ⟨rfl, rfl, List.mem_map_of_mem hp⟩)
    rw [reconciled, hsame hend .service _ hread]
    refine (Server.eval_frame ((uses_reconcileKind h .service).mono fun _ hq => hq.2) ?_).trans hnone
    exact fun hw => hnot hw.2

end

end

/-! ## A controller on its way -/

theorem reads_of_keeps {env : Env D} {t : Controller D} (h : t.Keeps env) {p : Task D (List ℕ)} (hp : t.running = some p) :
    p.Uses fun q => (apiServer env).key q ∈ t.spec.reads :=
  (h.asks p hp).mono fun _ hq => hq.1.1

section

variable [DecidableEq D]

/-- **On track.** Left alone, the controller would end with its objects as described. -/
structure Controller.OnTrack (env : Env D) (t : Controller D) (c : Cluster D) : Prop where
  keeps : t.Keeps env
  notRemoved : t.spec.removed = false
  alive : t.panicked = false
  commands : ∀ command ∈ t.queue, command = .reconcile
  resting : t.running = none → Applicable env t.spec c ∧ (t.queue = [] → Held env t.spec c)
  busy : ∀ p, t.running = some p →
    (∃ errors, ((apiServer env).eval p c).result = .ok errors) ∧ Held env t.spec ((apiServer env).eval p c).store

variable {env : Env D} {t : Controller D} {c c' : Cluster D}

/-- **What others do** elsewhere leaves it on track. -/
theorem onTrack_frame (h : ∀ k ∈ t.spec.reads, c k = c' k) (ht : t.OnTrack env c) : t.OnTrack env c' where
  keeps := ht.keeps
  notRemoved := ht.notRemoved
  alive := ht.alive
  commands := ht.commands
  resting := by
    intro hr
    obtain ⟨ha, hq⟩ := ht.resting hr
    exact ⟨applicable_congr h ha, fun he => held_congr h (hq he)⟩
  busy := by
    intro p hp
    obtain ⟨⟨errors, hok⟩, hheld⟩ := ht.busy p hp
    have hcongr : ((apiServer env).eval p c).result = ((apiServer env).eval p c').result ∧
        ((apiServer env).eval p c).requests = ((apiServer env).eval p c').requests ∧
        ∀ k ∈ t.spec.reads, ((apiServer env).eval p c).store k = ((apiServer env).eval p c').store k :=
      Server.eval_congr (reads_of_keeps ht.keeps hp) h
    obtain ⟨hres, -, hstore⟩ := hcongr
    exact ⟨⟨errors, hres ▸ hok⟩, held_congr hstore hheld⟩

/-- a controller that is left with `p` is on track when `p` ends well -/
theorem onTrack_goOn {p : Task D (List ℕ)} (hkeeps : (t.goOn p).Keeps env) (hrem : t.spec.removed = false)
    (halive : t.panicked = false) (hcommands : ∀ command ∈ t.queue, command = .reconcile)
    (hok : ∃ errors, ((apiServer env).eval p c).result = .ok errors)
    (hheld : Held env t.spec ((apiServer env).eval p c).store) : (t.goOn p).OnTrack env c := by
  cases p with
  | ret a =>
    exact
      { keeps := hkeeps
        notRemoved := hrem
        alive := halive
        commands := hcommands
        resting := fun _ => ⟨hheld.applicable, fun _ => hheld⟩
        busy := by
          intro p hp
          cases hp }
  | stop e =>
    obtain ⟨errors, hok⟩ := hok
    cases hok
  | call q k =>
    exact
      { keeps := hkeeps
        notRemoved := hrem
        alive := halive
        commands := hcommands
        resting := by
          intro hr
          cases hr
        busy := by
          intro p hp
          cases hp
          exact ⟨hok, hheld⟩ }

/-- **Its own call** leaves it on track. -/
theorem onTrack_call (ht : t.OnTrack env c) {q : Request D} {k : Response D → Task D (List ℕ)}
    (hr : t.running = some (.call q k)) :
    (t.goOn (k ((apiServer env).answered q c))).OnTrack env ((apiServer env).serve q c) := by
  obtain ⟨hok, hheld⟩ := ht.busy _ hr
  exact onTrack_goOn (keeps_call ht.keeps hr _) ht.notRemoved ht.alive ht.commands hok hheld

theorem onTrack_take (ht : t.OnTrack env c) : (t.take env).OnTrack env c := by
  rcases take_cases env t with he | ⟨-, hr, queue, hq, he⟩ | ⟨-, hr, queue, hq, he⟩
  · rw [he]
    exact ht
  · obtain ⟨hok, hheld⟩ := applicable_pass ht.keeps.wellFormed ht.notRemoved (ht.resting hr).1
    rw [he]
    refine onTrack_goOn ?_ ht.notRemoved ht.alive ?_ hok hheld
    · exact he ▸ keeps_take ht.keeps
    · intro command hcommand
      exact ht.commands command (by rw [hq]; exact List.mem_cons_of_mem _ hcommand)
  · have hcommand := ht.commands .deprovision (by rw [hq]; exact List.mem_cons_self)
    cases hcommand

theorem onTrack_send (ht : t.OnTrack env c) : (t.send .reconcile).OnTrack env c where
  keeps := keeps_send ht.keeps _
  notRemoved := by rw [Controller.send_spec]; exact ht.notRemoved
  alive := by
    unfold Controller.send
    split
    · exact ht.alive
    · exact ht.alive
  commands := by
    intro command hcommand
    rw [Controller.send_queue] at hcommand
    split at hcommand
    · rcases List.mem_append.1 hcommand with hcommand | hcommand
      · exact ht.commands command hcommand
      · exact List.mem_singleton.1 hcommand
    · exact ht.commands command hcommand
  resting := by
    intro hr
    rw [Controller.send_running] at hr
    obtain ⟨ha, hheld⟩ := ht.resting hr
    rw [Controller.send_spec, Controller.send_queue]
    refine ⟨ha, ?_⟩
    split
    · intro he
      cases (List.append_eq_nil_iff.1 he).2
    · exact hheld
  busy := by
    intro p hp
    rw [Controller.send_running] at hp
    rw [Controller.send_spec]
    exact ht.busy p hp

end

/-! ## The latest configure -/

/-- neither spec writes what the other one reads -/
def KubernetesSpec.Apart (s s' : KubernetesSpec D) : Prop := Disjoint s.writes s'.reads ∧ Disjoint s'.writes s.reads

/-- specs that can be applied side by side -/
structure Compatible (specs : List (KubernetesSpec D)) : Prop where
  wellFormed : ∀ s ∈ specs, WellFormed s
  notRemoved : ∀ s ∈ specs, s.removed = false
  serviceNames : (specs.map (·.serviceName)).Nodup
  apart : specs.Pairwise KubernetesSpec.Apart

theorem loadControllers_eq {specs : List (KubernetesSpec D)} (h : (specs.map (·.serviceName)).Nodup) :
    loadControllers specs = specs.map Controller.start := by
  induction specs with
  | nil => rfl
  | cons s specs ih =>
    obtain ⟨hs, hn⟩ := List.nodup_cons.1 h
    rw [loadControllers, List.map_cons, ih hn]
    simp [Controller.start, hs]

section

variable [DecidableEq D]

/-- what a configure needs: no controller has a command left, the specs do not meet, a pass of each would leave its objects
as described, and what was created and is there is described again -/
structure Ready (env : Env D) (st : ResourceActor D) (specs : List (KubernetesSpec D)) : Prop where
  processed : st.Processed
  compatible : Compatible specs
  applicable : ∀ s ∈ specs, Applicable env s st.cluster
  covered : ∀ k ∈ st.created, st.cluster k ≠ none → ∃ s ∈ specs, k ∈ s.writes

/-- no other configure and no deprovision, and an activation when no controller has a command left -/
def Undisturbed (st : ResourceActor D) : Op D → Prop
  | .configure _ written => written = false
  | .deprovision written => written = false
  | .activate _ => st.Processed
  | _ => True

/-- the spec of a controller, and whether the actor holds it -/
def Controller.shape (t : Controller D) : KubernetesSpec D × Bool := (t.spec, t.attached)

/-- after the configure: the dropped controllers are done, the others are on track and do not meet -/
structure Latest (env : Env D) (specs : List (KubernetesSpec D)) (st : ResourceActor D) : Prop where
  compatible : Compatible specs
  stored : st.specs = specs
  stale : ∀ t ∈ st.controllers, t.attached = false → t.Idle
  current : ∀ t ∈ st.controllers, t.attached = true → t.spec ∈ specs ∧ t.OnTrack env st.cluster
  apart : (st.controllers.map Controller.shape).Pairwise fun x y => x.2 = true → y.2 = true → x.1.Apart y.1
  applied : (∀ s ∈ specs, ∃ t ∈ st.controllers, t.attached = true ∧ t.spec = s) ∨
    ((∀ t ∈ st.controllers, t.attached = false) ∧ ∀ s ∈ specs, Held env s st.cluster)
  covered : ∀ k ∈ st.created, st.cluster k ≠ none → ∃ s ∈ specs, k ∈ s.writes

variable {env : Env D} {specs : List (KubernetesSpec D)} {st : ResourceActor D}

/-- **When all is processed** every spec holds. -/
theorem held_of_processed (h : Latest env specs st) (hdone : st.Processed) : ∀ s ∈ specs, Held env s st.cluster := by
  intro s hs
  rcases h.applied with hall | ⟨-, hheld⟩
  · obtain ⟨t, ht, ha, rfl⟩ := hall s hs
    obtain ⟨hr, hq⟩ := hdone t ht
    exact ((h.current t ht ha).2.resting hr).2 hq
  · exact hheld s hs

/-- the configure of specs that are ready -/
theorem latest_configure (h : Ready env st specs) : Latest env specs (st.configure specs) := by
  have hcontrollers : (st.configure specs).controllers =
      (st.controllers.map fun t => t.detach.send .reconcile) ++ specs.map fun s => (Controller.start s).send .reconcile := by
    simp [ResourceActor.configure, ResourceActor.send, ResourceActor.load, loadControllers_eq h.compatible.serviceNames,
      List.map_append, List.map_map, Function.comp_def]
  refine ⟨h.compatible, rfl, ?_, ?_, ?_, .inl ?_, h.covered⟩
  · intro u hu hau
    rw [hcontrollers] at hu
    rcases List.mem_append.1 hu with hu | hu
    · obtain ⟨t, ht, rfl⟩ := List.mem_map.1 hu
      exact h.processed t ht
    · obtain ⟨s, -, rfl⟩ := List.mem_map.1 hu
      cases hau
  · intro u hu hau
    rw [hcontrollers] at hu
    rcases List.mem_append.1 hu with hu | hu
    · obtain ⟨t, -, rfl⟩ := List.mem_map.1 hu
      cases hau
    · obtain ⟨s, hs, rfl⟩ := List.mem_map.1 hu
      refine ⟨hs, ?_⟩
      exact
        { keeps := ⟨h.compatible.wellFormed s hs, by intro p hp; cases hp⟩
          notRemoved := h.compatible.notRemoved s hs
          alive := rfl
          commands := fun command hcommand => List.mem_singleton.1 hcommand
          resting := fun _ => ⟨h.applicable s hs, by intro he; cases he⟩
          busy := by intro p hp; cases hp }
  · rw [hcontrollers, List.map_append, List.map_map, List.map_map, List.pairwise_append]
    refine ⟨?_, ?_, ?_⟩
    · rw [List.pairwise_map]
      exact List.pairwise_of_forall fun t u hf => by cases hf
    · rw [List.pairwise_map]
      exact h.compatible.apart.imp fun hapart _ _ => hapart
    · intro x hx y _ hf
      obtain ⟨t, -, rfl⟩ := List.mem_map.1 hx
      cases hf
  · intro s hs
    refine ⟨(Controller.start s).send .reconcile, ?_, rfl, rfl⟩
    rw [hcontrollers]
    exact List.mem_append_right _ (List.mem_map_of_mem hs)

/-! ### Steps -/

/-- two controllers the actor holds do not meet -/
theorem Latest.disjoint (h : Latest env specs st) {i j : ℕ} (hij : i ≠ j) {t u : Controller D}
    (ht : st.controllers[i]? = some t) (hu : st.controllers[j]? = some u) (hta : t.attached = true)
    (hua : u.attached = true) : Disjoint t.spec.writes u.spec.reads := by
  obtain ⟨hi, rfl⟩ := List.getElem?_eq_some_iff.1 ht
  obtain ⟨hj, rfl⟩ := List.getElem?_eq_some_iff.1 hu
  have hapart := List.pairwise_iff_getElem.1 h.apart
  simp only [List.length_map, List.getElem_map] at hapart
  rcases Nat.lt_or_gt_of_ne hij with hlt | hgt
  · exact (hapart i j hi hj hlt hta hua).1
  · exact (hapart j i hj hi hgt hua hta).2

theorem latest_send (h : Latest env specs st) : Latest env specs (st.send .reconcile) := by
  have hidle : ∀ t ∈ st.controllers, t.attached = false → t.send .reconcile = t := by
    intro t _ ha
    rw [Controller.send, ha]
    rfl
  have hshape : (st.controllers.map (Controller.send .reconcile)).map Controller.shape =
      st.controllers.map Controller.shape := by
    rw [List.map_map]
    refine List.map_congr_left fun t _ => ?_
    simp [Controller.shape]
  refine ⟨h.compatible, h.stored, ?_, ?_, ?_, ?_, h.covered⟩
  · intro u hu hua
    obtain ⟨t, ht, rfl⟩ := List.mem_map.1 hu
    rw [Controller.send_attached] at hua
    rw [hidle t ht hua]
    exact h.stale t ht hua
  · intro u hu hua
    obtain ⟨t, ht, rfl⟩ := List.mem_map.1 hu
    rw [Controller.send_attached] at hua
    obtain ⟨hspec, hon⟩ := h.current t ht hua
    rw [Controller.send_spec]
    exact ⟨hspec, onTrack_send hon⟩
  · exact hshape ▸ h.apart
  · refine h.applied.imp ?_ ?_
    · intro hall s hs
      obtain ⟨t, ht, ha, hspec⟩ := hall s hs
      exact ⟨_, List.mem_map_of_mem ht, by rw [Controller.send_attached]; exact ha, by rw [Controller.send_spec]; exact hspec⟩
    · rintro ⟨hnone, hheld⟩
      refine ⟨?_, hheld⟩
      intro u hu
      obtain ⟨t, ht, rfl⟩ := List.mem_map.1 hu
      rw [Controller.send_attached]
      exact hnone t ht

/-- a controller the actor holds moves and keeps its spec -/
theorem latest_set (h : Latest env specs st) {st' : ResourceActor D} {i : ℕ} {t t' : Controller D}
    (ht : st.controllers[i]? = some t) (hcontrollers : st'.controllers = st.controllers.set i t')
    (hstored : st'.specs = st.specs) (hshape : t'.shape = t.shape) (ha : t.attached = true)
    (hon : t'.OnTrack env st'.cluster)
    (hothers : ∀ j u, j ≠ i → st.controllers[j]? = some u → u.attached = true → u.OnTrack env st'.cluster)
    (hcovered : ∀ k ∈ st'.created, st'.cluster k ≠ none → ∃ s ∈ specs, k ∈ s.writes) : Latest env specs st' := by
  have hspec : t'.spec = t.spec := congrArg Prod.fst hshape
  have hattached : t'.attached = true := (congrArg Prod.snd hshape).trans ha
  have htm : t ∈ st.controllers := List.mem_of_getElem? ht
  refine ⟨h.compatible, hstored.trans h.stored, ?_, ?_, ?_, .inl ?_, hcovered⟩
  · intro u hu hua
    rw [hcontrollers] at hu
    rcases List.mem_or_eq_of_mem_set hu with hu | rfl
    · exact h.stale u hu hua
    · cases hattached.symm.trans hua
  · intro u hu hua
    rw [hcontrollers] at hu
    obtain ⟨j, hj⟩ := List.mem_iff_getElem?.1 hu
    rcases controllers_set hj with ⟨-, rfl⟩ | ⟨hji, hju⟩
    · rw [hspec]
      exact ⟨(h.current t htm ha).1, hon⟩
    · exact ⟨(h.current u (List.mem_of_getElem? hju) hua).1, hothers j u hji hju hua⟩
  · have hsame : (st.controllers.set i t').map Controller.shape = st.controllers.map Controller.shape := by
      obtain ⟨hi, rfl⟩ := List.getElem?_eq_some_iff.1 ht
      rw [List.map_set, hshape]
      refine List.ext_getElem (by simp) ?_
      intro j hj _
      rw [List.getElem_set]
      split
      · rename_i hij
        subst hij
        simp
      · rfl
    rw [hcontrollers, hsame]
    exact h.apart
  · have hall : ∀ s ∈ specs, ∃ u ∈ st.controllers, u.attached = true ∧ u.spec = s := by
      refine h.applied.resolve_right ?_
      rintro ⟨hnone, -⟩
      cases ha.symm.trans (hnone t htm)
    intro s hs
    obtain ⟨u, hu, hua, hus⟩ := hall s hs
    rw [hcontrollers]
    rcases mem_set_or ht hu with rfl | hu'
    · exact ⟨t', mem_set_self ht, hattached, hspec.trans hus⟩
    · exact ⟨u, hu', hua, hus⟩

/-- a dropped controller is done: it takes nothing -/
theorem take_idle {t : Controller D} (h : t.Idle) : t.take env = t := by
  rcases take_cases env t with he | ⟨-, -, queue, hq, -⟩ | ⟨-, -, queue, hq, -⟩
  · exact he
  · cases hq.symm.trans h.2
  · cases hq.symm.trans h.2

theorem shape_take {t : Controller D} (h : ∀ command ∈ t.queue, command = .reconcile) : (t.take env).shape = t.shape := by
  rcases take_cases env t with he | ⟨-, -, queue, -, he⟩ | ⟨-, -, queue, hq, -⟩
  · rw [he]
  · rw [he]
    simp [Controller.shape]
  · cases h .deprovision (by rw [hq]; exact List.mem_cons_self)

theorem latest_take (h : Latest env specs st) (i : ℕ) : Latest env specs (step env st (.take i)) := by
  rcases ht : st.controllers[i]? with _ | t
  · have hsame : step env st (.take i) = st := by simp only [step, ht]
    rw [hsame]
    exact h
  have hstep : step env st (.take i) = { st with controllers := st.controllers.set i (t.take env) } := by
    simp only [step, ht]
  have htm := List.mem_of_getElem? ht
  rcases ha : t.attached with _ | _
  · -- a dropped controller is done
    have hset : st.controllers.set i t = st.controllers := by
      obtain ⟨hi, rfl⟩ := List.getElem?_eq_some_iff.1 ht
      exact List.set_getElem_self hi
    rw [hstep, take_idle (h.stale t htm ha), hset]
    exact h
  · have hon := (h.current t htm ha).2
    rw [hstep]
    exact latest_set h ht rfl rfl (shape_take hon.commands) ha (onTrack_take hon)
      (fun j u _ hu hua => (h.current u (List.mem_of_getElem? hu) hua).2) h.covered

/-- **A call** changes an object of its spec, which no other controller looks at. -/
theorem latest_call (h : Latest env specs st) (i : ℕ) : Latest env specs (step env st (.call i)) := by
  rcases call_cases env st i with he | ⟨t, q, k, ht, hr, hcluster, hstored, hcontrollers, hcreated⟩
  · rw [step, he]
    exact h
  have htm := List.mem_of_getElem? ht
  have ha : t.attached = true := by
    by_contra hna
    have hidle := h.stale t htm (Bool.not_eq_true _ ▸ hna)
    cases hr.symm.trans hidle.1
  obtain ⟨hspec, hon⟩ := h.current t htm ha
  have hasks := (hon.keeps.asks _ hr).1.1.2
  have hframe : ∀ key ∉ t.spec.writes, (apiServer env).serve q st.cluster key = st.cluster key :=
    fun key hkey => Server.serve_frame hasks hkey st.cluster
  rw [step]
  refine latest_set h ht hcontrollers hstored ?_ ha ?_ ?_ ?_
  · simp [Controller.shape]
  · rw [hcluster]
    exact onTrack_call hon hr
  · intro j u hji hu hua
    rw [hcluster]
    refine onTrack_frame ?_ (h.current u (List.mem_of_getElem? hu) hua).2
    intro key hkey
    refine (hframe key ?_).symm
    exact fun hw => Set.disjoint_left.1 (h.disjoint (Ne.symm hji) ht hu ha hua) hw hkey
  · intro key hkey hthere
    rw [hcluster] at hthere
    by_cases hw : key ∈ t.spec.writes
    · exact ⟨t.spec, hspec, hw⟩
    · rw [hframe key hw] at hthere
      refine h.covered key ?_ hthere
      rcases hcreated key hkey with hkey | ⟨rfl, hnone⟩
      · exact hkey
      · exact absurd hnone hthere

/-- **One step.** -/
theorem latest_step (h : Latest env specs st) (op : Op D) (hop : Undisturbed st op) :
    Latest env specs (step env st op) := by
  cases op with
  | configure specs' written =>
    have hw : written = false := hop
    rw [step, hw]
    exact h
  | deprovision written =>
    have hw : written = false := hop
    rw [step, hw]
    exact h
  | reconcile => exact latest_send h
  | take i => exact latest_take h i
  | call i => exact latest_call h i
  | activate read =>
    have hheld := held_of_processed h hop
    rcases read with _ | _
    · have hload : (step env st (.activate false)).controllers = st.controllers.map Controller.detach := by
        simp [step, ResourceActor.load, loadControllers]
      have hdetached : ∀ u ∈ (step env st (.activate false)).controllers, u.attached = false ∧ u.Idle := by
        intro u hu
        rw [hload] at hu
        obtain ⟨t, ht, rfl⟩ := List.mem_map.1 hu
        exact ⟨rfl, hop t ht⟩
      refine ⟨h.compatible, h.stored, ?_, ?_, ?_, .inr ⟨?_, hheld⟩, h.covered⟩
      · intro u hu _
        exact (hdetached u hu).2
      · intro u hu hua
        cases (hdetached u hu).1.symm.trans hua
      · rw [hload, List.map_map, List.pairwise_map]
        exact List.pairwise_of_forall fun t u hf => by cases hf
      · intro u hu
        exact (hdetached u hu).1
    · have hready : Ready env st specs :=
        ⟨hop, h.compatible, fun s hs => (hheld s hs).applicable, h.covered⟩
      have hsame : step env st (.activate true) = st.configure specs := by
        rw [← h.stored]
        rfl
      rw [hsame]
      exact latest_configure hready

end

def queries (value : String) : Object String := ⟨⟨some "queries", [], none⟩, .configMap (some [("q", value)]) ""⟩

/-- the same with a config map -/
def specWithQueries (value : String) : KubernetesSpec String := { spec0 with configMaps := [("queries", queries value)] }

theorem specWithQueries_wellFormed (value : String) : WellFormed (specWithQueries value) where
  configMaps := ⟨List.nodup_singleton _, by simp [specWithQueries, queries]⟩
  volumeClaims := spec0_wellFormed.volumeClaims
  ingresses := spec0_wellFormed.ingresses
  services := spec0_wellFormed.services
  pubSub := spec0_wellFormed.pubSub
  serviceAccount := spec0_wellFormed.serviceAccount
  drasiConfig := by simp [specWithQueries]

/-- the first configure has been processed -/
def configuredOnce : ResourceActor String :=
  run (step env0) (.new fun _ => none) [.configure [specWithQueries "1"] true, .take 0, .call 0, .call 0, .call 0, .call 0]

theorem configuredOnce_ready : Ready env0 configuredOnce [specWithQueries "2"] where
  processed := by decide
  compatible :=
    { wellFormed := by simpa using specWithQueries_wellFormed "2"
      notRemoved := by decide
      serviceNames := List.nodup_singleton _
      apart := List.pairwise_singleton _ _ }
  applicable := by
    intro s hs
    rw [List.mem_singleton.1 hs]
    have hmap : configuredOnce.cluster ⟨.configMap, "queries"⟩ = some (queries "1") := by decide
    have hdep : configuredOnce.cluster (specWithQueries "2").deploymentKey =
        some ((specWithQueries "1").deploymentObject env0) := by
      decide
    refine ⟨⟨?_, by simp [specWithQueries, spec0], by simp [specWithQueries, spec0], by simp [specWithQueries, spec0], ?_,
      by simp [specWithQueries, spec0]⟩, by simp [ShortNamesFree, specWithQueries, spec0], [], [], rfl, by simp, by simp⟩
    · intro p hp o ho hsame
      rw [List.mem_singleton.1 hp, hmap] at ho
      cases ho
      rw [List.mem_singleton.1 hp] at hsame
      exact absurd hsame (by decide)
    · intro o ho
      rw [hdep] at ho
      cases ho
      exact ⟨"v11", by decide, by decide, fun _ => rfl⟩
  covered := by
    have hcreated : configuredOnce.created = [spec0.deploymentKey, ⟨.configMap, "queries"⟩] := by decide
    intro k hk _
    refine ⟨_, List.mem_singleton_self _, ?_⟩
    rw [hcreated] at hk
    simp only [List.mem_cons, List.not_mem_nil, or_false] at hk
    rcases hk with rfl | rfl
    · exact List.mem_singleton_self _
    · exact List.mem_singleton_self _

end DrasiPlatform.Provider
