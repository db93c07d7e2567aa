/-
Does a deprovision leave anything behind? After any sequence of configures and a deprovision, once all commands have been
processed, nothing the controllers have created should be left, volume claims apart.

A removal deletes what its spec describes, but for the component (`removes`). So objects stay:

- a pub/sub component, always;
- what an earlier configure created and no current spec describes;
- what a dropped controller that still has a command creates after the removal.

`Removable` excludes these three in the state before the call. Then every object that is there is `Owes`d: some controller
has its delete before it, whatever the API answers.

- `removal_deletes`: a removal asks for every delete whatever the answers.
- `step_keeps`, `step_clearing`: what one step preserves.
- `deprovision_complete`: nothing is left once all commands have been processed.
Witness: `component_stays` (a spec with a pub/sub component).
-/
import Mathlib.Tactic
import DrasiPlatform.Core.Programs
import DrasiPlatform.Core.Run
import DrasiPlatform.Provider.Converge
import DrasiPlatform.Provider.Controller

namespace DrasiPlatform.Provider

open DrasiPlatform.Programs DrasiPlatform.Run

variable {D : Type}

/-! ## What a removal deletes -/

section

variable {env : Env D} {spec : KubernetesSpec D}

/-- **A removal asks for every delete**, whatever the answers. -/
theorem removal_deletes (env : Env D) {k : Key} (hk : k ∈ spec.deletions) :
    (apiServer env).Eventually (· = .delete k) (logged (deprovision spec)) := by
  have hreturns : ∀ key ∈ spec.deletions, (apiServer env).Returns (ignoreMissing (.delete key)) := by
    intro key _ v
    rcases v with _ | o <;> trivial
  rw [deprovision_eq]
  exact Server.eventually_handle (Server.eventually_bind_left (Server.eventually_forEach hreturns hk (.inl rfl)))

end

/-! ## Before the call -/

/-- the command was sent, or there is nothing left to do -/
def Controller.Told (t : Controller D) : Prop :=
  (t.Idle ∧ t.attached = false) ∨ t.spec.removed = true ∨ (t.spec.pubSub = none ∧ .deprovision ∈ t.queue)

/-- what the call needs: no current spec has a component, what was created and is there is deleted by a current spec, and a
dropped controller has nothing left to do but to remove -/
structure Removable (st : ResourceActor D) : Prop where
  noComponent : ∀ t ∈ st.controllers, t.attached = true → t.spec.pubSub = none
  covered : ∀ k ∈ st.created, k.kind ≠ .volumeClaim → st.cluster k ≠ none →
    ∃ t ∈ st.controllers, t.attached = true ∧ k ∈ t.spec.deletions
  dropped : ∀ t ∈ st.controllers, t.attached = false → t.Told

/-! ## After the call -/

/-- the controller has the delete before it -/
def Controller.Owes (env : Env D) (t : Controller D) (k : Key) : Prop :=
  (∃ p, t.running = some p ∧ (apiServer env).Eventually (· = .delete k) p) ∨
    (k ∈ t.spec.deletions ∧ (.deprovision ∈ t.queue ∨ (t.spec.removed = true ∧ t.queue ≠ [])))

/-- every object that is there has its delete to come -/
structure Clearing (env : Env D) (st : ResourceActor D) : Prop where
  keeps : st.Keeps env
  told : ∀ t ∈ st.controllers, t.Told
  owed : ∀ k ∈ st.created, k.kind ≠ .volumeClaim → st.cluster k ≠ none → ∃ t ∈ st.controllers, t.Owes env k
  stored : ∀ s ∈ st.specs, s.removed = true

/-! ### One controller -/

section

variable {env : Env D} {t : Controller D} {k : Key}

theorem told_send (h : t.Told) (command : Command) : (t.send command).Told := by
  unfold Controller.Told Controller.Idle at *
  rw [Controller.send_spec, Controller.send_queue, Controller.send_running, Controller.send_attached]
  rcases h with ⟨⟨hr, hq⟩, ha⟩ | h | ⟨hc, hq⟩
  · exact .inl ⟨⟨hr, by rw [ha, hq]; rfl⟩, ha⟩
  · exact .inr (.inl h)
  · refine .inr (.inr ⟨hc, ?_⟩)
    split
    · exact List.mem_append_left _ hq
    · exact hq

theorem owes_send (h : t.Owes env k) (command : Command) : (t.send command).Owes env k := by
  unfold Controller.Owes at *
  rw [Controller.send_spec, Controller.send_queue, Controller.send_running]
  rcases h with h | ⟨hk, h⟩
  · exact .inl h
  · refine .inr ⟨hk, ?_⟩
    split
    · exact h.imp (List.mem_append_left _) fun hr => ⟨hr.1, by simp⟩
    · exact h

theorem told_detach (h : t.Told) : t.detach.Told := h.imp_left fun hi => ⟨hi.1, rfl⟩

/-- the delete is in what is left of the command -/
theorem owes_goOn {p : Task D (List ℕ)} (h : (apiServer env).Eventually (· = .delete k) p) : (t.goOn p).Owes env k := by
  cases p with
  | ret a => exact h.elim
  | stop e => exact h.elim
  | call q c => exact .inl ⟨_, rfl, h⟩

theorem told_goOn (h : t.spec.removed = true ∨ (t.spec.pubSub = none ∧ .deprovision ∈ t.queue))
    (p : Task D (List ℕ)) : (t.goOn p).Told := by
  unfold Controller.Told
  rw [Controller.goOn_spec, Controller.goOn_queue]
  exact .inr h

/-- a command that is queued is not nothing -/
theorem told_of_busy (h : t.Told) (hbusy : ¬ t.Idle) :
    t.spec.removed = true ∨ (t.spec.pubSub = none ∧ .deprovision ∈ t.queue) :=
  h.resolve_left fun hi => hbusy hi.1

section

variable [DecidableEq D]

theorem told_take (h : t.Told) : (t.take env).Told := by
  rcases take_cases env t with he | ⟨-, -, queue, hq, he⟩ | ⟨-, -, queue, -, he⟩
  · rw [he]
    exact h
  · have hbusy : ¬ t.Idle := by
      intro hi
      cases hq.symm.trans hi.2
    rw [he]
    refine told_goOn ?_ _
    refine (told_of_busy h hbusy).imp_right ?_
    rintro ⟨hc, hd⟩
    refine ⟨hc, ?_⟩
    rw [hq] at hd
    exact (List.mem_cons.1 hd).resolve_left (by decide)
  · rw [he]
    exact told_goOn (.inl rfl) _

theorem owes_take (h : t.Owes env k) : (t.take env).Owes env k := by
  rcases take_cases env t with he | ⟨-, hr, queue, hq, he⟩ | ⟨-, hr, queue, hq, he⟩
  · rw [he]
    exact h
  · rw [he]
    rcases h with ⟨p, hp, -⟩ | ⟨hk, h⟩
    · cases hr.symm.trans hp
    · by_cases hrem : t.spec.removed = true
      · -- a reconcile of a removed spec is a removal
        refine owes_goOn ?_
        rw [reconcile, if_pos hrem]
        exact removal_deletes env hk
      · refine .inr ⟨by simpa using hk, .inl ?_⟩
        rw [Controller.goOn_queue]
        rw [hq] at h
        have hd := h.resolve_right fun hr => hrem hr.1
        exact (List.mem_cons.1 hd).resolve_left (by decide)
  · rw [he]
    refine owes_goOn ?_
    rcases h with ⟨p, hp, -⟩ | ⟨hk, -⟩
    · cases hr.symm.trans hp
    · exact removal_deletes env hk

end

/-- a controller that is answered still owes what it has not asked for -/
theorem owes_call {q : Request D} {c : Response D → Task D (List ℕ)} (hr : t.running = some (.call q c))
    (hq : q ≠ .delete k) (h : t.Owes env k) (v : Option (Object D)) : (t.goOn (c ((apiServer env).answer q v))).Owes env k := by
  rcases h with ⟨p, hp, hev⟩ | ⟨hk, h⟩
  · cases hr.symm.trans hp
    exact owes_goOn ((hev.resolve_left hq) v)
  · refine .inr ?_
    rw [Controller.goOn_spec, Controller.goOn_queue]
    exact ⟨hk, h⟩

/-- what a controller that was told creates, it will delete -/
theorem owes_created (hkeeps : t.Keeps env) (htold : t.Told) {q : Request D} {c : Response D → Task D (List ℕ)}
    (hr : t.running = some (.call q c)) (hpvc : q.key.kind ≠ .volumeClaim) (hnew : Request.effect env q none ≠ none)
    (p : Task D (List ℕ)) : (t.goOn p).Owes env q.key := by
  obtain ⟨⟨-, hasks⟩, hrem⟩ := (hkeeps.asks _ hr).1
  have hbusy : ¬ t.Idle := by
    intro hi
    cases hr.symm.trans hi.1
  rcases told_of_busy htold hbusy with h | ⟨hc, hd⟩
  · exact absurd (hrem h) hnew
  · have hwrites : q.key ∈ t.spec.writes := hasks.resolve_left fun hread => hnew (hread none)
    have hcomp : q.key.kind ≠ .component := by
      intro hk
      have hname : q.key.name ∈ t.spec.names q.key.kind := hwrites
      rw [hk] at hname
      simp [KubernetesSpec.names, hc] at hname
    refine .inr ⟨?_, .inl (by rw [Controller.goOn_queue]; exact hd)⟩
    rw [Controller.goOn_spec]
    exact mem_deletions hkeeps.wellFormed hwrites hcomp hpvc

end

/-! ### The run -/

section

variable {env : Env D} {st : ResourceActor D}

/-- the operation is no configure -/
def Op.NoConfigure : Op D → Prop
  | .configure _ written => written = false
  | _ => True

theorem clearing_send (h : Clearing env st) (command : Command) : Clearing env (st.send command) where
  keeps := keeps_sendAll h.keeps command
  told := by
    intro u hu
    obtain ⟨t, ht, rfl⟩ := List.mem_map.1 hu
    exact told_send (h.told t ht) command
  owed := by
    intro k hk hpvc hthere
    obtain ⟨t, ht, howes⟩ := h.owed k hk hpvc hthere
    exact ⟨_, List.mem_map_of_mem ht, owes_send howes command⟩
  stored := h.stored

theorem clearing_load (h : Clearing env st) {specs : List (KubernetesSpec D)}
    (hspecs : ∀ s ∈ specs, WellFormed s ∧ s.removed = true) : Clearing env (st.load specs) where
  keeps := keeps_load h.keeps fun s hs => (hspecs s hs).1
  told := by
    intro u hu
    rcases List.mem_append.1 hu with hu | hu
    · obtain ⟨t, ht, rfl⟩ := List.mem_map.1 hu
      exact told_detach (h.told t ht)
    · exact .inr (.inl (hspecs _ (mem_loadControllers hu).1).2)
  owed := by
    intro k hk hpvc hthere
    obtain ⟨t, ht, howes⟩ := h.owed k hk hpvc hthere
    exact ⟨t.detach, List.mem_append_left _ (List.mem_map_of_mem ht), howes⟩
  stored := h.stored

end

section

variable [DecidableEq D] {env : Env D} {st : ResourceActor D}

theorem clearing_take (h : Clearing env st) (i : ℕ) : Clearing env (step env st (.take i)) := by
  refine ⟨step_keeps h.keeps (.take i) trivial, ?_, ?_, ?_⟩
  · intro u hu
    simp only [step] at hu
    split at hu
    · rename_i t ht
      rcases List.mem_or_eq_of_mem_set hu with hu | rfl
      · exact h.told u hu
      · exact told_take (h.told t (List.mem_of_getElem? ht))
    · exact h.told u hu
  · intro k hk hpvc hthere
    simp only [step] at hk hthere ⊢
    split at hk
    · rename_i t ht
      simp only [ht] at hthere ⊢
      obtain ⟨u, hu, howes⟩ := h.owed k hk hpvc hthere
      rcases mem_set_or ht hu with rfl | hu'
      · exact ⟨_, mem_set_self ht, owes_take howes⟩
      · exact ⟨u, hu', howes⟩
    · rename_i hnone
      simp only [hnone] at hthere ⊢
      exact h.owed k hk hpvc hthere
  · intro s hs
    simp only [step] at hs
    split at hs
    · exact h.stored s hs
    · exact h.stored s hs

/-- an object that is there after a call is owed: by whoever owed it, or by its creator -/
theorem clearing_call (h : Clearing env st) (i : ℕ) : Clearing env (step env st (.call i)) := by
  have hkeeps := step_keeps h.keeps (.call i) trivial
  rcases call_cases env st i with he | ⟨t, q, c, ht, hr, hcluster, hspecs, hcontrollers, hcreated⟩
  · rw [step, he]
    exact h
  have htm : t ∈ st.controllers := List.mem_of_getElem? ht
  refine ⟨hkeeps, ?_, ?_, ?_⟩
  · intro u hu
    rw [step, hcontrollers] at hu
    rcases List.mem_or_eq_of_mem_set hu with hu | rfl
    · exact h.told u hu
    · have hbusy : ¬ t.Idle := by
        intro hi
        cases hr.symm.trans hi.1
      exact told_goOn (told_of_busy (h.told t htm) hbusy) _
  · intro k hk hpvc hthere
    rw [step] at hk hthere ⊢
    rw [hcluster] at hthere
    rw [hcontrollers]
    by_cases hold : st.cluster k = none
    · -- the call has created it
      have hkey : k = q.key := by
        by_contra hne
        exact hthere ((Server.serve_of_ne hne _).trans hold)
      subst hkey
      have hnew : Request.effect env q none ≠ none := by
        intro heff
        apply hthere
        simp only [Server.serve, apiServer_key, Function.update_self, hold]
        exact heff
      exact ⟨_, mem_set_self ht, owes_created (h.keeps.controllers t htm) (h.told t htm) hr hpvc hnew _⟩
    · have hkold : k ∈ st.created := by
        rcases hcreated k hk with hk | ⟨rfl, hnone⟩
        · exact hk
        · exact absurd hnone hold
      obtain ⟨u, hu, howes⟩ := h.owed k hkold hpvc hold
      rcases mem_set_or ht hu with rfl | hu'
      · refine ⟨_, mem_set_self ht, owes_call hr ?_ howes _⟩
        rintro rfl
        apply hthere
        simp [Server.serve, apiServer, Request.key, Request.effect]
      · exact ⟨u, hu', howes⟩
  · intro s hs
    rw [step, hspecs] at hs
    exact h.stored s hs

/-- **One step**: every object that is there has its delete to come. -/
theorem step_clearing (h : Clearing env st) (op : Op D) (hop : op.NoConfigure) : Clearing env (step env st op) := by
  cases op with
  | configure specs written =>
    have hw : written = false := hop
    rw [step, hw]
    exact h
  | reconcile => exact clearing_send h _
  | deprovision written =>
    simp only [step]
    split
    · have hstored : Clearing env { st with specs := st.specs.map KubernetesSpec.remove } := by
        refine ⟨⟨h.keeps.controllers, ?_⟩, h.told, h.owed, ?_⟩
        · intro s hs
          obtain ⟨s', hs', rfl⟩ := List.mem_map.1 hs
          exact (h.keeps.specs s' hs').remove
        · intro s hs
          obtain ⟨s', -, rfl⟩ := List.mem_map.1 hs
          rfl
      exact clearing_send hstored _
    · exact h
  | activate read =>
    simp only [step]
    split
    · exact clearing_send (clearing_load h fun s hs => ⟨h.keeps.specs s hs, h.stored s hs⟩) _
    · exact clearing_load h (by simp)
  | take i => exact clearing_take h i
  | call i => exact clearing_call h i

/-- the call of a removable resource starts it -/
theorem clearing_start (hkeeps : st.Keeps env) (h : Removable st) : Clearing env (step env st (.deprovision true)) where
  keeps := step_keeps hkeeps (.deprovision true) trivial
  told := by
    intro u hu
    obtain ⟨t, ht, rfl⟩ := List.mem_map.1 hu
    rcases ha : t.attached with _ | _
    · exact told_send (h.dropped t ht ha) _
    · refine .inr (.inr ⟨?_, ?_⟩)
      · rw [Controller.send_spec]
        exact h.noComponent t ht ha
      · rw [Controller.send_queue, if_pos ha]
        exact List.mem_append_right _ (List.mem_singleton_self _)
  owed := by
    intro k hk hpvc hthere
    obtain ⟨t, ht, ha, hkd⟩ := h.covered k hk hpvc hthere
    refine ⟨_, List.mem_map_of_mem ht, .inr ⟨?_, .inl ?_⟩⟩
    · rw [Controller.send_spec]
      exact hkd
    · rw [Controller.send_queue, if_pos ha]
      exact List.mem_append_right _ (List.mem_singleton_self _)
  stored := by
    intro s hs
    obtain ⟨s', -, rfl⟩ := List.mem_map.1 hs
    rfl

/-- **Nothing is left.** After a deprovision of a removable resource, in any order of the steps that follow, once all
commands have been processed no object that the controllers created is there, volume claims apart. -/
theorem deprovision_complete (env : Env D) (cluster : Cluster D) (before after : List (Op D))
    (hbuilt : ∀ op ∈ before, op.Built) (hready : Removable (run (step env) (.new cluster) before))
    (hafter : ∀ op ∈ after, op.NoConfigure)
    (hdone : (run (step env) (.new cluster) (before ++ .deprovision true :: after)).Processed) :
    ∀ k ∈ (run (step env) (.new cluster) (before ++ .deprovision true :: after)).created, k.kind ≠ .volumeClaim →
      (run (step env) (.new cluster) (before ++ .deprovision true :: after)).cluster k = none := by
  rw [run_append, run_cons] at hdone ⊢
  have hstart := clearing_start (run_keeps env cluster before hbuilt) hready
  have hstep : ∀ st : ResourceActor D, ∀ op ∈ after, Clearing env st → Clearing env (step env st op) :=
    fun st op hop h => step_clearing h op (hafter op hop)
  have hend := run_inv_of_mem hstep hstart
  intro k hk hpvc
  by_contra hthere
  obtain ⟨t, ht, howes⟩ := hend.owed k hk hpvc hthere
  obtain ⟨hr, hq⟩ := hdone t ht
  rcases howes with ⟨p, hp, -⟩ | ⟨-, hd | ⟨-, hne⟩⟩
  · cases hr.symm.trans hp
  · rw [hq] at hd
    cases hd
  · exact hne hq

end

def configureOps : List (Op String) := [.configure [spec0] true]

def processOps : List (Op String) := [.take 0, .call 0, .call 0, .take 0, .call 0]

theorem configureOps_removable : Removable (run (step env0) (.new fun _ => none) configureOps) := by
  have hattached : ∀ t ∈ (run (step env0) (.new fun _ => none) configureOps).controllers, t.attached = true := by
    decide
  refine ⟨by decide, by decide, ?_⟩
  intro t ht ha
  cases (hattached t ht).symm.trans ha

/-- the deployment is created with the removal already queued, and deleted -/
theorem spec0_removed :
    spec0.deploymentKey ∈
      (run (step env0) (.new fun _ => none) (configureOps ++ .deprovision true :: processOps)).created ∧
    (run (step env0) (.new fun _ => none) (configureOps ++ .deprovision true :: processOps)).cluster spec0.deploymentKey =
      none := by
  have hbuilt : ∀ op ∈ configureOps, op.Built := by
    intro op hop
    rw [List.mem_singleton.1 hop]
    intro s hs
    rw [List.mem_singleton.1 hs]
    exact spec0_wellFormed
  have hafter : ∀ op ∈ processOps, op.NoConfigure := by simp [processOps, Op.NoConfigure]
  have hcreated : spec0.deploymentKey ∈
      (run (step env0) (.new fun _ => none) (configureOps ++ .deprovision true :: processOps)).created := by
    decide
  refine ⟨hcreated, ?_⟩
  exact deprovision_complete env0 (fun _ => none) configureOps processOps hbuilt configureOps_removable hafter
    (by decide) _ hcreated (by decide)

/-- the same with a pub/sub component -/
def specWithComponent : KubernetesSpec String :=
  { spec0 with pubSub := some ⟨⟨some "pubsub", [], none⟩, .other "redis"⟩ }

/-- **A component stays.** The reconcile creates it, no removal deletes it. -/
theorem component_stays :
    (run (step env0) (.new fun _ => none) [.configure [specWithComponent] true, .take 0, .call 0, .call 0, .call 0, .call 0,
      .deprovision true, .take 0, .call 0]).Processed ∧
    ⟨.component, "pubsub"⟩ ∈ (run (step env0) (.new fun _ => none) [.configure [specWithComponent] true, .take 0, .call 0,
      .call 0, .call 0, .call 0, .deprovision true, .take 0, .call 0]).created ∧
    (run (step env0) (.new fun _ => none) [.configure [specWithComponent] true, .take 0, .call 0, .call 0, .call 0, .call 0,
      .deprovision true, .take 0, .call 0]).cluster ⟨.component, "pubsub"⟩ = specWithComponent.pubSub := by
  decide

end DrasiPlatform.Provider
