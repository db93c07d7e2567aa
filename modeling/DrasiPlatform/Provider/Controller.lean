/-
The actor of a resource and its controllers (`control-planes/kubernetes_provider/src/actors/mod.rs`,
`controller/mod.rs`).

`configure` stores the specs the builder made, drops the controllers of the actor and starts one for every spec; the actor
keeps them by service name, so of two specs with one name the last is kept. A controller is a task with an unbounded queue
of commands. Dropping it closes the queue and no more: the task goes on until the queue is empty. `deprovision` marks the
stored specs as removed and sends `Deprovision` to the controllers the actor holds, `reconcile` and an activation send
`Reconcile`; nothing waits for the answer except an activation.

A step of a task is one call of the API, so two tasks may call it in turn. A task that panics takes no command any more:
what is in its queue, or is sent to it, stays unprocessed. Writing or reading the stored specs may fail, which ends the
call. The instance id, `Terminate` (never sent) and the status are left out.

`created` is a record of the objects that the tasks have created, for the statements only.

- `controllers_set`: who is who after one controller has moved.
- `take_cases`, `call_cases`: what a task that takes a command, or makes a call, does.
- `run_keeps`: every controller keeps to the objects of its spec, and creates nothing once its spec is removed.
-/
import Mathlib.Tactic
import DrasiPlatform.Core.Programs
import DrasiPlatform.Core.Run
import DrasiPlatform.Provider.Reconciler

namespace DrasiPlatform.Provider

open DrasiPlatform.Programs

/-! ## Model -/

inductive Command where
  | reconcile
  | deprovision
deriving DecidableEq, Repr

/-- a `ResourceController` with its task -/
structure Controller (D : Type) where
  spec : KubernetesSpec D
  /-- what is left of the command the task is in -/
  running : Option (Task D (List ℕ))
  queue : List Command
  /-- the actor holds the controller -/
  attached : Bool
  panicked : Bool

structure ResourceActor (D : Type) where
  cluster : Cluster D
  /-- the stored `platform-specs` -/
  specs : List (KubernetesSpec D)
  /-- every controller ever started -/
  controllers : List (Controller D)
  created : List Key

variable {D : Type}

def KubernetesSpec.remove (spec : KubernetesSpec D) : KubernetesSpec D := { spec with removed := true }

namespace Controller

/-- `ResourceController::start` -/
def start (spec : KubernetesSpec D) : Controller D where
  spec := spec
  running := none
  queue := []
  attached := true
  panicked := false

def detach (t : Controller D) : Controller D := { t with attached := false }

/-- a command to a controller the actor holds -/
def send (command : Command) (t : Controller D) : Controller D :=
  if t.attached then { t with queue := t.queue ++ [command] } else t

/-- the task with the rest of a command -/
def goOn (t : Controller D) : Task D (List ℕ) → Controller D
  | .ret _ => { t with running := none }
  | .stop _ => { t with running := none, panicked := true }
  | .call q k => { t with running := some (.call q k) }

end Controller

/-- `load_controllers`: a controller with the name of a later one is dropped at once -/
def loadControllers : List (KubernetesSpec D) → List (Controller D)
  | [] => []
  | spec :: specs =>
    { Controller.start spec with attached := spec.serviceName ∉ specs.map (·.serviceName) } :: loadControllers specs

inductive Op (D : Type) where
  /-- the specs of the builder; were they stored? -/
  | configure (specs : List (KubernetesSpec D)) (written : Bool)
  | reconcile
  | deprovision (written : Bool)
  /-- a new actor in place of the old one; were the specs read? -/
  | activate (read : Bool)
  /-- a task takes the next command -/
  | take (i : ℕ)
  /-- a task makes a call -/
  | call (i : ℕ)

namespace ResourceActor

def send (command : Command) (st : ResourceActor D) : ResourceActor D :=
  { st with controllers := st.controllers.map (Controller.send command) }

/-- `controllers.clear()` and a controller for every spec -/
def load (specs : List (KubernetesSpec D)) (st : ResourceActor D) : ResourceActor D :=
  { st with controllers := st.controllers.map Controller.detach ++ loadControllers specs }

def configure (specs : List (KubernetesSpec D)) (st : ResourceActor D) : ResourceActor D :=
  ({ st with specs := specs }.load specs).send .reconcile

end ResourceActor

def ResourceActor.call (env : Env D) (st : ResourceActor D) (i : ℕ) : ResourceActor D :=
  match st.controllers[i]? with
  | some t =>
    match t.running with
    | some (.call q k) =>
      let cluster := (apiServer env).serve q st.cluster
      { st with
        cluster := cluster
        controllers := st.controllers.set i (t.goOn (k ((apiServer env).answered q st.cluster)))
        created := if st.cluster q.key = none ∧ cluster q.key ≠ none then q.key :: st.created else st.created }
    | _ => st
  | none => st

section

variable [DecidableEq D] (env : Env D)

/-- `while let Some(cmd) = command_rx.recv().await` -/
def Controller.take (t : Controller D) : Controller D :=
  match t.panicked, t.running, t.queue with
  | false, none, .reconcile :: queue => { t with queue := queue }.goOn (reconcile env t.spec)
  | false, none, .deprovision :: queue =>
    { t with queue := queue, spec := t.spec.remove }.goOn (reconcile env t.spec.remove)
  | _, _, _ => t

def step (st : ResourceActor D) : Op D → ResourceActor D
  | .configure specs written => if written then st.configure specs else st
  | .reconcile => st.send .reconcile
  | .deprovision written =>
    if written then { st with specs := st.specs.map KubernetesSpec.remove }.send .deprovision else st
  | .activate read => if read then (st.load st.specs).send .reconcile else st.load []
  | .take i =>
    match st.controllers[i]? with
    | some t => { st with controllers := st.controllers.set i (t.take env) }
    | none => st
  | .call i => st.call env i

end

/-- nothing is queued and no task is in a command -/
def Controller.Idle (t : Controller D) : Prop := t.running = none ∧ t.queue = []

/-- all commands have been processed -/
def ResourceActor.Processed (st : ResourceActor D) : Prop := ∀ t ∈ st.controllers, t.Idle

/-- an actor that was never configured -/
def ResourceActor.new (cluster : Cluster D) : ResourceActor D := ⟨cluster, [], [], []⟩

instance (t : Controller D) : Decidable t.Idle := inferInstanceAs (Decidable (_ ∧ _))

instance (st : ResourceActor D) : Decidable st.Processed := inferInstanceAs (Decidable (∀ t ∈ st.controllers, t.Idle))

/-! ## One controller moves -/

namespace Controller

variable (t : Controller D) (p : Task D (List ℕ)) (command : Command)

@[simp] theorem goOn_spec : (t.goOn p).spec = t.spec := by cases p <;> rfl

@[simp] theorem goOn_queue : (t.goOn p).queue = t.queue := by cases p <;> rfl

@[simp] theorem goOn_attached : (t.goOn p).attached = t.attached := by cases p <;> rfl

theorem goOn_running {p' : Task D (List ℕ)} (h : (t.goOn p).running = some p') : p' = p := by
  cases p with
  | ret a => cases h
  | stop e => cases h
  | call q k => exact (Option.some.inj h).symm

@[simp] theorem send_spec : (t.send command).spec = t.spec := by
  unfold send
  split <;> rfl

@[simp] theorem send_running : (t.send command).running = t.running := by
  unfold send
  split <;> rfl

@[simp] theorem send_attached : (t.send command).attached = t.attached := by
  unfold send
  split <;> rfl

theorem send_queue : (t.send command).queue = if t.attached then t.queue ++ [command] else t.queue := by
  unfold send
  split <;> rfl

end Controller

theorem controllers_set {l : List (Controller D)} {i j : ℕ} {t u : Controller D} (h : (l.set i t)[j]? = some u) :
    (j = i ∧ u = t) ∨ (j ≠ i ∧ l[j]? = some u) := by
  by_cases hij : i = j
  · subst hij
    rw [List.getElem?_set_self'] at h
    rcases hl : l[i]? with _ | v
    · simp [hl] at h
    · simp [hl] at h
      exact .inl ⟨rfl, h.symm⟩
  · rw [List.getElem?_set_ne hij] at h
    exact .inr ⟨Ne.symm hij, h⟩

/-- what a call does -/
theorem call_cases (env : Env D) (st : ResourceActor D) (i : ℕ) :
    st.call env i = st ∨ ∃ t q k, st.controllers[i]? = some t ∧ t.running = some (.call q k) ∧
      (st.call env i).cluster = (apiServer env).serve q st.cluster ∧
      (st.call env i).specs = st.specs ∧
      (st.call env i).controllers = st.controllers.set i (t.goOn (k ((apiServer env).answered q st.cluster))) ∧
      ∀ key ∈ (st.call env i).created, key ∈ st.created ∨ (key = q.key ∧ st.cluster q.key = none) := by
  unfold ResourceActor.call
  split
  · rename_i t ht
    split
    · rename_i q k hk
      refine .inr ⟨t, q, k, ht, hk, rfl, rfl, rfl, ?_⟩
      intro key hkey
      dsimp only at hkey
      split at hkey
      · rename_i hnew
        rcases List.mem_cons.1 hkey with rfl | hkey
        · exact .inr ⟨rfl, hnew.1⟩
        · exact .inl hkey
      · exact .inl hkey
    · exact .inl rfl
  · exact .inl rfl

section

variable [DecidableEq D]

/-- what a task that takes a command does -/
theorem take_cases (env : Env D) (t : Controller D) :
    t.take env = t ∨
      (t.panicked = false ∧ t.running = none ∧ ∃ queue, t.queue = .reconcile :: queue ∧
        t.take env = { t with queue := queue }.goOn (reconcile env t.spec)) ∨
      (t.panicked = false ∧ t.running = none ∧ ∃ queue, t.queue = .deprovision :: queue ∧
        t.take env = { t with queue := queue, spec := t.spec.remove }.goOn (reconcile env t.spec.remove)) := by
  unfold Controller.take
  split
  · rename_i queue hp hr hq
    exact .inr (.inl ⟨hp, hr, queue, hq, rfl⟩)
  · rename_i queue hp hr hq
    exact .inr (.inr ⟨hp, hr, queue, hq, rfl⟩)
  · exact .inl rfl

end

/-- what a fresh controller is -/
theorem mem_loadControllers {specs : List (KubernetesSpec D)} {t : Controller D} (h : t ∈ loadControllers specs) :
    t.spec ∈ specs ∧ t.running = none ∧ t.queue = [] ∧ t.panicked = false := by
  induction specs with
  | nil => cases h
  | cons spec specs ih =>
    rcases List.mem_cons.1 h with rfl | h
    · exact ⟨List.mem_cons_self, rfl, rfl, rfl⟩
    · obtain ⟨hspec, hrest⟩ := ih h
      exact ⟨List.mem_cons_of_mem spec hspec, hrest⟩

/-- a controller that stays, or the one that has moved -/
theorem mem_set_or {l : List (Controller D)} {i : ℕ} {t t' u : Controller D} (h : l[i]? = some t) (hu : u ∈ l) :
    u = t ∨ u ∈ l.set i t' := by
  obtain ⟨j, hj⟩ := List.mem_iff_getElem?.1 hu
  by_cases hij : i = j
  · subst hij
    exact .inl (Option.some.inj (hj.symm.trans h))
  · refine .inr (List.mem_of_getElem? (i := j) ?_)
    rw [List.getElem?_set_ne hij, hj]

theorem mem_set_self {l : List (Controller D)} {i : ℕ} {t t' : Controller D} (h : l[i]? = some t) : t' ∈ l.set i t' :=
  List.mem_set (List.getElem?_eq_some_iff.1 h).1 t'

/-! ## Every controller keeps to its spec -/

theorem WellFormed.remove {spec : KubernetesSpec D} (h : WellFormed spec) : WellFormed spec.remove :=
  ⟨h.configMaps, h.volumeClaims, h.ingresses, h.services, h.pubSub, h.serviceAccount, h.drasiConfig⟩

/-- what a controller of the spec may ask: nothing is created once the spec is removed -/
def KubernetesSpec.Allows (env : Env D) (spec : KubernetesSpec D) (q : Request D) : Prop :=
  spec.Asks env q ∧ (spec.removed = true → Request.effect env q none = none)

/-- what is left of its command keeps to its spec -/
structure Controller.Keeps (env : Env D) (t : Controller D) : Prop where
  wellFormed : WellFormed t.spec
  asks : ∀ p, t.running = some p → p.Uses (t.spec.Allows env)

theorem keeps_goOn {env : Env D} {t : Controller D} {p : Task D (List ℕ)} (hw : WellFormed t.spec)
    (hp : p.Uses (t.spec.Allows env)) : (t.goOn p).Keeps env := by
  refine ⟨by simpa using hw, ?_⟩
  intro p' hp'
  rw [Controller.goOn_running t p hp', Controller.goOn_spec]
  exact hp

theorem keeps_send {env : Env D} {t : Controller D} (h : t.Keeps env) (command : Command) :
    (t.send command).Keeps env := by
  refine ⟨by simpa using h.wellFormed, ?_⟩
  intro p hp
  rw [Controller.send_running] at hp
  rw [Controller.send_spec]
  exact h.asks p hp

theorem keeps_call {env : Env D} {t : Controller D} (h : t.Keeps env) {q : Request D}
    {k : Response D → Task D (List ℕ)} (hr : t.running = some (.call q k)) (a : Response D) : (t.goOn (k a)).Keeps env :=
  keeps_goOn h.wellFormed ((h.asks _ hr).2 a)

/-- every controller keeps to its spec, and the stored specs come from the builder -/
structure ResourceActor.Keeps (env : Env D) (st : ResourceActor D) : Prop where
  controllers : ∀ t ∈ st.controllers, t.Keeps env
  specs : ∀ s ∈ st.specs, WellFormed s

/-- the specs of a configure come from the builder -/
def Op.Built : Op D → Prop
  | .configure specs _ => ∀ s ∈ specs, WellFormed s
  | _ => True

section

variable {env : Env D} {st : ResourceActor D}

theorem keeps_sendAll (h : st.Keeps env) (command : Command) : (st.send command).Keeps env := by
  refine ⟨?_, h.specs⟩
  intro u hu
  obtain ⟨t, ht, rfl⟩ := List.mem_map.1 hu
  exact keeps_send (h.controllers t ht) command

theorem keeps_load (h : st.Keeps env) {specs : List (KubernetesSpec D)} (hspecs : ∀ s ∈ specs, WellFormed s) :
    (st.load specs).Keeps env := by
  refine ⟨?_, h.specs⟩
  intro u hu
  rcases List.mem_append.1 hu with hu | hu
  · obtain ⟨t, ht, rfl⟩ := List.mem_map.1 hu
    exact ⟨(h.controllers t ht).wellFormed, (h.controllers t ht).asks⟩
  · obtain ⟨hspec, hrun, -⟩ := mem_loadControllers hu
    refine ⟨hspecs _ hspec, ?_⟩
    intro p hp
    cases hrun.symm.trans hp

end

section

variable [DecidableEq D] {env : Env D} {spec : KubernetesSpec D} {t : Controller D} {st : ResourceActor D}

theorem uses_reconcile_allows (h : WellFormed spec) :
    (reconcile env spec).Uses (spec.Allows env) := by
  rcases hr : spec.removed with _ | _
  · refine (uses_reconcile h).mono ?_
    intro q hq
    exact ⟨hq, fun he => absurd (hr.symm.trans he) Bool.false_ne_true⟩
  · rw [reconcile, hr, if_pos rfl]
    refine uses_logged ((uses_deprovision spec).mono ?_)
    rintro q ⟨key, hkey, rfl⟩
    exact ⟨asks_delete hkey, fun _ => rfl⟩

theorem keeps_take (h : t.Keeps env) : (t.take env).Keeps env := by
  rcases take_cases env t with he | ⟨-, -, queue, -, he⟩ | ⟨-, -, queue, -, he⟩
  · rw [he]
    exact h
  · rw [he]
    exact keeps_goOn h.wellFormed (uses_reconcile_allows h.wellFormed)
  · rw [he]
    exact keeps_goOn h.wellFormed.remove (uses_reconcile_allows h.wellFormed.remove)

/-- **Every controller keeps to its spec**, whatever the order of the steps. -/
theorem step_keeps (h : st.Keeps env) (op : Op D) (hop : op.Built) : (step env st op).Keeps env := by
  cases op with
  | configure specs written =>
    simp only [step]
    split
    · have hstored : ({ st with specs := specs } : ResourceActor D).Keeps env := ⟨h.controllers, hop⟩
      exact keeps_sendAll (keeps_load hstored hop) _
    · exact h
  | reconcile => exact keeps_sendAll h _
  | deprovision written =>
    simp only [step]
    split
    · have hstored : ({ st with specs := st.specs.map KubernetesSpec.remove } : ResourceActor D).Keeps env := by
        refine ⟨h.controllers, ?_⟩
        intro s hs
        obtain ⟨s', hs', rfl⟩ := List.mem_map.1 hs
        exact (h.specs s' hs').remove
      exact keeps_sendAll hstored _
    · exact h
  | activate read =>
    simp only [step]
    split
    · exact keeps_sendAll (keeps_load h h.specs) _
    · exact keeps_load h (by simp)
  | take i =>
    simp only [step]
    split
    · rename_i t ht
      refine ⟨?_, h.specs⟩
      intro u hu
      rcases List.mem_or_eq_of_mem_set hu with hu | rfl
      · exact h.controllers u hu
      · exact keeps_take (h.controllers t (List.mem_of_getElem? ht))
    · exact h
  | call i =>
    rcases call_cases env st i with he | ⟨t, q, k, ht, hr, -, hspecs, hc, -⟩
    · rw [step, he]
      exact h
    · refine ⟨?_, ?_⟩
      · intro u hu
        rw [step, hc] at hu
        rcases List.mem_or_eq_of_mem_set hu with hu | rfl
        · exact h.controllers u hu
        · exact keeps_call (h.controllers t (List.mem_of_getElem? ht)) hr _
      · rw [step, hspecs]
        exact h.specs

/-- and after any run -/
theorem run_keeps (env : Env D) (cluster : Cluster D) (ops : List (Op D)) (hops : ∀ op ∈ ops, op.Built) :
    (Run.run (step env) (.new cluster) ops).Keeps env := by
  have hnew : (ResourceActor.new cluster).Keeps env := ⟨by simp [ResourceActor.new], by simp [ResourceActor.new]⟩
  have hstep : ∀ st : ResourceActor D, ∀ op ∈ ops, st.Keeps env → (step env st op).Keeps env :=
    fun st op hop h => step_keeps h op (hops op hop)
  exact Run.run_inv_of_mem hstep hnew

end

end DrasiPlatform.Provider
