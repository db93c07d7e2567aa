/-
The life of a resource under the management API: `set` and `delete` of the resource services as steps on the repository and on
the actors, any number of requests at a time (`control-planes/mgmt_api/src/domain/resource_services`).

A request goes through its awaits one by one: a `set`, once validated, writes the record and then configures the actor of the
record's type; a `delete` reads the record, deprovisions the actor of its type and then erases the record. Every await can
fail, and can be carried out although it reports an error; a request whose await fails is over. The `deprovision` handlers
that the extensible service calls in between are left out: their answers are only logged.

- `alone_set`, `alone_delete`: a request that nothing comes between does what the services of `MgmtApi.ResourceService` do.
- `no_orphan_iff`: while requests for one id do not overlap, every configured actor has its record in every state exactly
  when no `set` that changes the actor's type is applied while the actor of the old type is configured.
- `answered_ok`: what a `set` or `delete` that is answered with success has done.
Witness: `no_orphan_two_queries`. Left behind: `container_change_orphans`, `overlap_orphans`.
-/
import Mathlib.Tactic
import DrasiPlatform.Core.Run
import DrasiPlatform.MgmtApi.ResourceService

namespace DrasiPlatform.MgmtApi.Lifecycle

open Run

/-! ## Model -/

variable {TSpec TStatus TApiSpec : Type}

/-- what the actor of a type and id is configured with -/
abbrev Actors (TApiSpec : Type) := String → String → Option TApiSpec

def Actors.put (actors : Actors TApiSpec) (actorType id : String) (config : Option TApiSpec) : Actors TApiSpec :=
  Function.update actors actorType (Function.update (actors actorType) id config)

theorem Actors.put_apply (actors : Actors TApiSpec) (actorType id : String) (config : Option TApiSpec) (t i : String) :
    actors.put actorType id config t i = if t = actorType ∧ i = id then config else actors t i := by
  unfold Actors.put
  by_cases ht : t = actorType
  · subst ht
    by_cases hi : i = id
    · subst hi
      simp
    · simp [hi]
  · simp [ht]

/-- where a request is -/
inductive Phase (TSpec : Type) where
  /-- a `set` that has passed the validators -/
  | valid (spec : TSpec)
  /-- a `set` whose record is written -/
  | written (spec : TSpec)
  /-- a `delete` that has read nothing yet -/
  | looking
  /-- a `delete` that has read the record -/
  | found (spec : TSpec)
  /-- a `delete` whose actor has answered -/
  | deprovisioned (spec : TSpec)

structure State (TSpec TApiSpec : Type) where
  repo : Repository TSpec
  actors : Actors TApiSpec
  /-- the requests in flight, with the id of their resource -/
  requests : ℕ → Option (String × Phase TSpec)

def State.start (repo : Repository TSpec) (actors : Actors TApiSpec) : State TSpec TApiSpec := ⟨repo, actors, fun _ => none⟩

/-- request `k` goes on to a phase, or is over -/
def State.move (s : State TSpec TApiSpec) (k : ℕ) (request : Option (String × Phase TSpec)) : State TSpec TApiSpec :=
  { s with requests := Function.update s.requests k request }

inductive Op (TSpec : Type) where
  | set (k : ℕ) (id : String) (spec : TSpec)
  | delete (k : ℕ) (id : String)
  /-- `repo.set` -/
  | write (k : ℕ) (outcome : Outcome)
  /-- `configure` of the actor; a call that reports an error may have been `applied` -/
  | configure (k : ℕ) (applied ok : Bool)
  /-- `repo.get`; fails with an error of the store, or finds what there is -/
  | find (k : ℕ) (fails : Bool)
  /-- `deprovision` of the actor -/
  | deprovision (k : ℕ) (applied ok : Bool)
  /-- `repo.delete` -/
  | erase (k : ℕ) (outcome : Outcome)

section

variable (actorType : TSpec → String) (into : TSpec → TApiSpec)

def step (s : State TSpec TApiSpec) : Op TSpec → State TSpec TApiSpec
  | .set k id spec => s.move k (some (id, .valid spec))
  | .delete k id => s.move k (some (id, .looking))
  | .write k outcome =>
    match s.requests k with
    | some (id, .valid spec) =>
      { s with repo := s.repo.set id spec outcome }.move k (if outcome = Outcome.ok then some (id, .written spec) else none)
    | _ => s
  | .configure k applied ok =>
    match s.requests k with
    | some (id, .written spec) =>
      { s with actors := if ok || applied then s.actors.put (actorType spec) id (some (into spec)) else s.actors }.move k none
    | _ => s
  | .find k fails =>
    match s.requests k with
    | some (id, .looking) =>
      s.move k (if fails then none else (s.repo id).map fun spec => (id, .found spec))
    | _ => s
  | .deprovision k applied ok =>
    match s.requests k with
    | some (id, .found spec) =>
      { s with actors := if ok || applied then s.actors.put (actorType spec) id none else s.actors }.move k
        (if ok then some (id, .deprovisioned spec) else none)
    | _ => s
  | .erase k outcome =>
    match s.requests k with
    | some (id, .deprovisioned _) => { s with repo := s.repo.delete id outcome }.move k none
    | _ => s

/-! ## A request alone -/

/-- the answers of one call, as the services see them -/
def callOf (write : Outcome) (configured configureOk deprovisioned deprovisionOk : Bool) :
    Call TApiSpec (Actors TApiSpec) where
  write := write
  configure actors actorType id request :=
    (if configureOk then .ok () else .error "configure",
      if configureOk || configured then actors.put actorType id (some request.spec) else actors)
  deprovision actors actorType id :=
    (if deprovisionOk then .ok () else .error "deprovision",
      if deprovisionOk || deprovisioned then actors.put actorType id none else actors)

def State.world (s : State TSpec TApiSpec) : World TSpec (Actors TApiSpec) := ⟨s.repo, s.actors⟩

/-- **A `set` alone** is the `set` of the service. -/
theorem alone_set (S : StandardService TSpec TStatus TApiSpec) (repo : Repository TSpec) (actors : Actors TApiSpec)
    (id : String) (spec : TSpec) (hvalid : validateAll S.validators spec = .ok ()) (k : ℕ) (write : Outcome)
    (applied ok deprovisioned deprovisionOk : Bool) :
    (run (step S.actorType S.into) (.start repo actors) [.set k id spec, .write k write, .configure k applied ok]).world =
      (S.set (callOf write applied ok deprovisioned deprovisionOk) ⟨repo, actors⟩ id spec).2 := by
  cases write with
  | ok => cases ok <;> simp [StandardService.set, hvalid, store, callOf, step, State.start, State.move, State.world,
      Outcome.result]
  | error inner a => simp [StandardService.set, hvalid, store, step, State.start, State.move, State.world, Outcome.result,
      callOf]

/-- **A `delete` alone** is the `delete` of the service. -/
theorem alone_delete (S : StandardService TSpec TStatus TApiSpec) (repo : Repository TSpec) (actors : Actors TApiSpec)
    (id : String) (k : ℕ) (erased : Outcome) (configured configureOk applied ok : Bool) :
    (run (step S.actorType S.into) (.start repo actors)
        [.delete k id, .find k false, .deprovision k applied ok, .erase k erased]).world =
      (S.delete (callOf erased configured configureOk applied ok) ⟨repo, actors⟩ id).2 := by
  cases hrepo : repo id with
  | none => simp [StandardService.delete, Repository.get, hrepo, step, State.start, State.move, State.world]
  | some spec => cases ok <;> simp [StandardService.delete, Repository.get, hrepo, remove, callOf, step, State.start,
      State.move, State.world]

/-! ## Requests for one id, one at a time -/

/-- a request comes while no other one for its resource is in flight -/
def Exclusive (s : State TSpec TApiSpec) : Op TSpec → Prop
  | .set k id _ | .delete k id => s.requests k = none ∧ ∀ k' r, s.requests k' = some r → r.1 ≠ id
  | _ => True

/-- the record that the repository must have for a request in this phase -/
def Phase.record : Phase TSpec → Option TSpec
  | .valid _ | .looking => none
  | .written spec | .found spec | .deprovisioned spec => some spec

structure Inv (s : State TSpec TApiSpec) : Prop where
  alone : ∀ k k' r r', s.requests k = some r → s.requests k' = some r' → r.1 = r'.1 → k = k'
  record : ∀ k id phase spec, s.requests k = some (id, phase) → phase.record = some spec → s.repo id = some spec
  gone : ∀ k id spec, s.requests k = some (id, .deprovisioned spec) → s.actors (actorType spec) id = none

theorem start_inv (repo : Repository TSpec) (actors : Actors TApiSpec) : Inv actorType (.start repo actors) where
  alone k k' r r' h := by simp [State.start] at h
  record k id phase spec h := by simp [State.start] at h
  gone k id spec h := by simp [State.start] at h

variable {actorType}

/-- the requests after request `k` has moved -/
theorem move_requests {s : State TSpec TApiSpec} {k : ℕ} {request : Option (String × Phase TSpec)} {j : ℕ}
    {r : String × Phase TSpec} (h : (s.move k request).requests j = some r) :
    (j = k ∧ request = some r) ∨ (j ≠ k ∧ s.requests j = some r) := by
  simp only [State.move] at h
  by_cases hj : j = k
  · subst hj
    rw [Function.update_self] at h
    exact .inl ⟨rfl, h⟩
  · rw [Function.update_of_ne hj] at h
    exact .inr ⟨hj, h⟩

/-- a request moves within its resource: what it changes is of its id, and it leaves its own phase in order -/
theorem Inv.move {s : State TSpec TApiSpec} (h : Inv actorType s) {k : ℕ} {id : String} {phase : Phase TSpec}
    (hk : s.requests k = some (id, phase)) (s' : State TSpec TApiSpec) (next : Option (Phase TSpec))
    (hrequests : s'.requests = s.requests) (hrepo : ∀ i, i ≠ id → s'.repo i = s.repo i)
    (hactors : ∀ t i, i ≠ id → s'.actors t i = s.actors t i)
    (hrecord : ∀ p, next = some p → ∀ spec, p.record = some spec → s'.repo id = some spec)
    (hgone : ∀ spec, next = some (.deprovisioned spec) → s'.actors (actorType spec) id = none) :
    Inv actorType (s'.move k (next.map fun p => (id, p))) := by
  -- another request is of another resource
  have hother : ∀ j r, j ≠ k → s.requests j = some r → r.1 ≠ id := fun j r hj hr heq =>
    hj (h.alone j k r _ hr hk heq)
  have hcases : ∀ {j r}, (s'.move k (next.map fun p => (id, p))).requests j = some r →
      (j = k ∧ r.1 = id ∧ next = some r.2) ∨ (j ≠ k ∧ s.requests j = some r) := by
    intro j r hj
    rcases move_requests hj with ⟨rfl, hr⟩ | ⟨hne, hr⟩
    · obtain ⟨p, hp, rfl⟩ := Option.map_eq_some_iff.1 hr
      exact .inl ⟨rfl, rfl, hp⟩
    · exact .inr ⟨hne, hrequests ▸ hr⟩
  refine ⟨?_, ?_, ?_⟩
  · intro j j' r r' hj hj' heq
    rcases hcases hj with ⟨rfl, hid, -⟩ | ⟨hne, hr⟩ <;> rcases hcases hj' with ⟨rfl, hid', -⟩ | ⟨hne', hr'⟩
    · rfl
    · exact absurd (heq.symm.trans hid) (hother j' r' hne' hr')
    · exact absurd (heq.trans hid') (hother j r hne hr)
    · exact h.alone j j' r r' hr hr' heq
  · intro j i p spec hj hp
    rcases hcases hj with ⟨-, hid, hnext⟩ | ⟨hne, hr⟩
    · obtain rfl : i = id := hid
      exact hrecord p hnext spec hp
    · exact (hrepo i (hother j _ hne hr)).trans (h.record j i p spec hr hp)
  · intro j i spec hj
    rcases hcases hj with ⟨-, hid, hnext⟩ | ⟨hne, hr⟩
    · obtain rfl : i = id := hid
      exact hgone spec hnext
    · exact (hactors _ i (hother j _ hne hr)).trans (h.gone j i spec hr)

/-- a request that comes -/
theorem Inv.arrive {s : State TSpec TApiSpec} (h : Inv actorType s) {k : ℕ} {id : String} {phase : Phase TSpec}
    (hfree : ∀ k' r, s.requests k' = some r → r.1 ≠ id) (hphase : phase.record = none) :
    Inv actorType (s.move k (some (id, phase))) := by
  refine ⟨?_, ?_, ?_⟩
  · intro j j' r r' hj hj' heq
    rcases move_requests hj with ⟨rfl, hr⟩ | ⟨hne, hr⟩ <;> rcases move_requests hj' with ⟨rfl, hr'⟩ | ⟨hne', hr'⟩
    · rfl
    · obtain rfl := Option.some.inj hr
      exact absurd heq.symm (hfree j' r' hr')
    · obtain rfl := Option.some.inj hr'
      exact absurd heq (hfree j r hr)
    · exact h.alone j j' r r' hr hr' heq
  · intro j i p spec hj hp
    rcases move_requests hj with ⟨rfl, hr⟩ | ⟨-, hr⟩
    · obtain ⟨rfl, rfl⟩ := Prod.mk.inj (Option.some.inj hr)
      rw [hphase] at hp
      cases hp
    · exact h.record j i p spec hr hp
  · intro j i spec hj
    rcases move_requests hj with ⟨rfl, hr⟩ | ⟨-, hr⟩
    · obtain ⟨rfl, rfl⟩ := Prod.mk.inj (Option.some.inj hr)
      cases hphase
    · exact h.gone j i spec hr

theorem set_ne (repo : Repository TSpec) {id i : String} (hi : i ≠ id) (spec : TSpec) (outcome : Outcome) :
    repo.set id spec outcome i = repo i := by
  unfold Repository.set
  split
  · exact Function.update_of_ne hi _ _
  · rfl

theorem delete_ne (repo : Repository TSpec) {id i : String} (hi : i ≠ id) (outcome : Outcome) :
    repo.delete id outcome i = repo i := by
  unfold Repository.delete
  split
  · exact Function.update_of_ne hi _ _
  · rfl

theorem put_ne {actors : Actors TApiSpec} {b : Bool} {actorType id : String} {config : Option TApiSpec} (t : String)
    {i : String} (hi : i ≠ id) : (if b then actors.put actorType id config else actors) t i = actors t i := by
  split
  · rw [Actors.put_apply, if_neg fun h => hi h.2]
  · rfl

variable (actorType)

theorem step_inv {s : State TSpec TApiSpec} {o : Op TSpec} (h : Inv actorType s) (ho : Exclusive s o) :
    Inv actorType (step actorType into s o) := by
  cases o with
  | set k id spec => exact h.arrive ho.2 rfl
  | delete k id => exact h.arrive ho.2 rfl
  | write k outcome =>
    simp only [step]
    split
    · rename_i id spec hk
      have hmove := h.move hk { s with repo := s.repo.set id spec outcome }
        (if outcome = Outcome.ok then some (.written spec) else none) rfl (fun i hi => set_ne _ hi _ _) (fun _ _ _ => rfl)
        (by
          intro p hp spec' hspec'
          split at hp
          · rename_i hok
            cases hp
            cases hspec'
            simp [hok, Repository.set, Outcome.applied]
          · cases hp)
        (by
          intro spec' hp
          split at hp <;> cases hp)
      split at hmove <;> rename_i hok <;> simpa [hok] using hmove
    · exact h
  | configure k applied ok =>
    simp only [step]
    split
    · rename_i id spec hk
      exact h.move hk { s with
          actors := if ok || applied then s.actors.put (actorType spec) id (some (into spec)) else s.actors }
        none rfl (fun _ _ => rfl) (fun t i hi => put_ne t hi) (fun p hp => by cases hp) (fun spec' hp => by cases hp)
    · exact h
  | find k fails =>
    simp only [step]
    split
    · rename_i id hk
      have hmove := h.move hk s (if fails then none else (s.repo id).map .found) rfl (fun _ _ => rfl) (fun _ _ _ => rfl)
        (by
          intro p hp spec hspec
          split at hp
          · cases hp
          · obtain ⟨found, hfound, rfl⟩ := Option.map_eq_some_iff.1 hp
            cases hspec
            exact hfound)
        (by
          intro spec hp
          split at hp
          · cases hp
          · obtain ⟨_, _, hfound⟩ := Option.map_eq_some_iff.1 hp
            cases hfound)
      cases fails <;> simpa [Option.map_map, Function.comp_def] using hmove
    · exact h
  | deprovision k applied ok =>
    simp only [step]
    split
    · rename_i id spec hk
      have hmove := h.move hk
        { s with actors := if ok || applied then s.actors.put (actorType spec) id none else s.actors }
        (if ok then some (.deprovisioned spec) else none) rfl (fun _ _ => rfl) (fun t i hi => put_ne t hi)
        (by
          intro p hp spec' hspec'
          split at hp
          · cases hp
            cases hspec'
            exact h.record k id _ spec hk rfl
          · cases hp)
        (by
          intro spec' hp
          split at hp
          · rename_i hok
            cases hp
            simp [hok, Actors.put_apply]
          · cases hp)
      cases ok <;> simpa using hmove
    · exact h
  | erase k outcome =>
    simp only [step]
    split
    · rename_i id spec hk
      exact h.move hk { s with repo := s.repo.delete id outcome } none rfl (fun i hi => delete_ne _ hi _)
        (fun _ _ _ => rfl) (fun p hp => by cases hp) (fun spec' hp => by cases hp)
    · exact h

/-! ## Orphans -/

/-- every configured actor has its record -/
def NoOrphan (s : State TSpec TApiSpec) : Prop :=
  ∀ t id, (s.actors t id).isSome = true → ∃ spec, s.repo id = some spec ∧ actorType spec = t

/-- a record that changes its actor type is not written while the actor of the old type is configured -/
def KeepsActor (s : State TSpec TApiSpec) : Op TSpec → Prop
  | .write k outcome => ∀ id spec, s.requests k = some (id, .valid spec) → outcome.applied = true →
      ∀ old, s.repo id = some old → actorType old ≠ actorType spec → s.actors (actorType old) id = none
  | _ => True

theorem step_noOrphan_iff {s : State TSpec TApiSpec} {o : Op TSpec} (h : Inv actorType s) (hs : NoOrphan actorType s) :
    NoOrphan actorType (step actorType into s o) ↔ KeepsActor actorType s o := by
  cases o with
  | set k id spec => exact iff_of_true hs trivial
  | delete k id => exact iff_of_true hs trivial
  | write k outcome =>
    simp only [step, KeepsActor]
    split
    · rename_i id spec hk
      cases happ : outcome.applied with
      | false =>
        have hrepo : s.repo.set id spec outcome = s.repo := by simp [Repository.set, happ]
        refine iff_of_true ?_ fun _ _ _ h => by cases h
        rw [hrepo]
        exact hs
      | true =>
        have hself : s.repo.set id spec outcome id = some spec := by simp [Repository.set, happ]
        refine ⟨fun hnew id' spec' heq _ old hold hne => ?_, fun hkeeps t i hconfigured => ?_⟩
        · obtain ⟨rfl, hphase⟩ := Prod.mk.inj (Option.some.inj (hk.symm.trans heq))
          cases hphase
          cases hactor : s.actors (actorType old) id with
          | none => rfl
          | some config =>
            -- the actor of the old type is still there, but the record is of the new one
            obtain ⟨new, hrecord, htype⟩ := hnew (actorType old) id (by simp [State.move, hactor])
            simp only [State.move, hself, Option.some.injEq] at hrecord
            rw [← hrecord] at htype
            exact absurd htype.symm hne
        · obtain ⟨old, hold, htype⟩ := hs t i hconfigured
          by_cases hi : i = id
          · subst hi
            refine ⟨spec, hself, ?_⟩
            by_contra hne
            have hnone := hkeeps i spec hk rfl old hold (by rw [htype]; exact fun heq => hne heq.symm)
            rw [htype] at hnone
            simp [State.move, hnone] at hconfigured
          · exact ⟨old, (set_ne _ hi _ _).trans hold, htype⟩
    · rename_i hk
      exact iff_of_true hs fun id spec heq => absurd heq (hk id spec)
  | configure k applied ok =>
    simp only [step, KeepsActor, iff_true]
    split
    · rename_i id spec hk
      intro t i hconfigured
      by_cases hti : t = actorType spec ∧ i = id
      · obtain ⟨rfl, rfl⟩ := hti
        exact ⟨spec, h.record k i _ spec hk rfl, rfl⟩
      · refine hs t i ?_
        simp only [State.move] at hconfigured
        split at hconfigured
        · rwa [Actors.put_apply, if_neg hti] at hconfigured
        · exact hconfigured
    · exact hs
  | find k fails =>
    simp only [step, KeepsActor, iff_true]
    split <;> exact hs
  | deprovision k applied ok =>
    simp only [step, KeepsActor, iff_true]
    split
    · rename_i id spec hk
      intro t i hconfigured
      refine hs t i ?_
      simp only [State.move] at hconfigured
      split at hconfigured
      · rw [Actors.put_apply] at hconfigured
        split at hconfigured
        · cases hconfigured
        · exact hconfigured
      · exact hconfigured
    · exact hs
  | erase k outcome =>
    simp only [step, KeepsActor, iff_true]
    split
    · rename_i id spec hk
      intro t i hconfigured
      obtain ⟨old, hold, htype⟩ := hs t i hconfigured
      by_cases hi : i = id
      · -- the record that is erased is the one whose actor is gone
        subst hi
        obtain rfl : spec = old := Option.some.inj ((h.record k i _ spec hk rfl).symm.trans hold)
        have hgone := h.gone k i spec hk
        rw [htype] at hgone
        simp [State.move, hgone] at hconfigured
      · exact ⟨old, (delete_ne _ hi _).trans hold, htype⟩
    · exact hs

/-- **When no actor is left behind.** Requests come and go in any interleaving, those for one id one at a time; every await
can fail, and can be carried out although it fails. Every configured actor has its record in every state if and only if no
`set` changes the actor type of a record (the container of a query) while the actor of the old type is configured. -/
theorem no_orphan_iff (s : State TSpec TApiSpec) (ops : List (Op TSpec)) (hinv : Inv actorType s)
    (hs : NoOrphan actorType s) (hops : Meets (step actorType into) Exclusive s ops) :
    Throughout (step actorType into) (NoOrphan actorType) s ops ↔ Meets (step actorType into) (KeepsActor actorType) s ops :=
  throughout_iff_meets (Inv actorType) (fun _ _ h ho => step_inv actorType into h ho)
    (fun _ _ h _ hs => step_noOrphan_iff actorType into h hs) hinv hs hops

/-- where all records have one actor type (sources, reactions, query containers), every `set` keeps the actor -/
theorem keepsActor_of_fixed (hfixed : ∀ a b, actorType a = actorType b) (s : State TSpec TApiSpec) (o : Op TSpec) :
    KeepsActor actorType s o := by
  cases o with
  | write k outcome => exact fun _ spec _ _ old _ hne => absurd (hfixed old spec) hne
  | _ => trivial

/-- a `set` that is answered with success: the record, and one actor configured with it -/
theorem answered_set {s : State TSpec TApiSpec} (h : Inv actorType s) (hs : NoOrphan actorType s) {k : ℕ} {id : String}
    {spec : TSpec} (hk : s.requests k = some (id, .written spec)) (applied : Bool) :
    (step actorType into s (.configure k applied true)).repo id = some spec ∧
    ∀ t, (step actorType into s (.configure k applied true)).actors t id =
      if t = actorType spec then some (into spec) else none := by
  have hrecord := h.record k id _ spec hk rfl
  simp only [step, hk, State.move, Bool.true_or, if_true, Actors.put_apply, and_true]
  refine ⟨hrecord, fun t => ?_⟩
  split
  · rfl
  · rename_i ht
    cases hactor : s.actors t id with
    | none => rfl
    | some config =>
      obtain ⟨spec', hspec', htype⟩ := hs t id (by rw [hactor]; rfl)
      obtain rfl := Option.some.inj (hrecord.symm.trans hspec')
      exact absurd htype.symm ht

/-- a `delete` that is answered with success: no record, and no actor of any type -/
theorem answered_delete {s : State TSpec TApiSpec} (h : Inv actorType s) (hs : NoOrphan actorType s) {k : ℕ} {id : String}
    {spec : TSpec} (hk : s.requests k = some (id, .deprovisioned spec)) :
    (step actorType into s (.erase k .ok)).repo id = none ∧
    ∀ t, (step actorType into s (.erase k .ok)).actors t id = none := by
  have hrecord := h.record k id _ spec hk rfl
  simp only [step, hk, State.move, Repository.delete, Outcome.applied, if_true, Function.update_self, true_and]
  intro t
  cases hactor : s.actors t id with
  | none => rfl
  | some config =>
    obtain ⟨spec', hspec', rfl⟩ := hs t id (by rw [hactor]; rfl)
    obtain rfl := Option.some.inj (hrecord.symm.trans hspec')
    rw [h.gone k id spec hk] at hactor
    cases hactor

/-- **Success means what it says.** At any point of a run in which no `set` leaves an actor behind: a `set` that is now
answered with success leaves its record and exactly one actor of the id, configured with it; a `delete` leaves no record and
no actor. -/
theorem answered_ok (s : State TSpec TApiSpec) (ops : List (Op TSpec)) (hinv : Inv actorType s)
    (hs : NoOrphan actorType s) (hops : Meets (step actorType into) Exclusive s ops)
    (hkeeps : Meets (step actorType into) (KeepsActor actorType) s ops) (k : ℕ) (id : String) (spec : TSpec) :
    ((run (step actorType into) s ops).requests k = some (id, .written spec) → ∀ applied,
      (step actorType into (run (step actorType into) s ops) (.configure k applied true)).repo id = some spec ∧
      ∀ t, (step actorType into (run (step actorType into) s ops) (.configure k applied true)).actors t id =
        if t = actorType spec then some (into spec) else none) ∧
    ((run (step actorType into) s ops).requests k = some (id, .deprovisioned spec) →
      (step actorType into (run (step actorType into) s ops) (.erase k .ok)).repo id = none ∧
      ∀ t, (step actorType into (run (step actorType into) s ops) (.erase k .ok)).actors t id = none) := by
  have hinv' : Inv actorType (run (step actorType into) s ops) :=
    hops.inv (fun _ _ _ h ho => step_inv actorType into h ho) hinv
  have hs' : NoOrphan actorType (run (step actorType into) s ops) :=
    ((no_orphan_iff actorType into s ops hinv hs hops).2 hkeeps).last
  exact ⟨fun hk applied => answered_set actorType into hinv' hs' hk applied,
    fun hk => answered_delete actorType into hinv' hs' hk⟩

end

/-! ## Queries -/

/-- the actor type of a query: the container is part of it -/
abbrev queryActorType : QuerySpec → String := (queryService fun _ => .ok (some true)).actorType

abbrev QueryState : Type := State QuerySpec QuerySpec

def noQueries : QueryState := .start (fun _ => none) fun _ _ => none

/-- two queries are set and one is deleted again, their requests in turn; the second `configure` loses its reply -/
def twoQueries : List (Op QuerySpec) :=
  [.set 0 "a" (itemQuery "MATCH (i) RETURN i"), .set 1 "b" (itemQuery "MATCH (i) RETURN i.id"), .write 1 .ok, .write 0 .ok,
    .configure 1 true false, .configure 0 true true, .delete 2 "a", .find 2 false, .deprovision 2 true true]

theorem twoQueries_exclusive : Meets (step queryActorType id) Exclusive noQueries twoQueries := by
  refine ⟨⟨rfl, fun k' r h => ?_⟩, ⟨rfl, fun k' r h => ?_⟩, trivial, trivial, trivial, trivial, ⟨rfl, fun k' r h => ?_⟩,
    trivial, trivial, trivial⟩
  · cases h
  · rcases move_requests h with ⟨rfl, hr⟩ | ⟨-, hr⟩
    · cases hr
      decide
    · cases hr
  · -- both requests are over
    rcases move_requests h with ⟨-, h⟩ | ⟨h0, h⟩
    · cases h
    rcases move_requests h with ⟨-, h⟩ | ⟨h1, h⟩
    · cases h
    rcases move_requests h with ⟨heq, -⟩ | ⟨-, h⟩
    · exact absurd heq h0
    rcases move_requests h with ⟨heq, -⟩ | ⟨-, h⟩
    · exact absurd heq h1
    rcases move_requests h with ⟨heq, -⟩ | ⟨-, h⟩
    · exact absurd heq h1
    rcases move_requests h with ⟨heq, -⟩ | ⟨-, h⟩
    · exact absurd heq h0
    · cases h

theorem noOrphan_noQueries : NoOrphan queryActorType noQueries := fun _ _ h => by cases h

/-- both queries stay in their container -/
theorem twoQueries_keepsActor : Meets (step queryActorType id) (KeepsActor queryActorType) noQueries twoQueries := by
  refine ⟨trivial, trivial, ?_, ?_, trivial, trivial, trivial, trivial, trivial, trivial⟩
  · intro i spec hk _ old hold
    cases hold
  · intro i spec hk _ old hold
    obtain ⟨rfl, hphase⟩ := Prod.mk.inj (Option.some.inj hk)
    cases hold

theorem no_orphan_two_queries : Throughout (step queryActorType id) (NoOrphan queryActorType) noQueries twoQueries :=
  (no_orphan_iff queryActorType id noQueries twoQueries (start_inv _ _ _) noOrphan_noQueries twoQueries_exclusive).2
    twoQueries_keepsActor

theorem answered_ok_two_queries :
    (step queryActorType id (run (step queryActorType id) noQueries twoQueries) (.erase 2 .ok)).repo "a" = none ∧
    ∀ t, (step queryActorType id (run (step queryActorType id) noQueries twoQueries) (.erase 2 .ok)).actors t "a" = none :=
  (answered_ok queryActorType id noQueries twoQueries (start_inv _ _ _) noOrphan_noQueries twoQueries_exclusive
    twoQueries_keepsActor 2 "a" (itemQuery "MATCH (i) RETURN i")).2 rfl

/-- **A changed container leaves an actor behind.** A query is set, and set again in another container: the actor of the
first container is configured, and no record has its type. -/
theorem container_change_orphans :
    ¬ NoOrphan queryActorType (run (step queryActorType id) noQueries
      [.set 0 "q" (itemQuery "MATCH (i) RETURN i"), .write 0 .ok, .configure 0 true true,
        .set 1 "q" { itemQuery "MATCH (i) RETURN i" with container := "other" }, .write 1 .ok, .configure 1 true true]) := by
  intro h
  obtain ⟨spec, hspec, htype⟩ := h "default.ContinuousQuery" "q" rfl
  cases hspec
  revert htype
  decide

/-- **Requests that overlap leave an actor behind.** A query is deleted, and set again before its record is erased. -/
theorem overlap_orphans :
    ¬ NoOrphan queryActorType (run (step queryActorType id) noQueries
      [.set 0 "q" (itemQuery "MATCH (i) RETURN i"), .write 0 .ok, .configure 0 true true,
        .delete 1 "q", .find 1 false, .deprovision 1 true true,
        .set 2 "q" (itemQuery "MATCH (i) RETURN i"), .write 2 .ok, .configure 2 true true, .erase 1 .ok]) := by
  intro h
  obtain ⟨spec, hspec, -⟩ := h "default.ContinuousQuery" "q" rfl
  cases hspec

end DrasiPlatform.MgmtApi.Lifecycle
