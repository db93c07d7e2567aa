/-
The Dataverse reactivator (`SyncWorker.cs`): a worker that polls the changes of one entity. Each entity has a worker of its
own, with a token of its own in the store.

The worker starts from the stored delta token; where there is none it asks the service for the current one and keeps it in
memory. A poll collects the pages of all changes after the token, publishes the changes one by one and then stores the token
that came with the last page. Whatever is thrown ends the task of the worker, which nothing starts again but a restart of
the process.

A token is a position in the changes of the entity, the number of changes before it. Of the service it is assumed that the
pages of a request give all changes after the token that had been made when the request came, one after the other, and
that the token of the last page is the position they reach. The mapping to a notification is a parameter.

- `topic_mapped`: what is published for a change is its notification.
- `at_least_once_iff`: along a run, no change after the first starting token is passed over by the stored token, by the
  worker or by a completed poll, exactly when a worker that has to ask for a current token gets one that passes over no
  unpublished change.
Lost: `restarted_before_first_save`.
-/
import Mathlib.Tactic
import DrasiPlatform.Core.Run
import DrasiPlatform.Core.Follower

namespace DrasiPlatform.DataverseReactivator

open Run

/-! ## The worker -/

/-- where the task of the worker stands; `asked` is how many changes there were when its request came -/
inductive Task where
  | down
  /-- `GetCurrentDeltaToken` reads page after page -/
  | locating (asked : ℕ)
  /-- `Task.Delay`, or the head of the loop -/
  | waiting (lastToken : ℕ)
  /-- `GetChanges`, with the changes collected up to `reached` -/
  | fetching (lastToken asked reached : ℕ)
  /-- the changes of the poll are published up to `next`, and end at its data token -/
  | publishing (asked next dataToken : ℕ)

/-- the position before which the worker asks for no change any more -/
def Task.position : Task → Option ℕ
  | .down | .locating _ => none
  | .waiting lastToken | .fetching lastToken _ _ => some lastToken
  | .publishing _ next _ => some next

variable {C M : Type}

structure SyncWorker (C M : Type) where
  /-- the changes of the entity up to now -/
  changes : List C
  /-- the position of the first starting token -/
  first : Option ℕ
  task : Task
  /-- the published notifications, each with the position of its change -/
  topic : List (ℕ × M)
  stored : Option ℕ
  /-- how many changes there were when the last completed poll started -/
  polled : Option ℕ

namespace SyncWorker

def initial (changes : List C) (stored : Option ℕ) : SyncWorker C M := ⟨changes, none, .down, [], stored, none⟩

inductive Op (C : Type) where
  | change (c : C)
  /-- `GetDeltaToken` of the store -/
  | start
  /-- the last page of `GetCurrentDeltaToken` -/
  | currentToken (dataToken : ℕ)
  /-- the first request of `GetChanges` -/
  | poll
  | page (count : ℕ) (moreRecords : Bool)
  /-- a request to the service or the store fails -/
  | fail
  | publish (call : Call)
  | setDeltaToken (call : Call)
  /-- the process ends at this point -/
  | crash

/-- a step that the worker cannot take leaves the state as it is -/
def step (mapEvent : C → Option M) (s : SyncWorker C M) : Op C → SyncWorker C M
  | .change c => { s with changes := s.changes ++ [c] }
  | .start =>
    match s.task with
    | .down =>
      match s.stored with
      | some token => { s with task := .waiting token, first := s.first.or (some token) }
      | none => { s with task := .locating s.changes.length }
    | _ => s
  | .currentToken dataToken =>
    match s.task with
    | .locating asked =>
      if asked ≤ dataToken ∧ dataToken ≤ s.changes.length then
        { s with task := .waiting dataToken, first := s.first.or (some dataToken) }
      else s
    | _ => s
  | .poll =>
    match s.task with
    | .waiting lastToken => { s with task := .fetching lastToken s.changes.length lastToken }
    | _ => s
  | .page count moreRecords =>
    match s.task with
    | .fetching lastToken asked reached =>
      if s.changes.length < reached + count then s
      else if moreRecords then { s with task := .fetching lastToken asked (reached + count) }
      else if asked ≤ reached + count then { s with task := .publishing asked lastToken (reached + count) }
      else s
    | _ => s
  | .fail => { s with task := .down }
  | .publish call =>
    match s.task with
    | .publishing asked next dataToken =>
      if next < dataToken then
        match s.changes[next]?.bind mapEvent with
        | none => { s with task := .down }
        | some notification =>
          { s with
            topic := if call.effect then s.topic ++ [(next, notification)] else s.topic
            task := if call.ok then .publishing asked (next + 1) dataToken else .down }
      else s
    | _ => s
  | .setDeltaToken call =>
    match s.task with
    | .publishing asked next dataToken =>
      if next = dataToken then
        { s with
          stored := if call.effect then some dataToken else s.stored
          task := if call.ok then .waiting dataToken else .down
          polled := if call.ok then some asked else s.polled }
      else s
    | _ => s
  | .crash => { s with task := .down }

def Published (s : SyncWorker C M) (i : ℕ) : Prop := ∃ m, (i, m) ∈ s.topic

def follower (s : SyncWorker C M) : Follower where
  first := s.first
  cursor := s.task.position
  stored := s.stored
  handed := s.Published
  published := s.Published

/-- of the changes after the first starting token, none before the stored token or behind the running worker is unpublished,
and none that had been made when the last completed poll started -/
structure AtLeastOnce (s : SyncWorker C M) : Prop where
  safe : s.follower.Safe
  polled : ∀ a n, s.first = some a → s.polled = some n → Covers s.Published a n

/-- a current token passes over no unpublished change -/
def Careful (s : SyncWorker C M) : Op C → Prop
  | .currentToken dataToken => ∀ asked a, s.task = .locating asked → asked ≤ dataToken → dataToken ≤ s.changes.length →
      s.first = some a → Covers s.Published a dataToken
  | _ => True

structure Inv (s : SyncWorker C M) : Prop where
  begun : s.task.position ≠ none → s.first ≠ none
  cursor : ∀ a p, s.first = some a → s.task.position = some p → a ≤ p
  stored : ∀ a p, s.first = some a → s.stored = some p → a ≤ p
  now : ∀ a, s.first = some a → s.stored = none → a ≤ s.changes.length
  polled : s.first = none → s.polled = none
  locating : ∀ asked, s.task = .locating asked → s.stored = none ∧ ∀ a, s.first = some a → a ≤ asked
  fetching : ∀ token asked reached, s.task = .fetching token asked reached → token ≤ reached
  publishing : ∀ asked next token, s.task = .publishing asked next token → next ≤ token ∧ asked ≤ token

/-! ## What a step keeps -/

variable {mapEvent : C → Option M} {s : SyncWorker C M}

theorem inv_initial (changes : List C) (stored : Option ℕ) : (initial changes stored : SyncWorker C M).Inv where
  begun h := absurd rfl h
  cursor _ _ h := by cases h
  stored _ _ h := by cases h
  now _ h := by cases h
  polled _ := rfl
  locating _ h := by cases h
  fetching _ _ _ h := by cases h
  publishing _ _ _ h := by cases h

/-- the task of the worker is over -/
theorem Inv.down (h : s.Inv) (topic : List (ℕ × M)) : ({ s with task := .down, topic := topic } : SyncWorker C M).Inv where
  begun hp := absurd rfl hp
  cursor _ _ _ hp := by cases hp
  stored := h.stored
  now := h.now
  polled := h.polled
  locating _ hp := by cases hp
  fetching _ _ _ hp := by cases hp
  publishing _ _ _ hp := by cases hp

/-- the worker gets its token from the store or from the service -/
theorem begin_inv {token : ℕ} (hfirst : ∀ a, s.first = some a → a ≤ token)
    (hstored : ∀ p, s.stored = some p → token = p) (hnow : s.stored = none → token ≤ s.changes.length) :
    ({ s with task := .waiting token, first := s.first.or (some token) } : SyncWorker C M).Inv := by
  have hbegun : ∀ a, s.first.or (some token) = some a → a ≤ token := fun a ha => Follower.le_of_begins ha hfirst
  constructor
  · intro _
    cases s.first <;> simp
  · intro a p ha hp
    obtain rfl : token = p := Option.some.inj hp
    exact hbegun a ha
  · intro a p ha hp
    exact hstored p hp ▸ hbegun a ha
  · intro a ha hs
    exact (hbegun a ha).trans (hnow hs)
  · intro hnone
    cases hf : s.first <;> simp [hf] at hnone
  · intro _ hp
    cases hp
  · intro _ _ _ hp
    cases hp
  · intro _ _ _ hp
    cases hp

/-- the running worker goes on, at the same position or a later one -/
theorem Inv.move (h : s.Inv) {task : Task} {topic : List (ℕ × M)} {p q : ℕ} (hp : s.task.position = some p)
    (hq : task.position = some q) (hpq : p ≤ q)
    (hfetch : ∀ token asked reached, task = .fetching token asked reached → token ≤ reached)
    (hpublish : ∀ asked next token, task = .publishing asked next token → next ≤ token ∧ asked ≤ token) :
    ({ s with task := task, topic := topic } : SyncWorker C M).Inv where
  begun _ := h.begun (by simp [hp])
  cursor a r ha hr := by
    obtain rfl : q = r := Option.some.inj (hq.symm.trans hr)
    exact (h.cursor a p ha hp).trans hpq
  stored := h.stored
  now := h.now
  polled := h.polled
  locating asked heq := by
    have heq' : task = .locating asked := heq
    rw [heq'] at hq
    cases hq
  fetching := hfetch
  publishing := hpublish

theorem start_inv (h : s.Inv) : (step mapEvent s .start).Inv := by
  simp only [step]
  split
  · split
    · rename_i token hstored
      refine begin_inv (fun a ha => h.stored a token ha hstored) (fun p hp => ?_) fun hs => by cases hs.symm.trans hstored
      exact Option.some.inj (hstored.symm.trans hp)
    · rename_i hstored
      refine ⟨fun hp => absurd rfl hp, fun _ _ _ hp => (by cases hp), h.stored, h.now, h.polled, fun asked heq => ?_,
        fun _ _ _ hp => (by cases hp), fun _ _ _ hp => (by cases hp)⟩
      obtain rfl : s.changes.length = asked := Task.locating.inj heq
      exact ⟨hstored, fun a ha => h.now a ha hstored⟩
  · exact h

theorem setDeltaToken_inv (h : s.Inv) (call : Call) : (step mapEvent s (.setDeltaToken call)).Inv := by
  simp only [step]
  split
  · rename_i asked next dataToken hp
    split
    · rename_i heq
      subst heq
      have hpos : s.task.position = some next := by rw [hp]; rfl
      have hfirst : s.first ≠ none := h.begun (by simp [hpos])
      constructor
      · exact fun _ => hfirst
      · intro a p ha hp'
        cases hok : call.ok with
        | false =>
          simp only [hok] at hp'
          cases hp'
        | true =>
          simp only [hok] at hp'
          obtain rfl : next = p := Option.some.inj hp'
          exact h.cursor a next ha hpos
      · intro a p ha hp'
        cases heffect : call.effect with
        | false =>
          simp only [heffect] at hp'
          exact h.stored a p ha hp'
        | true =>
          simp only [heffect] at hp'
          obtain rfl : next = p := Option.some.inj hp'
          exact h.cursor a next ha hpos
      · intro a ha hs
        cases heffect : call.effect with
        | false =>
          simp only [heffect] at hs
          exact h.now a ha hs
        | true =>
          simp only [heffect] at hs
          cases hs
      · exact fun hnone => absurd hnone hfirst
      all_goals
        intros
        rename_i heq
        cases hok : call.ok <;> simp [hok] at heq
    · exact h
  · exact h

theorem step_inv (op : Op C) (h : s.Inv) : (step mapEvent s op).Inv := by
  cases op with
  | change c =>
    refine ⟨h.begun, h.cursor, h.stored, fun a ha hs => ?_, h.polled, h.locating, h.fetching, h.publishing⟩
    have hlen : (step mapEvent s (.change c)).changes.length = s.changes.length + 1 := by simp [step]
    have := h.now a ha hs
    omega
  | start => exact start_inv h
  | currentToken dataToken =>
    simp only [step]
    split
    · rename_i asked hp
      obtain ⟨hstored, hasked⟩ := h.locating asked hp
      split
      · rename_i hle
        exact begin_inv (fun a ha => (hasked a ha).trans hle.1) (fun p hp' => by cases hstored.symm.trans hp') fun _ => hle.2
      · exact h
    · exact h
  | poll =>
    simp only [step]
    split
    · rename_i token hp
      exact h.move (p := token) (q := token) (by rw [hp]; rfl) rfl le_rfl
        (fun _ _ _ heq => by obtain ⟨rfl, -, rfl⟩ := Task.fetching.inj heq; exact le_rfl) fun _ _ _ heq => by cases heq
    · exact h
  | page count moreRecords =>
    simp only [step]
    split
    · rename_i token asked reached hp
      have hpos : s.task.position = some token := by rw [hp]; rfl
      have hreached : token ≤ reached := h.fetching token asked reached hp
      split
      · exact h
      · split
        · refine h.move (q := token) hpos rfl le_rfl (fun _ _ _ heq => ?_) fun _ _ _ heq => by cases heq
          obtain ⟨rfl, rfl, rfl⟩ := Task.fetching.inj heq
          omega
        · split
          · refine h.move (q := token) hpos rfl le_rfl (fun _ _ _ heq => by cases heq) fun _ _ _ heq => ?_
            obtain ⟨rfl, rfl, rfl⟩ := Task.publishing.inj heq
            omega
          · exact h
    · exact h
  | fail => exact h.down s.topic
  | publish call =>
    simp only [step]
    split
    · rename_i asked next dataToken hp
      split
      · rename_i hlt
        split
        · exact h.down s.topic
        · cases call.ok with
          | false => exact h.down _
          | true =>
            refine h.move (p := next) (q := next + 1) (by rw [hp]; rfl) rfl (by omega) (fun _ _ _ heq => by cases heq)
              fun _ _ _ heq => ?_
            obtain ⟨rfl, rfl, rfl⟩ := Task.publishing.inj heq
            have := h.publishing _ _ _ hp
            omega
      · exact h
    · exact h
  | setDeltaToken call => exact setDeltaToken_inv h call
  | crash => exact h.down s.topic

/-! ## When nothing is lost -/

/-- a running worker that goes on from `p` to `q` loses nothing exactly when the changes in between are published -/
theorem moved_iff (h : s.Inv) (hsafe : s.AtLeastOnce) {task : Task} {topic : List (ℕ × M)} {p q : ℕ}
    (hp : s.task.position = some p) (hq : task.position = some q) (hpq : p ≤ q) (htopic : ∀ x ∈ s.topic, x ∈ topic) :
    ({ s with task := task, topic := topic } : SyncWorker C M).AtLeastOnce ↔ Covers (fun i => ∃ m, (i, m) ∈ topic) p q := by
  obtain ⟨a, ha⟩ : ∃ a, s.first = some a := Option.ne_none_iff_exists'.1 (h.begun (by simp [hp]))
  have hgrow : ∀ i, s.Published i → ∃ m, (i, m) ∈ topic := fun i ⟨m, hm⟩ => ⟨m, htopic _ hm⟩
  have hadvances : Follower.Advances s.follower { s with task := task, topic := topic }.follower p q :=
    ⟨⟨rfl, rfl, hgrow, hq⟩, hp, hgrow, hpq⟩
  have hiff := hadvances.safe_iff hsafe.safe ⟨a, ha, h.cursor a p ha hp⟩
  constructor
  · intro h'
    exact hiff.1 h'.safe
  · intro hcovers
    exact ⟨hiff.2 hcovers, fun a' n ha' hn => (hsafe.polled a' n ha' hn).mono hgrow⟩

/-- a worker whose task is over loses nothing -/
theorem AtLeastOnce.down (hsafe : s.AtLeastOnce) {topic : List (ℕ × M)} (htopic : ∀ x ∈ s.topic, x ∈ topic) :
    ({ s with task := .down, topic := topic } : SyncWorker C M).AtLeastOnce := by
  have hgrow : ∀ i, s.Published i → ∃ m, (i, m) ∈ topic := fun i ⟨m, hm⟩ => ⟨m, htopic _ hm⟩
  have hgrows : Follower.Grows s.follower { s with task := .down, topic := topic }.follower :=
    ⟨rfl, rfl, hgrow, fun _ hc => (by cases hc)⟩
  exact ⟨hgrows.safe hsafe.safe, fun a n ha hn => (hsafe.polled a n ha hn).mono hgrow⟩

/-- a worker that begins at a token loses nothing exactly when the changes before the token are published -/
theorem begin_iff (h : s.Inv) (hsafe : s.AtLeastOnce) {token : ℕ} (hstored : ∀ p, s.stored = some p → token = p) :
    ({ s with task := .waiting token, first := s.first.or (some token) } : SyncWorker C M).AtLeastOnce ↔
      ∀ a, s.first = some a → Covers s.Published a token := by
  have hiff := Follower.safe_moveTo_iff (p := token) hsafe.safe fun _ q hq => (hstored q hq).ge
  constructor
  · intro h'
    exact hiff.1 h'.safe
  · intro hcovers
    refine ⟨hiff.2 hcovers, fun a n ha hn => ?_⟩
    cases hf : s.first with
    | none => cases (h.polled hf).symm.trans hn
    | some b =>
      have hab : s.first = some a := by simpa [hf] using ha
      exact hsafe.polled a n hab hn

theorem setDeltaToken_atLeastOnce (h : s.Inv) (hsafe : s.AtLeastOnce) (call : Call) :
    (step mapEvent s (.setDeltaToken call)).AtLeastOnce := by
  simp only [step]
  split
  · rename_i asked next dataToken hp
    split
    · rename_i heq
      subst heq
      have hpos : s.task.position = some next := by rw [hp]; rfl
      have hasked : asked ≤ next := (h.publishing _ _ _ hp).2
      have hwaits : ({ s with task := .waiting next } : SyncWorker C M).AtLeastOnce :=
        (moved_iff h hsafe hpos rfl le_rfl fun _ hx => hx).2 (Covers.empty le_rfl)
      have hdown : ({ s with task := .down } : SyncWorker C M).AtLeastOnce := hsafe.down fun _ hx => hx
      have hcovered : ∀ a, s.first = some a → Covers s.Published a next := fun a ha => hsafe.safe.cursor a next ha hpos
      cases call with
      | returns =>
        refine ⟨(Follower.safe_store_iff hwaits.safe).2 hcovered, fun a n ha hn => ?_⟩
        obtain rfl : asked = n := Option.some.inj hn
        exact (hcovered a ha).shorten hasked
      | fails => exact hdown
      | failsAfter => exact ⟨(Follower.safe_store_iff hdown.safe).2 hcovered, hdown.polled⟩
    · exact hsafe
  · exact hsafe

theorem publish_atLeastOnce (h : s.Inv) (hsafe : s.AtLeastOnce) (call : Call) :
    (step mapEvent s (.publish call)).AtLeastOnce := by
  simp only [step]
  split
  · rename_i asked next dataToken hp
    have hpos : s.task.position = some next := by rw [hp]; rfl
    split
    · split
      · exact hsafe.down fun _ hx => hx
      · rename_i notification _
        cases call with
        | returns =>
          refine (moved_iff h hsafe (q := next + 1) hpos rfl (by omega) fun x hx => List.mem_append_left _ hx).2 ?_
          intro i hi hi'
          have hnext : i = next := by omega
          exact ⟨notification, by simp [hnext]⟩
        | fails => exact hsafe.down fun _ hx => hx
        | failsAfter => exact hsafe.down fun x hx => List.mem_append_left _ hx
    · exact hsafe
  · exact hsafe

/-- **What one step needs.** -/
theorem step_iff (op : Op C) (h : s.Inv) (hsafe : s.AtLeastOnce) :
    (step mapEvent s op).AtLeastOnce ↔ s.Careful op := by
  cases op with
  | change c => exact iff_of_true ⟨hsafe.safe, hsafe.polled⟩ trivial
  | start =>
    refine iff_of_true ?_ trivial
    simp only [step]
    split
    · split
      · rename_i token hstored
        refine (begin_iff h hsafe fun p hp => Option.some.inj (hstored.symm.trans hp)).2 fun a ha => ?_
        exact hsafe.safe.stored a token ha hstored
      · have hgrows : Follower.Grows s.follower { s with task := .locating s.changes.length }.follower :=
          ⟨rfl, rfl, fun _ hi => hi, fun _ hc => (by cases hc)⟩
        exact ⟨hgrows.safe hsafe.safe, hsafe.polled⟩
    · exact hsafe
  | currentToken dataToken =>
    simp only [step, Careful]
    split
    · rename_i asked hp
      obtain ⟨hstored, -⟩ := h.locating asked hp
      split
      · rename_i hle
        rw [begin_iff h hsafe fun p hp' => by cases hstored.symm.trans hp']
        constructor
        · intro hcovers _ a _ _ _ ha
          exact hcovers a ha
        · intro hcareful a ha
          exact hcareful asked a hp hle.1 hle.2 ha
      · rename_i hle
        refine iff_of_true hsafe fun asked' a heq hasked hlen _ => ?_
        obtain rfl : asked = asked' := Task.locating.inj (hp.symm.trans heq)
        exact absurd ⟨hasked, hlen⟩ hle
    · rename_i hne
      exact iff_of_true hsafe fun asked _ heq _ _ _ => absurd heq (hne asked)
  | poll =>
    refine iff_of_true ?_ trivial
    simp only [step]
    split
    · rename_i token hp
      exact (moved_iff h hsafe (p := token) (q := token) (by rw [hp]; rfl) rfl le_rfl fun _ hx => hx).2 (Covers.empty le_rfl)
    · exact hsafe
  | page count moreRecords =>
    refine iff_of_true ?_ trivial
    simp only [step]
    split
    · rename_i token asked reached hp
      have hpos : s.task.position = some token := by rw [hp]; rfl
      split
      · exact hsafe
      · split
        · exact (moved_iff h hsafe (q := token) hpos rfl le_rfl fun _ hx => hx).2 (Covers.empty le_rfl)
        · split
          · exact (moved_iff h hsafe (q := token) hpos rfl le_rfl fun _ hx => hx).2 (Covers.empty le_rfl)
          · exact hsafe
    · exact hsafe
  | fail => exact iff_of_true (hsafe.down fun _ hx => hx) trivial
  | publish call => exact iff_of_true (publish_atLeastOnce h hsafe call) trivial
  | setDeltaToken call => exact iff_of_true (setDeltaToken_atLeastOnce h hsafe call) trivial
  | crash => exact iff_of_true (hsafe.down fun _ hx => hx) trivial

/-- **When the worker is at least once.** -/
theorem at_least_once_iff (mapEvent : C → Option M) (changes : List C) (stored : Option ℕ) (ops : List (Op C)) :
    Throughout (step mapEvent) AtLeastOnce (initial changes stored) ops ↔
      Meets (step mapEvent) Careful (initial changes stored) ops := by
  have hlegal : Meets (step mapEvent) (fun _ _ => True) (initial changes stored) ops :=
    meets_iff_forall.2 fun _ _ => trivial
  refine throughout_iff_meets Inv (fun s op h _ => step_inv op h) (fun s op h _ hsafe => step_iff op h hsafe)
    (inv_initial changes stored) ⟨⟨?_, ?_⟩, ?_⟩ hlegal
  all_goals
    intro a p ha
    cases ha

/-- a token is taken, a change is made, and the process ends before its first poll; the token of the restart is behind the
change -/
def restarted : List (Op String) :=
  [.start, .currentToken 0, .change "a", .crash, .start, .currentToken 1, .change "b", .poll, .page 1 false,
    .publish .returns, .setDeltaToken .returns]

/-- the completed poll and the stored token have passed over the change `a` -/
theorem restarted_before_first_save :
    ¬Throughout (step some) AtLeastOnce (initial [] none : SyncWorker String String) restarted := by
  intro h
  obtain ⟨m, hm⟩ : (run (step some) (initial [] none : SyncWorker String String) restarted).Published 0 :=
    h.last.polled 0 2 rfl rfl 0 (by omega) (by omega)
  have hmem : (0, m) ∈ [(1, "b")] := hm
  cases List.mem_singleton.1 hmem

/-! ## What is published -/

/-- every notification of the topic is the one of its change -/
def Mapped (mapEvent : C → Option M) (s : SyncWorker C M) : Prop := ∀ x ∈ s.topic, s.changes[x.1]?.bind mapEvent = some x.2

theorem step_mapped (op : Op C) (h : Mapped mapEvent s) : Mapped mapEvent (step mapEvent s op) := by
  cases op with
  | change c =>
    intro x hx
    have hx' : s.changes[x.1]?.bind mapEvent = some x.2 := h x hx
    obtain ⟨c', hc', -⟩ := Option.bind_eq_some_iff.1 hx'
    have hlt : x.1 < s.changes.length := (List.getElem?_eq_some_iff.1 hc').1
    simpa only [step, List.getElem?_append_left hlt] using hx'
  | publish call =>
    simp only [step]
    split
    · split
      · split
        · exact h
        · rename_i next dataToken hp hlt _ m hm
          intro x hx
          have hx' : x ∈ s.topic ∨ x = (next, m) := by
            cases heffect : call.effect with
            | false => exact Or.inl (by simpa [heffect] using hx)
            | true => simpa [heffect] using hx
          rcases hx' with hx' | rfl
          · exact h x hx'
          · exact hm
      · exact h
    · exact h
  | start =>
    simp only [step]
    split
    · split
      · exact h
      · exact h
    · exact h
  | currentToken dataToken =>
    simp only [step]
    split
    · split
      · exact h
      · exact h
    · exact h
  | poll =>
    simp only [step]
    split
    · exact h
    · exact h
  | page count moreRecords =>
    simp only [step]
    split
    · split
      · exact h
      · split
        · exact h
        · split
          · exact h
          · exact h
    · exact h
  | setDeltaToken call =>
    simp only [step]
    split
    · split
      · exact h
      · exact h
    · exact h
  | fail | crash => exact h

/-- **What is published for a change is its notification.** -/
theorem topic_mapped (mapEvent : C → Option M) (changes : List C) (stored : Option ℕ) (ops : List (Op C)) :
    Mapped mapEvent (run (step mapEvent) (initial changes stored) ops) := by
  have hstep : ∀ (s : SyncWorker C M) op, Mapped mapEvent s → Mapped mapEvent (step mapEvent s op) :=
    fun _ op h => step_mapped op h
  exact run_inv hstep _ ops fun _ hx => by cases hx

end SyncWorker

end DrasiPlatform.DataverseReactivator
