/-
The Event Hubs reactivator: the consumers of the partitions (`HubConsumer.ConsumePartition`), the channel of capacity one that
they share (`ChangeMonitor.Monitor`) and the publish loop of the SDK (`Reactivator.StartAsync`).

A consumer reads the events of its partition from behind its checkpoint, or from `Latest` where there is none. Each event is
mapped, written to the channel, and its sequence number is put into the store; what is thrown sends the consumer back to
the checkpoint. The loop takes a change from the channel and publishes it; a publication that fails ends the loop, and with
it the process. The process can end at any point.

A partition has one consumer, and the sequence number of an event is its position in the partition. The mapping of an event
is a parameter.

- `checkpointKey_inj`: no two partitions share a checkpoint.
- `passes_over_nothing_iff`: in every state of a run all events of a partition from the first one read up to its checkpoint
  are published, and all before the position of its consumer published or on their way, exactly when a checkpoint is put
  only when no unpublished change of its partition is on its way, and a partition without one is opened at `Latest` only
  when nothing before it is lost.
Passed over: `checkpoint_before_publish`.
-/
import Mathlib.Tactic
import DrasiPlatform.Core.Run
import DrasiPlatform.Core.Follower
import DrasiPlatform.Core.Separators

namespace DrasiPlatform.EventHubReactivator

open Run

/-! ## Partitions -/

/-- a partition of an event hub, told by its number -/
structure Partition where
  entityName : String
  partition : ℕ
deriving DecidableEq

def checkpointKey (p : Partition) : String := p.entityName ++ "-" ++ toString p.partition

/-- **A key tells its partition**: the number of a partition has no hyphen. -/
theorem checkpointKey_inj {p q : Partition} (h : checkpointKey p = checkpointKey q) : p = q := by
  have hdigits : ∀ n, '-' ∉ Nat.toDigits 10 n := fun n hmem =>
    absurd (Nat.isDigit_of_mem_toDigits (by decide) (by decide) hmem) (by decide)
  have hchars : p.entityName.toList ++ '-' :: Nat.toDigits 10 p.partition =
      q.entityName.toList ++ '-' :: Nat.toDigits 10 q.partition := by
    simpa [checkpointKey] using congrArg String.toList h
  obtain ⟨hentity, hpartition⟩ := Separators.append_cons_inj_of_notMem_right (hdigits _) (hdigits _) hchars
  have hnumber : p.partition = q.partition := calc
    p.partition = Nat.ofDigitChars 10 (Nat.toDigits 10 p.partition) 0 := Nat.ofDigitChars_ten_toDigits.symm
    _ = Nat.ofDigitChars 10 (Nat.toDigits 10 q.partition) 0 := by rw [hpartition]
    _ = q.partition := Nat.ofDigitChars_ten_toDigits
  cases p
  cases q
  rw [Partition.mk.injEq]
  exact ⟨String.toList_inj.1 hentity, hnumber⟩

/-! ## The consumers, the channel and the publisher -/

variable {E C : Type}

/-- where `ConsumePartition` stands, and the sequence number it is at -/
inductive Consumer (C : Type) where
  | down
  /-- the head of its loop -/
  | opening
  | reading (n : ℕ)
  | writing (n : ℕ) (change : C)
  /-- the change is written, the checkpoint is to be put -/
  | putting (n : ℕ)

def Consumer.event : Consumer C → Option ℕ
  | .down | .opening => none
  | .reading n | .writing n _ | .putting n => some n

/-- the position before which the consumer has written everything -/
def Consumer.position : Consumer C → Option ℕ
  | .down | .opening => none
  | .reading n | .writing n _ => some n
  | .putting n => some (n + 1)

/-- a change with its event -/
structure Item (C : Type) where
  partition : Partition
  sequenceNumber : ℕ
  change : C

inductive Publisher (C : Type) where
  | waiting
  | publishing (item : Item C)
  /-- the loop is over, and the process about to end -/
  | failed (item : Item C)

def Publisher.items : Publisher C → List (Item C)
  | .waiting => []
  | .publishing item | .failed item => [item]

structure Reactivator (E C : Type) where
  /-- the events of each partition up to now -/
  events : Partition → List E
  consumer : Partition → Consumer C
  channel : Option (Item C)
  publisher : Publisher C
  published : List (Item C)
  store : String → Option ℕ
  /-- the first event of each partition that was ever read -/
  first : Partition → Option ℕ

namespace Reactivator

def initial (events : Partition → List E) (store : String → Option ℕ) : Reactivator E C where
  events := events
  consumer _ := .down
  channel := none
  publisher := .waiting
  published := []
  store := store
  first _ := none

def checkpoint (s : Reactivator E C) (p : Partition) : Option ℕ := s.store (checkpointKey p)

/-- behind the checkpoint, or `Latest` -/
def lastOffset (s : Reactivator E C) (p : Partition) : ℕ := (s.checkpoint p).elim (s.events p).length (· + 1)

inductive Op (E : Type) where
  | event (p : Partition) (e : E)
  /-- the consumer of a partition is started -/
  | start (p : Partition)
  /-- the checkpoint is read and the partition opened -/
  | openAt (p : Partition)
  /-- the next event is read and mapped -/
  | read (p : Partition)
  | write (p : Partition)
  | put (p : Partition) (call : Call)
  /-- the consumer throws -/
  | fail (p : Partition)
  /-- the publish loop takes a change from the channel -/
  | take
  | publish (call : Call)
  /-- the process ends at this point -/
  | crash

/-- the consumer of `p` goes to `c` -/
def move (s : Reactivator E C) (p : Partition) (c : Consumer C) : Reactivator E C :=
  { s with consumer := Function.update s.consumer p c }

/-- the consumer of `p` has read the event `n` -/
def see (s : Reactivator E C) (p : Partition) (n : ℕ) : Reactivator E C :=
  { s with first := Function.update s.first p ((s.first p).or (some n)) }

/-- the store has `n` for the checkpoint of `p` -/
def save (s : Reactivator E C) (p : Partition) (n : ℕ) : Reactivator E C :=
  { s with store := Function.update s.store (checkpointKey p) (some n) }

/-- a step that its party cannot take leaves the state as it is -/
def step (mapEvent : Partition → E → Option C) (s : Reactivator E C) : Op E → Reactivator E C
  | .event p e => { s with events := Function.update s.events p (s.events p ++ [e]) }
  | .start p =>
    match s.consumer p with
    | .down => s.move p .opening
    | _ => s
  | .openAt p =>
    match s.consumer p with
    | .opening => s.move p (.reading (s.lastOffset p))
    | _ => s
  | .read p =>
    match s.consumer p with
    | .reading n =>
      match (s.events p)[n]? with
      | none => s
      | some e => (s.see p n).move p ((mapEvent p e).elim .opening (.writing n))
    | _ => s
  | .write p =>
    match s.consumer p, s.channel with
    | .writing n change, none => { s.move p (.putting n) with channel := some ⟨p, n, change⟩ }
    | _, _ => s
  | .put p call =>
    match s.consumer p with
    | .putting n => (if call.effect then s.save p n else s).move p (if call.ok then .reading (n + 1) else .opening)
    | _ => s
  | .fail p =>
    match s.consumer p with
    | .down => s
    | _ => s.move p .opening
  | .take =>
    match s.publisher, s.channel with
    | .waiting, some item => { s with publisher := .publishing item, channel := none }
    | _, _ => s
  | .publish call =>
    match s.publisher with
    | .publishing item =>
      { s with
        published := if call.effect then s.published ++ [item] else s.published
        publisher := if call.ok then .waiting else .failed item }
    | _ => s
  | .crash => { s with consumer := fun _ => .down, channel := none, publisher := .waiting }

/-- the changes that have left the consumers and may not be published -/
def onTheWay (s : Reactivator E C) : List (Item C) := s.channel.toList ++ s.publisher.items

def Published (s : Reactivator E C) (p : Partition) (n : ℕ) : Prop := ∃ change, ⟨p, n, change⟩ ∈ s.published

def HandedOn (s : Reactivator E C) (p : Partition) (n : ℕ) : Prop :=
  s.Published p n ∨ ∃ change, ⟨p, n, change⟩ ∈ s.onTheWay

/-- one partition; what is persisted is the position behind its checkpoint -/
def follower (s : Reactivator E C) (p : Partition) : Follower where
  first := s.first p
  cursor := (s.consumer p).position
  stored := (s.checkpoint p).map (· + 1)
  handed := s.HandedOn p
  published := s.Published p

/-- since the first event read from a partition, every event up to the checkpoint is published, and every event before the
one that its consumer reads is published or on its way -/
def PassesOverNothing (s : Reactivator E C) : Prop := ∀ p, (s.follower p).Safe

/-- a checkpoint is put when no unpublished change of its partition is on its way, and `Latest` is not behind events that
are neither published nor on their way -/
def Careful (s : Reactivator E C) : Op E → Prop
  | .openAt p => s.consumer p = .opening → s.checkpoint p = none →
      ∀ a, s.first p = some a → Covers (s.HandedOn p) a (s.events p).length
  | .put p call => call.effect = true → ∀ n, s.consumer p = .putting n →
      ∀ item ∈ s.onTheWay, item.partition = p → s.Published p item.sequenceNumber
  | _ => True

/-- the event that the consumer of `p` is at: the one behind the checkpoint, and none that is on its way is behind it -/
structure At (s : Reactivator E C) (p : Partition) (n : ℕ) : Prop where
  next : ∀ m, s.checkpoint p = some m → n = m + 1
  first : ∀ a, s.first p = some a → a ≤ n
  onTheWay : ∀ item ∈ s.onTheWay, item.partition = p → item.sequenceNumber ≤ n

structure Inv (s : Reactivator E C) : Prop where
  event : ∀ p n, (s.consumer p).event = some n → s.At p n
  /-- an event in hand has been read -/
  inHand : ∀ p n, (s.consumer p).event = some n → s.consumer p = .reading n ∨
    s.first p ≠ none ∧ n < (s.events p).length
  read : ∀ p a, s.first p = some a → a < (s.events p).length ∧ ∀ m, s.checkpoint p = some m → a ≤ m + 1
  onTheWay : ∀ item ∈ s.onTheWay, ∃ a, s.first item.partition = some a ∧ a ≤ item.sequenceNumber ∧
    item.sequenceNumber < (s.events item.partition).length ∧
    ∀ m, s.checkpoint item.partition = some m → item.sequenceNumber ≤ m + 1

/-! ## What a step keeps -/

variable {mapEvent : Partition → E → Option C} {s : Reactivator E C}

theorem inv_initial (events : Partition → List E) (store : String → Option ℕ) :
    (initial events store : Reactivator E C).Inv where
  event _ _ h := by cases h
  inHand _ _ h := by cases h
  read _ _ h := by cases h
  onTheWay _ h := by cases h

/-- a consumer goes to an event it may be at, or to none -/
theorem Inv.move (h : s.Inv) {p : Partition} {c : Consumer C} (hat : ∀ n, c.event = some n → s.At p n)
    (hhand : ∀ n, c.event = some n → c = .reading n ∨ s.first p ≠ none ∧ n < (s.events p).length) : (s.move p c).Inv where
  event q n hn := by
    by_cases hq : q = p
    · subst hq
      simp only [Reactivator.move, Function.update_self] at hn
      obtain ⟨hnext, hfirst, hway⟩ := hat n hn
      exact ⟨hnext, hfirst, hway⟩
    · simp only [Reactivator.move, Function.update_of_ne hq] at hn
      obtain ⟨hnext, hfirst, hway⟩ := h.event q n hn
      exact ⟨hnext, hfirst, hway⟩
  inHand q n hn := by
    by_cases hq : q = p
    · subst hq
      simp only [Reactivator.move, Function.update_self] at hn ⊢
      exact hhand n hn
    · simp only [Reactivator.move, Function.update_of_ne hq] at hn ⊢
      exact h.inHand q n hn
  read := h.read
  onTheWay := h.onTheWay

theorem Inv.rest (h : s.Inv) {p : Partition} {c : Consumer C} (hc : c.event = none) : (s.move p c).Inv :=
  h.move (fun _ hn => by cases hc.symm.trans hn) fun _ hn => by cases hc.symm.trans hn

/-- nothing new comes on its way -/
theorem Inv.onward (h : s.Inv) {channel : Option (Item C)} {publisher : Publisher C} {published : List (Item C)}
    (hsub : ∀ item ∈ channel.toList ++ publisher.items, item ∈ s.onTheWay) :
    ({ s with channel := channel, publisher := publisher, published := published } : Reactivator E C).Inv where
  event p n hn := by
    obtain ⟨hnext, hfirst, hway⟩ := h.event p n hn
    exact ⟨hnext, hfirst, fun item hitem => hway item (hsub item hitem)⟩
  inHand := h.inHand
  read := h.read
  onTheWay item hitem := h.onTheWay item (hsub item hitem)

theorem event_inv (h : s.Inv) (p : Partition) (e : E) : (step mapEvent s (.event p e)).Inv := by
  have hlen : ∀ q, (s.events q).length ≤ ((step mapEvent s (.event p e)).events q).length := by
    intro q
    by_cases hq : q = p
    · subst hq
      simp [step]
    · simp [step, Function.update_of_ne hq]
  refine ⟨fun q n hn => ?_, fun q n hn => ?_, fun q a ha => ?_, fun item hitem => ?_⟩
  · obtain ⟨hnext, hfirst, hway⟩ := h.event q n hn
    exact ⟨hnext, hfirst, hway⟩
  · rcases h.inHand q n hn with hreading | ⟨hfirst, hlt⟩
    · exact Or.inl hreading
    · exact Or.inr ⟨hfirst, hlt.trans_le (hlen q)⟩
  · exact ⟨(h.read q a ha).1.trans_le (hlen q), (h.read q a ha).2⟩
  · obtain ⟨a, ha, hle, hlt, hnext⟩ := h.onTheWay item hitem
    exact ⟨a, ha, hle, hlt.trans_le (hlen _), hnext⟩

theorem at_lastOffset (h : s.Inv) (p : Partition) : s.At p (s.lastOffset p) := by
  cases hc : s.checkpoint p with
  | none =>
    have hoffset : s.lastOffset p = (s.events p).length := by simp [lastOffset, hc]
    rw [hoffset]
    refine ⟨fun m hm => (by cases hc.symm.trans hm), fun a ha => (h.read p a ha).1.le, fun item hitem hp => ?_⟩
    obtain ⟨a, -, -, hlt, -⟩ := h.onTheWay item hitem
    exact (hp ▸ hlt).le
  | some m =>
    have hoffset : s.lastOffset p = m + 1 := by simp [lastOffset, hc]
    rw [hoffset]
    refine ⟨fun m' hm' => ?_, fun a ha => (h.read p a ha).2 m hc, fun item hitem hp => ?_⟩
    · obtain rfl : m = m' := Option.some.inj (hc.symm.trans hm')
      rfl
    · obtain ⟨a, -, -, -, hnext⟩ := h.onTheWay item hitem
      exact hnext m (hp ▸ hc)

theorem see_first (s : Reactivator E C) (p : Partition) (n : ℕ) : (s.see p n).first p = (s.first p).or (some n) :=
  Function.update_self ..

theorem see_first_of_ne {p q : Partition} (hq : q ≠ p) (n : ℕ) : (s.see p n).first q = s.first q :=
  Function.update_of_ne hq ..

theorem first_see {p q : Partition} {n a : ℕ} (ha : (s.see p n).first q = some a) :
    s.first q = some a ∨ s.first q = none ∧ q = p ∧ a = n := by
  by_cases hq : q = p
  · subst hq
    rw [see_first] at ha
    cases hf : s.first q with
    | none =>
      rw [hf, Option.none_or] at ha
      exact Or.inr ⟨rfl, rfl, (Option.some.inj ha).symm⟩
    | some b =>
      rw [hf, Option.some_or] at ha
      exact Or.inl ha
  · rw [see_first_of_ne hq] at ha
    exact Or.inl ha

theorem see_of_first {p q : Partition} {n a : ℕ} (ha : s.first q = some a) : (s.see p n).first q = some a := by
  by_cases hq : q = p
  · subst hq
    rw [see_first, ha, Option.some_or]
  · rw [see_first_of_ne hq, ha]

/-- the first event that is read becomes the first -/
theorem see_inv (h : s.Inv) {p : Partition} {n : ℕ} (hp : s.consumer p = .reading n) (hlt : n < (s.events p).length) :
    (s.see p n).Inv := by
  have hat : s.At p n := h.event p n (by rw [hp]; rfl)
  refine ⟨fun q n' hn' => ?_, fun q n' hn' => ?_, fun q a ha => ?_, fun item hitem => ?_⟩
  · obtain ⟨hnext, hle, hway⟩ := h.event q n' hn'
    refine ⟨hnext, fun a ha => ?_, hway⟩
    rcases first_see ha with hq | ⟨-, rfl, rfl⟩
    · exact hle a hq
    · have heq : (s.consumer q).event = some a := by rw [hp]; rfl
      exact (Option.some.inj (heq.symm.trans hn')).le
  · rcases h.inHand q n' hn' with hreading | ⟨hne, hlt'⟩
    · exact Or.inl hreading
    · obtain ⟨a, ha⟩ := Option.ne_none_iff_exists'.1 hne
      exact Or.inr ⟨Option.ne_none_iff_exists'.2 ⟨a, see_of_first ha⟩, hlt'⟩
  · rcases first_see ha with hq | ⟨-, rfl, rfl⟩
    · exact h.read q a hq
    · exact ⟨hlt, fun m hm => (hat.next m hm).le⟩
  · obtain ⟨a, ha, hrest⟩ := h.onTheWay item hitem
    exact ⟨a, see_of_first ha, hrest⟩

theorem read_inv (h : s.Inv) (p : Partition) : (step mapEvent s (.read p)).Inv := by
  simp only [step]
  split
  · rename_i n hp
    split
    · exact h
    · rename_i e he
      have hlt : n < (s.events p).length := (List.getElem?_eq_some_iff.1 he).1
      have hsee : (s.see p n).Inv := see_inv h hp hlt
      have hat : (s.see p n).At p n := hsee.event p n (by rw [see, hp]; rfl)
      cases hmap : mapEvent p e with
      | none => exact hsee.rest rfl
      | some change =>
        refine hsee.move (fun n' hn' => ?_) fun n' hn' => Or.inr ?_
        · obtain rfl : n = n' := Option.some.inj hn'
          exact hat
        · obtain rfl : n = n' := Option.some.inj hn'
          exact ⟨by rw [see_first]; cases s.first p <;> simp, hlt⟩
  · exact h

theorem write_inv (h : s.Inv) (p : Partition) : (step mapEvent s (.write p)).Inv := by
  simp only [step]
  split
  · rename_i n change hp hchannel
    have hn : (s.consumer p).event = some n := by rw [hp]; rfl
    have hat : s.At p n := h.event p n hn
    obtain ⟨hne, hlt⟩ : s.first p ≠ none ∧ n < (s.events p).length := by
      rcases h.inHand p n hn with hreading | hhand
      · cases hp.symm.trans hreading
      · exact hhand
    have hmoved : (s.move p (.putting n)).Inv := by
      refine h.move (fun n' hn' => ?_) fun n' hn' => Or.inr ?_
      · obtain rfl : n = n' := Option.some.inj hn'
        exact hat
      · obtain rfl : n = n' := Option.some.inj hn'
        exact ⟨hne, hlt⟩
    -- the new item is the only one that was not on its way before
    have hway : ∀ item ∈ (some (⟨p, n, change⟩ : Item C)).toList ++ s.publisher.items,
        item = ⟨p, n, change⟩ ∨ item ∈ s.onTheWay := by
      intro item hitem
      rcases List.mem_append.1 hitem with hnew | hold
      · exact Or.inl (List.mem_singleton.1 hnew)
      · exact Or.inr (List.mem_append_right _ hold)
    refine ⟨fun q n' hn' => ?_, hmoved.inHand, hmoved.read, fun item hitem => ?_⟩
    · obtain ⟨hnext, hfirst, hold⟩ := hmoved.event q n' hn'
      refine ⟨hnext, hfirst, fun item hitem hq => ?_⟩
      rcases hway item hitem with rfl | hitem'
      · obtain rfl : p = q := hq
        have hmove : ((s.move p (.putting n)).consumer p).event = some n := by simp [Reactivator.move, Consumer.event]
        exact (Option.some.inj (hmove.symm.trans hn')).le
      · exact hold item hitem' hq
    · rcases hway item hitem with rfl | hitem'
      · obtain ⟨a, ha⟩ := Option.ne_none_iff_exists'.1 hne
        exact ⟨a, ha, hat.first a ha, hlt, fun m hm => (hat.next m hm).le⟩
      · exact hmoved.onTheWay item hitem'
  · exact h

theorem checkpoint_save (s : Reactivator E C) (p q : Partition) (n : ℕ) :
    (s.save p n).checkpoint q = if q = p then some n else s.checkpoint q := by
  by_cases hq : q = p
  · subst hq
    simp [checkpoint, save]
  · have hkey : checkpointKey q ≠ checkpointKey p := fun hk => hq (checkpointKey_inj hk)
    simp [checkpoint, save, Function.update_of_ne hkey, hq]

/-- the checkpoint goes on to an event that the consumer was at -/
theorem save_inv (h : s.Inv) {p : Partition} {n : ℕ} (hp : (s.consumer p).event = none) (hat : s.At p n) :
    (s.save p n).Inv := by
  have hcheck : ∀ q m, (s.save p n).checkpoint q = some m → q = p ∧ m = n ∨ q ≠ p ∧ s.checkpoint q = some m := by
    intro q m hm
    rw [checkpoint_save] at hm
    split at hm
    · exact Or.inl ⟨by assumption, (Option.some.inj hm).symm⟩
    · exact Or.inr ⟨by assumption, hm⟩
  refine ⟨fun q n' hn' => ?_, h.inHand, fun q a ha => ⟨(h.read q a ha).1, fun m hm => ?_⟩, fun item hitem => ?_⟩
  · obtain ⟨hnext, hfirst, hway⟩ := h.event q n' hn'
    refine ⟨fun m hm => ?_, hfirst, hway⟩
    rcases hcheck q m hm with ⟨rfl, -⟩ | ⟨-, hm'⟩
    · cases hp.symm.trans hn'
    · exact hnext m hm'
  · rcases hcheck q m hm with ⟨rfl, rfl⟩ | ⟨-, hm'⟩
    · exact (hat.first a ha).trans (Nat.le_succ m)
    · exact (h.read q a ha).2 m hm'
  · obtain ⟨a, ha, hle, hlt, hnext⟩ := h.onTheWay item hitem
    refine ⟨a, ha, hle, hlt, fun m hm => ?_⟩
    rcases hcheck item.partition m hm with ⟨hq, rfl⟩ | ⟨-, hm'⟩
    · exact (hat.onTheWay item hitem hq).trans (Nat.le_succ m)
    · exact hnext m hm'

/-- putting a checkpoint is going to the head of the loop, saving, and going on from there -/
theorem save_move (s : Reactivator E C) (p : Partition) (n : ℕ) (c : Consumer C) :
    (s.save p n).move p c = ((s.move p .opening).save p n).move p c := by
  simp [save, Reactivator.move]

theorem put_inv (h : s.Inv) (p : Partition) (call : Call) : (step mapEvent s (.put p call)).Inv := by
  simp only [step]
  split
  · rename_i n hp
    have hat : s.At p n := h.event p n (by rw [hp]; rfl)
    have hrest : (s.move p .opening).Inv := h.rest rfl
    have hidle : ((s.move p .opening).consumer p).event = none := by simp [Reactivator.move, Consumer.event]
    have hsaved : ((s.move p .opening).save p n).Inv := save_inv hrest hidle ⟨hat.next, hat.first, hat.onTheWay⟩
    cases call with
    | fails => exact hrest
    | failsAfter =>
      rw [show Call.failsAfter.effect = true from rfl, if_pos rfl, save_move]
      exact hsaved.rest rfl
    | returns =>
      rw [show Call.returns.effect = true from rfl, if_pos rfl, save_move]
      refine hsaved.move (fun n' hn' => ?_) fun n' hn' => Or.inl ?_
      · obtain rfl : n + 1 = n' := Option.some.inj hn'
        refine ⟨fun m hm => ?_, fun a ha => (hat.first a ha).trans (Nat.le_succ n), fun item hitem hq => ?_⟩
        · rw [checkpoint_save, if_pos rfl] at hm
          rw [Option.some.inj hm]
        · exact (hat.onTheWay item hitem hq).trans (Nat.le_succ n)
      · obtain rfl : n + 1 = n' := Option.some.inj hn'
        rfl
  · exact h

theorem step_inv (op : Op E) (h : s.Inv) : (step mapEvent s op).Inv := by
  cases op with
  | event p e => exact event_inv h p e
  | start p =>
    simp only [step]
    split
    · exact h.rest rfl
    · exact h
  | openAt p =>
    simp only [step]
    split
    · refine h.move (fun n hn => ?_) fun n hn => Or.inl ?_
      · obtain rfl : s.lastOffset p = n := Option.some.inj hn
        exact at_lastOffset h p
      · obtain rfl : s.lastOffset p = n := Option.some.inj hn
        rfl
    · exact h
  | read p => exact read_inv h p
  | write p => exact write_inv h p
  | put p call => exact put_inv h p call
  | fail p =>
    simp only [step]
    split
    · exact h
    · exact h.rest rfl
  | take =>
    simp only [step]
    split
    · rename_i item hpub hchannel
      refine h.onward fun x hx => ?_
      simpa [onTheWay, hpub, hchannel, Publisher.items] using hx
    · exact h
  | publish call =>
    simp only [step]
    split
    · rename_i item hpub
      refine h.onward fun x hx => ?_
      cases hok : call.ok with
      | false => simpa [onTheWay, hpub, hok, Publisher.items] using hx
      | true =>
        have hx' : x ∈ s.channel.toList := by simpa [hok, Publisher.items] using hx
        exact List.mem_append_left _ hx'
    · exact h
  | crash =>
    have hrest : ∀ p n, ((step mapEvent s .crash).consumer p).event ≠ some n := by
      intro p n hn
      cases hn
    exact ⟨fun p n hn => absurd hn (hrest p n), fun p n hn => absurd hn (hrest p n), h.read, fun item hitem => by cases hitem⟩

/-! ## When nothing is passed over -/

variable {s' : Reactivator E C} {p q : Partition}

/-- a step that touches neither the checkpoint nor the first event of a partition, and whose consumer stays or stops -/
theorem follower_grows (hfirst : s'.first q = s.first q) (hcheck : s'.checkpoint q = s.checkpoint q)
    (hpub : ∀ item ∈ s.published, item ∈ s'.published)
    (hcursor : ∀ n, (s'.consumer q).position = some n → (s.consumer q).position = some n ∧
      ∀ item ∈ s.onTheWay, item ∈ s'.onTheWay ∨ item ∈ s'.published) :
    Follower.Grows (s.follower q) (s'.follower q) := by
  have hgrow : ∀ n, s.Published q n → s'.Published q n := fun n ⟨change, hitem⟩ => ⟨change, hpub _ hitem⟩
  refine ⟨hfirst, congrArg (Option.map (· + 1)) hcheck, hgrow, fun n hn => ?_⟩
  obtain ⟨hpos, hway⟩ := hcursor n hn
  refine ⟨hpos, fun i hi => ?_⟩
  rcases hi with hpub' | ⟨change, hitem⟩
  · exact Or.inl (hgrow i hpub')
  · rcases hway _ hitem with hitem' | hitem'
    · exact Or.inr ⟨change, hitem'⟩
    · exact Or.inl ⟨change, hitem'⟩

theorem move_consumer (s : Reactivator E C) (p : Partition) (c : Consumer C) : (s.move p c).consumer p = c :=
  Function.update_self ..

theorem move_consumer_of_ne (hq : q ≠ p) (c : Consumer C) : (s.move p c).consumer q = s.consumer q :=
  Function.update_of_ne hq ..

theorem move_grows (hq : q ≠ p) (c : Consumer C) : Follower.Grows (s.follower q) ((s.move p c).follower q) :=
  follower_grows rfl rfl (fun _ hi => hi) fun _ hn => ⟨move_consumer_of_ne hq c ▸ hn, fun _ hi => Or.inl hi⟩

/-- a consumer that stays where it is, or stops -/
theorem PassesOverNothing.move (hsafe : s.PassesOverNothing) {c : Consumer C}
    (hc : ∀ n, c.position = some n → (s.consumer p).position = some n) : (s.move p c).PassesOverNothing := by
  intro q
  by_cases hq : q = p
  · subst hq
    have hgrows : Follower.Grows (s.follower q) ((s.move q c).follower q) :=
      follower_grows rfl rfl (fun _ hi => hi) fun n hn => ⟨hc n (move_consumer s q c ▸ hn), fun _ hi => Or.inl hi⟩
    exact hgrows.safe (hsafe q)
  · exact (move_grows hq c).safe (hsafe q)

/-- only the partition of the step can be affected -/
theorem passes_iff_of_others (hothers : ∀ q, q ≠ p → (s'.follower q).Safe) :
    s'.PassesOverNothing ↔ (s'.follower p).Safe := by
  constructor
  · intro h
    exact h p
  · intro h q
    by_cases hq : q = p
    · exact hq ▸ h
    · exact hothers q hq

theorem openAt_iff (hsafe : s.PassesOverNothing) (hp : s.consumer p = .opening) :
    (s.move p (.reading (s.lastOffset p))).PassesOverNothing ↔ s.Careful (.openAt p) := by
  have hothers : ∀ q, q ≠ p → ((s.move p (.reading (s.lastOffset p))).follower q).Safe :=
    fun q hq => (move_grows hq _).safe (hsafe q)
  have hgoes : Follower.GoesTo (s.follower p) ((s.move p (.reading (s.lastOffset p))).follower p) (s.lastOffset p) :=
    ⟨rfl, rfl, fun _ hi => hi, by rw [follower, move_consumer]; rfl⟩
  rw [passes_iff_of_others hothers, hgoes.safe_iff (hsafe p)]
  constructor
  · intro hcovers _ hnone a ha
    have hoffset : s.lastOffset p = (s.events p).length := by simp [lastOffset, hnone]
    exact hoffset ▸ hcovers a ha
  · intro hcareful a ha
    cases hc : s.checkpoint p with
    | none =>
      have hoffset : s.lastOffset p = (s.events p).length := by simp [lastOffset, hc]
      exact hoffset ▸ hcareful hp hc a ha
    | some m =>
      have hoffset : s.lastOffset p = m + 1 := by simp [lastOffset, hc]
      have hstored : (s.follower p).stored = some (m + 1) := by simp [follower, hc]
      exact hoffset ▸ ((hsafe p).stored a (m + 1) ha hstored).mono fun _ hi => Or.inl hi

theorem see_passes (h : s.Inv) (hsafe : s.PassesOverNothing) {n : ℕ} (hp : s.consumer p = .reading n) :
    (s.see p n).PassesOverNothing := by
  have hat : s.At p n := h.event p n (by rw [hp]; rfl)
  have hpos : (s.consumer p).position = some n := by rw [hp]; rfl
  rw [passes_iff_of_others (p := p)]
  · have hmove : (s.see p n).follower p = (s.follower p).moveTo n := by
      have hpos' : ((s.see p n).consumer p).position = some n := hpos
      simp only [follower, see_first, Follower.moveTo, hpos']
      rfl
    rw [hmove, Follower.safe_moveTo_iff (hsafe p)]
    · intro a ha
      exact (hsafe p).cursor a n ha hpos
    · intro _ r hr
      obtain ⟨m, hm, rfl⟩ := Option.map_eq_some_iff.1 hr
      exact (hat.next m hm).ge
  · intro q hq
    have hgrows : Follower.Grows (s.follower q) ((s.see p n).follower q) :=
      follower_grows (see_first_of_ne hq n) rfl (fun _ hi => hi) fun _ hn => ⟨hn, fun _ hi => Or.inl hi⟩
    exact hgrows.safe (hsafe q)

theorem read_passes (h : s.Inv) (hsafe : s.PassesOverNothing) (p : Partition) :
    (step mapEvent s (.read p)).PassesOverNothing := by
  simp only [step]
  split
  · rename_i n hp
    split
    · exact hsafe
    · rename_i e _
      have hpos : ((s.see p n).consumer p).position = some n := by rw [see, hp]; rfl
      refine (see_passes h hsafe hp).move fun n' hn' => ?_
      cases hmap : mapEvent p e with
      | none =>
        rw [hmap] at hn'
        cases hn'
      | some change =>
        rw [hmap] at hn'
        obtain rfl : n = n' := Option.some.inj hn'
        exact hpos
  · exact hsafe

theorem write_passes (h : s.Inv) (hsafe : s.PassesOverNothing) (p : Partition) :
    (step mapEvent s (.write p)).PassesOverNothing := by
  simp only [step]
  split
  · rename_i n change hp hchannel
    have hn : (s.consumer p).event = some n := by rw [hp]; rfl
    obtain ⟨a, ha⟩ : ∃ a, s.first p = some a := by
      rcases h.inHand p n hn with hreading | ⟨hne, -⟩
      · cases hp.symm.trans hreading
      · exact Option.ne_none_iff_exists'.1 hne
    let t : Reactivator E C := { s.move p (.putting n) with channel := some ⟨p, n, change⟩ }
    have hway : ∀ item ∈ s.onTheWay, item ∈ t.onTheWay := by
      intro item hitem
      have hitem' : item ∈ s.publisher.items := by simpa [onTheWay, hchannel] using hitem
      exact List.mem_append_right _ hitem'
    rw [passes_iff_of_others (p := p)]
    · have hadvances : Follower.Advances (s.follower p) (t.follower p) n (n + 1) := by
        refine ⟨⟨rfl, rfl, fun _ hi => hi, ?_⟩, by rw [follower, hp]; rfl, fun i hi => ?_, Nat.le_succ n⟩
        · exact congrArg Consumer.position (move_consumer s p (.putting n))
        · exact hi.imp_right fun ⟨change', hitem⟩ => ⟨change', hway _ hitem⟩
      refine (hadvances.safe_iff (hsafe p) ⟨a, ha, (h.event p n hn).first a ha⟩).2 fun i hi hi' => Or.inr ?_
      have hin : i = n := by omega
      exact ⟨change, hin ▸ List.mem_append_left _ (List.mem_singleton.2 rfl)⟩
    · intro q hq
      have hgrows : Follower.Grows (s.follower q) (t.follower q) :=
        follower_grows rfl rfl (fun _ hi => hi) fun _ hpos =>
          ⟨move_consumer_of_ne (s := s) hq (.putting n) ▸ hpos, fun item hi => Or.inl (hway item hi)⟩
      exact hgrows.safe (hsafe q)
  · exact hsafe

theorem save_follower (s : Reactivator E C) (p : Partition) (n : ℕ) :
    (s.save p n).follower p = (s.follower p).store (n + 1) := by
  simp only [follower, checkpoint_save, if_pos, Follower.store, Option.map_some]
  rfl

/-- what is behind a consumer that puts its checkpoint is published exactly when nothing unpublished is on its way -/
theorem covers_put_iff (h : s.Inv) (hsafe : s.PassesOverNothing) {n : ℕ} (hp : s.consumer p = .putting n) :
    (∀ a, s.first p = some a → Covers (s.Published p) a (n + 1)) ↔
      ∀ item ∈ s.onTheWay, item.partition = p → s.Published p item.sequenceNumber := by
  have hpos : (s.consumer p).position = some (n + 1) := by rw [hp]; rfl
  have hat : s.At p n := h.event p n (by rw [hp]; rfl)
  constructor
  · intro hcovers item hitem hq
    obtain ⟨a, ha, hle, -, -⟩ := h.onTheWay item hitem
    have hbound : item.sequenceNumber ≤ n := hat.onTheWay item hitem hq
    exact hcovers a (hq ▸ ha) item.sequenceNumber hle (by omega)
  · intro hway a ha i hi hi'
    rcases (hsafe p).cursor a (n + 1) ha hpos i hi hi' with hpub | ⟨change, hitem⟩
    · exact hpub
    · exact hway _ hitem rfl

theorem put_iff (h : s.Inv) (hsafe : s.PassesOverNothing) (p : Partition) (call : Call) :
    (step mapEvent s (.put p call)).PassesOverNothing ↔ s.Careful (.put p call) := by
  cases hp : s.consumer p with
  | putting n =>
    have hcareful : s.Careful (.put p call) ↔ (call.effect = true → ∀ a, s.first p = some a →
        Covers (s.Published p) a (n + 1)) := by
      rw [covers_put_iff h hsafe hp]
      constructor
      · intro hc heffect
        exact hc heffect n hp
      · intro hc heffect n' hp'
        exact hc heffect
    have hmoved : ∀ c : Consumer C, (∀ m, c.position = some m → m = n + 1) → (s.move p c).PassesOverNothing := by
      intro c hc
      refine hsafe.move fun m hm => ?_
      rw [hp, hc m hm]
      rfl
    have hsaved : ∀ c : Consumer C, (∀ m, c.position = some m → m = n + 1) →
        (((s.save p n).move p c).PassesOverNothing ↔ ∀ a, s.first p = some a → Covers (s.Published p) a (n + 1)) := by
      intro c hc
      have hothers : ∀ q, q ≠ p → (((s.move p c).save p n).follower q).Safe := by
        intro q hq
        have hgrows : Follower.Grows ((s.move p c).follower q) (((s.move p c).save p n).follower q) :=
          follower_grows rfl ((checkpoint_save _ p q n).trans (if_neg hq)) (fun _ hi => hi)
            fun _ hm => ⟨hm, fun _ hi => Or.inl hi⟩
        exact hgrows.safe (hmoved c hc q)
      have hswap : (s.save p n).move p c = (s.move p c).save p n := rfl
      rw [hswap, passes_iff_of_others hothers, save_follower, Follower.safe_store_iff (hmoved c hc p)]
      rfl
    have hnext : ∀ m, (Consumer.reading (n + 1) : Consumer C).position = some m → m = n + 1 :=
      fun m hm => (Option.some.inj hm).symm
    have hnone : ∀ m, (Consumer.opening : Consumer C).position = some m → m = n + 1 := fun m hm => by cases hm
    rw [hcareful]
    simp only [step, hp]
    cases call with
    | returns => exact (hsaved _ hnext).trans ⟨fun hc _ => hc, fun hc => hc rfl⟩
    | failsAfter => exact (hsaved _ hnone).trans ⟨fun hc _ => hc, fun hc => hc rfl⟩
    | fails => exact iff_of_true (hmoved _ hnone) fun heffect => by cases heffect
  | down | opening | reading _ | writing _ _ =>
    refine iff_of_true (by simpa only [step, hp] using hsafe) fun _ n hn => ?_
    cases hp.symm.trans hn

/-- steps of the channel and the publisher: what was on its way is still, or is published -/
theorem passes_of_way (hsafe : s.PassesOverNothing) (hfirst : s'.first = s.first) (hconsumer : s'.consumer = s.consumer)
    (hstore : s'.store = s.store) (hpub : ∀ item ∈ s.published, item ∈ s'.published)
    (hway : ∀ item ∈ s.onTheWay, item ∈ s'.onTheWay ∨ item ∈ s'.published) : s'.PassesOverNothing := by
  intro q
  have hcheck : s'.checkpoint q = s.checkpoint q := congrFun hstore _
  exact (follower_grows (congrFun hfirst q) hcheck hpub fun n hn => ⟨hconsumer ▸ hn, hway⟩).safe (hsafe q)

theorem take_passes (hsafe : s.PassesOverNothing) : (step mapEvent s .take).PassesOverNothing := by
  simp only [step]
  split
  · rename_i item hpub hchannel
    refine passes_of_way hsafe rfl rfl rfl (fun _ hi => hi) fun x hx => Or.inl ?_
    simpa [onTheWay, hpub, hchannel, Publisher.items] using hx
  · exact hsafe

theorem publish_passes (hsafe : s.PassesOverNothing) (call : Call) : (step mapEvent s (.publish call)).PassesOverNothing := by
  simp only [step]
  split
  · rename_i item hpub
    have hway : ∀ x ∈ s.onTheWay, x ∈ s.channel.toList ∨ x = item := by
      intro x hx
      simpa [onTheWay, hpub, Publisher.items] using hx
    have hkeep : ∀ x ∈ s.published, x ∈ s.published ++ [item] := fun x hx => List.mem_append_left _ hx
    cases call with
    | returns =>
      refine passes_of_way hsafe rfl rfl rfl hkeep fun x hx => ?_
      rcases hway x hx with hchannel | rfl
      · exact Or.inl (List.mem_append_left _ hchannel)
      · exact Or.inr (List.mem_append_right _ (List.mem_singleton.2 rfl))
    | fails =>
      refine passes_of_way hsafe rfl rfl rfl (fun _ hi => hi) fun x hx => Or.inl ?_
      exact List.mem_append.2 ((hway x hx).imp_right List.mem_singleton.2)
    | failsAfter =>
      refine passes_of_way hsafe rfl rfl rfl hkeep fun x hx => Or.inl ?_
      exact List.mem_append.2 ((hway x hx).imp_right List.mem_singleton.2)
  · exact hsafe

/-- **What one step needs.** -/
theorem step_iff (op : Op E) (h : s.Inv) (hsafe : s.PassesOverNothing) :
    (step mapEvent s op).PassesOverNothing ↔ s.Careful op := by
  cases op with
  | event p e => exact iff_of_true (passes_of_way hsafe rfl rfl rfl (fun _ hi => hi) fun _ hi => Or.inl hi) trivial
  | start p =>
    refine iff_of_true ?_ trivial
    simp only [step]
    split
    · exact hsafe.move fun _ hn => by cases hn
    · exact hsafe
  | openAt p =>
    cases hp : s.consumer p with
    | opening =>
      simp only [step, hp]
      exact openAt_iff hsafe hp
    | down | reading _ | writing _ _ | putting _ =>
      refine iff_of_true (by simpa only [step, hp] using hsafe) fun hopening => ?_
      cases hp.symm.trans hopening
  | read p => exact iff_of_true (read_passes h hsafe p) trivial
  | write p => exact iff_of_true (write_passes h hsafe p) trivial
  | put p call => exact put_iff h hsafe p call
  | fail p =>
    refine iff_of_true ?_ trivial
    simp only [step]
    split
    · exact hsafe
    · exact hsafe.move fun _ hn => by cases hn
  | take => exact iff_of_true (take_passes hsafe) trivial
  | publish call => exact iff_of_true (publish_passes hsafe call) trivial
  | crash =>
    refine iff_of_true (fun q => ?_) trivial
    have hgrows : Follower.Grows (s.follower q) ((step mapEvent s .crash).follower q) :=
      follower_grows rfl rfl (fun _ hi => hi) fun _ hn => by cases hn
    exact hgrows.safe (hsafe q)

/-- **When the checkpoints pass over nothing.** -/
theorem passes_over_nothing_iff (mapEvent : Partition → E → Option C) (events : Partition → List E)
    (store : String → Option ℕ) (ops : List (Op E)) :
    Throughout (step mapEvent) PassesOverNothing (initial events store) ops ↔
      Meets (step mapEvent) Careful (initial events store) ops := by
  have hlegal : Meets (step mapEvent) (fun _ _ => True) (initial events store) ops := meets_iff_forall.2 fun _ _ => trivial
  have hinitial : (initial events store : Reactivator E C).PassesOverNothing := by
    intro p
    constructor
    all_goals
      intro a n ha
      cases ha
  exact throughout_iff_meets Inv (fun s op h _ => step_inv op h) (fun s op h _ hsafe => step_iff op h hsafe)
    (inv_initial events store) hinitial hlegal

def orders : Partition := ⟨"orders", 0⟩

/-- an event is read, written to the channel, and its checkpoint put before the publish loop has taken it -/
def checkpointed : List (Op String) :=
  [.start orders, .openAt orders, .event orders "a", .read orders, .write orders, .put orders .returns]

/-- the first event read cannot be mapped; another one comes before the consumer opens the partition again -/
def reopened : List (Op String) :=
  [.start orders, .openAt orders, .event orders "malformed", .read orders, .event orders "a", .openAt orders]

/-- the checkpoint is behind an event that is still in the channel, where the end of the process loses it; the consumer
has come behind an event that it never reads -/
theorem checkpoint_before_publish :
    ¬Throughout (step fun _ e => if e = "malformed" then none else some e) PassesOverNothing
        (initial (fun _ => []) fun _ => none : Reactivator String String) checkpointed ∧
      ¬Throughout (step fun _ e => if e = "malformed" then none else some e) PassesOverNothing
        (initial (fun _ => []) fun _ => none : Reactivator String String) reopened := by
  constructor
  · intro h
    obtain ⟨change, hitem⟩ := (h.last orders).stored 0 1 (by decide) (by decide) 0 (by omega) (by omega)
    cases hitem
  · intro h
    rcases (h.last orders).cursor 0 2 (by decide) (by decide) 1 (by omega) (by omega) with
      ⟨change, hitem⟩ | ⟨change, hitem⟩
    · cases hitem
    · cases hitem

end Reactivator

end DrasiPlatform.EventHubReactivator
