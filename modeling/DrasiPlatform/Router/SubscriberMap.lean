/-
The change router's label maps (`sources/shared/change-router/src/subscriber_map.rs`, `subscribers.rs`).

A `SubscriberMap` keeps, for each label, the set of (queryNodeId, queryId) pairs that subscribed to it. The source keeps a
pair as the text of the JSON object with these two fields and parses the text back when it dispatches; here the set holds
the pair itself. A `HashSet` has no order, so a set is a `Finset` and a `Vec` filled from sets is a `Multiset`: what is
proved does not depend on an iteration order.

`addLabels` only ever adds: nothing in the source removes a pair or a label from a map.
- `mem_subscribers_addLabels`: the subscribers of every label after `add_labels`.
- `getSubscribersForLabels_unknown`: `get_subscribers_for_labels` answers `None` as soon as ONE label has no subscriber.
- `getSubscribersForLabels_known`: otherwise it answers the sets of all the labels one after the other, a pair once for
  each of the labels it subscribed to.
-/
import Mathlib.Tactic
import Mathlib.Data.List.AList
import Mathlib.Data.Multiset.Bind

namespace DrasiPlatform.Router

/-- a subscriber: `{"queryNodeId": .., "queryId": ..}` -/
structure Subscription where
  queryNodeId : String
  queryId : String
deriving DecidableEq, Repr

/-- `SubscriberMap`: the entry of a label is made together with its first subscriber, so no set is empty -/
structure SubscriberMap where
  labelMap : AList fun _ : String => Finset Subscription
  nonempty : ∀ label set, labelMap.lookup label = some set → set.Nonempty

namespace SubscriberMap

def new : SubscriberMap := ⟨∅, by simp⟩

/-- the pairs subscribed to a label -/
def subscribers (m : SubscriberMap) (label : String) : Finset Subscription := (m.labelMap.lookup label).getD ∅

/-- `add`: `self.label_map.entry(label).or_default()` and `insert` of the pair -/
def add (m : SubscriberMap) (label queryNodeId queryId : String) : SubscriberMap where
  labelMap := m.labelMap.insert label (insert ⟨queryNodeId, queryId⟩ (m.subscribers label))
  nonempty := by
    intro label' set h
    by_cases hl : label' = label
    · subst hl
      rw [AList.lookup_insert, Option.some.injEq] at h
      exact h ▸ Finset.insert_nonempty _ _
    · rw [AList.lookup_insert_ne hl] at h
      exact m.nonempty label' set h

def addLabels (m : SubscriberMap) (labels : List String) (queryNodeId queryId : String) : SubscriberMap :=
  labels.foldl (fun m label => m.add label queryNodeId queryId) m

/-- `get_subscribers_for_labels`: the loop returns `None` at the first label that has no entry -/
def getSubscribersForLabels (m : SubscriberMap) : List String → Option (Multiset Subscription)
  | [] => some 0
  | label :: labels =>
    match m.labelMap.lookup label with
    | some set => (m.getSubscribersForLabels labels).map fun result => set.val + result
    | none => none

@[simp] theorem subscribers_new (label : String) : new.subscribers label = ∅ := by
  simp [subscribers, new]

theorem subscribers_add (m : SubscriberMap) (label qn q label' : String) :
    (m.add label qn q).subscribers label' =
      if label' = label then insert ⟨qn, q⟩ (m.subscribers label) else m.subscribers label' := by
  by_cases h : label' = label
  · subst h; simp [subscribers, add]
  · simp [subscribers, add, AList.lookup_insert_ne h, h]

/-- **What `add_labels` does to the label-to-subscriber relation.** -/
@[simp] theorem mem_subscribers_addLabels (m : SubscriberMap) (labels : List String) (qn q label : String)
    (p : Subscription) :
    p ∈ (m.addLabels labels qn q).subscribers label ↔ p ∈ m.subscribers label ∨ (label ∈ labels ∧ p = ⟨qn, q⟩) := by
  induction labels generalizing m with
  | nil => simp [addLabels]
  | cons l ls ih =>
    have hcons : m.addLabels (l :: ls) qn q = (m.add l qn q).addLabels ls qn q := rfl
    rw [hcons, ih, subscribers_add]
    split_ifs with h
    · subst h; simp only [Finset.mem_insert, List.mem_cons, true_or, true_and]; tauto
    · simp only [List.mem_cons, h, false_or]

theorem lookup_eq_none_iff (m : SubscriberMap) (label : String) :
    m.labelMap.lookup label = none ↔ m.subscribers label = ∅ := by
  unfold subscribers
  cases h : m.labelMap.lookup label with
  | none => simp
  | some set => simpa using (m.nonempty label set h).ne_empty

theorem lookup_of_nonempty (m : SubscriberMap) (label : String) (h : (m.subscribers label).Nonempty) :
    m.labelMap.lookup label = some (m.subscribers label) := by
  unfold subscribers at h ⊢
  cases hl : m.labelMap.lookup label with
  | none => simp [hl] at h
  | some set => rfl

/-- every label has a subscriber: the sets of the labels, one after the other -/
theorem getSubscribersForLabels_known (m : SubscriberMap) (labels : List String)
    (h : ∀ label ∈ labels, (m.subscribers label).Nonempty) :
    m.getSubscribersForLabels labels = some ((labels : Multiset String).bind fun l => (m.subscribers l).val) := by
  induction labels with
  | nil => rfl
  | cons l ls ih =>
    rw [getSubscribersForLabels, lookup_of_nonempty m l (h l List.mem_cons_self),
      ih fun label hl => h label (List.mem_cons_of_mem l hl)]
    simp [← Multiset.cons_coe]

/-- one label without a subscriber: `None`, whatever the other labels are -/
theorem getSubscribersForLabels_unknown (m : SubscriberMap) (labels : List String) (label : String)
    (hl : label ∈ labels) (h : m.subscribers label = ∅) : m.getSubscribersForLabels labels = none := by
  induction labels with
  | nil => simp at hl
  | cons l ls ih =>
    rcases List.mem_cons.1 hl with rfl | hl
    · rw [getSubscribersForLabels, (lookup_eq_none_iff m label).2 h]
    · rw [getSubscribersForLabels, ih hl]
      split <;> rfl

/-- the sets of the labels one after the other name a pair twice unless they are disjoint -/
theorem nodup_bind_subscribers (m : SubscriberMap) (labels : List String) :
    ((labels : Multiset String).bind fun l => (m.subscribers l).val).Nodup ↔
      labels.Pairwise fun l l' => Disjoint (m.subscribers l) (m.subscribers l') := by
  have : Std.Symm (Function.onFun Disjoint fun l => (m.subscribers l).val) := ⟨fun _ _ h => h.symm⟩
  rw [Multiset.nodup_bind, Multiset.pairwise_coe_iff_pairwise, and_iff_right fun l _ => (m.subscribers l).nodup]
  refine iff_of_eq (congrArg (fun R => List.Pairwise R labels) ?_)
  funext l l'
  exact propext Finset.disjoint_val

end SubscriberMap

end DrasiPlatform.Router
