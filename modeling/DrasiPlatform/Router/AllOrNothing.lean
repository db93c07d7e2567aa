/-
Is a subscription all or nothing? After the router has processed an `i` event of `SourceSubscription`, well formed or not,
either the subscriber is in both label maps under all its labels and its record is in the store (`Registers`), or the maps
and the store are as they were (`Untouched`).

The source reads the fields one after the other and changes the maps in between: the node labels are in memory before the
relation labels are looked at, and both are before the record is saved.

- `insert_cases`: the four states that an `i` event can leave.
- `allOrNothing_iff`: an event is all or nothing exactly when, once its node labels and ids can be read, so can its
  relation labels, and the record is saved; or else the subscriber was registered for its labels before.
Witness: `complete_subscription_registers`. Half a subscription: `half_subscription_stays` (relation labels missing; a
store that fails).
-/
import Mathlib.Tactic
import DrasiPlatform.Router.Restart

namespace DrasiPlatform.Router

open Json

/-! ## All, or nothing -/

/-- the maps and the store hold what they held -/
structure Untouched (r r' : AppState) : Prop where
  node : ∀ label, r'.nodeSubscriber.subscribers label = r.nodeSubscriber.subscribers label
  rel : ∀ label, r'.relSubscriber.subscribers label = r.relSubscriber.subscribers label
  store : ∀ key, r'.store.lookup key = r.store.lookup key

/-- the subscriber is added under all its labels, and its record is in the store -/
structure Registers (r r' : AppState) (c : Value) (p : Subscription) (nodeLabels relLabels : List String) : Prop where
  event : IsSubscribe c p nodeLabels relLabels
  node : ∀ label q, q ∈ r'.nodeSubscriber.subscribers label ↔
    q ∈ r.nodeSubscriber.subscribers label ∨ (label ∈ nodeLabels ∧ q = p)
  rel : ∀ label q, q ∈ r'.relSubscriber.subscribers label ↔
    q ∈ r.relSubscriber.subscribers label ∨ (label ∈ relLabels ∧ q = p)
  store : ∀ key, r'.store.lookup key =
    (r.store.insert (stateKey p.queryNodeId p.queryId) (sourceSubscriptionValue c)).lookup key

def AllOrNothing (r r' : AppState) (c : Value) : Prop :=
  Untouched r r' ∨ ∃ p nodeLabels relLabels, Registers r r' c p nodeLabels relLabels

/-- the subscriber has been registered under the labels before -/
def Known (m : SubscriberMap) (labels : List String) (p : Subscription) : Prop := ∀ label ∈ labels, p ∈ m.subscribers label

/-- the node labels and the ids of an event, which are read before anything is changed -/
structure Readable (c : Value) (p : Subscription) (nodeLabels : List String) : Prop where
  nodeLabels : ((after c).get "nodeLabels").labels = some nodeLabels
  queryNodeId : ((after c).get "queryNodeId").asStr = some p.queryNodeId
  queryId : ((after c).get "queryId").asStr = some p.queryId

/-- the record of the event is in the store afterwards: it is saved, or was there -/
def Recorded (E : Env) (r : AppState) (c : Value) (p : Subscription) : Prop :=
  E.saveState (stateKey p.queryNodeId p.queryId) (sourceSubscriptionValue c) = .ok () ∨
    r.store.lookup (stateKey p.queryNodeId p.queryId) = some (sourceSubscriptionValue c)

/-- once something is changed, nothing fails; or there is nothing to change -/
def Whole (E : Env) (r : AppState) (c : Value) : Prop :=
  ∀ p nodeLabels, Readable c p nodeLabels →
    ((∃ relLabels, ((after c).get "relLabels").labels = some relLabels) ∧ Recorded E r c p) ∨
    (Known r.nodeSubscriber nodeLabels p ∧
      ∀ relLabels, ((after c).get "relLabels").labels = some relLabels → Known r.relSubscriber relLabels p)

/-! ## What an event leaves -/

theorem Readable.unique {c : Value} {p p' : Subscription} {labels labels' : List String} (h : Readable c p labels)
    (h' : Readable c p' labels') : p' = p ∧ labels' = labels := by
  have hnode : p'.queryNodeId = p.queryNodeId := Option.some.inj (h'.queryNodeId.symm.trans h.queryNodeId)
  have hquery : p'.queryId = p.queryId := Option.some.inj (h'.queryId.symm.trans h.queryId)
  refine ⟨?_, Option.some.inj (h'.nodeLabels.symm.trans h.nodeLabels)⟩
  cases p
  cases p'
  simp_all

/-- **The four states that an `i` event can leave**: nothing read, half read, not saved, and complete. -/
theorem insert_cases (E : Env) (r : AppState) {c : Value} (hcontrol : isControl c = true)
    (hop : (op c).asStr = some "i") :
    ((∀ p nodeLabels, ¬ Readable c p nodeLabels) ∧ (handleChange E r c).2 = { r with handled := r.handled ++ [c] }) ∨
    ∃ p nodeLabels, Readable c p nodeLabels ∧
      ((((after c).get "relLabels").labels = none ∧ (handleChange E r c).2 = { r with
          handled := r.handled ++ [c]
          nodeSubscriber := r.nodeSubscriber.addLabels nodeLabels p.queryNodeId p.queryId }) ∨
      ∃ relLabels, ((after c).get "relLabels").labels = some relLabels ∧
        (((∃ e, E.saveState (stateKey p.queryNodeId p.queryId) (sourceSubscriptionValue c) = .error e) ∧
          (handleChange E r c).2 = { r with
            handled := r.handled ++ [c]
            nodeSubscriber := r.nodeSubscriber.addLabels nodeLabels p.queryNodeId p.queryId
            relSubscriber := r.relSubscriber.addLabels relLabels p.queryNodeId p.queryId }) ∨
        (E.saveState (stateKey p.queryNodeId p.queryId) (sourceSubscriptionValue c) = .ok () ∧
          (handleChange E r c).2 = { r with
            handled := r.handled ++ [c]
            nodeSubscriber := r.nodeSubscriber.addLabels nodeLabels p.queryNodeId p.queryId
            relSubscriber := r.relSubscriber.addLabels relLabels p.queryNodeId p.queryId
            store := r.store.insert (stateKey p.queryNodeId p.queryId) (sourceSubscriptionValue c) }))) := by
  have hturn : (handleChange E r c).2 = (handleInsert E { r with handled := r.handled ++ [c] } c).2 := by
    simp [handleChange, hcontrol, handleControl, hop]
  rw [hturn]
  unfold handleInsert
  cases hnode : ((after c).get "nodeLabels").labels with
  | none => exact .inl ⟨fun p labels h => by simp [h.nodeLabels] at hnode, rfl⟩
  | some nodeLabels =>
    cases hnodeId : ((after c).get "queryNodeId").asStr with
    | none => exact .inl ⟨fun p labels h => by simp [h.queryNodeId] at hnodeId, rfl⟩
    | some queryNodeId =>
      cases hid : ((after c).get "queryId").asStr with
      | none => exact .inl ⟨fun p labels h => by simp [h.queryId] at hid, rfl⟩
      | some queryId =>
        refine .inr ⟨⟨queryNodeId, queryId⟩, nodeLabels, ⟨hnode, hnodeId, hid⟩, ?_⟩
        cases hrel : ((after c).get "relLabels").labels with
        | none => exact .inl ⟨rfl, rfl⟩
        | some relLabels =>
          refine .inr ⟨relLabels, rfl, ?_⟩
          cases hsave : E.saveState (stateKey queryNodeId queryId) (sourceSubscriptionValue c) with
          | error e => exact .inl ⟨⟨e, rfl⟩, by simp only [hsave]⟩
          | ok u => exact .inr ⟨rfl, by simp only [hsave]⟩

/-! ## When it is all or nothing -/

theorem subscribers_addLabels_eq_iff (m : SubscriberMap) (labels : List String) (p : Subscription) :
    (∀ label, (m.addLabels labels p.queryNodeId p.queryId).subscribers label = m.subscribers label) ↔
      Known m labels p := by
  constructor
  · intro h label hlabel
    rw [← h label]
    exact (SubscriberMap.mem_subscribers_addLabels _ _ _ _ _ _).2 (.inr ⟨hlabel, rfl⟩)
  · intro h label
    ext q
    rw [SubscriberMap.mem_subscribers_addLabels]
    constructor
    · rintro (hq | ⟨hlabel, rfl⟩)
      · exact hq
      · exact h label hlabel
    · exact Or.inl

/-- **When a subscription is all or nothing.** -/
theorem allOrNothing_iff (E : Env) (r : AppState) (c : Value) (hcontrol : isControl c = true)
    (hop : (op c).asStr = some "i") : AllOrNothing r (handleChange E r c).2 c ↔ Whole E r c := by
  rcases insert_cases E r hcontrol hop with ⟨hunread, hstate⟩ | ⟨p, nodeLabels, hread, hrest⟩
  · -- nothing can be read, and nothing is changed
    rw [hstate]
    refine ⟨fun _ p labels hread => absurd hread (hunread p labels), fun _ => .inl ⟨?_, ?_, ?_⟩⟩ <;> exact fun _ => rfl
  · have hwhole : Whole E r c ↔
        ((∃ relLabels, ((after c).get "relLabels").labels = some relLabels) ∧ Recorded E r c p) ∨
        (Known r.nodeSubscriber nodeLabels p ∧
          ∀ relLabels, ((after c).get "relLabels").labels = some relLabels → Known r.relSubscriber relLabels p) := by
      refine ⟨fun h => h p nodeLabels hread, fun h p' labels' hread' => ?_⟩
      obtain ⟨rfl, rfl⟩ := hread.unique hread'
      exact h
    rw [hwhole]
    rcases hrest with ⟨hrel, hstate⟩ | ⟨relLabels, hrel, ⟨⟨e, hsave⟩, hstate⟩ | ⟨hsave, hstate⟩⟩
    · -- the relation labels cannot be read: the node labels stay in memory
      rw [hstate, hrel]
      constructor
      · rintro (h | ⟨p', labels', relLabels', h⟩)
        · refine .inr ⟨(subscribers_addLabels_eq_iff _ _ _).1 h.node, fun relLabels hsome => ?_⟩
          cases hsome
        · rw [h.event.relLabels] at hrel
          cases hrel
      · rintro (⟨⟨relLabels, hsome⟩, -⟩ | ⟨hknown, -⟩)
        · cases hsome
        · exact .inl ⟨(subscribers_addLabels_eq_iff _ _ _).2 hknown, fun _ => rfl, fun _ => rfl⟩
    · -- the record is not saved: both maps are changed
      rw [hstate]
      constructor
      · rintro (h | ⟨p', labels', relLabels', h⟩)
        · refine .inr ⟨(subscribers_addLabels_eq_iff _ _ _).1 h.node, fun labels hsome => ?_⟩
          rw [hrel] at hsome
          cases hsome
          exact (subscribers_addLabels_eq_iff _ _ _).1 h.rel
        · obtain ⟨rfl, rfl⟩ := hread.unique ⟨h.event.nodeLabels, h.event.queryNodeId, h.event.queryId⟩
          have hstored := h.store (stateKey p'.queryNodeId p'.queryId)
          rw [AList.lookup_insert] at hstored
          exact .inl ⟨⟨relLabels, hrel⟩, .inr hstored⟩
      · rintro (⟨-, hsaved | hstored⟩ | ⟨hnode, hrest⟩)
        · rw [hsave] at hsaved
          cases hsaved
        · refine .inr ⟨p, nodeLabels, relLabels, ⟨hcontrol, hop, hread.nodeLabels, hrel, hread.queryNodeId, hread.queryId⟩,
            fun label q => ?_, fun label q => ?_, fun key => ?_⟩
          · exact SubscriberMap.mem_subscribers_addLabels _ _ _ _ _ _
          · exact SubscriberMap.mem_subscribers_addLabels _ _ _ _ _ _
          · by_cases hkey : key = stateKey p.queryNodeId p.queryId
            · subst hkey
              rw [AList.lookup_insert]
              exact hstored
            · rw [AList.lookup_insert_ne hkey]
        · exact .inl ⟨(subscribers_addLabels_eq_iff _ _ _).2 hnode,
            (subscribers_addLabels_eq_iff _ _ _).2 (hrest relLabels hrel), fun _ => rfl⟩
    · -- all is done
      rw [hstate]
      refine iff_of_true (.inr ⟨p, nodeLabels, relLabels, ?_⟩) (.inl ⟨⟨relLabels, hrel⟩, .inl hsave⟩)
      exact ⟨⟨hcontrol, hop, hread.nodeLabels, hrel, hread.queryNodeId, hread.queryId⟩,
        fun _ _ => SubscriberMap.mem_subscribers_addLabels _ _ _ _ _ _,
        fun _ _ => SubscriberMap.mem_subscribers_addLabels _ _ _ _ _ _, fun _ => rfl⟩

/-! ## Half a subscription -/

/-- a subscription event whose relation labels are missing -/
def nodesOnlyEvent (p : Subscription) (nodeLabels : List String) : Value :=
  controlEvent "i" "after" (.object [("queryId", .string p.queryId), ("queryNodeId", .string p.queryNodeId),
    ("nodeLabels", .ofStrings nodeLabels)])

/-- the state store refuses to save -/
def unsaved : Env :=
  ⟨"shop", "", fun _ _ => .error "state store unavailable", fun _ => .ok (), fun _ => .ok ()⟩

/-- **Half a subscription stays.** The relation labels are missing, and the subscriber is registered for its node labels;
the record cannot be saved, and the subscriber is registered without it. -/
theorem half_subscription_stays :
    ¬ AllOrNothing .empty (handleChange (.reliable "shop" "") .empty (nodesOnlyEvent ⟨"c", "q"⟩ ["Item"])).2
      (nodesOnlyEvent ⟨"c", "q"⟩ ["Item"]) ∧
    ¬ AllOrNothing .empty (handleChange unsaved .empty (subscribeEvent ⟨"c", "q"⟩ ["Item"] [])).2
      (subscribeEvent ⟨"c", "q"⟩ ["Item"] []) := by
  constructor
  · rintro (h | ⟨p, nodeLabels, relLabels, h⟩)
    · exact absurd (h.node "Item") (by decide)
    · cases h.event.relLabels
  · rintro (h | ⟨p, nodeLabels, relLabels, h⟩)
    · exact absurd (h.node "Item") (by decide)
    · have hstored := h.store (stateKey p.queryNodeId p.queryId)
      rw [AList.lookup_insert] at hstored
      cases hstored

theorem complete_subscription_registers :
    AllOrNothing .empty (handleChange (.reliable "shop" "") .empty (subscribeEvent ⟨"c", "q"⟩ ["Item"] [])).2
      (subscribeEvent ⟨"c", "q"⟩ ["Item"] []) := by
  refine (allOrNothing_iff _ _ _ rfl rfl).2 fun p nodeLabels _ => ?_
  exact .inl ⟨⟨[], rfl⟩, .inl rfl⟩

end DrasiPlatform.Router
