/-
The keys of the subscription records in the change router's state store: can an event of one (queryNodeId, queryId) pair
touch the record of another one?

The key of a record is the two ids joined by a hyphen, and both ids are free texts. A turn of the loop over a batch changes
the store at the key of the pair its event names and nowhere else (`handleChange_store`).

- `stateKey_inj`: two pairs share a key exactly when their joined ids are the same text.
- `handleChange_record`: an event of a pair with another key leaves the record alone, in every state.
- `records_independent_iff`: from the empty router, after every run of batches, an event of `p` leaves the record of `q`
  alone, exactly when the joined ids differ.
- `records_independent_of_no_hyphen`: it does for distinct pairs whose query node ids have no hyphen.
Witness: `records_collide` (the pairs `a-b`, `c` and `a`, `b-c`).
-/
import Mathlib.Tactic
import DrasiPlatform.Core.Separators
import DrasiPlatform.Router.Unsubscribe

namespace DrasiPlatform.Router

open Json Run

/-! ## Model -/

/-- the persisted subscription record of a pair -/
def record (r : AppState) (p : Subscription) : Option Value := r.store.lookup (stateKey p.queryNodeId p.queryId)

/-- a subscription or unsubscription event of the pair -/
def EventFor (c : Value) (p : Subscription) : Prop := Resubscribes c p ∨ IsUnsubscribe c p

/-- in every state that a run of batches leads to, whatever the remote calls answer, an event of `p` leaves the record of
`q` as it is -/
def Independent (p q : Subscription) : Prop :=
  ∀ (before : List Batch) (E : Env) (c : Value), EventFor c p →
    record (receive E (run Batch.step .empty before) [c]) q = record (run Batch.step .empty before) q

/-! ## Keys -/

theorem append_sep_inj (pre sep a b c d : String) :
    pre ++ a ++ sep ++ b = pre ++ c ++ sep ++ d ↔ a ++ sep ++ b = c ++ sep ++ d := by
  simp only [String.append_assoc, String.append_right_inj]

/-- **A key is the joined ids**: nothing else tells two pairs apart. -/
theorem stateKey_inj {p q : Subscription} :
    stateKey p.queryNodeId p.queryId = stateKey q.queryNodeId q.queryId ↔
      p.queryNodeId ++ "-" ++ p.queryId = q.queryNodeId ++ "-" ++ q.queryId :=
  append_sep_inj "SourceSubscription-" "-" p.queryNodeId p.queryId q.queryNodeId q.queryId

/-- the hyphen of the key is the first one when the query node ids have none -/
theorem joined_inj_of_no_hyphen {p q : Subscription} (hp : '-' ∉ p.queryNodeId.toList) (hq : '-' ∉ q.queryNodeId.toList)
    (h : p.queryNodeId ++ "-" ++ p.queryId = q.queryNodeId ++ "-" ++ q.queryId) : p = q := by
  have hchars : p.queryNodeId.toList ++ '-' :: p.queryId.toList = q.queryNodeId.toList ++ '-' :: q.queryId.toList := by
    simpa using congrArg String.toList h
  obtain ⟨hnode, hquery⟩ := Separators.append_cons_inj_of_notMem_left hp hq hchars
  cases p
  cases q
  rw [Subscription.mk.injEq]
  exact ⟨String.toList_inj.1 hnode, String.toList_inj.1 hquery⟩

/-! ## One event -/

/-- **The store changes at the key of the pair the event names**, and nowhere else. -/
theorem handleChange_store {c : Value} {p : Subscription} (hc : EventFor c p) (E : Env) (r : AppState) {key : String}
    (hk : key ≠ stateKey p.queryNodeId p.queryId) : (handleChange E r c).2.store.lookup key = r.store.lookup key := by
  rcases hc with ⟨hctl, hop, hn, hq⟩ | ⟨hctl, hop, hn, hq⟩
  · simp only [handleChange, hctl, if_true, handleControl, hop, handleInsert, hn, hq]
    split; · rfl
    split; · rfl
    split
    · exact AList.lookup_insert_ne hk
    · rfl
  · simp only [handleChange, hctl, if_true, handleControl, hop, handleDelete, hn, hq]
    split
    · exact AList.lookup_erase_ne hk
    · rfl

theorem handleChange_record {c : Value} {p q : Subscription} (hc : EventFor c p) (E : Env) (r : AppState)
    (h : p.queryNodeId ++ "-" ++ p.queryId ≠ q.queryNodeId ++ "-" ++ q.queryId) :
    record (handleChange E r c).2 q = record r q :=
  handleChange_store hc E r fun hk => h (stateKey_inj.1 hk.symm)

/-- a subscription makes a record, and the unsubscription of a pair with the same key takes it away -/
theorem record_taken {sourceId traceparent : String} {p q : Subscription}
    (h : stateKey p.queryNodeId p.queryId = stateKey q.queryNodeId q.queryId) :
    record (receive (.reliable sourceId traceparent) .empty [subscribeEvent q [] []]) q ≠
      record (receive (.reliable sourceId traceparent)
        (receive (.reliable sourceId traceparent) .empty [subscribeEvent q [] []]) [unsubscribeEvent p]) q := by
  rw [receive_singleton, receive_singleton, handleChange_subscribe (isSubscribe_subscribeEvent q [] []),
    handleChange_unsubscribe (isUnsubscribe_unsubscribeEvent p)]
  simp [record, h]

/-! ## Every run -/

theorem independent_of_joined_ne {p q : Subscription}
    (h : p.queryNodeId ++ "-" ++ p.queryId ≠ q.queryNodeId ++ "-" ++ q.queryId) : Independent p q := by
  intro before E c hc
  rw [receive_singleton]
  exact handleChange_record hc E _ h

theorem not_independent_of_joined_eq {p q : Subscription}
    (h : p.queryNodeId ++ "-" ++ p.queryId = q.queryNodeId ++ "-" ++ q.queryId) : ¬ Independent p q := by
  intro hind
  have hsame := hind [⟨.reliable "shop" "", [subscribeEvent q [] []]⟩] (.reliable "shop" "") (unsubscribeEvent p)
    (.inr (isUnsubscribe_unsubscribeEvent p))
  exact record_taken (stateKey_inj.2 h) hsame.symm

/-- **Independence of the records, exactly.** After every run of batches an event of `p` leaves the record of `q` alone,
if and only if the ids of `p` and of `q`, joined by a hyphen, are different texts. -/
theorem records_independent_iff (p q : Subscription) :
    Independent p q ↔ p.queryNodeId ++ "-" ++ p.queryId ≠ q.queryNodeId ++ "-" ++ q.queryId :=
  ⟨fun h hjoined => not_independent_of_joined_eq hjoined h, independent_of_joined_ne⟩

/-- ids without hyphens: distinct pairs have records of their own -/
theorem records_independent_of_no_hyphen {p q : Subscription} (hne : p ≠ q) (hp : '-' ∉ p.queryNodeId.toList)
    (hq : '-' ∉ q.queryNodeId.toList) : Independent p q :=
  independent_of_joined_ne fun h => hne (joined_inj_of_no_hyphen hp hq h)

/-- **Two pairs, one record.** The query `c` of the node `a-b` and the query `b-c` of the node `a`: the unsubscription of
the one deletes the record of the other. -/
theorem records_collide :
    (⟨"a-b", "c"⟩ : Subscription) ≠ ⟨"a", "b-c"⟩ ∧ ¬ Independent ⟨"a-b", "c"⟩ ⟨"a", "b-c"⟩ :=
  ⟨by decide, not_independent_of_joined_eq (by decide)⟩

end DrasiPlatform.Router
