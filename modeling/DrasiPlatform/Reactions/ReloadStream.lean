/-
Live notifications and reloads on one connection of the React client.

A query goes through result sets, each event from one to the next; the events are flattened into notifications and arrive
in order. A reload is a stream of its own: a header with the sequence of the view, then the rows of the view at that
sequence. Nothing orders the streams against the notifications or against each other, and a row of a reload carries no
sequence the client could compare.

- `History.settled_mem_iff`: when no notification about a row is still to come, the last one delivered tells whether the
  row is in the result set from then on.
- `converges_of_current`: in a run whose deliveries all meet `Current`, a row that was taken away is only there when a
  reload not older than that change has it, and once everything is delivered the client has the current result set.
Witnesses: `current_needed`, in which a stale row of a reload, a stale header and a row that one event both adds and
deletes each leave the client with a wrong result set.
-/
import Mathlib.Tactic
import DrasiPlatform.Core.Run
import DrasiPlatform.Reactions.ResultSet

namespace DrasiPlatform.SignalR

open Run

variable {Row : Type}

/-! ## What a notification says about a row -/

namespace ChangeNotification

def Brings (x : ChangeNotification Row) (r : Row) : Prop := x.payload.after = some r

/-- the row is there before and not after -/
def Takes (x : ChangeNotification Row) (r : Row) : Prop := x.payload.before = some r ∧ x.payload.after ≠ some r

def Touches (x : ChangeNotification Row) (r : Row) : Prop := x.Brings r ∨ x.Takes r

/-- a notification with the rows its operation needs -/
structure WellFormed (x : ChangeNotification Row) : Prop where
  inserted : x.op = .I → x.payload.before = none ∧ ∃ r, x.payload.after = some r
  updated : x.op = .U → ∃ r, x.payload.after = some r
  deleted : x.op = .D → x.payload.after = none ∧ ∃ r, x.payload.before = some r

theorem Brings.not_takes {x : ChangeNotification Row} {r : Row} (h : x.Brings r) : ¬x.Takes r := fun ht => ht.2 h

theorem touches_of_before {x : ChangeNotification Row} {r : Row} (h : x.payload.before = some r) : x.Touches r := by
  by_cases ha : x.payload.after = some r
  · exact Or.inl ha
  · exact Or.inr ⟨h, ha⟩

variable [DecidableEq Row]

instance (x : ChangeNotification Row) (r : Row) : Decidable (x.Brings r) := inferInstanceAs (Decidable (_ = _))

instance (x : ChangeNotification Row) (r : Row) : Decidable (x.Takes r) := inferInstanceAs (Decidable (_ ∧ _))

instance (x : ChangeNotification Row) (r : Row) : Decidable (x.Touches r) := inferInstanceAs (Decidable (_ ∨ _))

end ChangeNotification

/-! ## Histories of a result set -/

/-- the event describes the step between two result sets, which have no row twice -/
structure Describes (evt : ChangeEvent Row) (S S' : Finset Row) : Prop where
  after : ∀ u ∈ evt.updatedResults, ∃ r, u.after = some r
  rows : ∃ kept : List Row,
    S.val = ↑(kept ++ evt.deletedResults ++ evt.updatedResults.filterMap UpdatedResultElement.before) ∧
      S'.val = ↑(kept ++ evt.addedResults ++ evt.updatedResults.filterMap UpdatedResultElement.after)

/-- result sets, and the events between them, numbered from one -/
structure History (Row : Type) where
  last : ℕ
  sets : ℕ → Finset Row
  events : ℕ → ChangeEvent Row
  sequence : ∀ k < last, (events k).sequence = k + 1
  describes : ∀ k < last, Describes (events k) (sets k) (sets (k + 1))

def History.notifications (H : History Row) : List (ChangeNotification Row) :=
  (List.range H.last).flatMap fun k => format (H.events k)

theorem mem_format {evt : ChangeEvent Row} {x : ChangeNotification Row} :
    x ∈ format evt ↔
      (∃ r ∈ evt.addedResults, x = evt.notification .I none (some r)) ∨
        (∃ u ∈ evt.updatedResults, x = evt.notification .U u.before u.after) ∨
          ∃ r ∈ evt.deletedResults, x = evt.notification .D (some r) none := by
  simp [format, eq_comm]

theorem format_seq {evt : ChangeEvent Row} {x : ChangeNotification Row} (hx : x ∈ format evt) : x.seq = evt.sequence := by
  rcases mem_format.1 hx with ⟨r, -, rfl⟩ | ⟨u, -, rfl⟩ | ⟨r, -, rfl⟩ <;> rfl

namespace Describes

variable {evt : ChangeEvent Row} {S S' : Finset Row} {x : ChangeNotification Row} {r : Row}

theorem wellFormed (h : Describes evt S S') (hx : x ∈ format evt) : x.WellFormed := by
  rcases mem_format.1 hx with ⟨r, -, rfl⟩ | ⟨u, hu, rfl⟩ | ⟨r, -, rfl⟩
  · exact ⟨fun _ => ⟨rfl, r, rfl⟩, fun _ => ⟨r, rfl⟩, fun hop => (by cases hop)⟩
  · exact ⟨fun hop => (by cases hop), fun _ => h.after u hu, fun hop => (by cases hop)⟩
  · exact ⟨fun hop => (by cases hop), fun hop => (by cases hop), fun _ => ⟨rfl, r, rfl⟩⟩

theorem mem_of_brings (h : Describes evt S S') (hx : x ∈ format evt) (hb : x.Brings r) : r ∈ S' := by
  obtain ⟨kept, -, hS'⟩ := h.rows
  rw [← Finset.mem_val, hS', Multiset.mem_coe]
  rcases mem_format.1 hx with ⟨a, ha, rfl⟩ | ⟨u, hu, rfl⟩ | ⟨a, ha, rfl⟩
  · cases hb
    simp [ha]
  · have hafter : r ∈ evt.updatedResults.filterMap UpdatedResultElement.after := List.mem_filterMap.2 ⟨u, hu, hb⟩
    simp [hafter]
  · cases hb

/-- a row that a notification takes away is gone, unless another notification of the event brings it -/
theorem notMem_of_takes (h : Describes evt S S') (hx : x ∈ format evt) (ht : x.Takes r)
    (hbring : ∀ y ∈ format evt, ¬y.Brings r) : r ∉ S' := by
  obtain ⟨kept, hS, hS'⟩ := h.rows
  have hgone : r ∈ evt.deletedResults ++ evt.updatedResults.filterMap UpdatedResultElement.before := by
    rcases mem_format.1 hx with ⟨a, ha, rfl⟩ | ⟨u, hu, rfl⟩ | ⟨a, ha, rfl⟩
    · cases ht.1
    · exact List.mem_append_right _ (List.mem_filterMap.2 ⟨u, hu, ht.1⟩)
    · have har : a = r := Option.some.inj ht.1
      exact List.mem_append_left _ (har ▸ ha)
  have hnodup : (kept ++ (evt.deletedResults ++ evt.updatedResults.filterMap UpdatedResultElement.before)).Nodup := by
    have hval := S.nodup
    rwa [hS, Multiset.coe_nodup, List.append_assoc] at hval
  have hkept : r ∉ kept := fun hmem => (List.nodup_append.1 hnodup).2.2 r hmem r hgone rfl
  rw [← Finset.mem_val, hS', Multiset.mem_coe]
  simp only [List.mem_append, List.mem_filterMap, not_or]
  refine ⟨⟨hkept, fun hadd => ?_⟩, ?_⟩
  · exact hbring _ (mem_format.2 (Or.inl ⟨r, hadd, rfl⟩)) rfl
  · rintro ⟨u, hu, hur⟩
    exact hbring _ (mem_format.2 (Or.inr (Or.inl ⟨u, hu, rfl⟩))) hur

theorem mem_iff_of_untouched (h : Describes evt S S') (ht : ∀ x ∈ format evt, ¬x.Touches r) : r ∈ S ↔ r ∈ S' := by
  obtain ⟨kept, hS, hS'⟩ := h.rows
  have hdel : r ∉ evt.deletedResults := fun hmem =>
    ht _ (mem_format.2 (Or.inr (Or.inr ⟨r, hmem, rfl⟩))) (ChangeNotification.touches_of_before rfl)
  have hadd : r ∉ evt.addedResults := fun hmem => ht _ (mem_format.2 (Or.inl ⟨r, hmem, rfl⟩)) (Or.inl rfl)
  have hbefore : r ∉ evt.updatedResults.filterMap UpdatedResultElement.before := by
    rintro hmem
    obtain ⟨u, hu, hur⟩ := List.mem_filterMap.1 hmem
    exact ht _ (mem_format.2 (Or.inr (Or.inl ⟨u, hu, rfl⟩))) (ChangeNotification.touches_of_before hur)
  have hafter : r ∉ evt.updatedResults.filterMap UpdatedResultElement.after := by
    rintro hmem
    obtain ⟨u, hu, hur⟩ := List.mem_filterMap.1 hmem
    exact ht _ (mem_format.2 (Or.inr (Or.inl ⟨u, hu, rfl⟩))) (Or.inl hur)
  rw [← Finset.mem_val, ← Finset.mem_val, hS, hS', Multiset.mem_coe, Multiset.mem_coe]
  simp only [List.mem_append, hdel, hadd, hbefore, hafter, or_false]

end Describes

namespace History

variable {H : History Row} {x : ChangeNotification Row} {r : Row}

theorem mem_notifications : x ∈ H.notifications ↔ ∃ k < H.last, x ∈ format (H.events k) := by
  simp [notifications]

theorem wellFormed (hx : x ∈ H.notifications) : x.WellFormed := by
  obtain ⟨k, hk, hmem⟩ := mem_notifications.1 hx
  exact (H.describes k hk).wellFormed hmem

theorem notifications_sorted (H : History Row) : H.notifications.Pairwise fun x y => x.seq ≤ y.seq := by
  have hseq : ∀ k ∈ List.range H.last, ∀ x ∈ format (H.events k), x.seq = k + 1 := fun k hk x hx =>
    (format_seq hx).trans (H.sequence k (List.mem_range.1 hk))
  refine List.pairwise_flatMap.2 ⟨fun k hk => ?_, ?_⟩
  · exact List.pairwise_of_forall_mem_list fun x hx y hy => ((hseq k hk x hx).trans (hseq k hk y hy).symm).le
  · refine List.pairwise_lt_range.imp_of_mem fun {j k} hj hk hjk x hx y hy => ?_
    rw [hseq j hj x hx, hseq k hk y hy]
    omega

theorem seq_le (hx : x ∈ H.notifications) : x.seq ≤ H.last := by
  obtain ⟨k, hk, hmem⟩ := mem_notifications.1 hx
  rw [format_seq hmem, H.sequence k hk]
  exact_mod_cast hk

/-- result sets between which no notification is about a row agree on the row -/
theorem mem_iff_of_untouched {j : ℕ} (k : ℕ) (hjk : j ≤ k) (hk : k ≤ H.last)
    (ht : ∀ i, j ≤ i → i < k → ∀ x ∈ format (H.events i), ¬x.Touches r) : r ∈ H.sets j ↔ r ∈ H.sets k := by
  induction k, hjk using Nat.le_induction with
  | base => rfl
  | succ k hjk ih =>
    have hstep : r ∈ H.sets k ↔ r ∈ H.sets (k + 1) :=
      (H.describes k (by omega)).mem_iff_of_untouched (ht k hjk (by omega))
    rw [← hstep]
    exact ih (by omega) fun i hi hik => ht i hi (by omega)

end History

/-! ## The last notification about a row -/

section LastLive

variable [DecidableEq Row]

/-- the last of the notifications that is about the row -/
def lastLive (delivered : List (ChangeNotification Row)) (r : Row) : Option (ChangeNotification Row) :=
  delivered.reverse.find? fun x => x.Touches r

/-- no notification takes away a row that an earlier one of the same event has brought -/
def KeepsBrought (y x : ChangeNotification Row) : Prop := y.seq = x.seq → ∀ r, y.Brings r → ¬x.Takes r

variable {delivered pending : List (ChangeNotification Row)} {x : ChangeNotification Row} {r : Row}

theorem lastLive_append (delivered : List (ChangeNotification Row)) (x : ChangeNotification Row) (r : Row) :
    lastLive (delivered ++ [x]) r = if x.Touches r then some x else lastLive delivered r := by
  by_cases hx : x.Touches r <;> simp [lastLive, hx]

theorem lastLive_eq_some (h : lastLive delivered r = some x) :
    x.Touches r ∧ ∃ pre post, delivered = pre ++ x :: post ∧ ∀ y ∈ post, ¬y.Touches r := by
  obtain ⟨hx, as, bs, hrev, has⟩ := List.find?_eq_some_iff_append.1 h
  refine ⟨of_decide_eq_true hx, bs.reverse, as.reverse, ?_, fun y hy => ?_⟩
  · rw [← List.reverse_reverse delivered, hrev]
    simp
  · simpa using has y (List.mem_reverse.1 hy)

theorem mem_of_lastLive (h : lastLive delivered r = some x) : x ∈ delivered := by
  obtain ⟨-, pre, post, rfl, -⟩ := lastLive_eq_some h
  simp

theorem lastLive_eq_none : lastLive delivered r = none ↔ ∀ x ∈ delivered, ¬x.Touches r := by
  simp [lastLive]

variable {H : History Row}

/-- **The last word on a row.** When no notification about the row is still to come, the last one delivered tells whether
the row is in the result sets from its event on. -/
theorem History.settled_mem_iff (hall : delivered ++ pending = H.notifications) (hkeeps : delivered.Pairwise KeepsBrought)
    (hsettled : ∀ y ∈ pending, ¬y.Touches r) (hx : lastLive delivered r = some x) {j : ℕ} (hxj : x.seq ≤ j)
    (hj : j ≤ H.last) : r ∈ H.sets j ↔ x.Brings r := by
  obtain ⟨htouch, pre, post, rfl, hpost⟩ := lastLive_eq_some hx
  have hxmem : x ∈ H.notifications := by
    rw [← hall]
    simp
  obtain ⟨k, hk, hxk⟩ := History.mem_notifications.1 hxmem
  have hseq : ∀ i < H.last, ∀ y ∈ format (H.events i), y.seq = i + 1 := fun i hi y hy =>
    (format_seq hy).trans (H.sequence i hi)
  have hxseq : x.seq = k + 1 := hseq k hk x hxk
  have hsorted : (pre ++ x :: (post ++ pending)).Pairwise fun y z => y.seq ≤ z.seq := by
    have hs := H.notifications_sorted
    rwa [← hall, List.append_assoc, List.cons_append] at hs
  have hwhere : ∀ i < H.last, ∀ y ∈ format (H.events i), y ∈ pre ∨ y = x ∨ ¬y.Touches r := by
    intro i hi y hy
    have hmem : y ∈ pre ++ x :: post ++ pending := hall ▸ History.mem_notifications.2 ⟨i, hi, hy⟩
    simp only [List.mem_append, List.mem_cons] at hmem
    rcases hmem with (hpre | heq | hafter) | hpend
    · exact Or.inl hpre
    · exact Or.inr (Or.inl heq)
    · exact Or.inr (Or.inr (hpost y hafter))
    · exact Or.inr (Or.inr (hsettled y hpend))
  -- after the event of `x` the row is not touched again
  have hlater : ∀ i, k + 1 ≤ i → i < j → ∀ y ∈ format (H.events i), ¬y.Touches r := by
    intro i hki hij y hy
    have hyseq : y.seq = i + 1 := hseq i (by omega) y hy
    rcases hwhere i (by omega) y hy with hpre | rfl | hno
    · have hle : y.seq ≤ x.seq := (List.pairwise_append.1 hsorted).2.2 y hpre x List.mem_cons_self
      omega
    · omega
    · exact hno
  rw [← H.mem_iff_of_untouched j (by omega) hj hlater]
  have hdescr := H.describes k hk
  rcases htouch with hbring | htake
  · exact iff_of_true (hdescr.mem_of_brings hxk hbring) hbring
  · refine iff_of_false (hdescr.notMem_of_takes hxk htake fun y hy hb => ?_) fun hb => htake.2 hb
    rcases hwhere k hk y hy with hpre | rfl | hno
    · have hk' : KeepsBrought y x := (List.pairwise_append.1 hkeeps).2.2 y hpre x List.mem_cons_self
      exact hk' ((hseq k hk y hy).trans hxseq.symm) r hb htake
    · exact hb.not_takes htake
    · exact hno (Or.inl hb)

theorem History.untouched_mem_iff (hall : delivered ++ pending = H.notifications)
    (hsettled : ∀ y ∈ pending, ¬y.Touches r) (hx : lastLive delivered r = none) {j : ℕ} (hj : j ≤ H.last) :
    r ∈ H.sets j ↔ r ∈ H.sets H.last := by
  refine H.mem_iff_of_untouched H.last hj le_rfl fun i _ hi y hy => ?_
  have hmem : y ∈ delivered ++ pending := hall ▸ History.mem_notifications.2 ⟨i, hi, hy⟩
  rcases List.mem_append.1 hmem with hdel | hpend
  · exact lastLive_eq_none.1 hx y hdel
  · exact hsettled y hpend

end LastLive

/-! ## One connection -/

/-- a reload: whether its header is sent, and the rows still to be sent -/
structure Stream (Row : Type) where
  seq : ℕ
  headerSent : Bool
  rows : List Row

/-- the items still to come, as `GetCurrentResult` yields them -/
def Stream.items (st : Stream Row) : List (ViewItem Row) :=
  (if st.headerSent then [] else [⟨some (st.seq : Int), none⟩]) ++ st.rows.map fun row => ⟨none, some row⟩

def Stream.next (st : Stream Row) : Stream Row :=
  if st.headerSent then { st with rows := st.rows.tail } else { st with headerSent := true }

/-- the client, the notifications still to come and those delivered, and the reloads -/
structure Link (Row ι : Type) where
  client : React.State Row
  pending : List (ChangeNotification Row)
  delivered : List (ChangeNotification Row)
  streams : ι → Stream Row

inductive Delivery (ι : Type) where
  | live
  | reload (i : ι)

section Link

variable [DecidableEq Row] {ι : Type} [DecidableEq ι] (hash : Row → ℕ)

/-- the client with deletions not ignored -/
def Link.step (s : Link Row ι) : Delivery ι → Link Row ι
  | .live =>
    match s.pending with
    | [] => s
    | x :: rest =>
      { s with
        client := React.receive hash ⟨false⟩ s.client (.change x)
        pending := rest
        delivered := s.delivered ++ [x] }
  | .reload i =>
    match (s.streams i).items with
    | [] => s
    | item :: _ =>
      { s with
        client := React.receive hash ⟨false⟩ s.client (.reload (formatView item))
        streams := Function.update s.streams i (s.streams i).next }

/-- the row is in the client's data -/
def Link.Shows (s : Link Row ι) (r : Row) : Prop := s.client.data (hash r) = some r

instance (s : Link Row ι) (r : Row) : Decidable (s.Shows hash r) := inferInstanceAs (Decidable (_ = _))

variable (H : History Row) {hash}

/-- nothing delivered, and each reload with the rows of the view at its sequence -/
structure Link.Starts (s : Link Row ι) : Prop where
  client : s.client = React.State.start
  pending : s.pending = H.notifications
  delivered : s.delivered = []
  streams : ∀ i, (s.streams i).seq ≤ H.last ∧ (s.streams i).headerSent = false ∧
    (s.streams i).rows.Nodup ∧ (s.streams i).rows.toFinset = H.sets (s.streams i).seq

def Link.Delivered (s : Link Row ι) : Prop := s.pending = [] ∧ ∀ i, (s.streams i).items = []

/-- the last live change of the row so far is newer than `m` and brought it -/
def Link.BroughtAfter (s : Link Row ι) (m : ℕ) (r : Row) : Prop :=
  ∃ x ∈ lastLive s.delivered r, (m : Int) < x.seq ∧ x.Brings r

/-- the last live change of the row so far is newer than `m` and took it away -/
def Link.TakenAfter (s : Link Row ι) (m : ℕ) (r : Row) : Prop :=
  ∃ x ∈ lastLive s.delivered r, (m : Int) < x.seq ∧ x.Takes r

/-- what the delivery says is not older than what the client knows: a notification takes away no row that its own event
has brought, a header clears no row that a newer change has brought unless the reload brings it too, and a row of a reload
is not one that a newer change has taken away -/
def Link.Current (s : Link Row ι) : Delivery ι → Prop
  | .live => ∀ x ∈ s.pending.head?, ∀ y ∈ s.delivered, KeepsBrought y x
  | .reload i =>
    if (s.streams i).headerSent then ∀ r ∈ (s.streams i).rows.head?, ¬s.TakenAfter (s.streams i).seq r
    else ∀ r, s.BroughtAfter (s.streams i).seq r → r ∈ H.sets (s.streams i).seq

/-- a row that the last live change took away is only there when a reload not older than that change has it -/
def Link.NotResurrected (hash : Row → ℕ) (s : Link Row ι) : Prop :=
  ∀ r, ∀ x ∈ lastLive s.delivered r, x.Takes r → s.Shows hash r →
    ∃ i, x.seq ≤ (s.streams i).seq ∧ r ∈ H.sets (s.streams i).seq

/-- once everything is delivered, the rows of the client are the current result set -/
def Link.Converged (s : Link Row ι) : Prop := s.Delivered → s.client.data.rows = ↑(H.sets H.last)

/-! ## What a delivery does -/

section Deliver

variable {H} {s : Link Row ι} {x : ChangeNotification Row} {rest : List (ChangeNotification Row)} {i : ι} {r r' : Row}

omit [DecidableEq Row] in
theorem step_live (hp : s.pending = x :: rest) :
    s.step hash .live =
      { s with
        client := React.receive hash ⟨false⟩ s.client (.change x)
        pending := rest
        delivered := s.delivered ++ [x] } := by
  simp [Link.step, hp]

omit [DecidableEq Row] in
theorem step_header (hs : (s.streams i).headerSent = false) :
    s.step hash (.reload i) =
      { s with
        client := ⟨Data.empty, some (s.streams i).seq⟩
        streams := Function.update s.streams i { s.streams i with headerSent := true } } := by
  simp [Link.step, Stream.items, Stream.next, hs, React.receive, React.onReload, formatView]

omit [DecidableEq Row] in
theorem step_row {rows : List Row} (hs : (s.streams i).headerSent = true) (hr : (s.streams i).rows = r :: rows) :
    s.step hash (.reload i) =
      { s with
        client := { s.client with data := s.client.data.set (hash r) r }
        streams := Function.update s.streams i { s.streams i with rows := rows } } := by
  simp [Link.step, Stream.items, Stream.next, hs, hr, React.receive, React.onReload, formatView, setAfter]

omit [DecidableEq Row] in
theorem step_done (hs : (s.streams i).headerSent = true) (hr : (s.streams i).rows = []) : s.step hash (.reload i) = s := by
  simp [Link.step, Stream.items, hs, hr]

omit [DecidableEq Row] in
variable (hash s) in
/-- an item of a reload leaves the notifications and the sequences alone, and brings no row into a stream -/
theorem reload_frame (i : ι) :
    (s.step hash (.reload i)).delivered = s.delivered ∧ (s.step hash (.reload i)).pending = s.pending ∧
      ∀ j, ((s.step hash (.reload i)).streams j).seq = (s.streams j).seq ∧
        ∀ r ∈ ((s.step hash (.reload i)).streams j).rows, r ∈ (s.streams j).rows := by
  cases hs : (s.streams i).headerSent with
  | false =>
    rw [step_header hs]
    refine ⟨rfl, rfl, fun j => ?_⟩
    by_cases hj : j = i
    · subst hj
      simp
    · simp [hj]
  | true =>
    cases hr : (s.streams i).rows with
    | nil =>
      rw [step_done hs hr]
      exact ⟨rfl, rfl, fun j => ⟨rfl, fun r hr => hr⟩⟩
    | cons r' rows =>
      rw [step_row hs hr]
      refine ⟨rfl, rfl, fun j => ?_⟩
      by_cases hj : j = i
      · subst hj
        simp only [Function.update_self, true_and]
        exact fun r hmem => hr ▸ List.mem_cons_of_mem r' hmem
      · simp [hj]

omit [DecidableEq Row] in
theorem step_keyed (o : Delivery ι) (h : s.client.data.Keyed hash) : (s.step hash o).client.data.Keyed hash := by
  cases o with
  | live =>
    simp only [Link.step]
    split
    · exact h
    · exact React.receive_keyed h _
  | reload i =>
    simp only [Link.step]
    split
    · exact h
    · exact React.receive_keyed h _

theorem setAfter_apply (hhash : Function.Injective hash) (data : Data Row) (after : Option Row) (r : Row) :
    setAfter hash data after (hash r) = if after = some r then some r else data (hash r) := by
  cases after with
  | none => simp [setAfter]
  | some a =>
    by_cases ha : a = r
    · subst ha
      simp [setAfter, Data.set_apply]
    · have hne : hash r ≠ hash a := fun heq => ha (hhash heq).symm
      simp [setAfter, Data.set_apply, hne, ha]

/-- with an injective hash a notification changes the rows it is about, and no other -/
theorem receive_change_apply (hhash : Function.Injective hash) (c : React.State Row) (hx : x.WellFormed) (r : Row) :
    (React.receive hash ⟨false⟩ c (.change x)).data (hash r) =
      if x.Brings r then some r else if x.Takes r then none else c.data (hash r) := by
  obtain ⟨op, seq, ⟨source, before, after⟩⟩ := x
  cases op with
  | I =>
    obtain ⟨hbefore, a, hafter⟩ := hx.inserted rfl
    simp only at hbefore hafter
    subst hbefore hafter
    simp [React.receive, React.onUpdate, React.State.withSeq, setAfter_apply hhash, ChangeNotification.Brings,
      ChangeNotification.Takes]
  | U =>
    obtain ⟨a, hafter⟩ := hx.updated rfl
    simp only at hafter
    subst hafter
    by_cases ha : a = r
    · simp [React.receive, React.onUpdate, React.State.withSeq, setAfter_apply hhash, ChangeNotification.Brings, ha]
    · cases before with
      | none =>
        have hne : hash r ≠ hash a := fun heq => ha (hhash heq).symm
        simp [React.receive, React.onUpdate, React.State.withSeq, setAfter_apply hhash, ChangeNotification.Brings,
          ChangeNotification.Takes, getExistingKey, Data.delete_apply, ha, hne]
      | some b =>
        by_cases hb : b = r
        · simp [React.receive, React.onUpdate, React.State.withSeq, setAfter_apply hhash, ChangeNotification.Brings,
            ChangeNotification.Takes, getExistingKey, Data.delete_apply, ha, hb]
        · have hne : hash r ≠ hash b := fun heq => hb (hhash heq).symm
          simp [React.receive, React.onUpdate, React.State.withSeq, setAfter_apply hhash, ChangeNotification.Brings,
            ChangeNotification.Takes, getExistingKey, Data.delete_apply, ha, hb, hne]
  | D =>
    obtain ⟨hafter, b, hbefore⟩ := hx.deleted rfl
    simp only at hbefore hafter
    subst hbefore hafter
    by_cases hb : b = r
    · simp [React.receive, React.onUpdate, React.State.withSeq, ChangeNotification.Brings, ChangeNotification.Takes,
        getExistingKey, Data.delete_apply, hb]
    · have hne : hash r ≠ hash b := fun heq => hb (hhash heq).symm
      simp [React.receive, React.onUpdate, React.State.withSeq, ChangeNotification.Brings, ChangeNotification.Takes,
        getExistingKey, Data.delete_apply, hb, hne]

theorem shows_live (hhash : Function.Injective hash) (hp : s.pending = x :: rest) (hx : x.WellFormed) (r : Row) :
    (s.step hash .live).Shows hash r ↔ x.Brings r ∨ ¬x.Takes r ∧ s.Shows hash r := by
  rw [step_live hp, Link.Shows, receive_change_apply hhash s.client hx r]
  by_cases hb : x.Brings r
  · simp [hb]
  · by_cases ht : x.Takes r <;> simp [hb, ht, Link.Shows]

omit [DecidableEq Row] in
theorem not_shows_header (hs : (s.streams i).headerSent = false) (r : Row) : ¬(s.step hash (.reload i)).Shows hash r := by
  rw [step_header hs]
  exact fun h => by cases h

theorem shows_row {rows : List Row} (hhash : Function.Injective hash) (hs : (s.streams i).headerSent = true)
    (hr : (s.streams i).rows = r' :: rows) (r : Row) :
    (s.step hash (.reload i)).Shows hash r ↔ r = r' ∨ s.Shows hash r := by
  rw [step_row hs hr]
  change s.client.data.set (hash r') r' (hash r) = some r ↔ _
  rw [Data.set_apply]
  by_cases h : r = r'
  · simp [h]
  · have hne : hash r ≠ hash r' := fun heq => h (hhash heq)
    simp [hne, h, Link.Shows]

end Deliver

/-! ## Convergence -/

/-- no notification about the row is still to come -/
def Link.Settled (s : Link Row ι) (r : Row) : Prop := ∀ y ∈ s.pending, ¬y.Touches r

variable (hash) in
structure Link.Inv (s : Link Row ι) : Prop where
  all : s.delivered ++ s.pending = H.notifications
  keeps : s.delivered.Pairwise KeepsBrought
  keyed : s.client.data.Keyed hash
  bound : ∀ i, (s.streams i).seq ≤ H.last
  inView : ∀ i, ∀ r ∈ (s.streams i).rows, r ∈ H.sets (s.streams i).seq
  whole : ∀ i, (s.streams i).headerSent = false → ∀ r ∈ H.sets (s.streams i).seq, r ∈ (s.streams i).rows
  notResurrected : s.NotResurrected H hash
  gone : ∀ r, s.Settled r → r ∉ H.sets H.last → ¬s.Shows hash r
  there : ∀ r, s.Settled r → r ∈ H.sets H.last →
    s.Shows hash r ∨ (∃ i, (s.streams i).headerSent = true ∧ r ∈ (s.streams i).rows) ∨
      lastLive s.delivered r = none ∧ ∀ i, (s.streams i).headerSent = false

variable {H} {s : Link Row ι}

omit [DecidableEq ι] in
theorem Link.Inv.last_mem_iff (h : s.Inv hash H) {r : Row} (hset : s.Settled r) {x : ChangeNotification Row}
    (hx : lastLive s.delivered r = some x) : r ∈ H.sets H.last ↔ x.Brings r := by
  have hmem : x ∈ H.notifications := h.all ▸ List.mem_append_left s.pending (mem_of_lastLive hx)
  exact History.settled_mem_iff h.all h.keeps hset hx (H.seq_le hmem) le_rfl

omit [DecidableEq ι] in
/-- a row that is settled and no older change of which is unknown is in a view exactly when it is in the last set -/
theorem Link.Inv.view_mem_iff (h : s.Inv hash H) {r : Row} (hset : s.Settled r) {m : ℕ} (hm : m ≤ H.last)
    (hold : ∀ x ∈ lastLive s.delivered r, x.seq ≤ m) : r ∈ H.sets m ↔ r ∈ H.sets H.last := by
  cases hlast : lastLive s.delivered r with
  | none => exact History.untouched_mem_iff h.all hset hlast hm
  | some x =>
    have hxm : x.seq ≤ m := hold x hlast
    rw [History.settled_mem_iff h.all h.keeps hset hlast hxm hm, h.last_mem_iff hset hlast]

omit [DecidableEq ι] in
theorem start_link_inv (hs : s.Starts H) : s.Inv hash H where
  all := by rw [hs.delivered, hs.pending, List.nil_append]
  keeps := hs.delivered ▸ List.Pairwise.nil
  keyed := hs.client ▸ Data.keyed_empty
  bound i := (hs.streams i).1
  inView i r hr := (hs.streams i).2.2.2 ▸ List.mem_toFinset.2 hr
  whole i _ r hr := List.mem_toFinset.1 ((hs.streams i).2.2.2.symm ▸ hr)
  notResurrected r x hx := by simp [hs.delivered, lastLive] at hx
  gone r _ _ := by simp [Link.Shows, hs.client, React.State.start]
  there r _ _ := Or.inr (Or.inr ⟨by simp [hs.delivered, lastLive], fun i => (hs.streams i).2.1⟩)

theorem live_inv (hhash : Function.Injective hash) (h : s.Inv hash H) {x : ChangeNotification Row}
    {rest : List (ChangeNotification Row)} (hp : s.pending = x :: rest) (hok : ∀ y ∈ s.delivered, KeepsBrought y x) :
    (s.step hash .live).Inv hash H := by
  have hall : (s.delivered ++ [x]) ++ rest = H.notifications := by
    rw [← h.all, hp, List.append_assoc, List.singleton_append]
  have hxmem : x ∈ H.notifications := by
    rw [← hall]
    simp
  have hx : x.WellFormed := H.wellFormed hxmem
  have hxseq : x.seq ≤ H.last := H.seq_le hxmem
  have hkeeps : (s.delivered ++ [x]).Pairwise KeepsBrought :=
    List.pairwise_append.2 ⟨h.keeps, List.pairwise_singleton _ _, fun y hy z hz => List.mem_singleton.1 hz ▸ hok y hy⟩
  have hshows := shows_live hhash hp hx
  have hstep : s.step hash .live = _ := step_live hp
  have hsettled : ∀ r, (s.step hash .live).Settled r → ¬x.Touches r → s.Settled r := by
    intro r hset hno y hy
    rw [hp] at hy
    rcases List.mem_cons.1 hy with rfl | hy
    · exact hno
    · exact hset y (by rw [hstep]; exact hy)
  -- the last word on a row the notification is about
  have hword : ∀ r, (s.step hash .live).Settled r → x.Touches r → (r ∈ H.sets H.last ↔ x.Brings r) := by
    intro r hset htouch
    refine History.settled_mem_iff hall hkeeps (fun y hy => hset y (by rw [hstep]; exact hy)) ?_ hxseq le_rfl
    rw [lastLive_append, if_pos htouch]
  constructor
  · rw [hstep]
    exact hall
  · rw [hstep]
    exact hkeeps
  · exact step_keyed .live h.keyed
  · rw [hstep]
    exact h.bound
  · rw [hstep]
    exact h.inView
  · rw [hstep]
    exact h.whole
  · intro r z hz htake hshow
    rw [hstep] at hz ⊢
    rw [lastLive_append] at hz
    split at hz
    · cases hz
      rcases (hshows r).1 hshow with hb | hno
      · exact absurd htake hb.not_takes
      · exact absurd htake hno.1
    · rename_i hno
      rcases (hshows r).1 hshow with hb | hs
      · exact absurd (Or.inl hb) hno
      · exact h.notResurrected r z hz htake hs.2
  · intro r hset hr hshow
    rcases (hshows r).1 hshow with hb | ⟨hno, hs⟩
    · exact hr ((hword r hset (Or.inl hb)).2 hb)
    · by_cases hb : x.Brings r
      · exact hr ((hword r hset (Or.inl hb)).2 hb)
      · exact h.gone r (hsettled r hset (not_or.2 ⟨hb, hno⟩)) hr hs
  · intro r hset hr
    by_cases htouch : x.Touches r
    · exact Or.inl ((hshows r).2 (Or.inl ((hword r hset htouch).1 hr)))
    · have hno : ¬x.Takes r := fun ht => htouch (Or.inr ht)
      rcases h.there r (hsettled r hset htouch) hr with hs | hs | ⟨hs, hnone⟩
      · exact Or.inl ((hshows r).2 (Or.inr ⟨hno, hs⟩))
      · rw [hstep]
        exact Or.inr (Or.inl hs)
      · rw [hstep]
        refine Or.inr (Or.inr ⟨?_, hnone⟩)
        rw [lastLive_append, if_neg htouch]
        exact hs

theorem header_inv (h : s.Inv hash H) {i : ι} (hi : (s.streams i).headerSent = false)
    (hok : ∀ r, s.BroughtAfter (s.streams i).seq r → r ∈ H.sets (s.streams i).seq) :
    (s.step hash (.reload i)).Inv hash H := by
  have hstep : s.step hash (.reload i) = _ := step_header hi
  have hnot : ∀ r, ¬(s.step hash (.reload i)).Shows hash r := not_shows_header hi
  obtain ⟨hdelivered, hpending, hframe⟩ := reload_frame hash s i
  have hstreams : ∀ j, ((s.step hash (.reload i)).streams j).rows = (s.streams j).rows ∧
      (((s.step hash (.reload i)).streams j).headerSent = false → (s.streams j).headerSent = false) := by
    intro j
    rw [hstep]
    by_cases hj : j = i
    · subst hj
      simp
    · simp [hj]
  constructor
  · rw [hdelivered, hpending]
    exact h.all
  · rw [hdelivered]
    exact h.keeps
  · exact step_keyed (.reload i) h.keyed
  · intro j
    rw [(hframe j).1]
    exact h.bound j
  · intro j r hr
    rw [(hframe j).1]
    exact h.inView j r ((hframe j).2 r hr)
  · intro j hj r hr
    rw [(hframe j).1] at hr
    rw [(hstreams j).1]
    exact h.whole j ((hstreams j).2 hj) r hr
  · intro r x _ _ hshow
    exact absurd hshow (hnot r)
  · intro r _ _
    exact hnot r
  · intro r hset hr
    have hset' : s.Settled r := fun y hy => hset y (by rw [hpending]; exact hy)
    have hview : r ∈ H.sets (s.streams i).seq := by
      by_cases hold : ∀ x ∈ lastLive s.delivered r, x.seq ≤ (s.streams i).seq
      · exact (h.view_mem_iff hset' (h.bound i) hold).2 hr
      · push Not at hold
        obtain ⟨x, hx, hnew⟩ := hold
        exact hok r ⟨x, hx, hnew, (h.last_mem_iff hset' hx).1 hr⟩
    refine Or.inr (Or.inl ⟨i, ?_, ?_⟩)
    · rw [hstep]
      simp
    · rw [(hstreams i).1]
      exact h.whole i hi r hview

theorem row_inv (hhash : Function.Injective hash) (h : s.Inv hash H) {i : ι} (hi : (s.streams i).headerSent = true)
    {r' : Row} {rows : List Row} (hrows : (s.streams i).rows = r' :: rows) (hok : ¬s.TakenAfter (s.streams i).seq r') :
    (s.step hash (.reload i)).Inv hash H := by
  have hstep : s.step hash (.reload i) = _ := step_row hi hrows
  have hshows := shows_row (s := s) (i := i) hhash hi hrows
  have hview : r' ∈ H.sets (s.streams i).seq := h.inView i r' (hrows ▸ List.mem_cons_self)
  obtain ⟨hdelivered, hpending, hframe⟩ := reload_frame hash s i
  have hheader : ∀ j, ((s.step hash (.reload i)).streams j).headerSent = (s.streams j).headerSent := by
    intro j
    rw [hstep]
    by_cases hj : j = i
    · subst hj
      simp
    · simp [hj]
  have hset' : ∀ r, (s.step hash (.reload i)).Settled r → s.Settled r := fun r hset y hy =>
    hset y (by rw [hpending]; exact hy)
  -- a live change of the row that took it away is in the view
  have hnew : ∀ x ∈ lastLive s.delivered r', x.Takes r' → x.seq ≤ (s.streams i).seq := by
    intro x hx htake
    by_contra hlt
    exact hok ⟨x, hx, not_le.1 hlt, htake⟩
  constructor
  · rw [hdelivered, hpending]
    exact h.all
  · rw [hdelivered]
    exact h.keeps
  · exact step_keyed (.reload i) h.keyed
  · intro j
    rw [(hframe j).1]
    exact h.bound j
  · intro j r hr
    rw [(hframe j).1]
    exact h.inView j r ((hframe j).2 r hr)
  · intro j hj r hr
    rw [hheader j] at hj
    have hne : j ≠ i := by
      rintro rfl
      rw [hi] at hj
      cases hj
    rw [hstep] at hr ⊢
    simp only [Function.update_of_ne hne] at hr ⊢
    exact h.whole j hj r hr
  · intro r x hx htake hshow
    rw [hdelivered] at hx
    have hseq : ∀ j, ((s.step hash (.reload i)).streams j).seq = (s.streams j).seq := fun j => (hframe j).1
    simp only [hseq]
    rcases (hshows r).1 hshow with rfl | hs
    · exact ⟨i, hnew x hx htake, hview⟩
    · exact h.notResurrected r x hx htake hs
  · intro r hset hr hshow
    rcases (hshows r).1 hshow with rfl | hs
    · have hold : ∀ x ∈ lastLive s.delivered r, x.seq ≤ (s.streams i).seq := by
        intro x hx
        refine hnew x hx ?_
        refine (lastLive_eq_some hx).1.resolve_left fun hb => hr ?_
        exact (h.last_mem_iff (hset' r hset) hx).2 hb
      exact hr ((h.view_mem_iff (hset' r hset) (h.bound i) hold).1 hview)
    · exact h.gone r (hset' r hset) hr hs
  · intro r hset hr
    rcases h.there r (hset' r hset) hr with hs | ⟨j, hj, hmem⟩ | ⟨-, hnone⟩
    · exact Or.inl ((hshows r).2 (Or.inr hs))
    · by_cases hrr : r = r'
      · exact Or.inl ((hshows r).2 (Or.inl hrr))
      · refine Or.inr (Or.inl ⟨j, (hheader j).trans hj, ?_⟩)
        rw [hstep]
        by_cases hji : j = i
        · subst hji
          rw [hrows] at hmem
          simpa using (List.mem_cons.1 hmem).resolve_left hrr
        · simpa [hji] using hmem
    · rw [hnone i] at hi
      cases hi

theorem deliver_inv (hhash : Function.Injective hash) (s : Link Row ι) (o : Delivery ι) (h : s.Inv hash H)
    (hok : s.Current H o) : (s.step hash o).Inv hash H := by
  cases o with
  | live =>
    cases hp : s.pending with
    | nil => simpa [Link.step, hp] using h
    | cons x rest =>
      refine live_inv hhash h hp ?_
      simpa [Link.Current, hp] using hok
  | reload i =>
    cases hi : (s.streams i).headerSent with
    | false =>
      refine header_inv h hi ?_
      simpa [Link.Current, hi] using hok
    | true =>
      cases hrows : (s.streams i).rows with
      | nil => rwa [step_done hi hrows]
      | cons r rows =>
        refine row_inv hhash h hi hrows ?_
        simpa [Link.Current, hi, hrows] using hok

omit [DecidableEq ι] in
theorem Link.Inv.converged (h : s.Inv hash H) (hview : Nonempty ι ∨ H.sets 0 = ∅) : s.Converged H := by
  rintro ⟨hpending, hitems⟩
  have hset : ∀ r, s.Settled r := fun r y hy => by simp [hpending] at hy
  have hdone : ∀ i, (s.streams i).headerSent = true ∧ (s.streams i).rows = [] := fun i => by
    simpa [Stream.items] using hitems i
  ext r
  rw [h.keyed.mem_rows, Finset.mem_coe]
  constructor
  · intro hshow
    by_contra hr
    exact h.gone r (hset r) hr hshow
  · intro hr
    rcases h.there r (hset r) hr with hs | ⟨i, -, hmem⟩ | ⟨hnone, hno⟩
    · exact hs
    · simp [(hdone i).2] at hmem
    · rcases hview with ⟨⟨i⟩⟩ | hempty
      · have hi := hno i
        rw [(hdone i).1] at hi
        cases hi
      · have hzero := (History.untouched_mem_iff h.all (hset r) hnone (Nat.zero_le _)).2 hr
        simp [hempty] at hzero

/-- **Convergence of current deliveries.** With an injective hash and deletions not ignored: in every run whose deliveries
all meet `Current`, whatever the interleaving of the notifications and of the reloads, in every state a row that was taken
away is only there when a reload not older than that change has it, and once everything is delivered the client has the
current result set. There is at least one reload, or the first result set is empty. -/
theorem converges_of_current (hhash : Function.Injective hash) (hs : s.Starts H)
    (hview : Nonempty ι ∨ H.sets 0 = ∅) (ds : List (Delivery ι))
    (hok : Meets (Link.step hash) (Link.Current H) s ds) :
    Throughout (Link.step hash) (fun s => s.NotResurrected H hash ∧ s.Converged H) s ds :=
  (hok.throughout (deliver_inv hhash) (start_link_inv hs)).imp fun _ h => ⟨h.notResurrected, h.converged hview⟩

end Link

/-! ## Runs with one event -/

/-- one event, from one result set to another -/
def oneEvent (S S' : Finset ℕ) (kept added deleted : List ℕ) (hS : S.val = ↑(kept ++ deleted))
    (hS' : S'.val = ↑(kept ++ added)) : History ℕ where
  last := 1
  sets k := if k = 0 then S else S'
  events _ := ⟨"q", 1, 0, added, [], deleted⟩
  sequence k hk := by simp [Nat.lt_one_iff.1 hk]
  describes k hk := by
    rw [Nat.lt_one_iff.1 hk]
    exact ⟨fun u hu => (by cases hu), kept, by simpa using hS, by simpa using hS'⟩

/-- the connection before anything is delivered, with one reload -/
def oneReload (H : History ℕ) (seq : ℕ) (rows : List ℕ) : Link ℕ Unit :=
  ⟨React.State.start, H.notifications, [], fun _ => ⟨seq, false, rows⟩⟩

theorem oneReload_starts {H : History ℕ} {seq : ℕ} {rows : List ℕ} (hseq : seq ≤ H.last) (hrows : rows.Nodup)
    (hset : rows.toFinset = H.sets seq) : (oneReload H seq rows).Starts H :=
  ⟨rfl, rfl, rfl, fun _ => ⟨hseq, rfl, hrows, hset⟩⟩

/-- a row is added while the rows from before it are reloaded -/
def rowAdded : History ℕ := oneEvent {7} {7, 8} [7] [8] [] (by decide) (by decide)

/-- witness for `converges_of_current` -/
theorem rowAdded_converges :
    Throughout (Link.step id) (fun s => s.NotResurrected rowAdded id ∧ s.Converged rowAdded) (oneReload rowAdded 0 [7])
      [.reload (), .live, .reload ()] := by
  refine converges_of_current Function.injective_id
    (oneReload_starts (by decide) (by decide) (by decide)) (Or.inl ⟨()⟩) _ ⟨?_, ?_, ?_, trivial⟩
  · rintro r ⟨x, hx, -⟩
    cases hx
  · intro x _ y hy
    cases hy
  · rintro r hr ⟨x, hx, -⟩
    cases hr
    cases hx

/-- a row is deleted while the rows from before it are reloaded -/
def rowDeleted : History ℕ := oneEvent {7} ∅ [] [] [7] (by decide) (by decide)

/-- a row is added before the reload of the empty set begins -/
def firstRow : History ℕ := oneEvent ∅ {7} [] [7] [] (by decide) (by decide)

/-- one event both deletes a row and adds it again -/
def rowReplaced : History ℕ := oneEvent {7} {7} [] [7] [7] (by decide) (by decide)

theorem oneReload_not_converged {H : History ℕ} {seq : ℕ} {rows : List ℕ} {ds : List (Delivery Unit)} (r : ℕ)
    (hd : (run (Link.step id) (oneReload H seq rows) ds).Delivered)
    (hr : ¬((run (Link.step id) (oneReload H seq rows) ds).Shows id r ↔ r ∈ H.sets H.last)) :
    ¬(run (Link.step id) (oneReload H seq rows) ds).Converged H := by
  intro h
  have hstep : ∀ (s : Link ℕ Unit) (o : Delivery Unit), s.client.data.Keyed id → (s.step id o).client.data.Keyed id :=
    fun s o => step_keyed o
  have hkeyed : (run (Link.step id) (oneReload H seq rows) ds).client.data.Keyed id :=
    run_inv hstep _ ds Data.keyed_empty
  exact hr (hkeyed.mem_rows.symm.trans (by rw [h hd, Finset.mem_coe]))

/-- a row of a reload that is older than its deletion comes back; a header older than an addition takes the row away; and
so does a deletion that comes after the addition of the same event -/
theorem current_needed :
    ((oneReload rowDeleted 0 [7]).Starts rowDeleted ∧
      ¬(run (Link.step id) (oneReload rowDeleted 0 [7]) [.reload (), .live, .reload ()]).Converged rowDeleted) ∧
    ((oneReload firstRow 0 []).Starts firstRow ∧
      ¬(run (Link.step id) (oneReload firstRow 0 []) [.live, .reload ()]).Converged firstRow) ∧
    (oneReload rowReplaced 0 [7]).Starts rowReplaced ∧
      ¬(run (Link.step id) (oneReload rowReplaced 0 [7]) [.reload (), .reload (), .live, .live]).Converged rowReplaced := by
  refine ⟨⟨oneReload_starts (by decide) (by decide) (by decide), ?_⟩,
    ⟨oneReload_starts (by decide) (by decide) (by decide), ?_⟩,
    oneReload_starts (by decide) (by decide) (by decide), ?_⟩
  · exact oneReload_not_converged 7 ⟨rfl, fun _ => rfl⟩ (by decide)
  · exact oneReload_not_converged 7 ⟨rfl, fun _ => rfl⟩ (by decide)
  · exact oneReload_not_converged 7 ⟨rfl, fun _ => rfl⟩ (by decide)

end DrasiPlatform.SignalR
