/-
The changes of the kubernetes reactivator (`spawn_monitor_task` in the kubernetes reactivator's `main.rs`) and the graph
they build.

For every object that the watch reports as added, modified or deleted, the reactivator emits a change of the object's node
and a change of one `OWNS` relation for each owner reference the object has in the report. It keeps nothing of the version
before: a relation of an owner reference that is gone is not deleted. A watch whose resource version has expired starts
again at "0", where the objects that exist are listed as added, and nothing is said of those that do not.

- `element_object`, `element_unique`: the id of an element tells the object and the owner it comes from.
- `mirrors_step_iff`: a report takes a graph that mirrors the cluster to one that does exactly when it `Keeps` every
  element of what it replaces.
- `mirrors_iff_keeps`: along every run, the graph mirrors the cluster in every state exactly when every report keeps the
  owner references of the object it replaces, and every listing has every object that is mirrored.
Witness: `stale_elements_stay`, an owner reference dropped by a modification and an object deleted during a gap.
-/
import Mathlib.Tactic
import DrasiPlatform.Core.Run
import DrasiPlatform.Core.Writes
import DrasiPlatform.Core.Json

namespace DrasiPlatform.KubernetesReactivator

open Run Json

/-! ## Objects and changes -/

inductive ChangeOp where
  | create
  | update
  | delete
deriving DecidableEq, Repr

inductive SourceElement where
  | node (id : String) (labels : List String) (properties : List (String × Value))
  | relation (id : String) (labels : List String) (properties : List (String × Value)) (startId endId : String)

def SourceElement.id : SourceElement → String
  | node id .. => id
  | relation id .. => id

structure SourceChange where
  op : ChangeOp
  element : SourceElement
  reactivatorStartNs : ℕ
  sourceNs : ℕ
  seq : ℕ

structure OwnerReference where
  uid : String
deriving DecidableEq, Repr

/-- an object of the watched resource -/
structure KubeObject where
  uid : Option String
  resourceVersion : Option String
  ownerReferences : List OwnerReference
  /-- what `serde_json::to_value` makes of it -/
  toValue : Option Value

/-- `format!("{}-{}", r.uid, id)` -/
def relationId (owner id : String) : String := owner ++ "-" ++ id

def ownsRelation (id : String) (r : OwnerReference) : SourceElement :=
  .relation (relationId r.uid id) ["OWNS"] [] r.uid id

/-- the elements of an object: its node, and a relation for each owner reference -/
def elementsOf (p : KubeObject) : List SourceElement :=
  match p.uid, p.toValue with
  | some id, some (.object properties) =>
    match (Value.object properties).get "kind" with
    | .string label => .node id [label] properties :: p.ownerReferences.map (ownsRelation id)
    | _ => []
  | _, _ => []

/-- the changes that are sent for a watch event -/
def changesOf (op : ChangeOp) (now : ℕ) (p : KubeObject) : List SourceChange :=
  (elementsOf p).map fun element => ⟨op, element, now, now, 0⟩

/-- an object as the API server gives it out: with a UUID and a kind -/
structure Valid (id : String) (p : KubeObject) : Prop where
  uid : p.uid = some id
  length : id.length = 36
  value : ∃ properties label, p.toValue = some (.object properties) ∧
    (Value.object properties).get "kind" = .string label

section Elements

variable {id id' : String} {p p' : KubeObject} {e e' : SourceElement}

theorem Valid.elementsOf_eq (h : Valid id p) : ∃ properties label, p.toValue = some (.object properties) ∧
    elementsOf p = .node id [label] properties :: p.ownerReferences.map (ownsRelation id) := by
  obtain ⟨properties, label, hvalue, hkind⟩ := h.value
  exact ⟨properties, label, hvalue, by simp [elementsOf, h.uid, hvalue, hkind]⟩

/-- an element's id is the object's, or ends in it after an owner's and a hyphen -/
theorem element_id (h : Valid id p) (he : e ∈ elementsOf p) :
    e.id = id ∨ ∃ r ∈ p.ownerReferences, e = ownsRelation id r := by
  obtain ⟨properties, label, -, heq⟩ := h.elementsOf_eq
  rw [heq] at he
  rcases List.mem_cons.1 he with rfl | hmem
  · exact Or.inl rfl
  · obtain ⟨r, hr, rfl⟩ := List.mem_map.1 hmem
    exact Or.inr ⟨r, hr, rfl⟩

theorem relationId_injective {owner owner' : String} (hlen : id.length = id'.length)
    (h : relationId owner id = relationId owner' id') : owner = owner' ∧ id = id' := by
  have hlist : (owner.toList ++ ['-']) ++ id.toList = (owner'.toList ++ ['-']) ++ id'.toList := by
    simpa [relationId] using congrArg String.toList h
  obtain ⟨howner, hid⟩ := List.append_inj' hlist (by rwa [String.length_toList, String.length_toList])
  exact ⟨String.toList_injective (List.append_cancel_right howner), String.toList_injective hid⟩

theorem relationId_ne {owner : String} (hlen : id.length = id'.length) : relationId owner id ≠ id' := by
  intro h
  have hlength := congrArg String.length h
  simp only [relationId, String.length_append] at hlength
  have hone : "-".length = 1 := rfl
  omega

/-- the id of an element tells the object it comes from -/
theorem element_object (h : Valid id p) (h' : Valid id' p') (he : e ∈ elementsOf p) (he' : e' ∈ elementsOf p')
    (hid : e.id = e'.id) : id = id' := by
  have hlen : id.length = id'.length := h.length.trans h'.length.symm
  rcases element_id h he with hnode | ⟨r, -, rfl⟩ <;> rcases element_id h' he' with hnode' | ⟨r', -, rfl⟩
  · rw [← hnode, hid, hnode']
  · exact absurd (hid.symm.trans hnode) (relationId_ne hlen.symm)
  · exact absurd (hid.trans hnode') (relationId_ne hlen)
  · exact (relationId_injective hlen hid).2

/-- the elements of an object have different ids -/
theorem element_unique (h : Valid id p) (he : e ∈ elementsOf p) (he' : e' ∈ elementsOf p) (hid : e.id = e'.id) : e = e' := by
  obtain ⟨properties, label, -, heq⟩ := h.elementsOf_eq
  rw [heq] at he he'
  rcases List.mem_cons.1 he with rfl | hmem <;> rcases List.mem_cons.1 he' with rfl | hmem'
  · rfl
  · obtain ⟨r', -, rfl⟩ := List.mem_map.1 hmem'
    exact absurd hid.symm (relationId_ne rfl)
  · obtain ⟨r, -, rfl⟩ := List.mem_map.1 hmem
    exact absurd hid (relationId_ne rfl)
  · obtain ⟨r, -, rfl⟩ := List.mem_map.1 hmem
    obtain ⟨r', -, rfl⟩ := List.mem_map.1 hmem'
    have huid : r.uid = r'.uid := (relationId_injective rfl hid).1
    cases r
    cases r'
    cases huid
    rfl

/-- every owner reference of `old` is one of `p` -/
def Keeps (old p : KubeObject) : Prop := ∀ r ∈ old.ownerReferences, r ∈ p.ownerReferences

instance (old p : KubeObject) : Decidable (Keeps old p) := inferInstanceAs (Decidable (∀ r ∈ _, _))

/-- a version covers the ids of the one before exactly when it keeps the owner references -/
theorem covers_iff_keeps {old : KubeObject} (hold : Valid id old) (h : Valid id p) :
    (∀ e ∈ elementsOf old, ∃ e' ∈ elementsOf p, e'.id = e.id) ↔ Keeps old p := by
  obtain ⟨properties, label, -, heq⟩ := h.elementsOf_eq
  obtain ⟨properties', label', -, heq'⟩ := hold.elementsOf_eq
  rw [heq, heq']
  constructor
  · intro hcover r hr
    obtain ⟨e', he', hid⟩ := hcover (ownsRelation id r) (List.mem_cons_of_mem _ (List.mem_map_of_mem hr))
    rcases List.mem_cons.1 he' with rfl | hmem
    · exact absurd hid.symm (relationId_ne rfl)
    · obtain ⟨r', hr', rfl⟩ := List.mem_map.1 hmem
      have huid : r'.uid = r.uid := (relationId_injective rfl hid).1
      cases r
      cases r'
      cases huid
      exact hr'
  · intro hkeep e he
    rcases List.mem_cons.1 he with rfl | hmem
    · exact ⟨_, List.mem_cons_self, rfl⟩
    · obtain ⟨r, hr, rfl⟩ := List.mem_map.1 hmem
      exact ⟨_, List.mem_cons_of_mem _ (List.mem_map_of_mem (hkeep r hr)), rfl⟩

end Elements

/-! ## The graph and the cluster -/

/-- the elements by their ids, as the changes leave them -/
abbrev Graph := String → Option SourceElement

/-- a change that creates or updates puts its element in, one that deletes takes out what has its id -/
def SourceChange.write (c : SourceChange) : String × Option SourceElement :=
  (c.element.id, if c.op = .delete then none else some c.element)

def Graph.apply (g : Graph) (changes : List SourceChange) : Graph := Writes.apply g (changes.map SourceChange.write)

section Mirror

variable {K : Type} [DecidableEq K]

/-- the objects that exist, with the kind of their watch -/
abbrev Cluster (K : Type) := String → Option (K × KubeObject)

/-- an element that the cluster has: the node of an object, or the relation of one of its owner references -/
inductive Cluster.Has (c : Cluster K) : SourceElement → Prop where
  | node {id label : String} {kind : K} {p : KubeObject} {properties : List (String × Value)} (exists_ : c id = some (kind, p))
      (value : p.toValue = some (.object properties)) (isKind : (Value.object properties).get "kind" = .string label) :
      c.Has (.node id [label] properties)
  | owns {id : String} {kind : K} {p : KubeObject} {r : OwnerReference} (exists_ : c id = some (kind, p))
      (owner : r ∈ p.ownerReferences) : c.Has (ownsRelation id r)

/-- the graph has the elements of the cluster, each under its id, and no other -/
structure Mirrors (g : Graph) (c : Cluster K) : Prop where
  keyed : ∀ id e, g id = some e → e.id = id
  elements : ∀ e, g e.id = some e ↔ c.Has e

/-- what a watch reports: an event for an object, or after a 410 the list of the objects that exist -/
inductive Report (K : Type) where
  | added (kind : K) (now : ℕ) (p : KubeObject)
  | modified (kind : K) (now : ℕ) (p : KubeObject)
  | deleted (kind : K) (now : ℕ) (p : KubeObject)
  | relisted (kind : K) (now : ℕ) (listing : List KubeObject)

structure State (K : Type) where
  graph : Graph
  cluster : Cluster K

def State.start : State K := ⟨fun _ => none, fun _ => none⟩

def findObject (listing : List KubeObject) (id : String) : Option KubeObject :=
  listing.find? fun p => p.uid = some id

/-- the objects of a kind after its listing -/
def Cluster.relist (c : Cluster K) (kind : K) (listing : List KubeObject) : Cluster K := fun id =>
  match findObject listing id with
  | some p => some (kind, p)
  | none => (c id).filter fun entry => entry.1 ≠ kind

def Cluster.put (c : Cluster K) (kind : K) (p : KubeObject) : Cluster K := fun id =>
  if p.uid = some id then some (kind, p) else c id

def Cluster.remove (c : Cluster K) (p : KubeObject) : Cluster K := fun id => if p.uid = some id then none else c id

def State.step (s : State K) : Report K → State K
  | .added kind now p => ⟨s.graph.apply (changesOf .create now p), s.cluster.put kind p⟩
  | .modified kind now p => ⟨s.graph.apply (changesOf .update now p), s.cluster.put kind p⟩
  | .deleted _ now p => ⟨s.graph.apply (changesOf .delete now p), s.cluster.remove p⟩
  | .relisted kind now listing =>
    ⟨s.graph.apply (listing.flatMap (changesOf .create now)), s.cluster.relist kind listing⟩

/-- an object of the kind, and its UUID is not that of an object of another kind -/
def Cluster.Admits (c : Cluster K) (kind : K) (p : KubeObject) : Prop :=
  ∃ id, Valid id p ∧ ∀ kind' p', c id = some (kind', p') → kind' = kind

def State.legal (s : State K) : Report K → Prop
  | .added kind _ p => s.cluster.Admits kind p
  | .modified kind _ p => s.cluster.Admits kind p
  | .deleted kind _ p => s.cluster.Admits kind p
  | .relisted kind _ listing => (∀ p ∈ listing, s.cluster.Admits kind p) ∧ (listing.map KubeObject.uid).Nodup

/-- the object has every owner reference of the version before it -/
def Cluster.KeptBy (c : Cluster K) (p : KubeObject) : Prop :=
  ∀ id kind old, p.uid = some id → c id = some (kind, old) → KubernetesReactivator.Keeps old p

/-- the report has every owner reference of the version it replaces, and a listing every object there was of its kind -/
def State.Keeps (s : State K) : Report K → Prop
  | .added _ _ p => s.cluster.KeptBy p
  | .modified _ _ p => s.cluster.KeptBy p
  | .deleted _ _ p => s.cluster.KeptBy p
  | .relisted kind _ listing => ∀ id old, s.cluster id = some (kind, old) →
      ∃ p, findObject listing id = some p ∧ KubernetesReactivator.Keeps old p

/-! ## One report -/

def Cluster.Inv (c : Cluster K) : Prop := ∀ id kind p, c id = some (kind, p) → Valid id p

variable {g : Graph} {c c' : Cluster K} {es : List SourceElement}

omit [DecidableEq K] in
theorem Cluster.Inv.has_iff (h : c.Inv) {e : SourceElement} :
    c.Has e ↔ ∃ id kind p, c id = some (kind, p) ∧ e ∈ elementsOf p := by
  constructor
  · intro he
    cases he with
    | node hc hvalue hkind =>
      refine ⟨_, _, _, hc, ?_⟩
      simp [elementsOf, (h _ _ _ hc).uid, hvalue, hkind]
    | owns hc hr =>
      obtain ⟨properties, label, -, heq⟩ := (h _ _ _ hc).elementsOf_eq
      exact ⟨_, _, _, hc, heq ▸ List.mem_cons_of_mem _ (List.mem_map_of_mem hr)⟩
  · rintro ⟨id, kind, p, hc, he⟩
    have hvalid := h id kind p hc
    obtain ⟨properties, label, hvalue, hkind⟩ := hvalid.value
    simp only [elementsOf, hvalid.uid, hvalue, hkind] at he
    rcases List.mem_cons.1 he with rfl | hmem
    · exact .node hc hvalue hkind
    · obtain ⟨r, hr, rfl⟩ := List.mem_map.1 hmem
      exact .owns hc hr

/-- elements put in: the graph has them, and what it had under other ids -/
theorem put_apply (g : Graph) (huniq : ∀ e ∈ es, ∀ e' ∈ es, e.id = e'.id → e = e') {id : String} {e : SourceElement} :
    Writes.apply g (es.map fun e => (e.id, some e)) id = some e ↔
      e ∈ es ∧ e.id = id ∨ g id = some e ∧ ∀ e' ∈ es, e'.id ≠ id := by
  rw [Writes.apply_eq]
  by_cases hmem : ∃ e' ∈ es, e'.id = id
  · obtain ⟨e', he', rfl⟩ := hmem
    rw [Writes.last_map_of_mem he' rfl fun j hj hid => huniq j hj e' he' hid]
    constructor
    · intro h
      cases h
      exact Or.inl ⟨he', rfl⟩
    · rintro (⟨he, hid⟩ | ⟨-, hno⟩)
      · rw [huniq e he e' he' hid]
        rfl
      · exact absurd rfl (hno e' he')
  · push Not at hmem
    rw [Writes.last_map_of_notMem hmem]
    constructor
    · intro h
      exact Or.inr ⟨h, hmem⟩
    · rintro (⟨he, hid⟩ | ⟨h, -⟩)
      · exact absurd hid (hmem e he)
      · exact h

/-- elements taken out: the graph has what it had under other ids -/
theorem take_apply (g : Graph) (es : List SourceElement) {id : String} {e : SourceElement} :
    Writes.apply g (es.map fun e => (e.id, none)) id = some e ↔ g id = some e ∧ ∀ e' ∈ es, e'.id ≠ id := by
  rw [Writes.apply_eq, Writes.last_const]
  by_cases hmem : ∃ e' ∈ es, e'.id = id
  · rw [if_pos hmem]
    obtain ⟨e', he', hid⟩ := hmem
    exact iff_of_false (fun h => by cases h) fun h => h.2 e' he' hid
  · rw [if_neg hmem]
    push Not at hmem
    exact ⟨fun h => ⟨h, hmem⟩, fun h => h.1⟩

/-- every element of the objects that a report replaces has its id among the elements of the report -/
def Covered (c : Cluster K) (replaced : String → Prop) (es : List SourceElement) : Prop :=
  ∀ id kind old, replaced id → c id = some (kind, old) → ∀ e ∈ elementsOf old, ∃ e' ∈ es, e'.id = e.id

variable {replaced : String → Prop}

omit [DecidableEq K] in
/-- elements put in for the objects of a report -/
theorem put_mirrors_iff (h : Mirrors g c) (hinv : c.Inv) (hinv' : c'.Inv)
    (huniq : ∀ e ∈ es, ∀ e' ∈ es, e.id = e'.id → e = e') (hsame : ∀ id, ¬replaced id → c' id = c id)
    (hes : ∀ e, e ∈ es ↔ ∃ id kind p, replaced id ∧ c' id = some (kind, p) ∧ e ∈ elementsOf p) :
    Mirrors (Writes.apply g (es.map fun e => (e.id, some e))) c' ↔ Covered c replaced es := by
  constructor
  · intro h' id kind old hrep hc e he
    by_contra hno
    push Not at hno
    have hhas : c.Has e := hinv.has_iff.2 ⟨id, kind, old, hc, he⟩
    have hput := (put_apply g huniq).2 (Or.inr ⟨(h.elements e).2 hhas, hno⟩)
    obtain ⟨id', kind', p', hc', he'⟩ := hinv'.has_iff.1 ((h'.elements e).1 hput)
    have hid : id = id' := element_object (hinv _ _ _ hc) (hinv' _ _ _ hc') he he' rfl
    exact hno e ((hes e).2 ⟨id', kind', p', hid ▸ hrep, hc', he'⟩) rfl
  · intro hcov
    constructor
    · intro id e hput
      rcases (put_apply g huniq).1 hput with ⟨-, hid⟩ | ⟨hg, -⟩
      · exact hid
      · exact h.keyed id e hg
    · intro e
      rw [put_apply g huniq, hinv'.has_iff]
      constructor
      · rintro (⟨he, -⟩ | ⟨hg, hno⟩)
        · obtain ⟨id, kind, p, -, hc', hp⟩ := (hes e).1 he
          exact ⟨id, kind, p, hc', hp⟩
        · obtain ⟨id, kind, p, hc, hp⟩ := hinv.has_iff.1 ((h.elements e).1 hg)
          have hkept : ¬replaced id := by
            intro hrep
            obtain ⟨e', he', hid⟩ := hcov id kind p hrep hc e hp
            exact hno e' he' hid
          exact ⟨id, kind, p, (hsame id hkept).trans hc, hp⟩
      · rintro ⟨id, kind, p, hc', hp⟩
        by_cases hrep : replaced id
        · exact Or.inl ⟨(hes e).2 ⟨id, kind, p, hrep, hc', hp⟩, rfl⟩
        · have hc : c id = some (kind, p) := (hsame id hrep).symm.trans hc'
          refine Or.inr ⟨(h.elements e).2 (hinv.has_iff.2 ⟨id, kind, p, hc, hp⟩), fun e' he' hid => hrep ?_⟩
          obtain ⟨id', kind', p', hrep', hc'', hp'⟩ := (hes e').1 he'
          exact element_object (hinv' _ _ _ hc'') (hinv _ _ _ hc) hp' hp hid ▸ hrep'

omit [DecidableEq K] in
/-- the elements of one object taken out -/
theorem take_mirrors_iff {id : String} {p : KubeObject} (hp : Valid id p) (h : Mirrors g c) (hinv : c.Inv)
    (hinv' : c'.Inv) (hsame : ∀ id', id' ≠ id → c' id' = c id') (hgone : c' id = none) :
    Mirrors (Writes.apply g ((elementsOf p).map fun e => (e.id, none))) c' ↔ Covered c (· = id) (elementsOf p) := by
  constructor
  · rintro h' id' kind old rfl hc e he
    by_contra hno
    push Not at hno
    have hhas : c.Has e := hinv.has_iff.2 ⟨_, kind, old, hc, he⟩
    have htake := (take_apply g (elementsOf p)).2 ⟨(h.elements e).2 hhas, hno⟩
    obtain ⟨id', kind', p', hc', he'⟩ := hinv'.has_iff.1 ((h'.elements e).1 htake)
    have hid := element_object (hinv _ _ _ hc) (hinv' _ _ _ hc') he he' rfl
    rw [← hid, hgone] at hc'
    cases hc'
  · intro hcov
    constructor
    · intro id' e htake
      exact h.keyed id' e ((take_apply g (elementsOf p)).1 htake).1
    · intro e
      rw [take_apply g (elementsOf p), hinv'.has_iff]
      constructor
      · rintro ⟨hg, hno⟩
        obtain ⟨id', kind, p', hc, hp'⟩ := hinv.has_iff.1 ((h.elements e).1 hg)
        have hne : id' ≠ id := by
          intro heq
          obtain ⟨e', he', hid⟩ := hcov id' kind p' heq hc e hp'
          exact hno e' he' hid
        exact ⟨id', kind, p', (hsame id' hne).trans hc, hp'⟩
      · rintro ⟨id', kind, p', hc', hp'⟩
        have hne : id' ≠ id := by
          rintro rfl
          rw [hgone] at hc'
          cases hc'
        have hc : c id' = some (kind, p') := (hsame id' hne).symm.trans hc'
        refine ⟨(h.elements e).2 (hinv.has_iff.2 ⟨id', kind, p', hc, hp'⟩), fun e' he' hid => hne ?_⟩
        exact (element_object hp (hinv _ _ _ hc) he' hp' hid).symm

theorem apply_put_changes (g : Graph) {op : ChangeOp} (hop : op ≠ .delete) (now : ℕ) (listing : List KubeObject) :
    g.apply (listing.flatMap (changesOf op now)) =
      Writes.apply g ((listing.flatMap elementsOf).map fun e => (e.id, some e)) := by
  simp [Graph.apply, changesOf, SourceChange.write, List.map_flatMap, Function.comp_def, hop]

theorem apply_delete_changes (g : Graph) (now : ℕ) (p : KubeObject) :
    g.apply (changesOf .delete now p) = Writes.apply g ((elementsOf p).map fun e => (e.id, none)) := by
  simp [Graph.apply, changesOf, SourceChange.write, Function.comp_def]

omit [DecidableEq K] in
theorem put_inv {kind : K} {id : String} {p : KubeObject} (h : c.Inv) (hp : Valid id p) : (c.put kind p).Inv := by
  intro id' kind' p' hc
  unfold Cluster.put at hc
  split at hc
  · rename_i huid
    cases hc
    rw [hp.uid] at huid
    cases huid
    exact hp
  · exact h id' kind' p' hc

omit [DecidableEq K] in
theorem remove_inv {p : KubeObject} (h : c.Inv) : (c.remove p).Inv := by
  intro id' kind' p' hc
  unfold Cluster.remove at hc
  split at hc
  · cases hc
  · exact h id' kind' p' hc

theorem findObject_eq_some {listing : List KubeObject} {id : String} {p : KubeObject}
    (h : findObject listing id = some p) : p ∈ listing ∧ p.uid = some id := by
  unfold findObject at h
  exact ⟨List.mem_of_find?_eq_some h, by simpa using List.find?_some h⟩

theorem findObject_of_mem {listing : List KubeObject} (hnodup : (listing.map KubeObject.uid).Nodup) {id : String}
    {p : KubeObject} (hp : p ∈ listing) (hid : p.uid = some id) : findObject listing id = some p := by
  have hfound : (findObject listing id).isSome = true := List.find?_isSome.2 ⟨p, hp, decide_eq_true hid⟩
  obtain ⟨q, hq⟩ := Option.isSome_iff_exists.1 hfound
  obtain ⟨hmem, hqid⟩ := findObject_eq_some hq
  rw [hq, List.inj_on_of_nodup_map hnodup hmem hp (hqid.trans hid.symm)]

theorem relist_inv {kind : K} {listing : List KubeObject} (h : c.Inv) (hl : ∀ p ∈ listing, c.Admits kind p) :
    (c.relist kind listing).Inv := by
  intro id' kind' p' hc
  unfold Cluster.relist at hc
  split at hc
  · rename_i q hq
    cases hc
    obtain ⟨hmem, huid⟩ := findObject_eq_some hq
    obtain ⟨id, hvalid, -⟩ := hl p' hmem
    rw [hvalid.uid] at huid
    cases huid
    exact hvalid
  · exact h id' kind' p' (Option.filter_eq_some_iff.1 hc).1

theorem step_cluster_inv (s : State K) (o : Report K) (h : s.cluster.Inv) (hl : s.legal o) : (s.step o).cluster.Inv := by
  cases o with
  | added kind now p =>
    obtain ⟨id, hp, -⟩ := hl
    exact put_inv h hp
  | modified kind now p =>
    obtain ⟨id, hp, -⟩ := hl
    exact put_inv h hp
  | deleted kind now p => exact remove_inv h
  | relisted kind now listing => exact relist_inv h hl.1

omit [DecidableEq K] in
/-- one object's version is covered exactly when it keeps the owner references of the one before -/
theorem covered_iff_keptBy {id : String} {p : KubeObject} (hinv : c.Inv) (hp : Valid id p) :
    Covered c (· = id) (elementsOf p) ↔ c.KeptBy p := by
  constructor
  · intro hcov id' kind old huid hc
    rw [hp.uid] at huid
    cases huid
    exact (covers_iff_keeps (hinv id kind old hc) hp).1 (hcov id kind old rfl hc)
  · rintro hkept id' kind old rfl hc
    exact (covers_iff_keeps (hinv _ kind old hc) hp).2 (hkept _ kind old hp.uid hc)

omit [DecidableEq K] in
/-- a version that is put in, created or updated -/
theorem put_object_iff {kind : K} {op : ChangeOp} (hop : op ≠ .delete) (now : ℕ) {id : String} {p : KubeObject}
    (hp : Valid id p) (h : Mirrors g c) (hinv : c.Inv) :
    Mirrors (g.apply (changesOf op now p)) (c.put kind p) ↔ c.KeptBy p := by
  have hput : g.apply (changesOf op now p) = Writes.apply g ((elementsOf p).map fun e => (e.id, some e)) := by
    simpa using apply_put_changes g hop now [p]
  have hself : c.put kind p id = some (kind, p) := by simp [Cluster.put, hp.uid]
  rw [hput, ← covered_iff_keptBy hinv hp]
  refine put_mirrors_iff h hinv (put_inv hinv hp) (fun e he e' he' => element_unique hp he he') (fun id' hne => ?_)
    fun e => ?_
  · simp [Cluster.put, hp.uid, Ne.symm hne]
  · constructor
    · intro he
      exact ⟨id, kind, p, rfl, hself, he⟩
    · rintro ⟨_, kind', p', rfl, hc', he⟩
      rw [hself] at hc'
      cases hc'
      exact he

/-- the objects that a listing replaces: those listed, and those there were of its kind -/
def Replaced (c : Cluster K) (kind : K) (listing : List KubeObject) (id : String) : Prop :=
  (∃ p, findObject listing id = some p) ∨ ∃ old, c id = some (kind, old)

omit [DecidableEq K] in
theorem valid_of_find {kind : K} {listing : List KubeObject} (hl : ∀ p ∈ listing, c.Admits kind p) {id : String}
    {p : KubeObject} (h : findObject listing id = some p) : Valid id p ∧ ∀ kind' p', c id = some (kind', p') → kind' = kind := by
  obtain ⟨hmem, huid⟩ := findObject_eq_some h
  obtain ⟨id', hp, hkind⟩ := hl p hmem
  rw [hp.uid] at huid
  cases huid
  exact ⟨hp, hkind⟩

omit [DecidableEq K] in
theorem covered_iff_listed {kind : K} {listing : List KubeObject} (hinv : c.Inv)
    (hl : ∀ p ∈ listing, c.Admits kind p) (hnodup : (listing.map KubeObject.uid).Nodup) :
    Covered c (Replaced c kind listing) (listing.flatMap elementsOf) ↔
      ∀ id old, c id = some (kind, old) → ∃ p, findObject listing id = some p ∧ Keeps old p := by
  constructor
  · intro hcov id old hc
    have hold : Valid id old := hinv id kind old hc
    have hlisted : ∀ e ∈ elementsOf old, ∃ p, findObject listing id = some p ∧ ∃ e' ∈ elementsOf p, e'.id = e.id := by
      intro e he
      obtain ⟨e', he', hid⟩ := hcov id kind old (Or.inr ⟨old, hc⟩) hc e he
      obtain ⟨p, hp, hpe⟩ := List.mem_flatMap.1 he'
      obtain ⟨id', hp', -⟩ := hl p hp
      have heq : id' = id := element_object hp' hold hpe he hid
      exact ⟨p, findObject_of_mem hnodup hp (heq ▸ hp'.uid), e', hpe, hid⟩
    obtain ⟨properties, label, -, heq⟩ := hold.elementsOf_eq
    obtain ⟨p, hp, -⟩ := hlisted _ (heq ▸ List.mem_cons_self)
    refine ⟨p, hp, (covers_iff_keeps hold (valid_of_find hl hp).1).1 fun e he => ?_⟩
    obtain ⟨p', hp', hcover⟩ := hlisted e he
    rw [hp] at hp'
    cases hp'
    exact hcover
  · intro hkeeps id kind' old hrep hc e he
    have hkind : kind' = kind := by
      rcases hrep with ⟨p, hp⟩ | ⟨old', hc'⟩
      · exact (valid_of_find hl hp).2 kind' old hc
      · rw [hc] at hc'
        cases hc'
        rfl
    subst hkind
    obtain ⟨p, hp, hkeep⟩ := hkeeps id old hc
    obtain ⟨e', he', hid⟩ := (covers_iff_keeps (hinv id kind' old hc) (valid_of_find hl hp).1).2 hkeep e he
    exact ⟨e', List.mem_flatMap.2 ⟨p, (findObject_eq_some hp).1, he'⟩, hid⟩

theorem relist_iff {kind : K} (now : ℕ) {listing : List KubeObject} (h : Mirrors g c) (hinv : c.Inv)
    (hl : ∀ p ∈ listing, c.Admits kind p) (hnodup : (listing.map KubeObject.uid).Nodup) :
    Mirrors (g.apply (listing.flatMap (changesOf .create now))) (c.relist kind listing) ↔
      ∀ id old, c id = some (kind, old) → ∃ p, findObject listing id = some p ∧ Keeps old p := by
  have hvalid : ∀ p ∈ listing, ∃ id, Valid id p ∧ findObject listing id = some p := fun p hp => by
    obtain ⟨id, hid, -⟩ := hl p hp
    exact ⟨id, hid, findObject_of_mem hnodup hp hid.uid⟩
  rw [apply_put_changes g (by decide), ← covered_iff_listed hinv hl hnodup]
  refine put_mirrors_iff h hinv (relist_inv hinv hl) (fun e he e' he' hid => ?_) (fun id hno => ?_) fun e => ?_
  · obtain ⟨p, hp, hpe⟩ := List.mem_flatMap.1 he
    obtain ⟨p', hp', hpe'⟩ := List.mem_flatMap.1 he'
    obtain ⟨i, hi, hfind⟩ := hvalid p hp
    obtain ⟨i', hi', hfind'⟩ := hvalid p' hp'
    have heq : i = i' := element_object hi hi' hpe hpe' hid
    rw [heq, hfind'] at hfind
    cases hfind
    exact element_unique hi hpe hpe' hid
  · have hnone : findObject listing id = none := by
      by_contra hsome
      exact hno (Or.inl (Option.ne_none_iff_exists'.1 hsome))
    have hkeep : (c id).filter (fun entry => entry.1 ≠ kind) = c id := by
      cases hc : c id with
      | none => rfl
      | some entry =>
        obtain ⟨kind', old⟩ := entry
        have hne : kind' ≠ kind := by
          rintro rfl
          exact hno (Or.inr ⟨old, hc⟩)
        simp [hne]
    simp only [Cluster.relist, hnone]
    exact hkeep
  · constructor
    · intro he
      obtain ⟨p, hp, hpe⟩ := List.mem_flatMap.1 he
      obtain ⟨id, -, hfind⟩ := hvalid p hp
      exact ⟨id, kind, p, Or.inl ⟨p, hfind⟩, by simp [Cluster.relist, hfind], hpe⟩
    · rintro ⟨id, kind', p, hrep, hc', hpe⟩
      cases hfind : findObject listing id with
      | some q =>
        simp only [Cluster.relist, hfind] at hc'
        cases hc'
        exact List.mem_flatMap.2 ⟨p, (findObject_eq_some hfind).1, hpe⟩
      | none =>
        obtain ⟨old, hc⟩ := hrep.resolve_left fun ⟨q, hq⟩ => by rw [hfind] at hq; cases hq
        simp only [Cluster.relist, hfind, hc] at hc'
        obtain ⟨heq, hne⟩ := Option.filter_eq_some_iff.1 hc'
        cases heq
        simp at hne

/-- **One report.** A report takes a graph that mirrors the cluster to one that mirrors it exactly when it keeps the
elements of what it replaces. -/
theorem mirrors_step_iff {s : State K} {o : Report K} (hinv : s.cluster.Inv) (hl : s.legal o)
    (h : Mirrors s.graph s.cluster) : Mirrors (s.step o).graph (s.step o).cluster ↔ s.Keeps o := by
  cases o with
  | added kind now p =>
    obtain ⟨id, hp, -⟩ := hl
    exact put_object_iff (by decide) now hp h hinv
  | modified kind now p =>
    obtain ⟨id, hp, -⟩ := hl
    exact put_object_iff (by decide) now hp h hinv
  | deleted kind now p =>
    obtain ⟨id, hp, -⟩ := hl
    change Mirrors (s.graph.apply (changesOf .delete now p)) (s.cluster.remove p) ↔ s.cluster.KeptBy p
    rw [apply_delete_changes, ← covered_iff_keptBy hinv hp]
    refine take_mirrors_iff hp h hinv (remove_inv hinv) (fun id' hne => ?_) ?_
    · simp [Cluster.remove, hp.uid, Ne.symm hne]
    · simp [Cluster.remove, hp.uid]
  | relisted kind now listing => exact relist_iff now h hinv hl.1 hl.2

/-- **The mirror of the cluster.** Along every run of reports, the graph that the changes build has in every state exactly
the node of each object and the relation of each of its owner references, if and only if every report keeps the owner
references of the version it replaces and every listing has each object there was of its kind. -/
theorem mirrors_iff_keeps (reports : List (Report K)) (hl : Meets State.step State.legal State.start reports) :
    Throughout State.step (fun s => Mirrors s.graph s.cluster) State.start reports ↔
      Meets State.step State.Keeps State.start reports := by
  have hstart : Mirrors (State.start : State K).graph (State.start : State K).cluster := by
    refine ⟨fun id e h => (by cases h), fun e => iff_of_false (fun h => (by cases h)) fun h => ?_⟩
    cases h with
    | node hc _ _ => cases hc
    | owns hc _ => cases hc
  have hinv : (State.start : State K).cluster.Inv := fun id kind p h => by cases h
  exact throughout_iff_meets (fun s : State K => s.cluster.Inv) step_cluster_inv
    (fun s o hinv ho h => mirrors_step_iff hinv ho h) hinv hstart hl

/-- a pod with these owners -/
def pod (owners : List OwnerReference) : KubeObject where
  uid := some "9e1f4a52-6a0f-4e0e-9d3b-5f1f2f3c7a10"
  resourceVersion := some "1"
  ownerReferences := owners
  toValue := some (.object [("kind", .string "Pod")])

omit [DecidableEq K] in
theorem pod_valid (owners : List OwnerReference) : Valid "9e1f4a52-6a0f-4e0e-9d3b-5f1f2f3c7a10" (pod owners) :=
  ⟨rfl, by decide, _, "Pod", rfl, rfl⟩

theorem pod_admitted (c : Cluster Unit) (owners : List OwnerReference) : c.Admits () (pod owners) :=
  ⟨_, pod_valid owners, fun _ _ _ => rfl⟩

/-- a pod gets a second owner and is deleted -/
def adoptedPod : List (Report Unit) :=
  [.added () 0 (pod [⟨"a"⟩]), .modified () 1 (pod [⟨"a"⟩, ⟨"b"⟩]), .deleted () 2 (pod [⟨"a"⟩, ⟨"b"⟩])]

/-- witness for `mirrors_iff_keeps` -/
theorem adoptedPod_mirrored : Throughout State.step (fun s => Mirrors s.graph s.cluster) State.start adoptedPod := by
  have hlegal : Meets State.step State.legal State.start adoptedPod :=
    ⟨pod_admitted _ _, pod_admitted _ _, pod_admitted _ _, trivial⟩
  refine (mirrors_iff_keeps adoptedPod hlegal).2 ⟨?_, ?_, ?_, trivial⟩
  · intro id kind old _ hc
    cases hc
  · intro id kind old huid hc
    cases huid
    cases hc
    decide
  · intro id kind old huid hc
    cases huid
    cases hc
    decide

theorem added_pod_inv (owners : List OwnerReference) :
    ((State.start : State Unit).step (.added () 0 (pod owners))).cluster.Inv := by
  have hstart : (State.start : State Unit).cluster.Inv := fun id kind p h => by cases h
  exact put_inv hstart (pod_valid owners)

/-- the relation of an owner reference that a modification drops stays, and so does an object deleted during a gap -/
theorem stale_elements_stay :
    ¬Throughout State.step (fun s => Mirrors s.graph s.cluster) (State.start : State Unit)
      [.added () 0 (pod [⟨"a"⟩]), .modified () 1 (pod [])] ∧
    ¬Throughout State.step (fun s => Mirrors s.graph s.cluster) (State.start : State Unit)
      [.added () 0 (pod []), .relisted () 1 []] := by
  constructor
  · rintro ⟨-, hadded, hmodified⟩
    have hlegal : ((State.start : State Unit).step (.added () 0 (pod [⟨"a"⟩]))).legal (.modified () 1 (pod [])) :=
      pod_admitted _ _
    have hkept := (mirrors_step_iff (added_pod_inv _) hlegal hadded).1 hmodified _ () (pod [⟨"a"⟩]) rfl rfl
    exact absurd hkept (by decide)
  · rintro ⟨-, hadded, hrelisted⟩
    have hlegal : ((State.start : State Unit).step (.added () 0 (pod []))).legal (.relisted () 1 []) :=
      ⟨fun p hp => (by cases hp), List.nodup_nil⟩
    have hlisted := (mirrors_step_iff (added_pod_inv _) hlegal hadded).1 hrelisted
    obtain ⟨p, hp, -⟩ := hlisted "9e1f4a52-6a0f-4e0e-9d3b-5f1f2f3c7a10" (pod []) rfl
    cases hp

end Mirror

end DrasiPlatform.KubernetesReactivator
