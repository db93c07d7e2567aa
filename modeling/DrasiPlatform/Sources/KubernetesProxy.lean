/-
The proxy of the Kubernetes source (`sources/kubernetes/kubernetes-proxy/src/main.rs`), which answers a bootstrap request
with the objects of the cluster.

`my_stream` goes through twelve kinds. For a kind that is among the node labels, a task lists its objects page by page and
sends, for each, an `OWNS` relation per owner and then the node. The result of the task comes inside the result of joining
it, and only the latter is looked at: a page that fails ends the listing of its kind, and the answer is what was sent.

The request's relation labels are not read: the relations that belong to a request are those of its objects.

- `my_stream_iff`: the proxy answers an error or the whole snapshot exactly when a task is not joined, or no page of a
  requested kind fails with objects unlisted and every one of its objects can be made a node.
-/
import Mathlib.Tactic
import DrasiPlatform.Core.Pages
import DrasiPlatform.Sources.SourceSdk

namespace DrasiPlatform.KubernetesProxy

open Json SourceSdk Pages

/-! ## Model -/

inductive BootstrapError where
  | internalError (message : String)
deriving DecidableEq

/-- an object as it comes in a page -/
structure Resource where
  uid : Option String
  /-- the uids of its owners -/
  ownerReferences : List String
  /-- `serde_json::to_value`, where it makes an object -/
  object : Option Map

/-- what a kind has to offer to a task -/
structure Listing where
  /-- the text of a `JoinError`, if the task panics or is cancelled -/
  joinError : Option String
  pages : Pages BootstrapError Resource

abbrev Cluster := String → Listing

structure BootstrapRequest where
  nodeLabels : List String
  relLabels : List String

def owns (owner id : String) : SourceElement := .relation (owner ++ "-" ++ id) ["OWNS"] .empty owner id

/-- the body of the loop over the items of a page -/
def sendObject (p : Resource) : Outputs BootstrapError SourceElement :=
  match p.uid with
  | none => ([], .ok ())
  | some id =>
    let owners := p.ownerReferences.map fun owner => owns owner id
    match p.object with
    | none => (owners, .ok ())
    | some properties =>
      match properties.fields.lookup "kind" with
      | some (.string label) => (owners ++ [.node id [label] properties], .ok ())
      | _ => (owners, .error (.internalError "Invalid 'kind' from Kubernetes response"))

def streamResources (pages : Pages BootstrapError Resource) : Outputs BootstrapError SourceElement :=
  pages.forEach sendObject

/-- the elements that are sent for a kind -/
def checkResources (cluster : Cluster) (req : BootstrapRequest) (kind : String) :
    Except BootstrapError (List SourceElement) :=
  if kind ∈ req.nodeLabels then
    let (sent, result) := streamResources (cluster kind).pages
    let joined : Except String (Except BootstrapError Unit) :=
      match (cluster kind).joinError with
      | some e => .error e
      | none => .ok result
    match joined with
    | .error e => .error (.internalError e)
    | .ok _ => .ok sent
  else .ok []

/-- the kinds, in the order of the calls -/
def kinds : List String :=
  ["Pod", "Deployment", "ReplicaSet", "StatefulSet", "DaemonSet", "Job", "Service", "ServiceAccount", "Node", "Ingress",
    "PersistentVolume", "PersistentVolumeClaim"]

/-- `check_resources` for one kind after the other, up to the first error -/
def checkAll (cluster : Cluster) (req : BootstrapRequest) : List String → Except BootstrapError (List SourceElement)
  | [] => .ok []
  | kind :: rest => do
    let sent ← checkResources cluster req kind
    let more ← checkAll cluster req rest
    return sent ++ more

/-- the elements of the stream, which ends when the senders are gone -/
def myStream (cluster : Cluster) (req : BootstrapRequest) : Except BootstrapError (List SourceElement) :=
  checkAll cluster req kinds

/-! ## The promise -/

/-- the elements that stand for an object; `none` for one that cannot be made -/
def elements (kind : String) (p : Resource) : List (Option SourceElement) :=
  (p.ownerReferences.map fun owner => p.uid.map (owns owner)) ++
    [p.uid.bind fun id => p.object.map fun properties => .node id [kind] properties]

/-- what the cluster has for a request -/
def snapshot (cluster : Cluster) (req : BootstrapRequest) : Multiset (Option SourceElement) :=
  ∑ kind ∈ req.nodeLabels.toFinset, ((cluster kind).pages.contents.flatMap (elements kind) : Multiset _)

/-- an error, or the whole snapshot: one node for each object, with its id, and the relations of the objects -/
def CompleteOrError (cluster : Cluster) (req : BootstrapRequest) : Prop :=
  (∃ e, myStream cluster req = .error e) ∨
    ∃ answer, myStream cluster req = .ok answer ∧ (answer.map some : Multiset _) = snapshot cluster req

/-- an object that can be made a node of its kind -/
structure Convertible (kind : String) (p : Resource) : Prop where
  uid : p.uid.isSome = true
  kind : ∃ properties, p.object = some properties ∧ properties.fields.lookup "kind" = some (.string kind)

/-- no page fails with objects unlisted, and every object can be made a node -/
structure FullyListed (kind : String) (pages : Pages BootstrapError Resource) : Prop where
  left : pages.left = []
  convertible : ∀ p ∈ pages.contents, Convertible kind p

/-! ## One object -/

/-- how many elements stand for an object -/
def weight (p : Resource) : ℕ := p.ownerReferences.length + 1

theorem length_elements (kind : String) (p : Resource) : (elements kind p).length = weight p := by
  simp [elements, weight]

theorem sendObject_of_convertible {kind : String} {p : Resource} (h : Convertible kind p) :
    (sendObject p).2 = .ok () ∧ (sendObject p).1.map some = elements kind p := by
  obtain ⟨id, hid⟩ := Option.isSome_iff_exists.1 h.uid
  obtain ⟨properties, hobject, hkind⟩ := h.kind
  simp [sendObject, elements, hid, hobject, hkind]

theorem sendObject_fits (p : Resource) : Fits (sendObject p) (weight p) := by
  unfold sendObject weight
  constructor
  · split
    · exact Nat.zero_le _
    · dsimp only
      split
      · simp
      · split <;> simp
  · intro e he
    split
    · exact Nat.succ_pos _
    · dsimp only at he ⊢
      split
      · simp
      · split <;> simp_all

/-- an object that is sent in full has a kind -/
theorem exists_kind_of_full {p : Resource} (h : (sendObject p).1.length = weight p) :
    p.uid.isSome = true ∧ ∃ properties kind, p.object = some properties ∧
      properties.fields.lookup "kind" = some (.string kind) := by
  unfold sendObject weight at h
  split at h
  · simp at h
  · next id hid =>
    dsimp only at h
    split at h
    · simp at h
    · next properties hobject =>
      split at h
      · next label hkind => exact ⟨by rw [hid]; rfl, properties, label, hobject, hkind⟩
      · simp at h

/-- a node is sent with the kind that it names -/
theorem kind_of_mem_sendObject {p : Resource} {id : String} {labels : List String} {properties : Map}
    (h : .node id labels properties ∈ (sendObject p).1) :
    ∃ kind, labels = [kind] ∧ properties.fields.lookup "kind" = some (.string kind) := by
  unfold sendObject at h
  split at h
  · cases h
  · dsimp only at h
    split at h
    · simp [owns] at h
    · split at h
      · next kind hkind =>
        simp only [List.mem_append, List.mem_map, owns, reduceCtorEq, and_false, exists_false, List.mem_singleton,
          SourceElement.node.injEq, false_or] at h
        obtain ⟨-, rfl, rfl⟩ := h
        exact ⟨kind, rfl, hkind⟩
      · simp [owns] at h

/-! ## All kinds -/

section Kinds

variable {cluster : Cluster} {req : BootstrapRequest}

/-- what a kind adds to an answer -/
def sentFor (cluster : Cluster) (req : BootstrapRequest) (kind : String) : List SourceElement :=
  if kind ∈ req.nodeLabels then (streamResources (cluster kind).pages).1 else []

theorem checkResources_of_joined {kind : String} (h : kind ∈ req.nodeLabels → (cluster kind).joinError = none) :
    checkResources cluster req kind = .ok (sentFor cluster req kind) := by
  unfold checkResources sentFor
  split
  · next hkind => rw [h hkind]
  · rfl

theorem checkAll_of_joined {l : List String} (h : ∀ kind ∈ l, kind ∈ req.nodeLabels → (cluster kind).joinError = none) :
    checkAll cluster req l = .ok (l.flatMap (sentFor cluster req)) := by
  induction l with
  | nil => rfl
  | cons kind l ih =>
    obtain ⟨hkind, hl⟩ := List.forall_mem_cons.1 h
    rw [checkAll, checkResources_of_joined hkind, ih hl]
    rfl

theorem checkAll_of_aborted {l : List String}
    (h : ∃ kind ∈ l, kind ∈ req.nodeLabels ∧ (cluster kind).joinError.isSome = true) :
    ∃ e, checkAll cluster req l = .error e := by
  obtain ⟨kind, hmem, hkind, hsome⟩ := h
  obtain ⟨e, he⟩ := Option.isSome_iff_exists.1 hsome
  have haborted : checkResources cluster req kind = .error (.internalError e) := by
    rw [checkResources, if_pos hkind, he]
  induction l with
  | nil => cases hmem
  | cons first l ih =>
    rw [checkAll]
    cases hfirst : checkResources cluster req first with
    | error e' => exact ⟨e', rfl⟩
    | ok sent =>
      rcases List.mem_cons.1 hmem with rfl | hmem
      · rw [haborted] at hfirst
        cases hfirst
      · obtain ⟨e', he'⟩ := ih hmem
        exact ⟨e', by rw [he']; rfl⟩

/-- what was sent of a kind -/
def streamed (cluster : Cluster) (kind : String) : List (Option SourceElement) :=
  (streamResources (cluster kind).pages).1.map some

/-- the answer, summed up over the labels of the request -/
theorem map_some_flatMap_sentFor {l : List String} (hl : l.Nodup) :
    ((l.flatMap (sentFor cluster req)).map some : Multiset (Option SourceElement)) =
      ∑ kind ∈ req.nodeLabels.toFinset, if kind ∈ l then (streamed cluster kind : Multiset _) else 0 := by
  have hsum : ((l.flatMap (sentFor cluster req)).map some : Multiset (Option SourceElement)) =
      ∑ kind ∈ l.toFinset, ((sentFor cluster req kind).map some : Multiset _) := by
    rw [List.map_flatMap, ← Multiset.coe_bind, Finset.sum, List.toFinset_val, hl.dedup]
    rfl
  have hsent : ∀ kind, ((sentFor cluster req kind).map some : Multiset (Option SourceElement)) =
      if kind ∈ req.nodeLabels then (streamed cluster kind : Multiset _) else 0 := by
    intro kind
    unfold sentFor
    split <;> rfl
  have hfilter : {kind ∈ l.toFinset | kind ∈ req.nodeLabels} = {kind ∈ req.nodeLabels.toFinset | kind ∈ l} := by
    ext kind
    simp [and_comm]
  calc ((l.flatMap (sentFor cluster req)).map some : Multiset (Option SourceElement))
      = ∑ kind ∈ l.toFinset, if kind ∈ req.nodeLabels then (streamed cluster kind : Multiset _) else 0 := by
        rw [hsum, Finset.sum_congr rfl fun kind _ => hsent kind]
    _ = ∑ kind ∈ l.toFinset with kind ∈ req.nodeLabels, (streamed cluster kind : Multiset _) := (Finset.sum_filter ..).symm
    _ = ∑ kind ∈ req.nodeLabels.toFinset with kind ∈ l, (streamed cluster kind : Multiset _) := by rw [hfilter]
    _ = ∑ kind ∈ req.nodeLabels.toFinset, if kind ∈ l then (streamed cluster kind : Multiset _) else 0 :=
        Finset.sum_filter ..

theorem weight_pos (p : Resource) : 0 < weight p := Nat.succ_pos _

theorem length_contents (kind : String) (l : List Resource) : (l.flatMap (elements kind)).length = (l.map weight).sum := by
  rw [List.length_flatMap, List.map_congr_left fun p _ => length_elements kind p]

theorem streamed_le (kind : String) :
    (streamed cluster kind).length ≤ ((cluster kind).pages.contents.flatMap (elements kind)).length := by
  rw [streamed, List.length_map, length_contents]
  exact length_forEach_le sendObject_fits _

theorem streamed_of_fullyListed {kind : String} (h : FullyListed kind (cluster kind).pages) :
    streamed cluster kind = (cluster kind).pages.contents.flatMap (elements kind) := by
  have hsent : ∀ p ∈ (cluster kind).pages.contents,
      (sendObject p).2 = .ok () ∧ (sendObject p).1.map some = elements kind p :=
    fun p hp => sendObject_of_convertible (h.convertible p hp)
  calc streamed cluster kind
      = ((cluster kind).pages.contents.flatMap fun p => (sendObject p).1).map some := by
        rw [streamed, streamResources, forEach_eq h.left fun p hp => (hsent p hp).1]
    _ = (cluster kind).pages.contents.flatMap fun p => (sendObject p).1.map some := List.map_flatMap ..
    _ = (cluster kind).pages.contents.flatMap (elements kind) := List.flatMap_congr fun p hp => (hsent p hp).2

/-- a node of an answer has the kind that it names -/
theorem kind_of_mem_answer {l : List String} {id kind : String} {properties : Map}
    (h : .node id [kind] properties ∈ l.flatMap (sentFor cluster req)) :
    properties.fields.lookup "kind" = some (.string kind) := by
  obtain ⟨kind', -, hsent⟩ := List.mem_flatMap.1 h
  unfold sentFor at hsent
  split at hsent
  · obtain ⟨p, -, hp⟩ := mem_forEach hsent
    obtain ⟨named, hnamed, hlookup⟩ := kind_of_mem_sendObject hp
    obtain rfl : kind = named := (List.cons.inj hnamed).1
    exact hlookup
  · cases hsent

theorem complete_iff :
    ((kinds.flatMap (sentFor cluster req)).map some : Multiset (Option SourceElement)) = snapshot cluster req ↔
      ∀ kind ∈ req.nodeLabels,
        (kind ∈ kinds ∧ FullyListed kind (cluster kind).pages) ∨ (cluster kind).pages.contents = [] := by
  have hanswer : ((kinds.flatMap (sentFor cluster req)).map some : Multiset (Option SourceElement)) = _ :=
    map_some_flatMap_sentFor (by decide)
  constructor
  · intro h
    have hcard : ∑ kind ∈ req.nodeLabels.toFinset, (if kind ∈ kinds then (streamed cluster kind).length else 0) =
        ∑ kind ∈ req.nodeLabels.toFinset, ((cluster kind).pages.contents.flatMap (elements kind)).length := by
      have := congrArg Multiset.card (hanswer.symm.trans h)
      simpa only [snapshot, Multiset.card_sum, apply_ite Multiset.card, Multiset.coe_card, Multiset.card_zero] using this
    have heach := (Finset.sum_eq_sum_iff_of_le fun kind _ => by
      split
      · exact streamed_le kind
      · exact Nat.zero_le _).1 hcard
    intro kind hkind
    have hlen := heach kind (List.mem_toFinset.2 hkind)
    by_cases hknown : kind ∈ kinds
    · rw [if_pos hknown, streamed, List.length_map, length_contents] at hlen
      obtain ⟨hleft, hfull⟩ := (forEach_length_eq_iff sendObject_fits weight_pos _).1 hlen
      refine .inl ⟨hknown, hleft, fun p hp => ?_⟩
      obtain ⟨huid, properties, named, hobject, hnamed⟩ := exists_kind_of_full (hfull p hp)
      obtain ⟨id, hid⟩ := Option.isSome_iff_exists.1 huid
      -- the node that stands for the object is in the answer, so the kind that it names is this one
      have hnode : some (.node id [kind] properties) ∈ snapshot cluster req := by
        refine Multiset.mem_sum.2 ⟨kind, List.mem_toFinset.2 hkind, ?_⟩
        rw [Multiset.mem_coe, List.mem_flatMap]
        exact ⟨p, hp, by simp [elements, hid, hobject]⟩
      rw [← h, Multiset.mem_coe, List.mem_map] at hnode
      obtain ⟨x, hx, heq⟩ := hnode
      rw [Option.some.inj heq] at hx
      exact ⟨huid, properties, hobject, kind_of_mem_answer hx⟩
    · rw [if_neg hknown, length_contents] at hlen
      refine .inr (List.eq_nil_iff_forall_not_mem.2 fun p hp => ?_)
      have hle := List.single_le_sum (fun _ _ => Nat.zero_le _) _ (List.mem_map_of_mem (f := weight) hp)
      have hpos := weight_pos p
      omega
  · intro h
    rw [hanswer, snapshot]
    refine Finset.sum_congr rfl fun kind hkind => ?_
    rcases h kind (List.mem_toFinset.1 hkind) with ⟨hknown, hlisted⟩ | hnone
    · rw [if_pos hknown, streamed_of_fullyListed hlisted]
    · have hle : (streamed cluster kind).length ≤ _ := streamed_le kind
      rw [hnone] at hle ⊢
      rw [List.eq_nil_of_length_eq_zero (Nat.le_zero.1 hle)]
      split <;> rfl

end Kinds

/-- **An error or the whole snapshot**, exactly when a task is not joined, or no requested kind is cut short. -/
theorem my_stream_iff (cluster : Cluster) (req : BootstrapRequest) :
    CompleteOrError cluster req ↔
      (∃ kind ∈ kinds, kind ∈ req.nodeLabels ∧ (cluster kind).joinError.isSome = true) ∨
        ∀ kind ∈ req.nodeLabels,
          (kind ∈ kinds ∧ FullyListed kind (cluster kind).pages) ∨ (cluster kind).pages.contents = [] := by
  by_cases haborted : ∃ kind ∈ kinds, kind ∈ req.nodeLabels ∧ (cluster kind).joinError.isSome = true
  · exact iff_of_true (.inl (checkAll_of_aborted haborted)) (.inl haborted)
  · have hjoined : ∀ kind ∈ kinds, kind ∈ req.nodeLabels → (cluster kind).joinError = none := by
      intro kind hknown hkind
      by_contra hne
      exact haborted ⟨kind, hknown, hkind, Option.isSome_iff_ne_none.2 hne⟩
    have hanswer : myStream cluster req = .ok (kinds.flatMap (sentFor cluster req)) := checkAll_of_joined hjoined
    rw [or_iff_right haborted, ← complete_iff, CompleteOrError, hanswer]
    constructor
    · rintro (⟨e, he⟩ | ⟨answer, hok, hcomplete⟩)
      · cases he
      · cases hok
        exact hcomplete
    · intro hcomplete
      exact .inr ⟨_, rfl, hcomplete⟩

end DrasiPlatform.KubernetesProxy
