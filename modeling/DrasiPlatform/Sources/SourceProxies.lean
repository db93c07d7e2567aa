/-
Snapshots of the source proxies that list page by page: a bootstrap request gets the whole snapshot or an error, unless a
listing is cut short. In both proxies an error that ends a listing is logged or dropped and never reaches the answer.

- `complete_or_error_iff`: when the Kubernetes proxy and the Gremlin proxy answer the whole snapshot or an error.
Witnesses: `failing_pages_dropped` (the second page fails, and the answer is the first), `complete_or_error_two_pages`.
-/
import Mathlib.Tactic
import DrasiPlatform.Sources.KubernetesProxy
import DrasiPlatform.Sources.GremlinProxy

namespace DrasiPlatform.SourceProxies

open Json

/-- **The whole snapshot or an error.** The Kubernetes proxy answers one exactly when a task is not joined, or no page of a
requested kind fails with objects unlisted, every object can be made a node, and there is no object of another kind. The
Gremlin proxy does exactly when neither stream fails with elements left and every property of a requested element has a
first value. -/
theorem complete_or_error_iff (cluster : KubernetesProxy.Cluster) (req : KubernetesProxy.BootstrapRequest)
    (client : GremlinProxy.Client) (g : GremlinProxy.Graph) (input : GremlinProxy.Input)
    (hselects : GremlinProxy.Selects client g input) :
    (KubernetesProxy.CompleteOrError cluster req ↔
      (∃ kind ∈ KubernetesProxy.kinds, kind ∈ req.nodeLabels ∧ (cluster kind).joinError.isSome = true) ∨
        ∀ kind ∈ req.nodeLabels,
          (kind ∈ KubernetesProxy.kinds ∧ KubernetesProxy.FullyListed kind (cluster kind).pages) ∨
            (cluster kind).pages.contents = []) ∧
      (GremlinProxy.CompleteOrError client g input ↔
        ((client.vertices (GremlinProxy.nodeQuery input.nodeLabels)).left = [] ∧
            ∀ v ∈ g.nodes input, GremlinProxy.Readable v.properties) ∧
          (client.edges (GremlinProxy.relQuery input.relLabels)).left = [] ∧
            ∀ e ∈ g.rels input, GremlinProxy.Readable e.properties) :=
  ⟨KubernetesProxy.my_stream_iff cluster req, GremlinProxy.acquire_iff hselects⟩

/-! ## Two pages -/

/-- the JSON of a pod -/
def podObject : Map := Map.empty.insert "kind" (.string "Pod")

def pod (uid : String) : KubernetesProxy.Resource := ⟨some uid, [], some podObject⟩

/-- a cluster whose pods come as `pages` -/
def podCluster (pages : Pages KubernetesProxy.BootstrapError KubernetesProxy.Resource) : KubernetesProxy.Cluster :=
  fun kind => if kind = "Pod" then ⟨none, pages⟩ else ⟨none, .last []⟩

def podRequest : KubernetesProxy.BootstrapRequest := ⟨["Pod"], []⟩

def person (id : String) : GremlinProxy.Vertex := ⟨.string id, "Person", none⟩

/-- a graph whose vertices come as `pages`, and nothing else -/
def personClient (pages : Pages GremlinProxy.Thrown GremlinProxy.Vertex) : GremlinProxy.Client :=
  ⟨fun _ => pages, fun _ => .last []⟩

def people : GremlinProxy.Graph := ⟨[person "a", person "b"], []⟩

def personInput : GremlinProxy.Input := ⟨["Person"], ["KNOWS"]⟩

theorem failing_pages_dropped :
    (KubernetesProxy.myStream (podCluster (.more [pod "a"] (.failed (.internalError "timeout") [pod "b"]))) podRequest =
        .ok [.node "a" ["Pod"] podObject] ∧
      ¬ KubernetesProxy.CompleteOrError (podCluster (.more [pod "a"] (.failed (.internalError "timeout") [pod "b"])))
        podRequest) ∧
      GremlinProxy.acquire (personClient (.more [person "a"] (.failed (.stream "timeout") [person "b"]))) personInput =
        ⟨200, [⟨.string "a", ["Person"], .empty⟩], []⟩ ∧
      ¬ GremlinProxy.CompleteOrError (personClient (.more [person "a"] (.failed (.stream "timeout") [person "b"]))) people
        personInput := by
  refine ⟨⟨rfl, ?_⟩, rfl, ?_⟩
  · rw [KubernetesProxy.my_stream_iff]
    rintro (⟨kind, -, hkind, haborted⟩ | hall)
    · obtain rfl : kind = "Pod" := List.mem_singleton.1 hkind
      cases haborted
    · rcases hall "Pod" List.mem_cons_self with ⟨-, hlisted⟩ | hnone
      · cases hlisted.left
      · cases hnone
  · rintro (hstatus | hcomplete)
    · exact hstatus rfl
    · have hlen := hcomplete.nodes.length_eq
      simp [GremlinProxy.acquire, GremlinProxy.Graph.nodes, people, person, personInput, personClient, Pages.forEach,
        Pages.forEachIn, Pages.andThen, GremlinProxy.pushNode, GremlinProxy.push, GremlinProxy.readProperties,
        GremlinProxy.readEntries] at hlen

theorem complete_or_error_two_pages :
    KubernetesProxy.CompleteOrError (podCluster (.more [pod "a"] (.last [pod "b"]))) podRequest ∧
      GremlinProxy.CompleteOrError (personClient (.more [person "a"] (.last [person "b"]))) people personInput := by
  have hselects : GremlinProxy.Selects (personClient (.more [person "a"] (.last [person "b"]))) people personInput :=
    ⟨.of_eq rfl, .of_eq rfl⟩
  obtain ⟨hpods, hpeople⟩ := complete_or_error_iff (podCluster (.more [pod "a"] (.last [pod "b"]))) podRequest _ _ _ hselects
  refine ⟨hpods.2 (.inr ?_), hpeople.2 ⟨⟨rfl, ?_⟩, rfl, ?_⟩⟩
  · intro kind hkind
    obtain rfl : kind = "Pod" := List.mem_singleton.1 hkind
    refine .inl ⟨List.mem_cons_self, rfl, fun p hp => ?_⟩
    have hpod : ∃ uid, p = pod uid := by
      rcases List.mem_cons.1 hp with rfl | hp
      · exact ⟨"a", rfl⟩
      · exact ⟨"b", List.mem_singleton.1 hp⟩
    obtain ⟨uid, rfl⟩ := hpod
    exact ⟨rfl, podObject, rfl, rfl⟩
  · intro v hv entry hentry
    have hnone : v.properties = none := by
      rcases List.mem_cons.1 (List.mem_of_mem_filter hv) with rfl | hv
      · rfl
      · rw [List.mem_singleton.1 hv]
        rfl
    rw [hnone] at hentry
    cases hentry
  · intro e he
    cases he

end DrasiPlatform.SourceProxies
