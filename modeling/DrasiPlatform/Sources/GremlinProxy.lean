/-
The Gremlin proxy of the Cosmos DB source (`sources/cosmosdb/gremlin-proxy/sourceProxy.js`), which answers a bootstrap
request with the vertices and edges of a graph.

`acquire` reads two streams, one after the other, each in a `try` of its own. What is thrown, by the stream or by the
reading of an element's properties, is logged; the answer has what was pushed until then, with status 200. The value of a
property is `v[0].value` for vertices and edges alike, and what JavaScript makes of that for a JSON value is written out.
The order of the properties and the key `__proto__` are left out.

What a graph answers to a query text is the server's: `Selects` says what is relied on.

- `acquire_iff`: the handler answers the whole snapshot exactly when neither stream fails with elements left and every
  property of a requested element has a first value.
-/
import Mathlib.Tactic
import DrasiPlatform.Core.Json
import DrasiPlatform.Core.Pages

namespace DrasiPlatform.GremlinProxy

open Json Pages

/-! ## Model -/

structure Vertex where
  id : Value
  label : String
  properties : Option (List (String × Value))

structure Edge where
  id : Value
  label : String
  outV : Value
  outVLabel : String
  inV : Value
  inVLabel : String
  properties : Option (List (String × Value))

inductive Thrown where
  | typeError
  | stream (message : String)

/-- the answers to the streams of two queries -/
structure Client where
  vertices : String → Pages Thrown Vertex
  edges : String → Pages Thrown Edge

structure Input where
  nodeLabels : List String
  relLabels : List String

structure NodeResult where
  id : Value
  labels : List String
  properties : Map

structure RelResult where
  id : Value
  labels : List String
  startId : Value
  startLabel : String
  endId : Value
  endLabel : String
  properties : Map

structure Response where
  status : ℕ
  nodes : List NodeResult
  rels : List RelResult

/-- `v[0]`; `none` is `undefined` -/
def first : Value → Except Thrown (Option Value)
  | .null => .error .typeError
  | .bool _ | .number _ => .ok none
  | .string text => .ok (text.toList.head?.map fun c => .string c.toString)
  | .array a => .ok a.head?
  | .object fields => .ok (fields.lookup "0")

/-- `x.value` -/
def valueOf : Option Value → Except Thrown (Option Value)
  | none | some .null => .error .typeError
  | some (.object fields) => .ok (fields.lookup "value")
  | some _ => .ok none

/-- the `forEach` over the entries; what is `undefined` is not in the answer -/
def readEntries (properties : Map) : List (String × Value) → Except Thrown Map
  | [] => .ok properties
  | (k, v) :: entries => do
    let x ← first v
    let value ← valueOf x
    readEntries (value.elim properties (properties.insert k)) entries

def readProperties (properties : Option (List (String × Value))) : Except Thrown Map := readEntries .empty (properties.getD [])

/-- the body of a loop over the elements of a result: what is made of an element is pushed when its properties are read -/
def push {β : Type} (properties : Option (List (String × Value))) (make : Map → β) : Outputs Thrown β :=
  match readProperties properties with
  | .error e => ([], .error e)
  | .ok m => ([make m], .ok ())

def nodeResult (node : Vertex) (properties : Map) : NodeResult := ⟨node.id, [node.label], properties⟩

def relResult (rel : Edge) (properties : Map) : RelResult :=
  ⟨rel.id, [rel.label], rel.outV, rel.outVLabel, rel.inV, rel.inVLabel, properties⟩

def pushNode (node : Vertex) : Outputs Thrown NodeResult := push node.properties (nodeResult node)

def pushRel (rel : Edge) : Outputs Thrown RelResult := push rel.properties (relResult rel)

def quoted (labels : List String) : String := "\"" ++ String.intercalate "\",\"" labels ++ "\""

def nodeQuery (labels : List String) : String := "g.V().hasLabel(" ++ quoted labels ++ ")"

def relQuery (labels : List String) : String := "g.E().hasLabel(" ++ quoted labels ++ ")"

/-- the handler of `/acquire` -/
def acquire (client : Client) (input : Input) : Response :=
  -- what a stream throws is caught and logged
  let (nodes, _) := (client.vertices (nodeQuery input.nodeLabels)).forEach pushNode
  let (rels, _) := (client.edges (relQuery input.relLabels)).forEach pushRel
  ⟨200, nodes, rels⟩

/-! ## The promise -/

structure Graph where
  vertices : List Vertex
  edges : List Edge

def Graph.nodes (g : Graph) (input : Input) : List Vertex := g.vertices.filter fun v => v.label ∈ input.nodeLabels

def Graph.rels (g : Graph) (input : Input) : List Edge := g.edges.filter fun e => e.label ∈ input.relLabels

/-- the server reads the labels out of the text of a query, and has the elements of the graph with one of them -/
structure Selects (client : Client) (g : Graph) (input : Input) : Prop where
  vertices : (client.vertices (nodeQuery input.nodeLabels)).contents.Perm (g.nodes input)
  edges : (client.edges (relQuery input.relLabels)).contents.Perm (g.rels input)

/-- one node for each vertex, with its id and label, and the relations -/
structure Complete (g : Graph) (input : Input) (response : Response) : Prop where
  nodes : (response.nodes.map fun n => (n.id, n.labels)).Perm ((g.nodes input).map fun v => (v.id, [v.label]))
  rels : (response.rels.map fun r => (r.id, r.labels, r.startId, r.endId)).Perm
    ((g.rels input).map fun e => (e.id, [e.label], e.outV, e.inV))

def CompleteOrError (client : Client) (g : Graph) (input : Input) : Prop :=
  (acquire client input).status ≠ 200 ∨ Complete g input (acquire client input)

/-- `v[0]` is there, and not `null` -/
def HasFirst (v : Value) : Prop := ∃ x, first v = .ok (some x) ∧ x ≠ .null

/-- the properties of an element can be read -/
def Readable (properties : Option (List (String × Value))) : Prop := ∀ entry ∈ properties.getD [], HasFirst entry.2

/-! ## One element -/

theorem readEntries_isOk_iff (properties : Map) (entries : List (String × Value)) :
    (∃ m, readEntries properties entries = .ok m) ↔ ∀ entry ∈ entries, HasFirst entry.2 := by
  induction entries generalizing properties with
  | nil => simp [readEntries]
  | cons entry entries ih =>
    obtain ⟨k, v⟩ := entry
    rw [List.forall_mem_cons, readEntries]
    cases hfirst : first v with
    | error e => simp [HasFirst, hfirst, bind, Except.bind]
    | ok x =>
      cases hvalue : valueOf x with
      | error e =>
        have hnone : ¬ HasFirst v := by
          rintro ⟨y, hy, hne⟩
          rw [hfirst] at hy
          cases hy
          cases y with
          | null => exact hne rfl
          | _ => cases hvalue
        simp [hnone, hvalue, bind, Except.bind]
      | ok value =>
        have hhas : HasFirst v := by
          cases x with
          | none => cases hvalue
          | some y =>
            refine ⟨y, hfirst, ?_⟩
            rintro rfl
            cases hvalue
        simp only [hvalue, bind, Except.bind, ih, hhas, true_and]

theorem readable_iff (properties : Option (List (String × Value))) :
    Readable properties ↔ ∃ m, readProperties properties = .ok m := (readEntries_isOk_iff .empty _).symm

section Push

variable {β : Type} (properties : Option (List (String × Value))) (make : Map → β)

theorem push_fits : Fits (push properties make) 1 := by
  unfold push
  split
  · exact ⟨Nat.zero_le _, fun _ _ => Nat.one_pos⟩
  · exact ⟨le_rfl, fun e he => by cases he⟩

theorem push_of_readable (h : Readable properties) : ∃ m, push properties make = ([make m], .ok ()) := by
  obtain ⟨m, hm⟩ := (readable_iff properties).1 h
  exact ⟨m, by rw [push, hm]⟩

theorem length_push_iff : (push properties make).1.length = 1 ↔ Readable properties := by
  rw [readable_iff, push]
  cases readProperties properties <;> simp

end Push

/-! ## A stream -/

/-- **A stream is read completely** exactly when it does not fail with elements left and the properties of every element
can be read; `key` is what of the elements is to be there. -/
theorem read_iff {α β γ : Type} (properties : α → Option (List (String × Value))) (make : α → Map → β) (key : β → γ)
    (keyOf : α → γ) (hkey : ∀ a m, key (make a m) = keyOf a) {pages : Pages Thrown α} {requested : List α}
    (hrequested : pages.contents.Perm requested) :
    ((pages.forEach fun a => push (properties a) (make a)).1.map key).Perm (requested.map keyOf) ↔
      pages.left = [] ∧ ∀ a ∈ requested, Readable (properties a) := by
  have hfull := forEach_length_eq_iff (fun a => push_fits (properties a) (make a)) (fun _ => Nat.one_pos) pages
  simp only [length_push_iff, List.map_const', List.sum_replicate, smul_eq_mul, mul_one] at hfull
  have hreadable : (∀ a ∈ pages.contents, Readable (properties a)) ↔ ∀ a ∈ requested, Readable (properties a) :=
    forall_congr' fun a => by rw [hrequested.mem_iff]
  rw [← hreadable, ← hfull]
  constructor
  · intro h
    have hlen := h.length_eq
    rwa [List.length_map, List.length_map, ← hrequested.length_eq] at hlen
  · intro hlen
    obtain ⟨hleft, hall⟩ := hfull.1 hlen
    have hpush : ∀ a ∈ pages.contents, (push (properties a) (make a)).2 = .ok () ∧
        (push (properties a) (make a)).1.map key = [keyOf a] := by
      intro a ha
      obtain ⟨m, hm⟩ := push_of_readable (properties a) (make a) (hall a ha)
      rw [hm]
      exact ⟨rfl, by rw [List.map_singleton, hkey]⟩
    have hkeys : (pages.forEach fun a => push (properties a) (make a)).1.map key = pages.contents.map keyOf :=
      calc (pages.forEach fun a => push (properties a) (make a)).1.map key
          = (pages.contents.flatMap fun a => (push (properties a) (make a)).1).map key := by
            rw [forEach_eq hleft fun a ha => (hpush a ha).1]
        _ = pages.contents.flatMap fun a => (push (properties a) (make a)).1.map key := List.map_flatMap ..
        _ = pages.contents.flatMap fun a => [keyOf a] := List.flatMap_congr fun a ha => (hpush a ha).2
        _ = pages.contents.map keyOf := List.map_eq_flatMap.symm
    rw [hkeys]
    exact hrequested.map keyOf

/-! ## Main result -/

/-- **The whole snapshot**, exactly when neither stream is cut short: the handler never answers an error. -/
theorem acquire_iff {client : Client} {g : Graph} {input : Input} (h : Selects client g input) :
    CompleteOrError client g input ↔
      ((client.vertices (nodeQuery input.nodeLabels)).left = [] ∧ ∀ v ∈ g.nodes input, Readable v.properties) ∧
        (client.edges (relQuery input.relLabels)).left = [] ∧ ∀ e ∈ g.rels input, Readable e.properties := by
  have hnodes := read_iff Vertex.properties nodeResult (fun n => (n.id, n.labels)) (fun v => (v.id, [v.label]))
    (fun _ _ => rfl) h.vertices
  have hrels := read_iff Edge.properties relResult (fun r => (r.id, r.labels, r.startId, r.endId))
    (fun e => (e.id, [e.label], e.outV, e.inV)) (fun _ _ => rfl) h.edges
  have hstatus : (acquire client input).status = 200 := rfl
  rw [CompleteOrError, or_iff_right fun hne => hne hstatus, ← hnodes, ← hrels]
  exact ⟨fun hcomplete => ⟨hcomplete.nodes, hcomplete.rels⟩, fun hboth => ⟨hboth.1, hboth.2⟩⟩

end DrasiPlatform.GremlinProxy
