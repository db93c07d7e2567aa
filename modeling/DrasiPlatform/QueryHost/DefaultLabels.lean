/-
The default labels of a query's subscriptions (`fill_default_source_labels` of `query_worker.rs`): a subscription with neither
node nor relation labels gets those of the query's text.

The syntax tree is that of the query parser, with the fields that the traversal reads: the match clauses of each part, each with
a node to start from and a path of legs, a relation and a node.

- `fillSource_eq`: the traversal of parts, clauses and legs is one merge of the labels of the nodes and one of those of the
  relations, in the order of the text.
- `fillDefaultSourceLabels_spec`: the lists are complete, exact and without duplicates, other subscriptions and the rest of the
  configuration are unchanged, and filling them again changes nothing.
-/
import Mathlib.Tactic
import DrasiPlatform.MgmtApi.QuerySpecWire

namespace DrasiPlatform.DefaultLabels

/-! ## The configuration and the query -/

structure QuerySourceElement where
  sourceLabel : String
deriving DecidableEq

structure QuerySubscription where
  id : String
  nodes : List QuerySourceElement
  relations : List QuerySourceElement
  pipeline : List String
deriving DecidableEq

structure QuerySources where
  subscriptions : List QuerySubscription
  joins : List QuerySpecWire.Host.QueryJoin
  middleware : List QuerySpecWire.Host.SourceMiddlewareConfig

structure QueryConfig where
  mode : String
  query : String
  sources : QuerySources
  storageProfile : Option String

structure NodeMatch where
  labels : List String

structure RelationMatch where
  labels : List String

structure MatchClause where
  start : NodeMatch
  path : List (RelationMatch × NodeMatch)

structure QueryPart where
  matchClauses : List MatchClause

structure Query where
  parts : List QueryPart

/-! ## Filling the labels -/

def mergeQuerySourceLabels (spec : List QuerySourceElement) (labels : List String) : List QuerySourceElement :=
  labels.foldl (fun spec label => if spec.any (·.sourceLabel == label) then spec else spec ++ [⟨label⟩]) spec

def fillLeg (source : QuerySubscription) (leg : RelationMatch × NodeMatch) : QuerySubscription :=
  let source := { source with relations := mergeQuerySourceLabels source.relations leg.1.labels }
  { source with nodes := mergeQuerySourceLabels source.nodes leg.2.labels }

def fillMatchClause (source : QuerySubscription) (mc : MatchClause) : QuerySubscription :=
  mc.path.foldl fillLeg { source with nodes := mergeQuerySourceLabels source.nodes mc.start.labels }

def fillPart (source : QuerySubscription) (ph : QueryPart) : QuerySubscription := ph.matchClauses.foldl fillMatchClause source

/-- the body of the loop over the subscriptions -/
def fillSource (ast : Query) (source : QuerySubscription) : QuerySubscription :=
  if source.nodes.isEmpty && source.relations.isEmpty then ast.parts.foldl fillPart source else source

def fillDefaultSourceLabels (spec : QueryConfig) (ast : Query) : QueryConfig :=
  { spec with sources := { spec.sources with subscriptions := spec.sources.subscriptions.map (fillSource ast) } }

/-! ## Merging -/

def labelsOf (spec : List QuerySourceElement) : List String := spec.map (·.sourceLabel)

section Merge

variable (spec : List QuerySourceElement) (labels more : List String)

theorem merge_append :
    mergeQuerySourceLabels spec (labels ++ more) = mergeQuerySourceLabels (mergeQuerySourceLabels spec labels) more :=
  List.foldl_append

variable {spec}

/-- one label: the labels stay different, and it is one of them -/
theorem labelsOf_push (label : String) (h : (labelsOf spec).Nodup) :
    (labelsOf (if spec.any (·.sourceLabel == label) then spec else spec ++ [⟨label⟩])).Nodup ∧
      ∀ l, l ∈ labelsOf (if spec.any (·.sourceLabel == label) then spec else spec ++ [⟨label⟩]) ↔
        l ∈ labelsOf spec ∨ l = label := by
  have hany : spec.any (·.sourceLabel == label) = true ↔ label ∈ labelsOf spec := by simp [labelsOf]
  split
  · rename_i hin
    refine ⟨h, fun l => ⟨Or.inl, ?_⟩⟩
    rintro (hl | rfl)
    · exact hl
    · exact hany.1 hin
  · rename_i hout
    have hnew : label ∉ labelsOf spec := fun hin => hout (hany.2 hin)
    have happend : labelsOf (spec ++ [⟨label⟩]) = labelsOf spec ++ [label] := List.map_append
    rw [happend]
    refine ⟨List.Nodup.append h (List.nodup_singleton label) ?_, fun l => by simp⟩
    intro l hl hlabel
    exact hnew (List.mem_singleton.1 hlabel ▸ hl)

variable (spec) in
theorem labelsOf_merge (h : (labelsOf spec).Nodup) :
    (labelsOf (mergeQuerySourceLabels spec labels)).Nodup ∧
      ∀ l, l ∈ labelsOf (mergeQuerySourceLabels spec labels) ↔ l ∈ labelsOf spec ∨ l ∈ labels := by
  induction labels generalizing spec with
  | nil => exact ⟨h, fun l => by simp [mergeQuerySourceLabels]⟩
  | cons label labels ih =>
    obtain ⟨hnodup, hmem⟩ := labelsOf_push label h
    obtain ⟨hnodup', hmem'⟩ := ih _ hnodup
    refine ⟨hnodup', fun l => (hmem' l).trans ?_⟩
    rw [hmem l, List.mem_cons, or_assoc]

end Merge

/-! ## The traversal -/

/-- both lists merged with labels -/
def collect (nodes relations : List String) (source : QuerySubscription) : QuerySubscription :=
  { source with
    nodes := mergeQuerySourceLabels source.nodes nodes
    relations := mergeQuerySourceLabels source.relations relations }

theorem collect_collect (nodes relations nodes' relations' : List String) (source : QuerySubscription) :
    collect nodes' relations' (collect nodes relations source) = collect (nodes ++ nodes') (relations ++ relations') source := by
  simp [collect, merge_append]

/-- a loop whose body merges labels merges those of all its rounds -/
theorem foldl_collect {α : Type} {body : QuerySubscription → α → QuerySubscription} {nodes relations : α → List String}
    (hbody : ∀ source x, body source x = collect (nodes x) (relations x) source) (xs : List α) (source : QuerySubscription) :
    xs.foldl body source = collect (xs.flatMap nodes) (xs.flatMap relations) source := by
  induction xs generalizing source with
  | nil => rfl
  | cons x xs ih => rw [List.foldl_cons, ih, hbody, collect_collect, List.flatMap_cons, List.flatMap_cons]

def MatchClause.nodeLabels (mc : MatchClause) : List String := mc.start.labels ++ mc.path.flatMap (·.2.labels)

def MatchClause.relationLabels (mc : MatchClause) : List String := mc.path.flatMap (·.1.labels)

/-- the labels of the nodes of all match clauses -/
def Query.nodeLabels (ast : Query) : List String := ast.parts.flatMap (·.matchClauses.flatMap MatchClause.nodeLabels)

def Query.relationLabels (ast : Query) : List String := ast.parts.flatMap (·.matchClauses.flatMap MatchClause.relationLabels)

theorem fillMatchClause_eq (source : QuerySubscription) (mc : MatchClause) :
    fillMatchClause source mc = collect mc.nodeLabels mc.relationLabels source := by
  have hleg : ∀ (s : QuerySubscription) (leg : RelationMatch × NodeMatch),
      fillLeg s leg = collect leg.2.labels leg.1.labels s := fun _ _ => rfl
  have hstart : { source with nodes := mergeQuerySourceLabels source.nodes mc.start.labels } =
      collect mc.start.labels [] source := rfl
  rw [fillMatchClause, foldl_collect hleg, hstart, collect_collect]
  rfl

theorem fillPart_eq (source : QuerySubscription) (ph : QueryPart) :
    fillPart source ph =
      collect (ph.matchClauses.flatMap MatchClause.nodeLabels) (ph.matchClauses.flatMap MatchClause.relationLabels) source :=
  foldl_collect fillMatchClause_eq ph.matchClauses source

/-- **The traversal** merges the labels of the text. -/
theorem fillSource_eq (ast : Query) {source : QuerySubscription} (hnodes : source.nodes = []) (hrelations : source.relations = []) :
    fillSource ast source = collect ast.nodeLabels ast.relationLabels source := by
  rw [fillSource, hnodes, hrelations]
  exact foldl_collect fillPart_eq ast.parts source

/-! ## What the subscriptions list -/

/-- the label is on a node of a match clause -/
def OnNode (ast : Query) (label : String) : Prop :=
  ∃ part ∈ ast.parts, ∃ mc ∈ part.matchClauses, label ∈ mc.start.labels ∨ ∃ leg ∈ mc.path, label ∈ leg.2.labels

/-- the label is on a relation of a match clause -/
def OnRelation (ast : Query) (label : String) : Prop :=
  ∃ part ∈ ast.parts, ∃ mc ∈ part.matchClauses, ∃ leg ∈ mc.path, label ∈ leg.1.labels

theorem mem_nodeLabels {ast : Query} {label : String} : label ∈ ast.nodeLabels ↔ OnNode ast label := by
  simp [Query.nodeLabels, MatchClause.nodeLabels, OnNode]

theorem mem_relationLabels {ast : Query} {label : String} : label ∈ ast.relationLabels ↔ OnRelation ast label := by
  simp [Query.relationLabels, MatchClause.relationLabels, OnRelation]

/-- what filling makes of a subscription: one with labels is unchanged, one without lists those of the query -/
def Filled (ast : Query) (source source' : QuerySubscription) : Prop :=
  if source.nodes = [] ∧ source.relations = [] then
    source'.id = source.id ∧ source'.pipeline = source.pipeline ∧
      (labelsOf source'.nodes).Nodup ∧ (∀ label, label ∈ labelsOf source'.nodes ↔ OnNode ast label) ∧
      (labelsOf source'.relations).Nodup ∧ ∀ label, label ∈ labelsOf source'.relations ↔ OnRelation ast label
  else source' = source

theorem fillSource_of_labels (ast : Query) {source : QuerySubscription} (h : ¬(source.nodes = [] ∧ source.relations = [])) :
    fillSource ast source = source := by
  rw [fillSource, if_neg]
  simpa using h

theorem fillSource_filled (ast : Query) (source : QuerySubscription) : Filled ast source (fillSource ast source) := by
  unfold Filled
  split
  · rename_i hempty
    obtain ⟨hnodes, hrelations⟩ := hempty
    obtain ⟨hnodup, hmem⟩ := labelsOf_merge [] ast.nodeLabels List.nodup_nil
    obtain ⟨hnodup', hmem'⟩ := labelsOf_merge [] ast.relationLabels List.nodup_nil
    rw [fillSource_eq ast hnodes hrelations, collect, hnodes, hrelations]
    refine ⟨rfl, rfl, hnodup, fun label => ?_, hnodup', fun label => ?_⟩
    · rw [hmem, mem_nodeLabels]
      simp [labelsOf]
    · rw [hmem', mem_relationLabels]
      simp [labelsOf]
  · rename_i hlabels
    exact fillSource_of_labels ast hlabels

/-- a subscription that is filled has labels, or there are none in the query -/
theorem fillSource_fillSource (ast : Query) (source : QuerySubscription) :
    fillSource ast (fillSource ast source) = fillSource ast source := by
  by_cases hempty : source.nodes = [] ∧ source.relations = []
  · by_cases hstill : (fillSource ast source).nodes = [] ∧ (fillSource ast source).relations = []
    · have hsame : fillSource ast source = source := by
        rw [fillSource_eq ast hempty.1 hempty.2] at hstill ⊢
        obtain ⟨hnodes, hrelations⟩ := hstill
        cases source
        simp only [collect] at hnodes hrelations hempty ⊢
        rw [hnodes, hrelations, hempty.1, hempty.2]
      rw [hsame, hsame]
    · exact fillSource_of_labels ast hstill
  · rw [fillSource_of_labels ast hempty]
    exact fillSource_of_labels ast hempty

/-- **Default labels.** For every configuration and every query: each subscription that had neither node nor relation labels
lists the labels on the nodes and on the relations of all match clauses, all of them, no others and none twice; every other
one and the rest of the configuration are unchanged; and filling the labels again changes nothing. -/
theorem fillDefaultSourceLabels_spec (spec : QueryConfig) (ast : Query) :
    List.Forall₂ (Filled ast) spec.sources.subscriptions (fillDefaultSourceLabels spec ast).sources.subscriptions ∧
      (∃ subscriptions, fillDefaultSourceLabels spec ast =
        { spec with sources := { spec.sources with subscriptions := subscriptions } }) ∧
      fillDefaultSourceLabels (fillDefaultSourceLabels spec ast) ast = fillDefaultSourceLabels spec ast := by
  refine ⟨?_, ⟨_, rfl⟩, ?_⟩
  · have hsame : List.Forall₂ (fun source source' => Filled ast source (fillSource ast source')) spec.sources.subscriptions
        spec.sources.subscriptions := List.forall₂_same.2 fun source _ => fillSource_filled ast source
    exact List.forall₂_map_right_iff.2 hsame
  · simp only [fillDefaultSourceLabels, List.map_map]
    congr 2
    exact List.map_congr_left fun source _ => fillSource_fillSource ast source

/-- two clauses of one query that share a label -/
example : labelsOf (fillSource ⟨[⟨[⟨⟨["Order"]⟩, [(⟨["PLACED_BY"]⟩, ⟨["Customer"]⟩)]⟩, ⟨⟨["Customer"]⟩, []⟩]⟩]⟩
    ⟨"shop", [], [], []⟩).nodes = ["Order", "Customer"] := by decide

end DrasiPlatform.DefaultLabels
