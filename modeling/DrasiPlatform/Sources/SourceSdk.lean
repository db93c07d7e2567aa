/-
The models of the Rust source SDK (`sources/sdk/rust/src/models.rs`): the elements and changes that a source is written
with, and the JSON that the SDK sends for them.

A change carries its element in `after`, or in `before` where it is a delete; the field that is not there is left out. A
number of 128 bits that does not fit into 64 is read back as a double by whoever reads the JSON: which one is the parameter
`double`.

- `isData_json`: the change router reads a change as one of its element's type and labels.
-/
import Mathlib.Tactic
import DrasiPlatform.Core.Json
import DrasiPlatform.Router.ProcessChanges

namespace DrasiPlatform.SourceSdk

open Json

inductive SourceElement where
  | node (id : String) (labels : List String) (properties : Map)
  | relation (id : String) (labels : List String) (properties : Map) (startId endId : String)

namespace SourceElement

def id : SourceElement → String
  | node id .. | relation id .. => id

def labels : SourceElement → List String
  | node _ labels _ | relation _ labels .. => labels

def properties : SourceElement → Map
  | node _ _ properties | relation _ _ properties .. => properties

def type : SourceElement → Router.ElementType
  | node .. => .node
  | relation .. => .rel

/-- `Serialize`, untagged -/
def json : SourceElement → Value
  | node id labels properties =>
    .object [("id", .string id), ("labels", .ofStrings labels), ("properties", .object properties.fields)]
  | relation id labels properties startId endId =>
    .object [("id", .string id), ("labels", .ofStrings labels), ("properties", .object properties.fields),
      ("startId", .string startId), ("endId", .string endId)]

end SourceElement

inductive ChangeOp where
  | create
  | update
  | delete
deriving DecidableEq

def ChangeOp.json : ChangeOp → Value
  | create => .string "i"
  | update => .string "u"
  | delete => .string "d"

/-- the field of the payload that has the element -/
def ChangeOp.image : ChangeOp → String
  | create | update => "after"
  | delete => "before"

structure SourceChange where
  op : ChangeOp
  element : SourceElement
  metadata : Option Map
  reactivatorStartNs : ℕ
  reactivatorEndNs : ℕ
  sourceNs : ℕ
  seq : UInt64

/-- a number of 128 bits, as it is read back -/
def u128 (double : ℕ → UInt64) (n : ℕ) : Value :=
  .number (if n < 2 ^ 64 then .posInt (.ofNat n) else .float (double n))

namespace SourceChange

variable (double : ℕ → UInt64) (db : String)

/-- `SourceData`, where `db` is the source's id -/
def sourceData (c : SourceChange) : Value :=
  .object [("db", .string db), ("lsn", .number (.posInt c.seq)), ("table", .string c.element.type.table),
    ("ts_ns", u128 double c.sourceNs)]

def payload (c : SourceChange) : Value := .object [(c.op.image, c.element.json), ("source", c.sourceData double db)]

def json (c : SourceChange) : Value :=
  .object ([("op", c.op.json), ("payload", c.payload double db), ("reactivatorStart_ns", u128 double c.reactivatorStartNs),
    ("reactivatorEnd_ns", u128 double c.reactivatorEndNs)] ++
      c.metadata.toList.map fun metadata => ("metadata", Value.object metadata.fields))

/-! ## What the router reads -/

variable {double db} (c : SourceChange)

theorem source_json : Router.source (c.json double db) = c.sourceData double db := by
  cases c with
  | mk op element metadata =>
    cases op <;> rfl

theorem table_json : Router.table (c.json double db) = .string c.element.type.table := by
  rw [Router.table, source_json]
  rfl

theorem after_json : Router.after (c.json double db) = if c.op = .delete then .null else c.element.json := by
  cases c with
  | mk op element metadata =>
    cases op <;> rfl

theorem before_json : Router.before (c.json double db) = if c.op = .delete then c.element.json else .null := by
  cases c with
  | mk op element metadata =>
    cases op <;> rfl

theorem op_json : Router.op (c.json double db) = c.op.json := rfl

theorem labels_json (e : SourceElement) : (e.json.get "labels").labels = some e.labels := by
  cases e with
  | node id labels properties => exact Value.labels_ofStrings labels
  | relation id labels properties startId endId => exact Value.labels_ofStrings labels

theorem changeLabels_json : Router.changeLabels (c.json double db) = some (some c.element.labels) := by
  rw [Router.changeLabels, op_json, after_json, before_json]
  cases hop : c.op <;> simp [ChangeOp.json, Value.eqStr, Value.asStr, labels_json]

theorem tsNs_json (h : c.sourceNs < 2 ^ 64) :
    ((Router.source (c.json double db)).get "ts_ns").asU64 = some (.ofNat c.sourceNs) := by
  have hts : (c.sourceData double db).get "ts_ns" = u128 double c.sourceNs := rfl
  rw [source_json, hts, u128, if_pos h]
  rfl

/-- **A change of the SDK is a data change**, whatever the id of its source is. -/
theorem isData_json (h : c.sourceNs < 2 ^ 64) : Router.IsData (c.json double db) c.element.type c.element.labels where
  data := by
    rw [Router.isControl, table_json]
    cases c.element <;> simp [SourceElement.type, Router.ElementType.table, Value.eqStr, Value.asStr]
  table := by rw [table_json]; rfl
  labels := changeLabels_json c
  tsNs := by rw [tsNs_json c h]; rfl

end SourceChange

end DrasiPlatform.SourceSdk
