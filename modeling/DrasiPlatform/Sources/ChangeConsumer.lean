/-
The Debezium reactivator of the relational sources (`RelationalChangeConsumer.java` and the strategies of the three
databases): the change it makes of a Debezium record.

A record carries the row before or after the change, as Debezium writes it, and where it comes from. The consumer finds the
mapping by the qualified name of the table, which PostgreSQL and SQL Server qualify by the schema and MySQL by the database.

- `extractDrasiChange_some`: a change is made of the row of its record, with the id of the row's table and key.
-/
import Mathlib.Tactic
import DrasiPlatform.Sources.TableCursor

namespace DrasiPlatform.Relational

/-! ## The strategies -/

inductive Connector where
  | postgreSql
  | mySql
  | sqlServer
deriving DecidableEq, Repr

/-- a string in a concatenation -/
def concatText (s : Option String) : String := s.getD "null"

def extractTableName (connector : Connector) (source : ObjectNode) : String :=
  match connector with
  | .mySql => source.pathText "db" ++ "." ++ source.pathText "table"
  | .postgreSql | .sqlServer => source.pathText "schema" ++ "." ++ source.pathText "table"

/-- the primary key that a strategy asks for: MySQL has the schema in the place of the catalog -/
def primaryKeys (connector : Connector) (metadata : DatabaseMetaData) (schema : Option String) (tableName : String) :
    List PrimaryKey :=
  match connector with
  | .mySql => metadata.getPrimaryKeys schema none tableName
  | .postgreSql | .sqlServer => metadata.getPrimaryKeys none schema tableName

/-- the name of the database or of the schema a strategy qualifies the table with -/
def qualifier (connector : Connector) (rs : PrimaryKey) : String :=
  match connector with
  | .mySql => concatText rs.tableCat
  | .postgreSql | .sqlServer => concatText rs.tableSchem

def getNodeMapping (connector : Connector) (metadata : DatabaseMetaData) (schema : Option String) (tableName : String) :
    Except SqlException NodeMapping :=
  match primaryKeys connector metadata schema tableName with
  | [] => .error ⟨"No primary key found for " ++ tableName⟩
  | rs :: _ => .ok ⟨qualifier connector rs ++ "." ++ tableName, rs.columnName, [tableName]⟩

/-! ## The consumer -/

/-- the payload of a record; a missing row and a null one are the same to the consumer -/
structure Payload where
  op : Option String
  source : ObjectNode
  before : Option ObjectNode
  after : Option ObjectNode

inductive ChangeKind where
  | insert
  | update
  | delete
deriving DecidableEq, Repr

structure SourceChange where
  kind : ChangeKind
  id : String
  properties : Option ObjectNode
  labels : List String
deriving DecidableEq

def getChangeData (payload : Payload) (changeType : String) : Option ObjectNode :=
  if changeType = "c" ∨ changeType = "u" then payload.after
  else if changeType = "d" then payload.before
  else none

def createNodeId (tableName keyFieldValue : String) : String := sanitizeNodeId (tableName ++ ":" ++ keyFieldValue)

/-- `ExtractDrasiChange`; of mappings with one table name the first is kept -/
def extractDrasiChange (connector : Connector) (nodes : List NodeMapping) (payload : Payload) : Option SourceChange := do
  let changeType ← payload.op
  let mapping ← nodes.find? fun m => m.tableName = extractTableName connector payload.source
  let item ← getChangeData payload changeType
  if item.has mapping.keyField then
    let nodeId := createNodeId mapping.tableName (item.pathText mapping.keyField)
    if changeType = "c" then some ⟨.insert, nodeId, some item, mapping.labels⟩
    else if changeType = "u" then some ⟨.update, nodeId, some item, mapping.labels⟩
    else if changeType = "d" then some ⟨.delete, nodeId, none, mapping.labels⟩
    else none
  else none

section Extract

variable {connector : Connector} {nodes : List NodeMapping} {payload : Payload} {change : SourceChange} {m : NodeMapping}

/-- **A change** is made of the row of the record, and its id of the table's name and the text of the key. -/
theorem extractDrasiChange_some
    (hfind : nodes.find? (fun m => m.tableName = extractTableName connector payload.source) = some m)
    (h : extractDrasiChange connector nodes payload = some change) :
    ∃ op item, payload.op = some op ∧ getChangeData payload op = some item ∧ item.has m.keyField = true ∧
      change.id = createNodeId m.tableName (item.pathText m.keyField) ∧
      (change.kind ≠ .delete → payload.after = some item ∧ change.properties = some item) := by
  unfold extractDrasiChange at h
  cases hop : payload.op with
  | none => simp [hop] at h
  | some op =>
    cases hitem : getChangeData payload op with
    | none => simp [hop, hfind, hitem] at h
    | some item =>
      by_cases hhas : item.has m.keyField = true
      · refine ⟨op, item, rfl, hitem, hhas, ?_⟩
        have hafter : op = "c" ∨ op = "u" → payload.after = some item := fun hwrite => by
          rw [← hitem, getChangeData, if_pos hwrite]
        simp only [hop, hfind, hitem, Option.bind_eq_bind, Option.bind_some, hhas, if_true] at h
        split_ifs at h with hc hu hd
        · obtain rfl := Option.some.inj h
          exact ⟨rfl, fun _ => ⟨hafter (Or.inl hc), rfl⟩⟩
        · obtain rfl := Option.some.inj h
          exact ⟨rfl, fun _ => ⟨hafter (Or.inr hu), rfl⟩⟩
        · obtain rfl := Option.some.inj h
          exact ⟨rfl, fun hkind => absurd rfl hkind⟩
      · simp [hop, hfind, hitem, hhas] at h

end Extract

end DrasiPlatform.Relational
