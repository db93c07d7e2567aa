/-
The SQL proxy of the relational sources (`TableCursor.java`): the element that the bootstrap makes of a row of a table.

The proxy dispatches on the JDBC type code of a column: nine codes have a typed getter, every other column is read as a
string. The element's id is the table's name, qualified by its schema where the database has one, and the text of the first
column of the primary key, with ':' for every '.'.

The JDBC driver is a parameter: its getters (`Jdbc`) and the primary keys it lists (`DatabaseMetaData`). A number is what
Jackson writes for it, a value and a text. Values that are no JSON number (NaN, infinities) are left out.

- `lookup_properties`: with column names that are all different, the object has for each column the node of its type.
- `exists_rowElement_iff`: a row has an element exactly when its columns can be read and the key is one of them.
-/
import Mathlib.Tactic

namespace DrasiPlatform.Relational

/-! ## JSON nodes -/

/-- a number in JSON -/
structure Numeral where
  value : ℚ
  text : String
deriving DecidableEq

def Numeral.ofInt (n : ℤ) : Numeral := ⟨n, toString n⟩

inductive JsonNode where
  | null
  | boolean (b : Bool)
  | number (n : Numeral)
  | string (s : String)
deriving DecidableEq

def JsonNode.asText : JsonNode → String
  | .null => "null"
  | .boolean b => if b then "true" else "false"
  | .number n => n.text
  | .string s => s

/-- an object is the list of its fields -/
abbrev ObjectNode := List (String × JsonNode)

namespace ObjectNode

/-- a field that exists keeps its place -/
def put (name : String) (node : JsonNode) : ObjectNode → ObjectNode
  | [] => [(name, node)]
  | (k, v) :: fields => if name = k then (k, node) :: fields else (k, v) :: put name node fields

def has (o : ObjectNode) (name : String) : Bool := (o.lookup name).isSome

/-- `path(name).asText()`, empty for a field that does not exist -/
def pathText (o : ObjectNode) (name : String) : String := (o.lookup name).elim "" JsonNode.asText

theorem lookup_cons_eq (k name : String) (node : JsonNode) (fields : ObjectNode) :
    List.lookup name ((k, node) :: fields) = if name = k then some node else List.lookup name fields := by
  by_cases h : name = k
  · rw [h, List.lookup_cons_self, if_pos rfl]
  · rw [List.lookup_cons, beq_eq_false_iff_ne.2 h, if_neg h]

theorem lookup_put (k name : String) (node : JsonNode) (o : ObjectNode) :
    (put k node o).lookup name = if name = k then some node else o.lookup name := by
  induction o with
  | nil => exact lookup_cons_eq k name node []
  | cons field fields ih =>
    obtain ⟨k', v⟩ := field
    rw [put]
    by_cases hk : k = k'
    · subst hk
      rw [if_pos rfl, lookup_cons_eq, lookup_cons_eq]
      split <;> rfl
    · rw [if_neg hk, lookup_cons_eq, ih, lookup_cons_eq]
      by_cases hname : name = k'
      · subst hname
        rw [if_pos rfl, if_neg (Ne.symm hk)]
        simp
      · rw [if_neg hname, if_neg hname]

end ObjectNode

/-! ## Rows -/

/-- the codes of `java.sql.Types` -/
inductive SqlType where
  | bit
  | tinyint
  | smallint
  | integer
  | bigint
  | float
  | real
  | double
  | numeric
  | decimal
  | boolean
  | timestamp
  | null
  | other (code : ℤ)
deriving DecidableEq

/-- a value that is not NULL; `other` is what the driver has for dates, strings, bytes and the like -/
inductive SqlValue where
  | number (v : ℚ)
  | boolean (b : Bool)
  | other (s : String)
deriving DecidableEq

/-- a column of a row of the result set -/
structure Column where
  name : String
  type : SqlType
  cell : Option SqlValue
deriving DecidableEq

structure SqlException where
  message : String
deriving DecidableEq

/-- the getters of `java.sql.ResultSet`, for a value that is not NULL; `getTimestamp` is the local date and time it answers,
in the ISO format -/
structure Jdbc where
  getTimestamp : SqlValue → Except SqlException String
  getShort : SqlValue → Except SqlException ℤ
  getInt : SqlValue → Except SqlException ℤ
  getLong : SqlValue → Except SqlException ℤ
  getFloat : SqlValue → Except SqlException Numeral
  getDouble : SqlValue → Except SqlException Numeral
  getBoolean : SqlValue → Except SqlException Bool
  getBigDecimal : SqlValue → Except SqlException Numeral
  getString : SqlValue → Except SqlException String

/-- what a getter answers, or null where `wasNull` -/
def readNode {α : Type} (cell : Option SqlValue) (get : SqlValue → Except SqlException α) (node : α → JsonNode) :
    Except SqlException JsonNode :=
  match cell with
  | none => .ok .null
  | some v => (get v).map node

/-- the switch of `PutField` -/
def fieldNode (jdbc : Jdbc) (c : Column) : Except SqlException JsonNode :=
  match c.type with
  | .timestamp => readNode c.cell jdbc.getTimestamp .string
  | .integer => readNode c.cell jdbc.getInt fun n => .number (.ofInt n)
  | .bigint => readNode c.cell jdbc.getLong fun n => .number (.ofInt n)
  | .double => readNode c.cell jdbc.getDouble .number
  | .float => readNode c.cell jdbc.getFloat .number
  | .boolean => readNode c.cell jdbc.getBoolean .boolean
  | .smallint => readNode c.cell jdbc.getShort fun n => .number (.ofInt n)
  | .numeric => readNode c.cell jdbc.getBigDecimal .number
  | .null => .ok .null
  | _ => readNode c.cell jdbc.getString .string

def putField (jdbc : Jdbc) (output : ObjectNode) (c : Column) : Except SqlException ObjectNode :=
  (fieldNode jdbc c).map fun node => output.put c.name node

/-- the properties of a row -/
def properties (jdbc : Jdbc) (row : List Column) : Except SqlException ObjectNode := row.foldlM (putField jdbc) []

/-! ## Elements -/

structure NodeMapping where
  tableName : String
  keyField : String
  labels : List String
deriving DecidableEq

/-- a row of `DatabaseMetaData.getPrimaryKeys` -/
structure PrimaryKey where
  tableCat : Option String
  tableSchem : Option String
  columnName : String
deriving DecidableEq

/-- `getPrimaryKeys(catalog, schema, table)` -/
structure DatabaseMetaData where
  getPrimaryKeys : Option String → Option String → String → List PrimaryKey

/-- a node of the graph -/
structure SourceElement where
  id : String
  properties : ObjectNode
  labels : List String
deriving DecidableEq

def readMappingFromSchema (metadata : DatabaseMetaData) (schemaName : Option String) (tableName : String) :
    Except SqlException NodeMapping :=
  match metadata.getPrimaryKeys none schemaName tableName with
  | [] => .error ⟨"No primary key found for " ++ schemaName.elim tableName fun schema => schema ++ "." ++ tableName⟩
  | rs :: _ => .ok ⟨rs.tableSchem.elim tableName fun schema => schema ++ "." ++ tableName, rs.columnName, [tableName]⟩

/-- `replace('.', ':')` -/
def sanitizeNodeId (nodeId : String) : String := nodeId.map fun c => if c = '.' then ':' else c

/-- `next`, for one row; `none` for a row without the key field -/
def rowElement (jdbc : Jdbc) (mapping : NodeMapping) (row : List Column) : Except SqlException (Option SourceElement) :=
  (properties jdbc row).map fun properties =>
    if properties.has mapping.keyField then
      some ⟨sanitizeNodeId (mapping.tableName ++ ":" ++ properties.pathText mapping.keyField), properties, mapping.labels⟩
    else none

section Properties

variable {jdbc : Jdbc} {row : List Column}

theorem putField_ok {output output' : ObjectNode} {c : Column} (h : putField jdbc output c = .ok output') :
    ∃ node, fieldNode jdbc c = .ok node ∧ output' = output.put c.name node := by
  unfold putField at h
  cases hnode : fieldNode jdbc c with
  | error e => rw [hnode] at h; cases h
  | ok node =>
    rw [hnode] at h
    exact ⟨node, rfl, (Except.ok.inj h).symm⟩

theorem lookup_foldlM_of_notMem {output output' : ObjectNode} {name : String} (hname : ∀ c ∈ row, c.name ≠ name)
    (h : row.foldlM (putField jdbc) output = .ok output') : output'.lookup name = output.lookup name := by
  induction row generalizing output with
  | nil =>
    obtain rfl := Except.ok.inj h
    rfl
  | cons c row ih =>
    rw [List.foldlM_cons] at h
    cases hput : putField jdbc output c with
    | error e => rw [hput] at h; cases h
    | ok next =>
      rw [hput] at h
      obtain ⟨node, -, rfl⟩ := putField_ok hput
      rw [ih (fun c' hc' => hname c' (List.mem_cons_of_mem c hc')) h, ObjectNode.lookup_put,
        if_neg (Ne.symm (hname c List.mem_cons_self))]

theorem lookup_foldlM {output output' : ObjectNode} (hnodup : (row.map (·.name)).Nodup)
    (h : row.foldlM (putField jdbc) output = .ok output') {c : Column} (hc : c ∈ row) :
    ∃ node, fieldNode jdbc c = .ok node ∧ output'.lookup c.name = some node := by
  induction row generalizing output with
  | nil => cases hc
  | cons c' row ih =>
    rw [List.foldlM_cons] at h
    rw [List.map_cons, List.nodup_cons] at hnodup
    cases hput : putField jdbc output c' with
    | error e => rw [hput] at h; cases h
    | ok next =>
      rw [hput] at h
      rcases List.mem_cons.1 hc with rfl | hmem
      · obtain ⟨node, hnode, rfl⟩ := putField_ok hput
        have hrest : ∀ c' ∈ row, c'.name ≠ c.name := fun c' hc' heq => hnodup.1 (heq ▸ List.mem_map_of_mem hc')
        refine ⟨node, hnode, ?_⟩
        rw [lookup_foldlM_of_notMem hrest h, ObjectNode.lookup_put, if_pos rfl]
      · exact ih hnodup.2 h hmem

/-- **A row** whose columns have different names: the object has for each column the node of its type. -/
theorem lookup_properties {o : ObjectNode} (hnodup : (row.map (·.name)).Nodup) (h : properties jdbc row = .ok o)
    {c : Column} (hc : c ∈ row) : ∃ node, fieldNode jdbc c = .ok node ∧ o.lookup c.name = some node :=
  lookup_foldlM hnodup h hc

/-- an element has the properties of its row, and its id is the table's name and the text of the key -/
theorem rowElement_ok {mapping : NodeMapping} {e : SourceElement} (h : rowElement jdbc mapping row = .ok (some e)) :
    properties jdbc row = .ok e.properties ∧ e.properties.has mapping.keyField = true ∧
      e.id = sanitizeNodeId (mapping.tableName ++ ":" ++ e.properties.pathText mapping.keyField) := by
  unfold rowElement at h
  cases hprops : properties jdbc row with
  | error e => rw [hprops] at h; cases h
  | ok o =>
    rw [hprops] at h
    simp only [Except.map, Except.ok.injEq] at h
    by_cases hhas : o.has mapping.keyField = true
    · rw [if_pos hhas] at h
      obtain rfl := Option.some.inj h
      exact ⟨rfl, hhas, rfl⟩
    · rw [if_neg hhas] at h
      cases h

end Properties

/-! ## Rows that have an element -/

section Rows

variable {jdbc : Jdbc} {row : List Column}

theorem has_put (k name : String) (node : JsonNode) (o : ObjectNode) :
    (o.put k node).has name = true ↔ o.has name = true ∨ k = name := by
  rw [ObjectNode.has, ObjectNode.lookup_put]
  split
  · rename_i h
    simp [h]
  · rename_i h
    simp [ObjectNode.has, Ne.symm h]

/-- what reading the columns answers with -/
theorem foldlM_putField_ok {output o : ObjectNode} (h : row.foldlM (putField jdbc) output = .ok o) :
    (∀ c ∈ row, ∃ node, fieldNode jdbc c = .ok node) ∧
      ∀ name, o.has name = true ↔ output.has name = true ∨ ∃ c ∈ row, c.name = name := by
  induction row generalizing output with
  | nil =>
    obtain rfl := Except.ok.inj h
    exact ⟨by simp, by simp⟩
  | cons c row ih =>
    rw [List.foldlM_cons] at h
    cases hput : putField jdbc output c with
    | error e => rw [hput] at h; cases h
    | ok next =>
      rw [hput] at h
      obtain ⟨node, hnode, rfl⟩ := putField_ok hput
      obtain ⟨hread, hhas⟩ := ih h
      refine ⟨List.forall_mem_cons.2 ⟨⟨node, hnode⟩, hread⟩, fun name => ?_⟩
      rw [hhas, has_put, List.exists_mem_cons_iff, or_assoc]

theorem exists_foldlM_putField (hread : ∀ c ∈ row, ∃ node, fieldNode jdbc c = .ok node) (output : ObjectNode) :
    ∃ o, row.foldlM (putField jdbc) output = .ok o := by
  induction row generalizing output with
  | nil => exact ⟨output, rfl⟩
  | cons c row ih =>
    obtain ⟨⟨node, hnode⟩, hread⟩ := List.forall_mem_cons.1 hread
    rw [List.foldlM_cons, putField, hnode]
    exact ih hread (output.put c.name node)

/-- **A row** has an element when its columns can be read and the key is one of them. -/
theorem exists_rowElement_iff (mapping : NodeMapping) : (∃ element, rowElement jdbc mapping row = .ok (some element)) ↔
    (∀ c ∈ row, ∃ node, fieldNode jdbc c = .ok node) ∧ ∃ c ∈ row, c.name = mapping.keyField := by
  refine ⟨?_, ?_⟩
  · rintro ⟨element, h⟩
    obtain ⟨hprops, hkey, -⟩ := rowElement_ok h
    obtain ⟨hread, hhas⟩ := foldlM_putField_ok hprops
    refine ⟨hread, ?_⟩
    simpa [ObjectNode.has] using (hhas mapping.keyField).1 hkey
  · rintro ⟨hread, hkey⟩
    obtain ⟨o, ho⟩ := exists_foldlM_putField hread []
    have hhas : o.has mapping.keyField = true := ((foldlM_putField_ok ho).2 _).2 (Or.inr hkey)
    rw [rowElement, properties, ho]
    exact ⟨_, congrArg Except.ok (if_pos hhas)⟩

end Rows

end DrasiPlatform.Relational
