/-
Bootstrap and change capture of a relational source: do the SQL proxy and the Debezium reactivator tell the same of a row?

The id of the row's element: both qualify the table's name by the schema, on PostgreSQL and SQL Server, and write the text
of the key behind it. On MySQL the proxy has no schema and the reactivator qualifies by the database, so the reactivator's
id is longer whenever the two texts of the key are the same.

The row's values: the proxy reads the type codes DECIMAL, REAL, TINYINT and BIT as strings, where Debezium writes numbers
and booleans; it reads FLOAT as a single precision number and NUMERIC with all of its digits, where Debezium writes doubles.

The driver and Debezium are parameters. What the driver's getters answer (`Reads`) and what Debezium writes with the
reactivator's configuration (`Writes`) is documented; the text and the value of a number rounded to single or double
precision is a parameter as well (`Rounding`).

- `ids_agree_iff`: the ids are equal exactly when the texts of the key are, on PostgreSQL and SQL Server; on MySQL only when
  the proxy's text has the missing part of the table's name in front (`not_keyAgrees_mySql`: never, for equal texts).
- `value_agrees_iff`: the values are equal exactly when the column is null or its type code keeps the value.
Witness: `mySql_ids_differ` and `tinyint_becomes_string`.
-/
import Mathlib.Tactic
import DrasiPlatform.Sources.ChangeConsumer

namespace DrasiPlatform.Relational

/-! ## Element ids -/

theorem sanitizeNodeId_append (s t : String) : sanitizeNodeId (s ++ t) = sanitizeNodeId s ++ sanitizeNodeId t := by
  apply String.toList_injective
  simp [sanitizeNodeId, String.toList_map, String.toList_append]

theorem length_sanitizeNodeId (s : String) : (sanitizeNodeId s).length = s.length := String.length_map

/-- a table's primary keys have its schema, on MySQL its database -/
def Qualifies (connector : Connector) (metadata : DatabaseMetaData) : Prop :=
  ∀ catalog schema tableName, ∀ rs ∈ metadata.getPrimaryKeys catalog schema tableName,
    match connector with
    | .mySql => rs.tableSchem = none
    | .postgreSql | .sqlServer => rs.tableSchem.isSome

/-- the proxy's text `k` and Debezium's text `k'` of the key make the same id -/
def KeyAgrees (connector : Connector) (rs : PrimaryKey) (tableName k k' : String) : Prop :=
  match connector with
  | .postgreSql | .sqlServer => sanitizeNodeId k = sanitizeNodeId k'
  | .mySql => ∃ missing, sanitizeNodeId (qualifier .mySql rs ++ "." ++ tableName ++ ":") =
      sanitizeNodeId (tableName ++ ":") ++ missing ∧ sanitizeNodeId k = missing ++ sanitizeNodeId k'

theorem string_append_eq_append_iff {a b c d : String} (hlen : a.length ≤ c.length) :
    a ++ b = c ++ d ↔ ∃ e, c = a ++ e ∧ b = e ++ d := by
  constructor
  · intro h
    have hlist : a.toList ++ b.toList = c.toList ++ d.toList := by
      rw [← String.toList_append, ← String.toList_append, h]
    rcases List.append_eq_append_iff.1 hlist with ⟨e, hc, hb⟩ | ⟨e, ha, hd⟩
    · refine ⟨String.ofList e, ?_, ?_⟩ <;> apply String.toList_injective
      · rw [hc, String.toList_append, String.toList_ofList]
      · rw [hb, String.toList_append, String.toList_ofList]
    · have he : e = [] := by
        have hsum := congrArg List.length ha
        rw [List.length_append, String.length_toList, String.length_toList] at hsum
        exact List.length_eq_zero_iff.1 (by omega)
      subst he
      rw [List.append_nil] at ha
      refine ⟨"", ?_, ?_⟩ <;> apply String.toList_injective
      · simpa using ha.symm
      · simpa using hd.symm
  · rintro ⟨e, rfl, rfl⟩
    rw [String.append_assoc]

/-- on MySQL, equal texts of the key never make the same id -/
theorem not_keyAgrees_mySql (rs : PrimaryKey) (tableName : String) {k k' : String} (hlen : k.length = k'.length) :
    ¬ KeyAgrees .mySql rs tableName k k' := by
  rintro ⟨missing, hname, hkey⟩
  have hname' := congrArg String.length hname
  have hkey' := congrArg String.length hkey
  simp only [String.length_append, length_sanitizeNodeId] at hname' hkey'
  have hdot : ".".length = 1 := rfl
  omega

section Ids

variable {jdbc : Jdbc} {connector : Connector} {metadata : DatabaseMetaData} {schema : Option String}
  {tableName : String} {mapping m : NodeMapping} {rs : PrimaryKey}

theorem mySql_names (hmeta : Qualifies .mySql metadata) (hmapping : readMappingFromSchema metadata schema tableName = .ok mapping)
    (hrs : (primaryKeys .mySql metadata schema tableName).head? = some rs)
    (hm : getNodeMapping .mySql metadata schema tableName = .ok m) :
    mapping.tableName = tableName ∧ m.tableName = qualifier .mySql rs ++ "." ++ tableName := by
  constructor
  · unfold readMappingFromSchema at hmapping
    split at hmapping
    · cases hmapping
    · rename_i rs' rest hkeys
      obtain rfl := Except.ok.inj hmapping
      have hnone : rs'.tableSchem = none := hmeta none schema tableName rs' (by simp [hkeys])
      simp [hnone]
  · unfold getNodeMapping at hm
    split at hm
    · cases hm
    · rename_i rs' rest hkeys
      obtain rfl := Except.ok.inj hm
      rw [hkeys] at hrs
      obtain rfl : rs' = rs := by simpa using hrs
      rfl

/-- on PostgreSQL and SQL Server both programs ask for the same primary key -/
theorem schema_names (hconnector : connector ≠ .mySql) (hmeta : Qualifies connector metadata)
    (hmapping : readMappingFromSchema metadata schema tableName = .ok mapping)
    (hm : getNodeMapping connector metadata schema tableName = .ok m) : m.tableName = mapping.tableName := by
  have hkeys : primaryKeys connector metadata schema tableName = metadata.getPrimaryKeys none schema tableName := by
    cases connector with
    | mySql => exact absurd rfl hconnector
    | postgreSql => rfl
    | sqlServer => rfl
  unfold readMappingFromSchema at hmapping
  unfold getNodeMapping at hm
  rw [hkeys] at hm
  rcases hlist : metadata.getPrimaryKeys none schema tableName with _ | ⟨rs, rest⟩
  · rw [hlist] at hm
    cases hm
  · rw [hlist] at hm hmapping
    obtain rfl := Except.ok.inj hm
    obtain rfl := Except.ok.inj hmapping
    have hsome := hmeta none schema tableName rs (by simp [hlist])
    cases connector with
    | mySql => exact absurd rfl hconnector
    | postgreSql =>
      obtain ⟨s, hs⟩ := Option.isSome_iff_exists.1 hsome
      simp [qualifier, concatText, hs]
    | sqlServer =>
      obtain ⟨s, hs⟩ := Option.isSome_iff_exists.1 hsome
      simp [qualifier, concatText, hs]

/-- **Element identity.** For every connector, every table and every row with a key: the id that the proxy gives the row in
the bootstrap is the one that the reactivator gives it in an insert, update or delete, if and only if the texts of the key
agree: up to '.' and ':' on PostgreSQL and SQL Server, and up to the missing database name on MySQL. -/
theorem ids_agree_iff {row : List Column} {key : Column} {node node' : JsonNode} {e : SourceElement}
    {nodes : List NodeMapping} {payload : Payload} {change : SourceChange} (hmeta : Qualifies connector metadata)
    (hmapping : readMappingFromSchema metadata schema tableName = .ok mapping)
    (helement : rowElement jdbc mapping row = .ok (some e))
    (hnames : (row.map (·.name)).Nodup) (hkey : key ∈ row) (hkeyField : key.name = mapping.keyField)
    (hnode : fieldNode jdbc key = .ok node)
    (hrs : (primaryKeys connector metadata schema tableName).head? = some rs)
    (hm : getNodeMapping connector metadata schema tableName = .ok m)
    (hfind : nodes.find? (fun n => n.tableName = extractTableName connector payload.source) = some m)
    (hchange : extractDrasiChange connector nodes payload = some change)
    (hitem : ∀ op ∈ payload.op, ∀ item ∈ getChangeData payload op, item.lookup m.keyField = some node') :
    e.id = change.id ↔ KeyAgrees connector rs tableName node.asText node'.asText := by
  obtain ⟨hproperties, -, hid⟩ := rowElement_ok helement
  obtain ⟨node₁, hnode₁, hlookup⟩ := lookup_properties hnames hproperties hkey
  obtain rfl : node₁ = node := Except.ok.inj (hnode₁.symm.trans hnode)
  obtain ⟨op, item, hop, hdata, -, hid', -⟩ := extractDrasiChange_some hfind hchange
  have htext : e.properties.pathText mapping.keyField = node₁.asText := by
    rw [ObjectNode.pathText, ← hkeyField, hlookup]
    rfl
  have htext' : item.pathText m.keyField = node'.asText := by
    rw [ObjectNode.pathText, hitem op hop item hdata]
    rfl
  rw [hid, hid', htext, htext', createNodeId, sanitizeNodeId_append, sanitizeNodeId_append _ node'.asText]
  by_cases hconnector : connector = .mySql
  · subst hconnector
    obtain ⟨hname, hname'⟩ := mySql_names hmeta hmapping hrs hm
    rw [hname, hname']
    refine string_append_eq_append_iff ?_
    simp only [length_sanitizeNodeId, String.length_append]
    omega
  · rw [schema_names hconnector hmeta hmapping hm]
    have hcancel : sanitizeNodeId (mapping.tableName ++ ":") ++ sanitizeNodeId node₁.asText =
        sanitizeNodeId (mapping.tableName ++ ":") ++ sanitizeNodeId node'.asText ↔
          sanitizeNodeId node₁.asText = sanitizeNodeId node'.asText := String.append_right_inj _
    rw [hcancel]
    cases connector with
    | mySql => exact absurd rfl hconnector
    | postgreSql => rfl
    | sqlServer => rfl

end Ids

/-! ## Row values -/

/-- the value of the JSON number that is written for a number in single and in double precision -/
structure Rounding where
  toFloat : ℚ → ℚ
  toDouble : ℚ → ℚ

/-- what the driver's getters answer for a number and for a boolean, where they answer -/
structure Reads (jdbc : Jdbc) (r : Rounding) : Prop where
  getShort : ∀ v n, jdbc.getShort (.number v) = .ok n → (n : ℚ) = v
  getInt : ∀ v n, jdbc.getInt (.number v) = .ok n → (n : ℚ) = v
  getLong : ∀ v n, jdbc.getLong (.number v) = .ok n → (n : ℚ) = v
  getFloat : ∀ v n, jdbc.getFloat (.number v) = .ok n → n.value = r.toFloat v
  getDouble : ∀ v n, jdbc.getDouble (.number v) = .ok n → n.value = r.toDouble v
  getBigDecimal : ∀ v n, jdbc.getBigDecimal (.number v) = .ok n → n.value = v
  getBoolean : ∀ b b', jdbc.getBoolean (.boolean b) = .ok b' → b' = b

/-- the number that Debezium writes for a column of the type, with `decimal.handling.mode` at `double` -/
def captured (r : Rounding) (type : SqlType) (v : ℚ) : ℚ :=
  match type with
  | .real => r.toFloat v
  | .float | .double | .numeric | .decimal => r.toDouble v
  | _ => v

/-- a value of a column of a numeric or boolean type -/
def SqlType.Holds : SqlType → SqlValue → Prop
  | .tinyint, .number _ | .smallint, .number _ | .integer, .number _ | .bigint, .number _ => True
  | .float, .number _ | .real, .number _ | .double, .number _ | .numeric, .number _ | .decimal, .number _ => True
  | .bit, .boolean _ | .boolean, .boolean _ => True
  | _, _ => False

/-- what Debezium writes for a column of a numeric or boolean type -/
structure Writes (debezium : Column → JsonNode) (r : Rounding) : Prop where
  null : ∀ c, c.cell = none → debezium c = .null
  number : ∀ c v, c.cell = some (.number v) → c.type.Holds (.number v) →
    ∃ n, debezium c = .number n ∧ n.value = captured r c.type v
  boolean : ∀ c b, c.cell = some (.boolean b) → c.type.Holds (.boolean b) → debezium c = .boolean b

/-- the same JSON kind and the same value -/
def SameValue : JsonNode → JsonNode → Prop
  | .null, .null => True
  | .boolean b, .boolean b' => b = b'
  | .number n, .number n' => n.value = n'.value
  | .string s, .string s' => s = s'
  | _, _ => False

/-- the type code has a getter that keeps the value as Debezium writes it -/
def SqlType.Keeps (r : Rounding) : SqlType → SqlValue → Prop
  | .smallint, _ | .integer, _ | .bigint, _ | .double, _ | .boolean, _ => True
  | .float, .number v => r.toFloat v = r.toDouble v
  | .numeric, .number v => r.toDouble v = v
  | _, _ => False

section Values

variable {jdbc : Jdbc} {r : Rounding} {debezium : Column → JsonNode} {c : Column} {node : JsonNode}

theorem readNode_some {α : Type} {get : SqlValue → Except SqlException α} {f : α → JsonNode} {v : SqlValue}
    (h : readNode (some v) get f = .ok node) : ∃ a, get v = .ok a ∧ node = f a := by
  simp only [readNode] at h
  cases hget : get v with
  | error e => rw [hget] at h; cases h
  | ok a =>
    rw [hget] at h
    exact ⟨a, rfl, (Except.ok.inj h).symm⟩

/-- **A number.** The node that the proxy puts for it is the one that Debezium writes exactly when the type keeps it. -/
theorem sameValue_number_iff (hjdbc : Reads jdbc r) (hdebezium : Writes debezium r) {v : ℚ}
    (hcell : c.cell = some (.number v)) (hholds : c.type.Holds (.number v)) (hnode : fieldNode jdbc c = .ok node) :
    SameValue node (debezium c) ↔ c.type.Keeps r (.number v) := by
  obtain ⟨n', hwrite, hvalue⟩ := hdebezium.number c v hcell hholds
  rw [hwrite]
  unfold fieldNode at hnode
  rw [hcell] at hnode
  cases htype : c.type <;> rw [htype] at hnode hholds hvalue <;> simp only [captured] at hvalue
  case smallint =>
    obtain ⟨n, hget, rfl⟩ := readNode_some hnode
    simp [SameValue, SqlType.Keeps, Numeral.ofInt, hvalue, hjdbc.getShort v n hget]
  case integer =>
    obtain ⟨n, hget, rfl⟩ := readNode_some hnode
    simp [SameValue, SqlType.Keeps, Numeral.ofInt, hvalue, hjdbc.getInt v n hget]
  case bigint =>
    obtain ⟨n, hget, rfl⟩ := readNode_some hnode
    simp [SameValue, SqlType.Keeps, Numeral.ofInt, hvalue, hjdbc.getLong v n hget]
  case double =>
    obtain ⟨n, hget, rfl⟩ := readNode_some hnode
    simp [SameValue, SqlType.Keeps, hvalue, hjdbc.getDouble v n hget]
  case float =>
    obtain ⟨n, hget, rfl⟩ := readNode_some hnode
    simp [SameValue, SqlType.Keeps, hvalue, hjdbc.getFloat v n hget]
  case numeric =>
    obtain ⟨n, hget, rfl⟩ := readNode_some hnode
    simp [SameValue, SqlType.Keeps, hvalue, hjdbc.getBigDecimal v n hget, eq_comm]
  -- read as strings
  case tinyint | real | decimal =>
    obtain ⟨s, -, rfl⟩ := readNode_some hnode
    simp [SameValue, SqlType.Keeps]
  all_goals exact absurd hholds (by simp [SqlType.Holds])

theorem sameValue_boolean_iff (hjdbc : Reads jdbc r) (hdebezium : Writes debezium r) {b : Bool}
    (hcell : c.cell = some (.boolean b)) (hholds : c.type.Holds (.boolean b)) (hnode : fieldNode jdbc c = .ok node) :
    SameValue node (debezium c) ↔ c.type.Keeps r (.boolean b) := by
  rw [hdebezium.boolean c b hcell hholds]
  unfold fieldNode at hnode
  rw [hcell] at hnode
  cases htype : c.type <;> rw [htype] at hnode hholds
  case boolean =>
    obtain ⟨b', hget, rfl⟩ := readNode_some hnode
    simp [SameValue, SqlType.Keeps, hjdbc.getBoolean b b' hget]
  case bit =>
    obtain ⟨s, -, rfl⟩ := readNode_some hnode
    simp [SameValue, SqlType.Keeps]
  all_goals exact absurd hholds (by simp [SqlType.Holds])

theorem sameValue_null (hdebezium : Writes debezium r) (hcell : c.cell = none) (hnode : fieldNode jdbc c = .ok node) :
    SameValue node (debezium c) := by
  have hnull : node = .null := by
    unfold fieldNode at hnode
    rw [hcell] at hnode
    cases htype : c.type <;> rw [htype] at hnode <;> exact (Except.ok.inj hnode).symm
  rw [hnull, hdebezium.null c hcell]
  trivial

theorem lookup_map_column {row : List Column} (hnodup : (row.map (·.name)).Nodup) (f : Column → JsonNode) (hc : c ∈ row) :
    List.lookup c.name (row.map fun c => (c.name, f c)) = some (f c) := by
  induction row with
  | nil => cases hc
  | cons c' row ih =>
    rw [List.map_cons, List.nodup_cons] at hnodup
    rw [List.map_cons, ObjectNode.lookup_cons_eq]
    rcases List.mem_cons.1 hc with rfl | hmem
    · rw [if_pos rfl]
    · have hne : c.name ≠ c'.name := fun heq => hnodup.1 (heq ▸ List.mem_map_of_mem hmem)
      rw [if_neg hne, ih hnodup.2 hmem]

/-- the element of the bootstrap and the change have the same value in the column -/
def ValueAgrees (e : SourceElement) (change : SourceChange) (name : String) : Prop :=
  ∃ node node' item, e.properties.lookup name = some node ∧ change.properties = some item ∧
    item.lookup name = some node' ∧ SameValue node node'

/-- **Row values.** For every row and every column of a numeric or boolean type: the value that the proxy gives the column
in the bootstrap is the one that the reactivator gives it in an insert or update of the row, if and only if the column is
null or its type code keeps the value. DECIMAL, REAL, TINYINT and BIT never do. -/
theorem value_agrees_iff {mapping m : NodeMapping} {row : List Column} {e : SourceElement} {connector : Connector}
    {nodes : List NodeMapping} {payload : Payload} {change : SourceChange}
    (hjdbc : Reads jdbc r) (hdebezium : Writes debezium r) (hnames : (row.map (·.name)).Nodup)
    (helement : rowElement jdbc mapping row = .ok (some e))
    (hafter : payload.after = some (row.map fun c => (c.name, debezium c)))
    (hfind : nodes.find? (fun n => n.tableName = extractTableName connector payload.source) = some m)
    (hchange : extractDrasiChange connector nodes payload = some change) (hkind : change.kind ≠ .delete)
    (hc : c ∈ row) (hholds : ∀ v ∈ c.cell, c.type.Holds v) :
    ValueAgrees e change c.name ↔ ∀ v ∈ c.cell, c.type.Keeps r v := by
  obtain ⟨hproperties, -, -⟩ := rowElement_ok helement
  obtain ⟨node, hnode, hlookup⟩ := lookup_properties hnames hproperties hc
  obtain ⟨op, item, -, -, -, -, hwritten⟩ := extractDrasiChange_some hfind hchange
  obtain ⟨hitem, hitem'⟩ := hwritten hkind
  obtain rfl : row.map (fun c => (c.name, debezium c)) = item := Option.some.inj (hafter.symm.trans hitem)
  have hsame : ValueAgrees e change c.name ↔ SameValue node (debezium c) := by
    constructor
    · rintro ⟨n, n', item, hn, hi, hn', hs⟩
      obtain rfl := Option.some.inj (hlookup.symm.trans hn)
      obtain rfl := Option.some.inj (hitem'.symm.trans hi)
      rw [lookup_map_column hnames debezium hc] at hn'
      obtain rfl := Option.some.inj hn'
      exact hs
    · intro hs
      exact ⟨node, debezium c, _, hlookup, hitem', lookup_map_column hnames debezium hc, hs⟩
  rw [hsame]
  cases hcell : c.cell with
  | none =>
    simp only [Option.not_mem_none, false_implies, implies_true, iff_true]
    exact sameValue_null hdebezium hcell hnode
  | some v =>
    have hv : c.type.Holds v := hholds v hcell
    have hgoal : SameValue node (debezium c) ↔ c.type.Keeps r v := by
      cases v with
      | number q => exact sameValue_number_iff hjdbc hdebezium hcell hv hnode
      | boolean b => exact sameValue_boolean_iff hjdbc hdebezium hcell hv hnode
      | other s => exact absurd hv (by cases c.type <;> simp [SqlType.Holds])
    rw [hgoal]
    simp

end Values

/-! ## A table of items -/

def wholeNumber : SqlValue → Except SqlException ℤ
  | .number v => if v.den = 1 then .ok v.num else .error ⟨"not a whole number"⟩
  | _ => .error ⟨"not a number"⟩

/-- a whole number as a double -/
def wholeDouble (n : ℤ) : Numeral := ⟨n, toString n ++ ".0"⟩

/-- a driver for whole numbers, booleans and strings -/
def wholeJdbc : Jdbc where
  getTimestamp _ := .error ⟨"not a timestamp"⟩
  getShort := wholeNumber
  getInt := wholeNumber
  getLong := wholeNumber
  getFloat v := (wholeNumber v).map wholeDouble
  getDouble v := (wholeNumber v).map wholeDouble
  getBigDecimal v := (wholeNumber v).map .ofInt
  getBoolean
    | .boolean b => .ok b
    | _ => .error ⟨"not a boolean"⟩
  getString
    | .number v => .ok (toString v.num)
    | .boolean b => .ok (if b then "1" else "0")
    | .other s => .ok s

/-- small whole numbers are not rounded -/
def noRounding : Rounding := ⟨id, id⟩

def wholeDebezium (c : Column) : JsonNode :=
  match c.cell with
  | none => .null
  | some (.number v) => .number ⟨v, toString v.num⟩
  | some (.boolean b) => .boolean b
  | some (.other s) => .string s

theorem wholeNumber_ok {v : ℚ} {n : ℤ} (h : wholeNumber (.number v) = .ok n) : (n : ℚ) = v := by
  simp only [wholeNumber] at h
  split_ifs at h with hden
  obtain rfl := Except.ok.inj h
  exact Rat.den_eq_one_iff v |>.1 hden

theorem value_map_wholeNumber {f : ℤ → Numeral} {v : ℚ} {n : Numeral} (h : (wholeNumber (.number v)).map f = .ok n)
    (hf : ∀ k, (f k).value = k) : n.value = v := by
  cases hget : wholeNumber (.number v) with
  | error e => rw [hget] at h; cases h
  | ok k =>
    rw [hget] at h
    obtain rfl := Except.ok.inj h
    rw [hf, wholeNumber_ok hget]

theorem wholeJdbc_reads : Reads wholeJdbc noRounding where
  getShort _ _ h := wholeNumber_ok h
  getInt _ _ h := wholeNumber_ok h
  getLong _ _ h := wholeNumber_ok h
  getFloat v n h := show n.value = v from value_map_wholeNumber h fun _ => rfl
  getDouble v n h := show n.value = v from value_map_wholeNumber h fun _ => rfl
  getBigDecimal v n h := show n.value = v from value_map_wholeNumber h fun _ => rfl
  getBoolean _ _ h := (Except.ok.inj h).symm

theorem wholeDebezium_writes : Writes wholeDebezium noRounding where
  null c hc := by simp [wholeDebezium, hc]
  number c v hc _ := by
    refine ⟨⟨v, toString v.num⟩, by simp [wholeDebezium, hc], ?_⟩
    cases c.type <;> rfl
  boolean c b hc _ := by simp [wholeDebezium, hc]

/-- the database `inventory` with the table `item`, in the schema `public` where there are schemas -/
def inventory (connector : Connector) : DatabaseMetaData where
  getPrimaryKeys _ _ _ := [⟨some "inventory", if connector = .mySql then none else some "public", "id"⟩]

/-- the item 7, of size 5 -/
def itemRow : List Column := [⟨"id", .integer, some (.number 7)⟩, ⟨"size", .tinyint, some (.number 5)⟩]

def itemMapping (connector : Connector) : NodeMapping :=
  ⟨if connector = .mySql then "item" else "public.item", "id", ["item"]⟩

def itemNode (connector : Connector) : NodeMapping :=
  ⟨if connector = .mySql then "inventory.item" else "public.item", "id", ["item"]⟩

/-- an insert of the item -/
def itemPayload : Payload where
  op := some "c"
  source := [("db", .string "inventory"), ("schema", .string "public"), ("table", .string "item")]
  before := none
  after := some (itemRow.map fun c => (c.name, wholeDebezium c))

def itemElement (id : String) : SourceElement := ⟨id, [("id", .number ⟨7, "7"⟩), ("size", .string "5")], ["item"]⟩

def itemChange (id : String) : SourceChange :=
  ⟨.insert, id, some [("id", .number ⟨7, "7"⟩), ("size", .number ⟨5, "5"⟩)], ["item"]⟩

theorem inventory_qualifies (connector : Connector) : Qualifies connector (inventory connector) := by
  intro _ _ _ rs hrs
  obtain rfl := List.mem_singleton.1 hrs
  cases connector <;> rfl

/-- the item in the bootstrap and in the insert, on PostgreSQL -/
theorem itemRow_told :
    rowElement wholeJdbc (itemMapping .postgreSql) itemRow = .ok (some (itemElement "public:item:7")) ∧
      extractDrasiChange .postgreSql [itemNode .postgreSql] itemPayload = some (itemChange "public:item:7") := by
  decide +kernel

/-- on PostgreSQL the two ids are equal -/
theorem postgreSql_ids_agree : (itemElement "public:item:7").id = (itemChange "public:item:7").id := by
  obtain ⟨hmapping, hnode, hm, hfind⟩ :
      readMappingFromSchema (inventory .postgreSql) none "item" = .ok (itemMapping .postgreSql) ∧
      fieldNode wholeJdbc ⟨"id", .integer, some (.number 7)⟩ = .ok (.number ⟨7, "7"⟩) ∧
      getNodeMapping .postgreSql (inventory .postgreSql) none "item" = .ok (itemNode .postgreSql) ∧
      [itemNode .postgreSql].find? (fun n => n.tableName = extractTableName .postgreSql itemPayload.source) =
        some (itemNode .postgreSql) := by decide
  have hitem : ∀ op ∈ itemPayload.op, ∀ item ∈ getChangeData itemPayload op,
      item.lookup (itemNode .postgreSql).keyField = some (.number ⟨7, "7"⟩) := by
    rintro op ⟨⟩ item ⟨⟩
    rfl
  exact (ids_agree_iff (inventory_qualifies .postgreSql) hmapping itemRow_told.1 (by decide) List.mem_cons_self rfl hnode rfl
    hm hfind itemRow_told.2 hitem).2 rfl

/-- **On MySQL** the item has one id in the bootstrap and another in its changes. -/
theorem mySql_ids_differ :
    readMappingFromSchema (inventory .mySql) (some "inventory") "item" = .ok (itemMapping .mySql) ∧
      getNodeMapping .mySql (inventory .mySql) (some "inventory") "item" = .ok (itemNode .mySql) ∧
      rowElement wholeJdbc (itemMapping .mySql) itemRow = .ok (some (itemElement "item:7")) ∧
      extractDrasiChange .mySql [itemNode .mySql] itemPayload = some (itemChange "inventory:item:7") ∧
      (itemElement "item:7").id ≠ (itemChange "inventory:item:7").id := by
  decide +kernel

/-- an INTEGER keeps its value -/
theorem integer_agrees : ValueAgrees (itemElement "public:item:7") (itemChange "public:item:7") "id" := by
  have hfind : [itemNode .postgreSql].find? (fun n => n.tableName = extractTableName .postgreSql itemPayload.source) =
      some (itemNode .postgreSql) := rfl
  have hc : (⟨"id", .integer, some (.number 7)⟩ : Column) ∈ itemRow := List.mem_cons_self
  refine (value_agrees_iff wholeJdbc_reads wholeDebezium_writes (by decide) itemRow_told.1 rfl hfind itemRow_told.2
    (by decide) hc ?_).2 ?_
  · rintro v ⟨⟩
    trivial
  · rintro v ⟨⟩
    trivial

/-- **A TINYINT** is a string in the bootstrap and a number in the changes. -/
theorem tinyint_becomes_string :
    rowElement wholeJdbc (itemMapping .postgreSql) itemRow = .ok (some (itemElement "public:item:7")) ∧
      extractDrasiChange .postgreSql [itemNode .postgreSql] itemPayload = some (itemChange "public:item:7") ∧
      (itemElement "public:item:7").properties.lookup "size" = some (.string "5") ∧
      ¬ ValueAgrees (itemElement "public:item:7") (itemChange "public:item:7") "size" := by
  refine ⟨itemRow_told.1, itemRow_told.2, rfl, ?_⟩
  rintro ⟨node, node', item, hnode, hitem, hnode', hsame⟩
  obtain rfl : JsonNode.string "5" = node := Option.some.inj hnode
  obtain rfl := Option.some.inj hitem
  obtain rfl : JsonNode.number ⟨5, "5"⟩ = node' := Option.some.inj hnode'
  exact hsame

end DrasiPlatform.Relational
