/-
The bootstrap of the relational sources (`ResultStream.java`, with `TableRegistry.java` and the cursor of `TableCursor.java`):
the elements of the tables that a request names and the source has registered, one for each call of `next`.

A cursor reads the primary key of its table and sends its SELECT when it is first asked. A null ends it, and the cursor behind
it is asked in the same call. An `SQLException` is thrown on as a `RuntimeException`, and the cursor stays where it is. The
database is a parameter (`Connection`): the keys it lists, the rows it answers to a SELECT in the order of its cursor, and the
getters of its driver.

- `cursor_ends`: a cursor that ends has given the elements of its rows up to the first row without the key column.
- `streams_every_row_iff`: the calls give an element for every row of every registered table of the request, in order, and
  null from then on, exactly when every such table can be read and its key is one of its columns.
- `other_schemas_key_drops_rows`: the first key that the driver lists for a table without a schema is that of another schema's
  table of the same name.
-/
import Mathlib.Data.List.DropRight
import Mathlib.Tactic
import DrasiPlatform.Core.PullStreams
import DrasiPlatform.Sources.RowAgreement

namespace DrasiPlatform.Relational

open PullStreams

/-! ## The registry -/

/-- the schema of each table, with later entries first -/
abbrev TableRegistry := List (String × Option String)

/-- `trim()` of Java -/
def trimText (s : List Char) : List Char := (s.dropWhile (· ≤ ' ')).rdropWhile (· ≤ ' ')

/-- an item of the list of tables -/
def parseTable (table : List Char) : String × Option String :=
  let trimmedTable := trimText table
  if '.' ∈ trimmedTable then
    let schema := trimmedTable.takeWhile (· ≠ '.')
    let tableName := (trimmedTable.dropWhile (· ≠ '.')).tail
    (String.ofList (trimText tableName), some (String.ofList (trimText schema)))
  else (String.ofList trimmedTable, none)

def parseTablesConfig (tablesEnv : Option String) : TableRegistry :=
  match tablesEnv with
  | none => []
  | some tables =>
    if trimText tables.toList = [] then []
    else (((tables.toList.splitOn ',').rdropWhile List.isEmpty).map parseTable).reverse

def TableRegistry.tableExists (registry : TableRegistry) (tableName : String) : Bool := (registry.lookup tableName).isSome

def TableRegistry.getSchemaName (registry : TableRegistry) (tableName : String) : Option String :=
  (registry.lookup tableName).join

/-! ## The cursor -/

/-- `executeQuery` is the answer to `SELECT * FROM` a name -/
structure Connection where
  connector : Connector
  jdbc : Jdbc
  metadata : DatabaseMetaData
  executeQuery : String → Except SqlException (List (List Column))

/-- the mapping of a table that is read, and the rows that are left -/
structure ResultSet where
  mapping : NodeMapping
  rows : List (List Column)

structure TableCursor where
  schemaName : Option String
  tableName : String
  resultSet : Option ResultSet

def quoteOf (connector : Connector) : String :=
  match connector with
  | .mySql => "`"
  | .postgreSql | .sqlServer => "\""

def fullyQualifiedTableName (connector : Connector) (schemaName : Option String) (tableName : String) : String :=
  let quote := quoteOf connector
  let sanitizedTableName := String.ofList (tableName.toList.filter fun c => c ∉ quote.toList ∧ c ≠ ';')
  let table := quote ++ sanitizedTableName ++ quote
  schemaName.elim table fun schema => quote ++ schema ++ quote ++ "." ++ table

def Connection.selectAll (connection : Connection) (schemaName : Option String) (tableName : String) :
    Except SqlException (List (List Column)) :=
  connection.executeQuery (fullyQualifiedTableName connection.connector schemaName tableName)

namespace TableCursor

def new (schemaName : Option String) (tableName : String) : TableCursor := ⟨schemaName, tableName, none⟩

def init (connection : Connection) (cursor : TableCursor) : Except SqlException ResultSet :=
  match cursor.resultSet with
  | some resultSet => .ok resultSet
  | none => do
    let mapping ← readMappingFromSchema connection.metadata cursor.schemaName cursor.tableName
    let rows ← connection.selectAll cursor.schemaName cursor.tableName
    return ⟨mapping, rows⟩

/-- a row without the key field is answered with null, like the end -/
def next (connection : Connection) (cursor : TableCursor) : Except SqlException (Option SourceElement) × TableCursor :=
  match cursor.init connection with
  | .error e => (.error e, cursor)
  | .ok ⟨mapping, []⟩ => (.ok none, { cursor with resultSet := some ⟨mapping, []⟩ })
  | .ok ⟨mapping, row :: rows⟩ =>
    (rowElement connection.jdbc mapping row, { cursor with resultSet := some ⟨mapping, rows⟩ })

end TableCursor

/-! ## The stream -/

namespace ResultStream

def newCursor (tableRegistry : TableRegistry) (table : String) : TableCursor :=
  .new (tableRegistry.getSchemaName table) table

/-- the cursors of a new stream, in the order of the labels -/
def cursors (tableRegistry : TableRegistry) (nodeLabels : List String) : List TableCursor :=
  (nodeLabels.filter tableRegistry.tableExists).map (newCursor tableRegistry)

/-- the loop drops a cursor in each round, so a call takes no more rounds than there are cursors -/
def next (connection : Connection) : List TableCursor → Except SqlException (Option SourceElement) × List TableCursor
  | [] => (.ok none, [])
  | cursor :: cursors =>
    match cursor.next connection with
    | (.error e, cursor) => (.error e, cursor :: cursors)
    | (.ok (some element), cursor) => (.ok (some element), cursor :: cursors)
    | (.ok none, _) => next connection cursors

theorem next_eq_chain (connection : Connection) (cursors : List TableCursor) :
    next connection cursors = chain (TableCursor.next connection) cursors := by
  induction cursors with
  | nil => rfl
  | cons cursor cursors ih =>
    rw [next]
    rcases hcall : cursor.next connection with ⟨_ | (_ | element), cursor'⟩
    · exact (chain_of_error hcall).symm
    · exact ih.trans (chain_of_none hcall).symm
    · exact (chain_of_some hcall).symm

end ResultStream

/-! ## The elements of a cursor -/

/-- the elements of the rows up to the first row without the key column -/
def GivenBy (jdbc : Jdbc) (resultSet : ResultSet) (elements : List SourceElement) : Prop :=
  ∃ given left, resultSet.rows = given ++ left ∧
    List.Forall₂ (fun row element => rowElement jdbc resultSet.mapping row = .ok (some element)) given elements ∧
    ∀ row ∈ left.head?, rowElement jdbc resultSet.mapping row = .ok none

section Cursor

variable {connection : Connection} {cursor cursor' : TableCursor} {mapping : NodeMapping} {rows : List (List Column)}
  {row : List Column} {element : SourceElement} {elements : List SourceElement}

theorem cursor_next_of_error {e : SqlException} (h : cursor.init connection = .error e) :
    cursor.next connection = (.error e, cursor) := by
  rw [TableCursor.next, h]

theorem cursor_next_of_end (h : cursor.init connection = .ok ⟨mapping, []⟩) :
    cursor.next connection = (.ok none, { cursor with resultSet := some ⟨mapping, []⟩ }) := by
  rw [TableCursor.next, h]

theorem cursor_next_of_row (h : cursor.init connection = .ok ⟨mapping, row :: rows⟩) :
    cursor.next connection =
      (rowElement connection.jdbc mapping row, { cursor with resultSet := some ⟨mapping, rows⟩ }) := by
  rw [TableCursor.next, h]

/-- a call that gives an element has read a row -/
theorem cursor_next_some (h : cursor.next connection = (.ok (some element), cursor')) :
    ∃ mapping row rows, cursor.init connection = .ok ⟨mapping, row :: rows⟩ ∧
      rowElement connection.jdbc mapping row = .ok (some element) ∧ cursor'.init connection = .ok ⟨mapping, rows⟩ := by
  rcases hinit : cursor.init connection with e | ⟨mapping, _ | ⟨row, rows⟩⟩
  · cases (cursor_next_of_error hinit).symm.trans h
  · cases (cursor_next_of_end hinit).symm.trans h
  · obtain ⟨hrow, rfl⟩ := Prod.ext_iff.1 ((cursor_next_of_row hinit).symm.trans h)
    exact ⟨mapping, row, rows, rfl, hrow, rfl⟩

/-- one that answers null is at the end, or has read a row without the key column -/
theorem cursor_next_none (h : cursor.next connection = (.ok none, cursor')) :
    ∃ mapping rows, cursor.init connection = .ok ⟨mapping, rows⟩ ∧
      ∀ row ∈ rows.head?, rowElement connection.jdbc mapping row = .ok none := by
  rcases hinit : cursor.init connection with e | ⟨mapping, _ | ⟨row, rows⟩⟩
  · cases (cursor_next_of_error hinit).symm.trans h
  · exact ⟨mapping, [], rfl, by simp⟩
  · have hrow := congrArg Prod.fst ((cursor_next_of_row hinit).symm.trans h)
    exact ⟨mapping, row :: rows, rfl, by simpa using hrow⟩

theorem ends_of_givenBy {given left : List (List Column)} (hinit : cursor.init connection = .ok ⟨mapping, given ++ left⟩)
    (hgiven : List.Forall₂ (fun row element => rowElement connection.jdbc mapping row = .ok (some element)) given elements)
    (hleft : ∀ row ∈ left.head?, rowElement connection.jdbc mapping row = .ok none) :
    Ends (TableCursor.next connection) cursor elements := by
  induction hgiven generalizing cursor with
  | nil =>
    cases left with
    | nil => exact .stop (cursor_next_of_end hinit)
    | cons row left =>
      have hcall := cursor_next_of_row hinit
      rw [hleft row rfl] at hcall
      exact .stop hcall
  | cons hrow _ ih =>
    have hcall := cursor_next_of_row hinit
    rw [hrow] at hcall
    exact .item hcall (ih rfl)

/-- **A cursor** that ends has given the elements of its rows, up to the first row without the key column. -/
theorem cursor_ends : Ends (TableCursor.next connection) cursor elements ↔
    ∃ resultSet, cursor.init connection = .ok resultSet ∧ GivenBy connection.jdbc resultSet elements := by
  refine ⟨fun h => ?_, ?_⟩
  · induction h with
    | stop hcall =>
      obtain ⟨mapping, rows, hinit, hhead⟩ := cursor_next_none hcall
      exact ⟨⟨mapping, rows⟩, hinit, [], rows, rfl, .nil, hhead⟩
    | item hcall _ ih =>
      obtain ⟨mapping, row, rows, hinit, hrow, hinit'⟩ := cursor_next_some hcall
      obtain ⟨resultSet, hresultSet, given, left, hrows, hgiven, hleft⟩ := ih
      obtain rfl := Except.ok.inj (hinit'.symm.trans hresultSet)
      exact ⟨⟨mapping, row :: rows⟩, hinit, row :: given, left, congrArg (row :: ·) hrows, .cons hrow hgiven, hleft⟩
  · rintro ⟨⟨mapping, rows⟩, hinit, given, left, rfl, hgiven, hleft⟩
    exact ends_of_givenBy hinit hgiven hleft

end Cursor

/-! ## The rows of a request -/

section Request

variable (connection : Connection) (registry : TableRegistry)

/-- the rows of a table, none where the database does not answer -/
def tableRows (tableName : String) : List (List Column) :=
  (connection.selectAll (registry.getSchemaName tableName) tableName).toOption.getD []

/-- every row of every registered table of the request, in order -/
def requestedRows (nodeLabels : List String) : List (String × List Column) :=
  (nodeLabels.filter registry.tableExists).flatMap fun table => (tableRows connection registry table).map (table, ·)

def ElementOf (tableRow : String × List Column) (element : SourceElement) : Prop :=
  ∃ mapping, readMappingFromSchema connection.metadata (registry.getSchemaName tableRow.1) tableRow.1 = .ok mapping ∧
    rowElement connection.jdbc mapping tableRow.2 = .ok (some element)

/-- the calls answer with an element for every row, and with null from then on -/
def StreamsEveryRow (nodeLabels : List String) : Prop :=
  ∃ elements, List.Forall₂ (ElementOf connection registry) (requestedRows connection registry nodeLabels) elements ∧
    Yields (ResultStream.next connection) (ResultStream.cursors registry nodeLabels) elements

/-- the table has a key, its rows can be read, and the key column that is listed first is one of theirs -/
def Streamable (tableName : String) : Prop :=
  ∃ key keys rows, connection.metadata.getPrimaryKeys none (registry.getSchemaName tableName) tableName = key :: keys ∧
    connection.selectAll (registry.getSchemaName tableName) tableName = .ok rows ∧
    ∀ row ∈ rows, (∀ c ∈ row, ∃ node, fieldNode connection.jdbc c = .ok node) ∧ ∃ c ∈ row, c.name = key.columnName

end Request

/-! ## Streaming -/

section Streaming

variable {connection : Connection} {registry : TableRegistry} {schemaName : Option String} {tableName : String}
  {tables : List String} {mapping : NodeMapping} {elements : List SourceElement}

theorem readMappingFromSchema_ok (h : readMappingFromSchema connection.metadata schemaName tableName = .ok mapping) :
    ∃ key keys, connection.metadata.getPrimaryKeys none schemaName tableName = key :: keys ∧
      mapping.keyField = key.columnName := by
  unfold readMappingFromSchema at h
  cases hkeys : connection.metadata.getPrimaryKeys none schemaName tableName with
  | nil => rw [hkeys] at h; cases h
  | cons key keys =>
    rw [hkeys] at h
    exact ⟨key, keys, rfl, congrArg NodeMapping.keyField (Except.ok.inj h).symm⟩

theorem readMappingFromSchema_of_cons {key : PrimaryKey} {keys : List PrimaryKey}
    (hkeys : connection.metadata.getPrimaryKeys none schemaName tableName = key :: keys) :
    ∃ mapping, readMappingFromSchema connection.metadata schemaName tableName = .ok mapping ∧
      mapping.keyField = key.columnName := by
  rw [readMappingFromSchema, hkeys]
  exact ⟨_, rfl, rfl⟩

/-- what the first call of a cursor reads -/
theorem init_new {rows : List (List Column)} : (TableCursor.new schemaName tableName).init connection = .ok ⟨mapping, rows⟩ ↔
    readMappingFromSchema connection.metadata schemaName tableName = .ok mapping ∧
      connection.selectAll schemaName tableName = .ok rows := by
  change (readMappingFromSchema connection.metadata schemaName tableName >>= fun mapping =>
    connection.selectAll schemaName tableName >>= fun rows => pure (ResultSet.mk mapping rows)) = .ok ⟨mapping, rows⟩ ↔ _
  cases readMappingFromSchema connection.metadata schemaName tableName with
  | error e => simp [bind, Except.bind]
  | ok mapping =>
    cases connection.selectAll schemaName tableName with
    | error e => simp [bind, Except.bind]
    | ok rows => simp [bind, Except.bind, pure, Except.pure]

theorem exists_forall₂_iff {α β : Type*} {r : α → β → Prop} {xs : List α} :
    (∃ ys, List.Forall₂ r xs ys) ↔ ∀ x ∈ xs, ∃ y, r x y := by
  induction xs with
  | nil => exact ⟨fun _ => by simp, fun _ => ⟨[], .nil⟩⟩
  | cons x xs ih =>
    rw [List.forall_mem_cons, ← ih]
    refine ⟨?_, ?_⟩
    · rintro ⟨_, _ | ⟨hy, hys⟩⟩
      exact ⟨⟨_, hy⟩, _, hys⟩
    · rintro ⟨⟨y, hy⟩, ys, hys⟩
      exact ⟨y :: ys, .cons hy hys⟩

/-- a cursor gives no more elements than its table has rows, and as many only when every row can be read -/
theorem length_le_of_ends
    (h : Ends (TableCursor.next connection) (ResultStream.newCursor registry tableName) elements) :
    elements.length ≤ (tableRows connection registry tableName).length ∧
      (elements.length = (tableRows connection registry tableName).length → Streamable connection registry tableName) := by
  obtain ⟨⟨mapping, rows⟩, hinit, given, left, hsplit, hgiven, -⟩ := cursor_ends.1 h
  obtain ⟨hmapping, hrows⟩ := init_new.1 hinit
  obtain ⟨key, keys, hkeys, hkey⟩ := readMappingFromSchema_ok hmapping
  have htable : tableRows connection registry tableName = given ++ left := by
    rw [tableRows, hrows, ← hsplit]
    rfl
  have hlength := hgiven.length_eq
  refine ⟨by rw [htable, List.length_append]; omega, fun hall => ⟨key, keys, rows, hkeys, hrows, ?_⟩⟩
  have hleft : left = [] := by
    rw [htable, List.length_append] at hall
    exact List.length_eq_zero_iff.1 (by omega)
  have hrowsGiven : rows = given := hsplit.trans (by rw [hleft, List.append_nil])
  intro row hrow
  rw [hrowsGiven] at hrow
  have hread := (exists_rowElement_iff mapping).1 (exists_forall₂_iff.1 ⟨_, hgiven⟩ row hrow)
  rw [hkey] at hread
  exact hread

/-- such a table: its cursor gives an element for every row -/
theorem Streamable.ends (h : Streamable connection registry tableName) :
    ∃ elements, Ends (TableCursor.next connection) (ResultStream.newCursor registry tableName) elements ∧
      List.Forall₂ (ElementOf connection registry)
        ((tableRows connection registry tableName).map (tableName, ·)) elements := by
  obtain ⟨key, keys, rows, hkeys, hrows, hread⟩ := h
  obtain ⟨mapping, hmapping, hkey⟩ := readMappingFromSchema_of_cons hkeys
  have helements : ∀ row ∈ rows, ∃ element, rowElement connection.jdbc mapping row = .ok (some element) := by
    intro row hrow
    rw [exists_rowElement_iff, hkey]
    exact hread row hrow
  obtain ⟨elements, hgiven⟩ := exists_forall₂_iff.2 helements
  have hinit : (ResultStream.newCursor registry tableName).init connection = .ok ⟨mapping, rows ++ []⟩ := by
    rw [List.append_nil]
    exact init_new.2 ⟨hmapping, hrows⟩
  have htable : tableRows connection registry tableName = rows := by
    rw [tableRows, hrows]
    rfl
  refine ⟨elements, ends_of_givenBy hinit hgiven (by simp), ?_⟩
  rw [htable, List.forall₂_map_left_iff]
  exact hgiven.imp fun row element hrow => ⟨mapping, hmapping, hrow⟩

/-- counted over all tables: as many elements as rows only when every row of every table can be read -/
theorem length_flatten_le {each : List (List SourceElement)}
    (h : List.Forall₂ (fun table => Ends (TableCursor.next connection) (ResultStream.newCursor registry table)) tables each) :
    each.flatten.length ≤ (tables.flatMap (tableRows connection registry)).length ∧
      (each.flatten.length = (tables.flatMap (tableRows connection registry)).length →
        ∀ table ∈ tables, Streamable connection registry table) := by
  induction h with
  | nil => exact ⟨le_rfl, by simp⟩
  | cons htable _ ih =>
    obtain ⟨hle, hall⟩ := length_le_of_ends htable
    obtain ⟨hles, halls⟩ := ih
    rw [List.flatten_cons, List.flatMap_cons, List.length_append, List.length_append]
    refine ⟨Nat.add_le_add hle hles, fun hsum => ?_⟩
    exact List.forall_mem_cons.2 ⟨hall (by omega), halls (by omega)⟩

theorem forall₂_elements (h : ∀ table ∈ tables, Streamable connection registry table) :
    ∃ each, List.Forall₂ (fun table => Ends (TableCursor.next connection) (ResultStream.newCursor registry table)) tables each ∧
      List.Forall₂ (ElementOf connection registry)
        (tables.flatMap fun table => (tableRows connection registry table).map (table, ·)) each.flatten := by
  induction tables with
  | nil => exact ⟨[], .nil, .nil⟩
  | cons table tables ih =>
    rw [List.forall_mem_cons] at h
    obtain ⟨elements, hends, helements⟩ := h.1.ends
    obtain ⟨each, heach, hrest⟩ := ih h.2
    exact ⟨elements :: each, .cons hends heach, List.rel_append helements hrest⟩

/-- **Every row.** For every request, every configuration of the tables and every database: the calls of `next` answer with an
element for each row of each registered table of the request, once for each time it is requested, in the order of the request
and of the rows, and with null from then on, exactly when every such table can be read and the first key column that the
driver lists for it is one of its columns. -/
theorem streams_every_row_iff (connection : Connection) (tablesEnv : Option String) (nodeLabels : List String) :
    StreamsEveryRow connection (parseTablesConfig tablesEnv) nodeLabels ↔
      ∀ table ∈ nodeLabels, (parseTablesConfig tablesEnv).tableExists table = true →
        Streamable connection (parseTablesConfig tablesEnv) table := by
  generalize parseTablesConfig tablesEnv = registry
  have hyields : ∀ elements, Yields (ResultStream.next connection) (ResultStream.cursors registry nodeLabels) elements ↔
      ∃ each, List.Forall₂ (fun table => Ends (TableCursor.next connection) (ResultStream.newCursor registry table))
        (nodeLabels.filter registry.tableExists) each ∧ elements = each.flatten := by
    intro elements
    rw [funext (ResultStream.next_eq_chain connection), yields_chain]
    simp only [ResultStream.cursors, List.forall₂_map_left_iff]
  have hrequested : (∀ table ∈ nodeLabels, registry.tableExists table = true → Streamable connection registry table) ↔
      ∀ table ∈ nodeLabels.filter registry.tableExists, Streamable connection registry table := by
    simp only [List.mem_filter, and_imp]
  rw [hrequested]
  refine ⟨?_, ?_⟩
  · rintro ⟨elements, helements, hcalls⟩
    obtain ⟨each, heach, rfl⟩ := (hyields elements).1 hcalls
    refine (length_flatten_le heach).2 ?_
    rw [← helements.length_eq, requestedRows]
    simp only [List.length_flatMap, List.length_map]
  · intro hstreamable
    obtain ⟨each, heach, helements⟩ := forall₂_elements hstreamable
    exact ⟨each.flatten, helements, (hyields each.flatten).2 ⟨each, heach, rfl⟩⟩

end Streaming

/-! ## Two schemas -/

/-- a database with tables `public.orders` and `archive.orders`; the key of the archive is `archived_id` -/
def shop : Connection where
  connector := .postgreSql
  jdbc := wholeJdbc
  metadata := ⟨fun _ schemaName _ =>
    [⟨none, some "archive", "archived_id"⟩, ⟨none, some "public", "id"⟩].filter fun key =>
      schemaName.all fun schema => key.tableSchem = some schema⟩
  executeQuery _ := .ok [[⟨"id", .integer, some (.number 1)⟩], [⟨"id", .integer, some (.number 2)⟩]]

theorem other_schemas_key_drops_rows : ¬ StreamsEveryRow shop (parseTablesConfig (some "orders")) ["orders"] := by
  rintro ⟨elements, helements, hcalls⟩
  have hregistry : parseTablesConfig (some "orders") = [("orders", none)] := by decide
  have hfirst : (ResultStream.next shop (ResultStream.cursors [("orders", none)] ["orders"])).1 = .ok none := by decide
  rw [hregistry] at helements hcalls
  have hempty : elements = [] := List.head?_eq_none_iff.1 (Except.ok.inj (hcalls.head.symm.trans hfirst))
  have hlength : (requestedRows shop [("orders", none)] ["orders"]).length = 2 := by decide
  rw [helements.length_eq, hempty] at hlength
  cases hlength

end DrasiPlatform.Relational
