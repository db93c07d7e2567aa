/-
Do the ids of a relational source tell its rows apart? The change consumer (`createNodeId`) and the SQL proxy
(`SanitizeNodeId`) make an id of the table's qualified name, a colon and the text of the first column of the primary key, with
a colon for every dot of the whole text.

- `Identifies.id_eq`: either path makes the id of the mapping of the row's table and of the row alone.
- `ids_differ_iff`: two rows have different ids exactly when they are not `Confused`. Rows are confused that have the same text
  in the first key column, up to dots and colons, in one table; in two tables where the name of one goes on with a piece that
  the key in the other one begins with.
- `ids_differ_of_unsplit`: keys without dots and colons, such as whole numbers, are confused with nothing but their like in
  tables of the same name.
Witness `composite_keys_collide`: two rows of one order, and two rows whose keys are "1.5" and "1:5".
-/
import Mathlib.Tactic
import DrasiPlatform.Core.Separators
import DrasiPlatform.Sources.RowAgreement

namespace DrasiPlatform.Relational

open DrasiPlatform.Separators

/-! ## The ids of rows -/

/-- an id that the bootstrap or a change gives to the row `o` of the table with the mapping `m` -/
inductive Identifies (metadata : DatabaseMetaData) : NodeMapping → ObjectNode → String → Prop
  | bootstrap {jdbc : Jdbc} {schema : Option String} {tableName : String} {m : NodeMapping} {row : List Column}
      {e : SourceElement} (hm : readMappingFromSchema metadata schema tableName = .ok m)
      (he : rowElement jdbc m row = .ok (some e)) : Identifies metadata m e.properties e.id
  | change {connector : Connector} {schema : Option String} {tableName op : String} {m : NodeMapping}
      {nodes : List NodeMapping} {payload : Payload} {item : ObjectNode} {change : SourceChange}
      (hm : getNodeMapping connector metadata schema tableName = .ok m)
      (hfind : nodes.find? (fun n => n.tableName = extractTableName connector payload.source) = some m)
      (hop : payload.op = some op) (hitem : getChangeData payload op = some item)
      (hchange : extractDrasiChange connector nodes payload = some change) : Identifies metadata m item change.id

/-- the characters of a name or of a key in an id -/
def idChars (s : String) : List Char := (sanitizeNodeId s).toList

/-- the text of the first key column in an id -/
def keyChars (m : NodeMapping) (o : ObjectNode) : List Char := idChars (o.pathText m.keyField)

/-- two rows, each with the mapping of its table, whose ids have the same text -/
def Confused (m : NodeMapping) (o : ObjectNode) (m' : NodeMapping) (o' : ObjectNode) : Prop :=
  idChars m.tableName = idChars m'.tableName ∧ keyChars m o = keyChars m' o' ∨
    (∃ piece, idChars m'.tableName = idChars m.tableName ++ ':' :: piece ∧ keyChars m o = piece ++ ':' :: keyChars m' o') ∨
    ∃ piece, idChars m.tableName = idChars m'.tableName ++ ':' :: piece ∧ keyChars m' o' = piece ++ ':' :: keyChars m o

theorem toList_nodeId (tableName key : String) :
    (sanitizeNodeId (tableName ++ ":" ++ key)).toList = idChars tableName ++ ':' :: idChars key := by
  rw [sanitizeNodeId_append, sanitizeNodeId_append, String.toList_append, String.toList_append]
  have hcolon : (sanitizeNodeId ":").toList = [':'] := by simp [sanitizeNodeId, String.toList_map]
  rw [hcolon, List.append_assoc]
  rfl

section Ids

variable {metadata : DatabaseMetaData} {m m' : NodeMapping} {o o' : ObjectNode} {id id' : String}

/-- **Either path** makes the id of the table's name and the first key column. -/
theorem Identifies.id_eq (h : Identifies metadata m o id) : id = sanitizeNodeId (m.tableName ++ ":" ++ o.pathText m.keyField) := by
  cases h with
  | bootstrap hm he => exact (rowElement_ok he).2.2
  | change hm hfind hop hitem hchange =>
    obtain ⟨op, item, hop', hitem', -, hid, -⟩ := extractDrasiChange_some hfind hchange
    obtain rfl := Option.some.inj (hop.symm.trans hop')
    obtain rfl := Option.some.inj (hitem.symm.trans hitem')
    exact hid

theorem ids_eq_iff (h : Identifies metadata m o id) (h' : Identifies metadata m' o' id') : id = id' ↔ Confused m o m' o' := by
  rw [h.id_eq, h'.id_eq, ← String.toList_inj, toList_nodeId, toList_nodeId]
  exact joined_eq_iff

/-- **Two rows** of any tables of one database have different ids, in the bootstrap and in changes, exactly when they are not
confused. -/
theorem ids_differ_iff (h : Identifies metadata m o id) (h' : Identifies metadata m' o' id') :
    id ≠ id' ↔ ¬Confused m o m' o' := not_congr (ids_eq_iff h h')

/-- rows of one table: their ids differ exactly when the first key columns do, up to dots and colons -/
theorem ids_differ_in_table (h : Identifies metadata m o id) (h' : Identifies metadata m o' id') :
    id ≠ id' ↔ keyChars m o ≠ keyChars m o' := by
  refine not_congr ((ids_eq_iff h h').trans ?_)
  have hlen : ∀ piece, idChars m.tableName ≠ idChars m.tableName ++ ':' :: piece := fun piece heq => by
    have hsum := congrArg List.length heq
    rw [List.length_append, List.length_cons] at hsum
    omega
  refine ⟨?_, ?_⟩
  · rintro (⟨-, hkey⟩ | ⟨piece, hname, -⟩ | ⟨piece, hname, -⟩)
    · exact hkey
    · exact absurd hname (hlen piece)
    · exact absurd hname (hlen piece)
  · exact fun hkey => Or.inl ⟨rfl, hkey⟩

/-- keys without dots and colons: the ids differ whenever the names of the tables or the keys do -/
theorem ids_differ_of_unsplit (h : Identifies metadata m o id) (h' : Identifies metadata m' o' id') (hkey : ':' ∉ keyChars m o)
    (hkey' : ':' ∉ keyChars m' o') :
    id ≠ id' ↔ idChars m.tableName ≠ idChars m'.tableName ∨ keyChars m o ≠ keyChars m' o' := by
  rw [← not_and_or]
  refine not_congr ((ids_eq_iff h h').trans ⟨?_, Or.inl⟩)
  exact fun hconfused => append_cons_inj_of_notMem_right hkey hkey' (joined_eq_iff.2 hconfused)

end Ids

/-! ## Orders -/

/-- the lines of an order have a key of two columns, prices one of text -/
def orderKeys : DatabaseMetaData where
  getPrimaryKeys _ _ tableName :=
    if tableName = "line" then [⟨some "shop", some "public", "order_id"⟩, ⟨some "shop", some "public", "line_no"⟩]
    else [⟨some "shop", some "public", "sku"⟩]

def lineMapping : NodeMapping := ⟨"public.line", "order_id", ["line"]⟩

def priceMapping : NodeMapping := ⟨"public.price", "sku", ["price"]⟩

def lineRow (n : ℚ) : List Column := [⟨"order_id", .integer, some (.number 7)⟩, ⟨"line_no", .integer, some (.number n)⟩]

def lineElement (n : ℤ) : SourceElement :=
  ⟨sanitizeNodeId ("public.line" ++ ":" ++ "7"), [("order_id", .number (.ofInt 7)), ("line_no", .number (.ofInt n))], ["line"]⟩

/-- an insert of a price -/
def pricePayload (sku : String) : Payload where
  op := some "c"
  source := [("schema", .string "public"), ("table", .string "price")]
  before := none
  after := some [("sku", .string sku)]

def priceChange (sku : String) : SourceChange :=
  ⟨.insert, createNodeId "public.price" sku, some [("sku", .string sku)], ["price"]⟩

theorem lineElement_read : rowElement wholeJdbc lineMapping (lineRow 1) = .ok (some (lineElement 1)) ∧
    rowElement wholeJdbc lineMapping (lineRow 2) = .ok (some (lineElement 2)) := by
  constructor <;> rfl

/-- two lines of an order are confused -/
theorem lines_confused : Confused lineMapping (lineElement 1).properties lineMapping (lineElement 2).properties := by
  have hm : readMappingFromSchema orderKeys (some "public") "line" = .ok lineMapping := by decide
  exact not_not.1 fun hnot =>
    (ids_differ_iff (.bootstrap hm lineElement_read.1) (.bootstrap hm lineElement_read.2)).2 hnot rfl

/-- **Composite keys** keep their first column alone: the lines of an order have one id. The keys "1.5" and "1:5" of a column
of text have one as well. -/
theorem composite_keys_collide :
    readMappingFromSchema orderKeys (some "public") "line" = .ok lineMapping ∧
      rowElement wholeJdbc lineMapping (lineRow 1) = .ok (some (lineElement 1)) ∧
      rowElement wholeJdbc lineMapping (lineRow 2) = .ok (some (lineElement 2)) ∧
      (lineElement 1).properties ≠ (lineElement 2).properties ∧ (lineElement 1).id = (lineElement 2).id ∧
      getNodeMapping .postgreSql orderKeys (some "public") "price" = .ok priceMapping ∧
      extractDrasiChange .postgreSql [priceMapping] (pricePayload "1.5") = some (priceChange "1.5") ∧
      extractDrasiChange .postgreSql [priceMapping] (pricePayload "1:5") = some (priceChange "1:5") ∧
      (priceChange "1.5").id = (priceChange "1:5").id := by
  refine ⟨by decide, lineElement_read.1, lineElement_read.2, by decide, rfl, by decide, rfl, rfl, ?_⟩
  apply String.toList_injective
  simp [priceChange, createNodeId, sanitizeNodeId, String.toList_map]

end DrasiPlatform.Relational
