/-
JSON values as `serde_json::Value` holds them, with the accessors the services use: indexing by a key (`v["key"]`, which
answers `null` where there is nothing), `as_str`, `as_array`, `as_u64`, comparison with a string literal and assignment to
an index (`v["a"]["b"] = x`, which makes the missing objects and panics on anything else).
-/
import Mathlib.Tactic

namespace DrasiPlatform.Json

/-- `serde_json::Number`: a non-negative integer, a negative integer or a float (by its bits) -/
inductive Number where
  | posInt (n : UInt64)
  | negInt (n : Int64)
  | float (bits : UInt64)
deriving DecidableEq, Repr

/-- `serde_json::Value`; an object is the list of its fields -/
inductive Value where
  | null
  | bool (b : Bool)
  | number (n : Number)
  | string (s : String)
  | array (a : List Value)
  | object (o : List (String × Value))
deriving Repr

/-- an option, serialised as nothing or as its value -/
def optionJson {α : Type} (json : α → Value) : Option α → Value
  | none => .null
  | some x => json x

theorem optionJson_injective {α : Type} {json : α → Value} (hjson : Function.Injective json) (hnull : ∀ x, json x ≠ .null) :
    Function.Injective (optionJson json) := by
  intro a b h
  cases a with
  | none =>
    cases b with
    | none => rfl
    | some b => exact absurd h.symm (hnull b)
  | some a =>
    cases b with
    | none => exact absurd h (hnull a)
    | some b => exact congrArg some (hjson h)

namespace Value

/-- `v[key]` -/
def get (v : Value) (key : String) : Value :=
  match v with
  | .object o => (o.lookup key).getD .null
  | _ => .null

def asStr : Value → Option String
  | .string s => some s
  | _ => none

def asArray : Value → Option (List Value)
  | .array a => some a
  | _ => none

def asU64 : Value → Option UInt64
  | .number (.posInt n) => some n
  | _ => none

/-- `v == "text"` -/
def eqStr (v : Value) (text : String) : Bool := v.asStr == some text

/-- `labels.iter().map(|label| label.as_str().unwrap_or("")).collect()` over `v.as_array()` -/
def labels (v : Value) : Option (List String) := v.asArray.map fun a => a.map fun l => l.asStr.getD ""

/-- a JSON array of strings -/
def ofStrings (l : List String) : Value := .array (l.map .string)

@[simp] theorem labels_ofStrings (l : List String) : (ofStrings l).labels = some l := by
  simp [ofStrings, labels, asArray, asStr, Function.comp_def]

/-- the number of an `i64` -/
def ofInt64 (n : Int64) : Value := .number (if 0 ≤ n then .posInt n.toUInt64 else .negInt n)

/-! ### Assignment -/

def setField (key : String) (x : Value) : List (String × Value) → List (String × Value)
  | [] => [(key, x)]
  | (k, v) :: fields => if key = k then (k, x) :: fields else (k, v) :: setField key x fields

/-- `v[key] = x`; `none` where it panics -/
def set (v : Value) (key : String) (x : Value) : Option Value :=
  match v with
  | .null => some (.object [(key, x)])
  | .object fields => some (.object (setField key x fields))
  | _ => none

/-- `v[k₁]..[kₙ][key] = x` for the keys of the path -/
def setAt (v : Value) : List String → String → Value → Option Value
  | [], key, x => v.set key x
  | k :: path, key, x => ((v.get k).setAt path key x).bind (v.set k)

def isIndexable : Value → Bool
  | .null => true
  | .object _ => true
  | _ => false

/-- along the path there is nothing but objects, or nothing -/
def indexableAt (v : Value) : List String → Bool
  | [] => v.isIndexable
  | k :: path => v.isIndexable && (v.get k).indexableAt path

theorem lookup_field (key k : String) (x : Value) (fields : List (String × Value)) :
    ((key, x) :: fields).lookup k = if k = key then some x else fields.lookup k := by
  by_cases h : k = key
  · rw [h, List.lookup_cons_self, if_pos rfl]
  · rw [List.lookup_cons, beq_eq_false_iff_ne.2 h, if_neg h]

theorem lookup_setField (key k : String) (x : Value) (fields : List (String × Value)) :
    (setField key x fields).lookup k = if k = key then some x else fields.lookup k := by
  induction fields with
  | nil => exact lookup_field key k x []
  | cons field fields ih =>
    rcases field with ⟨k', v⟩
    rw [setField]
    split
    · rename_i hkey
      rw [lookup_field, lookup_field, hkey]
      split <;> rfl
    · rename_i hkey
      rw [lookup_field, ih, lookup_field]
      split
      · rename_i hk
        rw [if_neg fun h => hkey (h.symm.trans hk)]
      · rfl

theorem get_set {v v' x : Value} {key : String} (h : v.set key x = some v') (k : String) :
    v'.get k = if k = key then x else v.get k := by
  cases v with
  | null =>
    obtain rfl := Option.some.inj h
    rw [get, lookup_field]
    split <;> rfl
  | object fields =>
    obtain rfl := Option.some.inj h
    rw [get, lookup_setField]
    split <;> rfl
  | _ => cases h

theorem isIndexable_of_set {v v' x : Value} {key : String} (h : v.set key x = some v') : v'.isIndexable = true := by
  cases v with
  | null =>
    obtain rfl := Option.some.inj h
    rfl
  | object fields =>
    obtain rfl := Option.some.inj h
    rfl
  | _ => cases h

theorem exists_set {v : Value} (h : v.isIndexable = true) (key : String) (x : Value) : ∃ v', v.set key x = some v' := by
  cases v with
  | null => exact ⟨_, rfl⟩
  | object fields => exact ⟨_, rfl⟩
  | _ => cases h

theorem indexableAt_isIndexable {v : Value} {path : List String} (h : v.indexableAt path = true) : v.isIndexable = true := by
  cases path with
  | nil => exact h
  | cons k path => exact (Bool.and_eq_true_iff.1 h).1

theorem indexableAt_get_isIndexable {v : Value} {k : String} {path : List String} (h : v.indexableAt (k :: path) = true) :
    (v.get k).isIndexable = true := indexableAt_isIndexable (Bool.and_eq_true_iff.1 h).2

/-- an assignment along a path of objects succeeds, and keeps the path -/
theorem exists_setAt {v : Value} {path : List String} (h : v.indexableAt path = true) (key : String) (x : Value) :
    ∃ v', v.setAt path key x = some v' ∧ v'.indexableAt path = true := by
  induction path generalizing v with
  | nil =>
    obtain ⟨v', hv'⟩ := exists_set h key x
    exact ⟨v', hv', isIndexable_of_set hv'⟩
  | cons k path ih =>
    obtain ⟨hv, hchild⟩ := Bool.and_eq_true_iff.1 h
    obtain ⟨child, hset, hpath⟩ := ih hchild
    obtain ⟨v', hv'⟩ := exists_set hv k child
    refine ⟨v', by rw [setAt, hset, Option.bind_some, hv'], ?_⟩
    rw [indexableAt, isIndexable_of_set hv', get_set hv', if_pos rfl, hpath]
    rfl

/-- an assignment below one key leaves the other keys -/
theorem get_setAt_of_ne {v v' x : Value} {k key : String} {path : List String} (h : v.setAt (k :: path) key x = some v')
    {k' : String} (hne : k' ≠ k) : v'.get k' = v.get k' := by
  obtain ⟨child, -, hset⟩ := Option.bind_eq_some_iff.1 h
  rw [get_set hset, if_neg hne]

theorem indexableAt_set_of_ne {v v' x : Value} {k key : String} {path : List String} (h : v.set key x = some v')
    (hne : k ≠ key) (hv : v.indexableAt (k :: path) = true) : v'.indexableAt (k :: path) = true := by
  rw [indexableAt, isIndexable_of_set h, get_set h, if_neg hne]
  exact (Bool.and_eq_true_iff.1 hv).2

theorem setField_of_notMem {key : String} (x : Value) {fields : List (String × Value)} (h : key ∉ fields.map Prod.fst) :
    setField key x fields = fields ++ [(key, x)] := by
  induction fields with
  | nil => rfl
  | cons field fields ih =>
    rcases field with ⟨k, v⟩
    rw [List.map_cons, List.mem_cons, not_or] at h
    rw [setField, if_neg h.1, ih h.2, List.cons_append]

theorem keys_setField (key : String) (x : Value) (fields : List (String × Value)) :
    (setField key x fields).map Prod.fst =
      if key ∈ fields.map Prod.fst then fields.map Prod.fst else fields.map Prod.fst ++ [key] := by
  split
  · rename_i h
    induction fields with
    | nil => cases h
    | cons field fields ih =>
      rcases field with ⟨k, v⟩
      rw [setField]
      split
      · rfl
      · rename_i hne
        have hmem : key ∈ fields.map Prod.fst := (List.mem_cons.1 h).resolve_left hne
        rw [List.map_cons, ih hmem, List.map_cons]
  · rename_i h
    rw [setField_of_notMem x h, List.map_append, List.map_singleton]

/-! ### Records -/

/-- an object that names no key twice -/
def IsRecord (v : Value) : Prop := ∃ fields, v = .object fields ∧ (fields.map Prod.fst).Nodup

theorem nodup_setField {key : String} {x : Value} {fields : List (String × Value)} (h : (fields.map Prod.fst).Nodup) :
    ((setField key x fields).map Prod.fst).Nodup := by
  rw [keys_setField]
  split
  · exact h
  · rename_i hkey
    refine List.nodup_append.2 ⟨h, List.nodup_singleton key, fun a ha b hb => ?_⟩
    rw [List.mem_singleton.1 hb]
    exact fun hab => hkey (hab ▸ ha)

theorem IsRecord.set {v v' x : Value} {key : String} (h : v.IsRecord) (hset : v.set key x = some v') : v'.IsRecord := by
  obtain ⟨fields, rfl, hnodup⟩ := h
  obtain rfl := Option.some.inj hset
  exact ⟨_, rfl, nodup_setField hnodup⟩

theorem IsRecord.setAt {v v' x : Value} {path : List String} {key : String} (h : v.IsRecord)
    (hset : v.setAt path key x = some v') : v'.IsRecord := by
  cases path with
  | nil => exact h.set hset
  | cons k path =>
    obtain ⟨child, -, hset'⟩ := Option.bind_eq_some_iff.1 hset
    exact h.set hset'

end Value

/-! ### Maps -/

/-- `serde_json::Map`: every key has one value -/
structure Map where
  fields : List (String × Value)
  nodup : (fields.map Prod.fst).Nodup

namespace Map

def empty : Map := ⟨[], List.nodup_nil⟩

def insert (m : Map) (key : String) (x : Value) : Map where
  fields := Value.setField key x m.fields
  nodup := Value.nodup_setField m.nodup

/-- the entries of a document, inserted one after the other -/
def ofFields (fields : List (String × Value)) : Map := fields.foldl (fun m field => m.insert field.1 field.2) empty

@[ext] theorem ext {m m' : Map} (h : m.fields = m'.fields) : m = m' := by
  cases m
  cases m'
  cases h
  rfl

theorem fields_foldl_insert (m : Map) {fields : List (String × Value)}
    (h : ((m.fields ++ fields).map Prod.fst).Nodup) :
    (fields.foldl (fun m field => m.insert field.1 field.2) m).fields = m.fields ++ fields := by
  induction fields generalizing m with
  | nil => simp
  | cons field fields ih =>
    have hfresh : field.1 ∉ m.fields.map Prod.fst := by
      rw [List.map_append, List.map_cons, List.nodup_append] at h
      intro hmem
      exact h.2.2 _ hmem _ List.mem_cons_self rfl
    have hinsert : (m.insert field.1 field.2).fields = m.fields ++ [field] := Value.setField_of_notMem field.2 hfresh
    have hnodup : (((m.insert field.1 field.2).fields ++ fields).map Prod.fst).Nodup := by
      rw [hinsert, List.append_assoc]
      exact h
    rw [List.foldl_cons, ih _ hnodup, hinsert, List.append_assoc]
    rfl

/-- the entries of a map make the map again -/
theorem ofFields_fields (m : Map) : ofFields m.fields = m :=
  ext (fields_foldl_insert empty m.nodup)

end Map

end DrasiPlatform.Json
