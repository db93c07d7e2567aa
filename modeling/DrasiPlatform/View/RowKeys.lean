/-
The keys of rows in the view store: `hash_values`, `hash_grouping_values` and `hash_value` of
`query-container/view-svc/src/mongo_view_store.rs`.

A row is fed to the hasher column by column: the name of the column with the terminator that `str::hash` writes, and the
bytes of its value, which have no tag of their kind and no length. Nothing marks where a string, an array or an object
ends, `null` and the booleans are the bytes 0, 2 and 1, and all numbers are 64-bit words.

A walk over a row with its brackets written out tells any two rows apart. `Separated` says of two rows that the first place
where their walks differ also separates the bytes.

- `hashValues_eq_walk`: the bytes are those of the walk, where the brackets have none.
- `separated_rows_differ`: separated rows are fed to the hasher as different byte sequences.
- `shares_its_bytes`: every row with a column has the bytes of another row with the same columns.
Witness: `signed_and_unsigned`, the numbers -1 and 2^64 - 1; `nullable_rows_differ`, rows of which one has `null`.
-/
import Mathlib.Tactic
import Mathlib.Data.List.Sort
import DrasiPlatform.Core.Json
import DrasiPlatform.View.MongoViewStore

namespace DrasiPlatform.View

open Json

/-! ## What the hasher is fed -/

/-- `s.as_bytes()` -/
def asBytes (s : String) : List UInt8 := s.toList.flatMap String.utf8EncodeChar

/-- `hasher.write_u64(w)`, the bytes in little-endian order -/
def writeU64 (w : UInt64) : List UInt8 := (List.range 8).map fun i => (w >>> (8 * i.toUInt64)).toUInt8

/-- `s.hash(hasher)` -/
def hashStr (s : String) : List UInt8 := asBytes s ++ [0xff]

namespace Number

def asI64 : Number → Option Int64
  | .posInt n => if n ≤ Int64.maxValue.toUInt64 then some n.toInt64 else none
  | .negInt n => some n
  | .float _ => none

def asU64 : Number → Option UInt64
  | .posInt n => some n
  | .negInt _ => none
  | .float _ => none

/-- the bits of `n.as_f64()`, which is asked of floats only -/
def asF64 : Number → Option UInt64
  | .float bits => some bits
  | .posInt _ | .negInt _ => none

/-- the 64 bits that are written of a number: as an `i64` if it is one, else as a `u64`, else as a float -/
def word (n : Number) : Option UInt64 := (asI64 n).map (·.toUInt64) <|> asU64 n <|> asF64 n

end Number

/-- entries in the order of their keys -/
def sortKeys {α : Type} (fields : List (String × α)) : List (String × α) :=
  fields.insertionSort fun f g => f.1 ≤ g.1

mutual

def hashValue : Value → List UInt8
  | .null => [0]
  | .bool b => [if b then 1 else 2]
  | .number n => (Number.word n).elim [] writeU64
  | .string s => asBytes s
  | .array a => hashArray a
  | .object o => (sortKeys (hashFields o)).flatMap fun f => asBytes f.1 ++ f.2

def hashArray : List Value → List UInt8
  | [] => []
  | v :: a => hashValue v ++ hashArray a

def hashFields : List (String × Value) → List (String × List UInt8)
  | [] => []
  | (k, v) :: o => (k, hashValue v) :: hashFields o

end

/-- what `hash_values` feeds to the hasher, the columns in the order of the map -/
def hashValues (values : Map) : List UInt8 := values.fields.flatMap fun f => hashStr f.1 ++ hashValue f.2

/-- what `hash_grouping_values` feeds to the hasher -/
def hashGroupingValues (values : Map) (groupingKeys : List String) : List UInt8 :=
  groupingKeys.flatMap fun key =>
    match values.fields.lookup key with
    | some value => hashStr key ++ hashValue value
    | none => []

/-- the hash functions of the view store, over a hash of byte sequences -/
def rowHashing {Hash : Type} (sipHash : List UInt8 → Hash) : Hashing Map Hash where
  hashValues values := sipHash (hashValues values)
  hashGroupingValues values groupingKeys := sipHash (hashGroupingValues values groupingKeys)

/-! ## Walks -/

/-- what a walk over a row comes by -/
inductive Token where
  | column (name : String)
  | key (name : String)
  | null
  | bool (b : Bool)
  | number (n : Number)
  | string (s : String)
  | arrayStart
  | arrayEnd
  | objectStart
  | objectEnd
deriving DecidableEq

namespace Token

def bytes : Token → List UInt8
  | .column name => hashStr name
  | .key name => asBytes name
  | .null => [0]
  | .bool b => [if b then 1 else 2]
  | .number n => (Number.word n).elim [] writeU64
  | .string s => asBytes s
  | .arrayStart | .arrayEnd | .objectStart | .objectEnd => []

/-- the end of an array or an object -/
def isEnd : Token → Bool
  | .arrayEnd | .objectEnd => true
  | _ => false

end Token

mutual

def walk : Value → List Token
  | .null => [.null]
  | .bool b => [.bool b]
  | .number n => [.number n]
  | .string s => [.string s]
  | .array a => .arrayStart :: walkArray a ++ [.arrayEnd]
  | .object o => .objectStart :: (sortKeys (walkFields o)).flatMap (fun f => .key f.1 :: f.2) ++ [.objectEnd]

def walkArray : List Value → List Token
  | [] => []
  | v :: a => walk v ++ walkArray a

def walkFields : List (String × Value) → List (String × List Token)
  | [] => []
  | (k, v) :: o => (k, walk v) :: walkFields o

end

def walkRow (values : Map) : List Token := values.fields.flatMap fun f => .column f.1 :: walk f.2

/-- the bytes of a walk -/
def feed (tokens : List Token) : List UInt8 := tokens.flatMap Token.bytes

@[simp] theorem feed_nil : feed [] = [] := rfl

@[simp] theorem feed_cons (t : Token) (tokens : List Token) : feed (t :: tokens) = t.bytes ++ feed tokens := rfl

@[simp] theorem feed_append (a b : List Token) : feed (a ++ b) = feed a ++ feed b := List.flatMap_append

theorem sortKeys_map {α β : Type} (f : α → β) (fields : List (String × α)) :
    sortKeys (fields.map fun p => (p.1, f p.2)) = (sortKeys fields).map fun p => (p.1, f p.2) := by
  refine (List.map_insertionSort (fun p q : String × α => p.1 ≤ q.1) (fun p q : String × β => p.1 ≤ q.1)
    (fun p => (p.1, f p.2)) fields ?_).symm
  exact fun _ _ _ _ => Iff.rfl

mutual

theorem hashValue_eq_walk (v : Value) : hashValue v = feed (walk v) := by
  cases v with
  | null => rfl
  | bool b => exact (List.append_nil _).symm
  | number n => exact (List.append_nil _).symm
  | string s => exact (List.append_nil _).symm
  | array a => simp [hashValue, walk, hashArray_eq_walk a, Token.bytes]
  | object o =>
    rw [hashValue, hashFields_eq_walk o, sortKeys_map, walk, List.flatMap_map]
    simp [feed, Token.bytes, List.flatMap_assoc]

theorem hashArray_eq_walk (a : List Value) : hashArray a = feed (walkArray a) := by
  cases a with
  | nil => rfl
  | cons v a => rw [hashArray, walkArray, feed_append, hashValue_eq_walk v, hashArray_eq_walk a]

theorem hashFields_eq_walk (o : List (String × Value)) :
    hashFields o = (walkFields o).map fun f => (f.1, feed f.2) := by
  match o with
  | [] => rfl
  | (k, v) :: o => rw [hashFields, walkFields, List.map_cons, hashValue_eq_walk v, hashFields_eq_walk o]

end

theorem hashValues_eq_walk (values : Map) : hashValues values = feed (walkRow values) := by
  simp [hashValues, walkRow, feed, List.flatMap_assoc, hashValue_eq_walk, Token.bytes]

/-! ## Bytes of strings -/

theorem not_mem_utf8EncodeChar (c : Char) : (0xff : UInt8) ∉ String.utf8EncodeChar c := by
  have hne : ∀ n : ℕ, n < 255 → (0xff : UInt8) ≠ UInt8.ofNat n := by
    intro n hn h
    have hnat := congrArg UInt8.toNat h
    simp only [UInt8.toNat_ofNat'] at hnat
    change 255 = n % 256 at hnat
    omega
  have hv : c.val.toNat < 0x110000 := by
    rcases c.valid with h | h <;> omega
  unfold String.utf8EncodeChar
  intro hmem
  dsimp only at hmem
  split_ifs at hmem <;> simp only [List.mem_cons, List.not_mem_nil, or_false] at hmem
  · exact hne _ (by omega) hmem
  · rcases hmem with h | h
    · exact hne _ (by omega) h
    · exact hne _ (by omega) h
  · rcases hmem with h | h | h
    · exact hne _ (by omega) h
    · exact hne _ (by omega) h
    · exact hne _ (by omega) h
  · rcases hmem with h | h | h | h
    · exact hne _ (by omega) h
    · exact hne _ (by omega) h
    · exact hne _ (by omega) h
    · exact hne _ (by omega) h

/-- the byte that ends the name of a column is in no string -/
theorem not_mem_asBytes (s : String) : (0xff : UInt8) ∉ asBytes s := by
  rw [asBytes, List.mem_flatMap]
  rintro ⟨c, -, hc⟩
  exact not_mem_utf8EncodeChar c hc

theorem asBytes_injective : Function.Injective asBytes := by
  intro s t h
  have hbytes : s.toList.utf8Encode = t.toList.utf8Encode := congrArg List.toByteArray h
  rwa [String.utf8Encode_toList, String.utf8Encode_toList, String.toByteArray_inj] at hbytes

/-! ## Separated rows -/

/-- neither begins with the other -/
def Apart (a b : List UInt8) : Prop := ¬a <+: b ∧ ¬b <+: a

/-- where a value ends, the column that comes next, if there is one -/
def EndsAt (next : Option String) (tokens : List Token) : Prop :=
  (tokens.dropWhile Token.isEnd).head? = next.map .column

/-- two tokens that are told apart by the bytes: neither's bytes begin with the other's, or they are two strings that end
their columns, and the same column comes next -/
def Visible (a : Token) (rest : List Token) (b : Token) (rest' : List Token) : Prop :=
  Apart a.bytes b.bytes ∨
    ∃ s t next, s ≠ t ∧ a = .string s ∧ b = .string t ∧ EndsAt next rest ∧ EndsAt next rest'

/-- the first place where the walks differ is visible in the bytes -/
def Separated (r r' : Map) : Prop :=
  ∃ before a rest b rest', walkRow r = before ++ a :: rest ∧ walkRow r' = before ++ b :: rest' ∧ Visible a rest b rest'

theorem Apart.append_ne {a b : List UInt8} (h : Apart a b) (x y : List UInt8) : a ++ x ≠ b ++ y := by
  intro heq
  rcases List.prefix_or_prefix_of_prefix (List.prefix_append a x) (heq ▸ List.prefix_append b y) with hab | hba
  · exact h.1 hab
  · exact h.2 hba

theorem feed_dropWhile (tokens : List Token) : feed (tokens.dropWhile Token.isEnd) = feed tokens := by
  induction tokens with
  | nil => rfl
  | cons t tokens ih =>
    by_cases ht : t.isEnd = true
    · rw [List.dropWhile_cons_of_pos ht, ih, feed_cons]
      cases t <;> first | rfl | cases ht
    · rw [List.dropWhile_cons_of_neg ht]

/-- what is written after a value: nothing, or the name of the next column and its terminator -/
theorem EndsAt.feed {next : Option String} {tokens : List Token} (h : EndsAt next tokens) :
    (next = none ∧ feed tokens = []) ∨ ∃ name rest, next = some name ∧ feed tokens = asBytes name ++ 0xff :: rest := by
  rw [← feed_dropWhile]
  unfold EndsAt at h
  cases next with
  | none =>
    left
    rw [Option.map_none, List.head?_eq_none_iff] at h
    exact ⟨rfl, by rw [h]; rfl⟩
  | some name =>
    right
    obtain ⟨rest, hrest⟩ := List.head?_eq_some_iff.1 h
    refine ⟨name, View.feed rest, rfl, ?_⟩
    rw [hrest, feed_cons]
    simp [Token.bytes, hashStr]

/-- what stands before the first terminator is determined -/
theorem eq_of_append_terminator {a b x y : List UInt8} (ha : 0xff ∉ a) (hb : 0xff ∉ b)
    (h : a ++ 0xff :: x = b ++ 0xff :: y) : a = b := by
  induction a generalizing b with
  | nil =>
    cases b with
    | nil => rfl
    | cons c b =>
      cases h
      exact absurd List.mem_cons_self hb
  | cons c a ih =>
    cases b with
    | nil =>
      cases h
      exact absurd List.mem_cons_self ha
    | cons d b =>
      obtain ⟨rfl, hrest⟩ := List.cons.inj h
      rw [ih (fun hm => ha (List.mem_cons_of_mem _ hm)) (fun hm => hb (List.mem_cons_of_mem _ hm)) hrest]

theorem Visible.feed_ne {a b : Token} {rest rest' : List Token} (h : Visible a rest b rest') :
    feed (a :: rest) ≠ feed (b :: rest') := by
  rw [feed_cons, feed_cons]
  rcases h with hapart | ⟨s, t, next, hne, rfl, rfl, hrest, hrest'⟩
  · exact hapart.append_ne _ _
  · intro heq
    have hst : asBytes s = asBytes t := by
      rcases hrest.feed with ⟨rfl, hnil⟩ | ⟨name, x, rfl, hx⟩
      · rcases hrest'.feed with ⟨-, hnil'⟩ | ⟨_, _, hsome, -⟩
        · simpa [Token.bytes, hnil, hnil'] using heq
        · cases hsome
      · rcases hrest'.feed with ⟨hnone, -⟩ | ⟨name', y, hname, hy⟩
        · cases hnone
        · obtain rfl := Option.some.inj hname
          rw [hx, hy, ← List.append_assoc, ← List.append_assoc] at heq
          have hno : ∀ u : String, (0xff : UInt8) ∉ asBytes u ++ asBytes name := by
            intro u hm
            rcases List.mem_append.1 hm with hm | hm
            · exact not_mem_asBytes u hm
            · exact not_mem_asBytes name hm
          exact List.append_cancel_right (eq_of_append_terminator (hno s) (hno t) heq)
    exact hne (asBytes_injective hst)

theorem Separated.bytes_ne {r r' : Map} (h : Separated r r') : hashValues r ≠ hashValues r' := by
  obtain ⟨before, a, rest, b, rest', hr, hr', hvisible⟩ := h
  rw [hashValues_eq_walk, hashValues_eq_walk, hr, hr', feed_append, feed_append]
  exact fun heq => hvisible.feed_ne (List.append_cancel_left heq)

/-- **Separated rows have different bytes.** They share a key of the store only when the hash collides. -/
theorem separated_rows_differ {Hash : Type} (sipHash : List UInt8 → Hash) {r r' : Map} (h : Separated r r') :
    hashValues r ≠ hashValues r' ∧
      ((rowHashing sipHash).hashValues r = (rowHashing sipHash).hashValues r' →
        ∃ x y, x ≠ y ∧ sipHash x = sipHash y) :=
  ⟨h.bytes_ne, fun hkey => ⟨hashValues r, hashValues r', h.bytes_ne, hkey⟩⟩

/-- a row of a name and a number, which may be `null` -/
def namedRow (n : Value) : Map := ⟨[("name", .string "a"), ("n", n)], by simp⟩

/-- `null` and the number 7 are told apart by their first byte -/
theorem nullable_rows_differ : hashValues (namedRow .null) ≠ hashValues (namedRow (.number (.posInt 7))) :=
  (separated_rows_differ id ⟨[.column "name", .string "a", .column "n"], .null, [], .number (.posInt 7), [], rfl, rfl,
    Or.inl ⟨by decide, by decide⟩⟩).1

/-- the number -1 is written as the word of the number 2^64 - 1 -/
theorem signed_and_unsigned :
    ¬∀ r r' : Map, (r.fields.map Prod.fst).Perm (r'.fields.map Prod.fst) → r ≠ r' → hashValues r ≠ hashValues r' := by
  intro h
  have hword : Number.word (.negInt (-1)) = Number.word (.posInt 18446744073709551615) := by decide
  refine h (namedRow (.number (.negInt (-1)))) (namedRow (.number (.posInt 18446744073709551615)))
    (List.Perm.refl _) ?_ ?_
  · simp [namedRow]
  · simp [hashValues, namedRow, hashValue, hword]

/-! ## Rows that share their bytes -/

/-- a value and the array of it have the same bytes -/
theorem hashValue_singleton (v : Value) : hashValue (.array [v]) = hashValue v := by
  simp [hashValue, hashArray]

theorem ne_singleton (v : Value) : v ≠ .array [v] := by
  intro h
  have hsize := congrArg sizeOf h
  simp at hsize
  omega

/-- **Every row with a column shares its bytes with another row of the same columns.** -/
theorem shares_its_bytes (r : Map) (hr : r.fields ≠ []) :
    ∃ r' : Map, r'.fields.map Prod.fst = r.fields.map Prod.fst ∧ r' ≠ r ∧ hashValues r' = hashValues r := by
  obtain ⟨fields, hnodup⟩ := r
  cases fields with
  | nil => exact absurd rfl hr
  | cons f fields =>
    obtain ⟨k, v⟩ := f
    refine ⟨⟨(k, .array [v]) :: fields, hnodup⟩, rfl, ?_, ?_⟩
    · intro h
      injection h with h
      injection h with h
      injection h with _ h
      exact ne_singleton v h.symm
    · simp [hashValues, hashValue_singleton]

end DrasiPlatform.View
