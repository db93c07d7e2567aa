/-
The position in the database's log that the relational reactivator makes a sequence number of (`extractLsn` of the three
strategies). The number is a signed long; the query host reads it as the unsigned `seq` of a change.

A `LogPosition` is where a change stands in the log: a byte of PostgreSQL's WAL, a file and a position of MySQL's binlog, the
three parts of an LSN of SQL Server. `Reports` says how Debezium writes it into the `source` of a record. `asLong` is
Jackson's, a parameter that reads every integer of 64 bits as itself.

- `extractLsn_of_reports`: what is extracted is the packed position.
- `extractLsn_ordered_iff`: two changes keep their order, as sequence numbers that are not negative, exactly when the packed
  fields have room. SQL Server's offset of a block has 32 bits and gets 16, so that its high half is mixed into the number of
  the virtual log file; the highest bit of every position is the sign.
Witness `block_offsets_reorder`: two blocks of one virtual log file that come out in the wrong order, and a binlog file whose
positions are all negative.
-/
import Mathlib.Tactic
import Mathlib.Data.List.DropRight
import DrasiPlatform.Core.Digits
import DrasiPlatform.Core.Json
import DrasiPlatform.Sources.ChangeConsumer

namespace DrasiPlatform.Relational

open DrasiPlatform.Digits

/-! ## The strategies -/

inductive ExtractException where
  | nullPointer
  | numberFormat (s : String)
deriving DecidableEq, Repr

/-- `String.split(":")`, which leaves the empty strings at the end out -/
def splitColons (s : List Char) : List (List Char) := (s.splitOn ':').rdropWhile List.isEmpty

/-- `Long.parseLong`, which throws -/
def parseLongOrThrow (s : List Char) (radix : ℕ) : Except ExtractException Int64 :=
  match parseLong s radix with
  | some n => .ok n
  | none => .error (.numberFormat (String.ofList s))

/-- `extractLsn` of `SqlServer` -/
def extractLsnSqlServer (source : ObjectNode) : Except ExtractException Int64 :=
  match source.lookup "change_lsn" with
  | none => .error .nullPointer
  | some node =>
    let lsn := node.asText.toList
    if lsn.isEmpty then .ok 0
    else match splitColons lsn with
      | [vlf, block, slot] => do
        let vlfSeqNo ← parseLongOrThrow vlf 16
        let logBlockOffset ← parseLongOrThrow block 16
        let slotNo ← parseLongOrThrow slot 16
        return (vlfSeqNo <<< 32) ||| (logBlockOffset <<< 16) ||| slotNo
      | _ => .ok 0

/-- `path(name).asText("")`, which is empty for null as well -/
def pathTextOrEmpty (o : ObjectNode) (name : String) : String :=
  match o.lookup name with
  | none | some .null => ""
  | some node => node.asText

section Extract

variable (asLong : JsonNode → Int64)

/-- `extractLsn` of `MySql` -/
def extractLsnMySql (source : ObjectNode) : Int64 :=
  let position := (source.lookup "pos").elim 0 asLong
  let binlogFile := (pathTextOrEmpty source "file").toList
  -- the text after the last dot, the whole name where there is none
  let fileNumber := if binlogFile.isEmpty then 0 else (parseLong (binlogFile.rtakeWhile (· ≠ '.')) 10).getD 0
  (fileNumber <<< 44) ||| position

/-- `extractLsn` of `PostgreSql` -/
def extractLsnPostgreSql (source : ObjectNode) : Except ExtractException Int64 :=
  match source.lookup "lsn" with
  | none => .error .nullPointer
  | some node => .ok (asLong node)

def extractLsn (connector : Connector) (source : ObjectNode) : Except ExtractException Int64 :=
  match connector with
  | .postgreSql => extractLsnPostgreSql asLong source
  | .mySql => .ok (extractLsnMySql asLong source)
  | .sqlServer => extractLsnSqlServer source

end Extract

/-! ## Positions in a log -/

inductive LogPosition where
  | wal (lsn : ℕ) (hlsn : lsn < 2 ^ 64)
  | binlog (fileNumber position : ℕ) (hfile : fileNumber < 10 ^ 6) (hposition : position < 2 ^ 44)
  | lsn (vlfSeqNo logBlockOffset slotNo : ℕ) (hvlf : vlfSeqNo < 2 ^ 32) (hblock : logBlockOffset < 2 ^ 32)
    (hslot : slotNo < 2 ^ 16)

namespace LogPosition

def connector : LogPosition → Connector
  | wal .. => .postgreSql
  | binlog .. => .mySql
  | lsn .. => .sqlServer

/-- the order of one log -/
def Precedes : LogPosition → LogPosition → Prop
  | wal l _, wal l' _ => l < l'
  | binlog f p _ _, binlog f' p' _ _ => f < f' ∨ f = f' ∧ p < p'
  | lsn v b s _ _ _, lsn v' b' s' _ _ _ => v < v' ∨ v = v' ∧ (b < b' ∨ b = b' ∧ s < s')
  | _, _ => False

/-- how Debezium writes a position: PostgreSQL's as a signed long, the file of MySQL's with the digits of its number after a
dot, the parts of SQL Server's as hexadecimal digits between colons -/
def Reports (source : ObjectNode) : LogPosition → Prop
  | wal l _ => source.lookup "lsn" = some (.number (.ofInt (Int64.ofNat l).toInt))
  | binlog f p _ _ =>
    source.lookup "pos" = some (.number (.ofInt p)) ∧
      ∃ file base width, source.lookup "file" = some (.string file) ∧ 0 < width ∧ f < 10 ^ width ∧
        file.toList = base ++ '.' :: digits 10 width f
  | lsn v b s _ _ _ =>
    ∃ text, source.lookup "change_lsn" = some (.string text) ∧
      text.toList = digits 16 8 v ++ ':' :: (digits 16 8 b ++ ':' :: digits 16 4 s)

/-- the number that the shifts and ors of the strategy make of a position -/
def packed : LogPosition → ℕ
  | wal l _ => l
  | binlog f p _ _ => f <<< 44 ||| p
  | lsn v b s _ _ _ => v <<< 32 ||| b <<< 16 ||| s

/-- the first of two positions is before the second in the packed fields, and the second leaves the sign bit clear: a WAL
below 2^63 bytes, binlog files below number 2^19, virtual log files below number 2^31 -/
def HasRoom : LogPosition → LogPosition → Prop
  | wal .., wal l' _ => l' < 2 ^ 63
  | binlog .., binlog f' _ _ _ => f' < 2 ^ 19
  | lsn v b s _ _ _, lsn v' b' s' _ _ _ =>
    v' < 2 ^ 31 ∧
      -- the high half of a block's offset lies over the low half of the file's number
      ((v ||| b / 2 ^ 16) < (v' ||| b' / 2 ^ 16) ∨
        (v ||| b / 2 ^ 16) = (v' ||| b' / 2 ^ 16) ∧ (b % 2 ^ 16 < b' % 2 ^ 16 ∨ b % 2 ^ 16 = b' % 2 ^ 16 ∧ s < s'))
  | _, _ => False

end LogPosition

/-! ## What is extracted -/

theorem ofNat_or (a b : ℕ) : Int64.ofNat a ||| Int64.ofNat b = Int64.ofNat (a ||| b) := by
  apply Int64.toBitVec_inj.1
  rw [Int64.toBitVec_or]
  apply BitVec.eq_of_toNat_eq
  simp

theorem ofNat_shiftLeft {bits : ℕ} {shift : Int64} (hbits : (shift.toBitVec.smod 64).toNat = bits) (a : ℕ) :
    Int64.ofNat a <<< shift = Int64.ofNat (a <<< bits) := by
  apply Int64.toBitVec_inj.1
  rw [Int64.toBitVec_shiftLeft, BitVec.shiftLeft_eq', hbits]
  apply BitVec.eq_of_toNat_eq
  simp [Nat.shiftLeft_eq, Nat.mod_mul_mod]

theorem nonneg_ofNat_iff {n : ℕ} (hn : n < 2 ^ 64) : 0 ≤ Int64.ofNat n ↔ n < 2 ^ 63 := by
  rw [Int64.le_iff_toInt_le, Int64.toInt_ofNat', Int64.toInt_zero, Int.bmod_def]
  simp only [Int64.size]
  omega

/-- `asLong` reads the integers that a long can hold as themselves -/
def ReadsIntegers (asLong : JsonNode → Int64) : Prop := ∀ n : Int64, asLong (.number (.ofInt n.toInt)) = n

theorem splitColons_three {a b c : List Char} (ha : ':' ∉ a) (hb : ':' ∉ b) (hc : ':' ∉ c) (hne : c ≠ []) :
    splitColons (a ++ ':' :: (b ++ ':' :: c)) = [a, b, c] := by
  unfold splitColons
  rw [List.splitOn_append_cons_self_of_not_mem ha, List.splitOn_append_cons_self_of_not_mem hb,
    List.splitOn_eq_singleton hc, List.rdropWhile_eq_self_iff]
  intro _
  simpa using hne

theorem rtakeWhile_dot {base : List Char} {number : List Char} (hnumber : '.' ∉ number) :
    (base ++ '.' :: number).rtakeWhile (· ≠ '.') = number := by
  have hmem : ∀ c ∈ number.reverse, decide (c ≠ '.') = true := fun c hc =>
    decide_eq_true fun h => hnumber (h ▸ List.mem_reverse.1 hc)
  rw [List.rtakeWhile, List.reverse_append, List.reverse_cons, List.append_assoc, List.takeWhile_append_of_pos hmem]
  simp

section Reported

variable {asLong : JsonNode → Int64} {source : ObjectNode}

theorem extractLsnMySql_eq (hlong : ReadsIntegers asLong) {f p : ℕ} {hfile : f < 10 ^ 6} {hposition : p < 2 ^ 44}
    (h : LogPosition.Reports source (.binlog f p hfile hposition)) :
    extractLsnMySql asLong source = Int64.ofNat (f <<< 44 ||| p) := by
  obtain ⟨hpos, file, base, width, hlookup, hwidth, hdigits, hchars⟩ := h
  have hp : (Int64.ofNat p).toInt = p := Int64.toInt_ofNat_of_lt (by omega)
  have hposition : (source.lookup "pos").elim 0 asLong = Int64.ofNat p := by
    rw [hpos, ← hp]
    exact hlong _
  have hdot : '.' ∉ digits 10 width f := fun hmem => mem_digits (by decide) (by decide) hmem (by decide)
  have hnumber : parseLong (file.toList.rtakeWhile (· ≠ '.')) 10 = some (Int64.ofNat f) := by
    rw [hchars, rtakeWhile_dot hdot]
    exact parseLong_digits (by decide) (by decide) hwidth hdigits (by omega)
  have hne : file.toList.isEmpty = false := by rw [hchars]; simp
  have htext : pathTextOrEmpty source "file" = file := by
    rw [pathTextOrEmpty, hlookup]
    rfl
  have hshift : Int64.ofNat f <<< (44 : Int64) = Int64.ofNat (f <<< 44) := ofNat_shiftLeft rfl f
  unfold extractLsnMySql
  simp only [hposition, htext, hne, hnumber, Option.getD_some]
  rw [if_neg Bool.false_ne_true, hshift, ofNat_or]

theorem extractLsnSqlServer_eq {v b s : ℕ} {hvlf : v < 2 ^ 32} {hblock : b < 2 ^ 32} {hslot : s < 2 ^ 16}
    (h : LogPosition.Reports source (.lsn v b s hvlf hblock hslot)) :
    extractLsnSqlServer source = .ok (Int64.ofNat (v <<< 32 ||| b <<< 16 ||| s)) := by
  obtain ⟨text, hlookup, hchars⟩ := h
  have hread : ∀ width n, 0 < width → width ≤ 8 → n < 16 ^ width →
      parseLongOrThrow (digits 16 width n) 16 = .ok (Int64.ofNat n) := by
    intro width n hpos hle hn
    have hmax : 16 ^ width ≤ 16 ^ 8 := Nat.pow_le_pow_right (by decide) hle
    rw [parseLongOrThrow, parseLong_digits (by decide) (by decide) hpos hn (by omega)]
  have hcolon : ∀ width n, ':' ∉ digits 16 width n := fun width n hmem =>
    mem_digits (by decide) (by decide) hmem (by decide)
  have hne : digits 16 4 s ≠ [] := fun hnil => absurd (congrArg List.length hnil) (by simp)
  have hempty : text.toList.isEmpty = false := by rw [hchars]; simp
  have hparts : splitColons text.toList = [digits 16 8 v, digits 16 8 b, digits 16 4 s] := by
    rw [hchars]
    exact splitColons_three (hcolon 8 v) (hcolon 8 b) (hcolon 4 s) hne
  unfold extractLsnSqlServer
  simp only [hlookup, JsonNode.asText, hempty, hparts, hread 8 v (by decide) (by decide) (by omega),
    hread 8 b (by decide) (by decide) (by omega), hread 4 s (by decide) (by decide) (by omega)]
  have hvlfShift : Int64.ofNat v <<< (32 : Int64) = Int64.ofNat (v <<< 32) := ofNat_shiftLeft rfl v
  have hblockShift : Int64.ofNat b <<< (16 : Int64) = Int64.ofNat (b <<< 16) := ofNat_shiftLeft rfl b
  rw [← ofNat_or, ← ofNat_or, ← hvlfShift, ← hblockShift]
  rfl

/-- **What is extracted** from a record is the packed position, in 64 bits. -/
theorem extractLsn_of_reports (hlong : ReadsIntegers asLong) {p : LogPosition} (h : p.Reports source) :
    extractLsn asLong p.connector source = .ok (Int64.ofNat p.packed) := by
  cases p with
  | wal l hlsn =>
    have hnode : source.lookup "lsn" = some (.number (.ofInt (Int64.ofNat l).toInt)) := h
    show extractLsnPostgreSql asLong source = _
    rw [extractLsnPostgreSql, hnode]
    exact congrArg Except.ok (hlong _)
  | binlog f q hfile hposition => exact congrArg Except.ok (extractLsnMySql_eq hlong h)
  | lsn v b s hvlf hblock hslot => exact extractLsnSqlServer_eq h

end Reported

/-! ## The order -/

namespace LogPosition

theorem packed_binlog (f : ℕ) {p : ℕ} (hposition : p < 2 ^ 44) : f <<< 44 ||| p = f * 2 ^ 44 + p :=
  shiftLeft_or f hposition

/-- the high half of the block's offset and the number of the file share sixteen bits -/
theorem packed_lsn (v b : ℕ) {s : ℕ} (hslot : s < 2 ^ 16) :
    v <<< 32 ||| b <<< 16 ||| s = ((v ||| b / 2 ^ 16) * 2 ^ 16 + b % 2 ^ 16) * 2 ^ 16 + s := by
  have hv : v <<< 32 = (v <<< 16) <<< 16 := by rw [← Nat.shiftLeft_add]
  calc v <<< 32 ||| b <<< 16 ||| s = (v <<< 16 ||| b) <<< 16 ||| s := by rw [hv, ← Nat.shiftLeft_or_distrib]
    _ = (v <<< 16 ||| b) * 2 ^ 16 + s := shiftLeft_or _ hslot
    _ = _ := by rw [shiftLeft_or_overlap]

theorem vlf_or_lt_iff {v b bits : ℕ} (hbits : 16 ≤ bits) (hblock : b < 2 ^ 32) :
    (v ||| b / 2 ^ 16) < 2 ^ bits ↔ v < 2 ^ bits := by
  have hhigh : b / 2 ^ 16 < 2 ^ 16 := Nat.div_lt_of_lt_mul (by omega)
  have hpow : 2 ^ 16 ≤ 2 ^ bits := Nat.pow_le_pow_right (by decide) hbits
  refine ⟨?_, ?_⟩
  · exact fun h => Nat.left_le_or.trans_lt h
  · exact fun h => Nat.or_lt_two_pow h (hhigh.trans_le hpow)

theorem packed_lt (p : LogPosition) : p.packed < 2 ^ 64 := by
  cases p with
  | wal l hlsn => exact hlsn
  | binlog f q hfile hposition =>
    show f <<< 44 ||| q < 2 ^ 64
    rw [packed_binlog f hposition]
    omega
  | lsn v b s hvlf hblock hslot =>
    have hor : (v ||| b / 2 ^ 16) < 2 ^ 32 := (vlf_or_lt_iff (by decide) hblock).2 hvlf
    show v <<< 32 ||| b <<< 16 ||| s < 2 ^ 64
    rw [packed_lsn v b hslot]
    omega

/-- between two positions of one log, the packed numbers are in order and below the sign bit exactly when there is room -/
theorem packed_ordered_iff {p q : LogPosition} (h : Precedes p q) :
    p.packed < q.packed ∧ q.packed < 2 ^ 63 ↔ HasRoom p q := by
  cases p with
  | wal l hlsn =>
    cases q with
    | wal l' hlsn' => exact and_iff_right h
    | binlog => exact h.elim
    | lsn => exact h.elim
  | binlog f p hfile hposition =>
    cases q with
    | wal => exact h.elim
    | binlog f' p' hfile' hposition' =>
      show f <<< 44 ||| p < f' <<< 44 ||| p' ∧ f' <<< 44 ||| p' < 2 ^ 63 ↔ f' < 2 ^ 19
      rw [packed_binlog f hposition, packed_binlog f' hposition', packed_lt_iff hposition hposition']
      have hfiles : f < f' ∨ f = f' ∧ p < p' := h
      rw [and_iff_right hfiles]
      omega
    | lsn => exact h.elim
  | lsn v b s hvlf hblock hslot =>
    cases q with
    | wal => exact h.elim
    | binlog => exact h.elim
    | lsn v' b' s' hvlf' hblock' hslot' =>
      have hlow : ∀ n : ℕ, n % 2 ^ 16 < 2 ^ 16 := fun n => Nat.mod_lt n (Nat.two_pow_pos 16)
      have hsign : ((v' ||| b' / 2 ^ 16) * 2 ^ 16 + b' % 2 ^ 16) * 2 ^ 16 + s' < 2 ^ 63 ↔ v' < 2 ^ 31 := by
        have hvlf31 : (v' ||| b' / 2 ^ 16) < 2 ^ 31 ↔ v' < 2 ^ 31 := vlf_or_lt_iff (by decide) hblock'
        rw [← hvlf31]
        omega
      show v <<< 32 ||| b <<< 16 ||| s < v' <<< 32 ||| b' <<< 16 ||| s' ∧ v' <<< 32 ||| b' <<< 16 ||| s' < 2 ^ 63 ↔ _ ∧ _
      rw [packed_lsn v b hslot, packed_lsn v' b' hslot', hsign, packed_lt_iff hslot hslot', packed_lt_iff (hlow b) (hlow b'),
        and_comm]
      generalize (v ||| b / 2 ^ 16) = x, (v' ||| b' / 2 ^ 16) = x'
      omega

end LogPosition

/-- two sequence numbers in order, both accepted as the unsigned `seq` of a change -/
def OrderKept (e e' : Except ExtractException Int64) : Prop :=
  ∃ n n', e = .ok n ∧ e' = .ok n' ∧ n < n' ∧ 0 ≤ n ∧ 0 ≤ n' ∧
    (Json.Value.ofInt64 n).asU64.isSome ∧ (Json.Value.ofInt64 n').asU64.isSome

theorem isSome_asU64_ofInt64 {n : Int64} (hn : 0 ≤ n) : (Json.Value.ofInt64 n).asU64.isSome := by
  rw [Json.Value.ofInt64, if_pos hn]
  rfl

theorem orderKept_ofNat_iff {m n : ℕ} (hm : m < 2 ^ 64) (hn : n < 2 ^ 64) :
    OrderKept (.ok (Int64.ofNat m)) (.ok (Int64.ofNat n)) ↔ m < n ∧ n < 2 ^ 63 := by
  refine ⟨?_, ?_⟩
  · rintro ⟨i, j, hi, hj, hlt, hi0, hj0, -, -⟩
    obtain rfl := Except.ok.inj hi
    obtain rfl := Except.ok.inj hj
    have hm63 : m < 2 ^ 63 := (nonneg_ofNat_iff hm).1 hi0
    have hn63 : n < 2 ^ 63 := (nonneg_ofNat_iff hn).1 hj0
    exact ⟨(Int64.ofNat_lt_iff_lt hm63 hn63).1 hlt, hn63⟩
  · rintro ⟨hlt, hn63⟩
    have hm63 : m < 2 ^ 63 := hlt.trans hn63
    have hm0 : 0 ≤ Int64.ofNat m := (nonneg_ofNat_iff hm).2 hm63
    have hn0 : 0 ≤ Int64.ofNat n := (nonneg_ofNat_iff hn).2 hn63
    exact ⟨_, _, rfl, rfl, (Int64.ofNat_lt_iff_lt hm63 hn63).2 hlt, hm0, hn0, isSome_asU64_ofInt64 hm0,
      isSome_asU64_ofInt64 hn0⟩

/-- **The order of the log** is kept by the sequence numbers of two changes exactly when the packed fields of their positions
have room. -/
theorem extractLsn_ordered_iff {asLong : JsonNode → Int64} (hlong : ReadsIntegers asLong) {source source' : ObjectNode}
    {p q : LogPosition} (hp : p.Reports source) (hq : q.Reports source') (h : p.Precedes q) :
    OrderKept (extractLsn asLong p.connector source) (extractLsn asLong q.connector source') ↔ p.HasRoom q := by
  rw [extractLsn_of_reports hlong hp, extractLsn_of_reports hlong hq, orderKept_ofNat_iff p.packed_lt q.packed_lt]
  exact LogPosition.packed_ordered_iff h

/-- blocks whose offsets have sixteen bits have room, in virtual log files below number 2^31 -/
theorem hasRoom_of_narrow {v b s v' b' s' : ℕ} {hv : v < 2 ^ 32} {hb : b < 2 ^ 32} {hs : s < 2 ^ 16} {hv' : v' < 2 ^ 32}
    {hb' : b' < 2 ^ 32} {hs' : s' < 2 ^ 16} (hnarrow : b < 2 ^ 16) (hnarrow' : b' < 2 ^ 16) (hvlf : v' < 2 ^ 31)
    (h : LogPosition.Precedes (.lsn v b s hv hb hs) (.lsn v' b' s' hv' hb' hs')) :
    LogPosition.HasRoom (.lsn v b s hv hb hs) (.lsn v' b' s' hv' hb' hs') := by
  have hor : v < v' ∨ v = v' ∧ (b < b' ∨ b = b' ∧ s < s') := h
  refine ⟨hvlf, ?_⟩
  rw [Nat.div_eq_of_lt hnarrow, Nat.div_eq_of_lt hnarrow', Nat.or_zero, Nat.or_zero, Nat.mod_eq_of_lt hnarrow,
    Nat.mod_eq_of_lt hnarrow']
  exact hor

/-- an `asLong` that truncates -/
def truncatedLong : JsonNode → Int64
  | .null => 0
  | .boolean b => if b then 1 else 0
  | .number n => Int64.ofInt (n.value.num.tdiv n.value.den)
  | .string s => (parseLong s.toList 10).getD 0

theorem readsIntegers_truncatedLong : ReadsIntegers truncatedLong := by
  intro n
  simp [truncatedLong, Numeral.ofInt]

/-- two blocks of file 2, at offsets 0x10000 and 0x20000, are extracted as 0x300000001 and 0x200000001; the positions of a
binlog file with a number above 524287 are negative -/
theorem block_offsets_reorder :
    (∃ p q : LogPosition, p.Precedes q ∧ p.Reports [("change_lsn", .string "00000002:00010000:0001")] ∧
      q.Reports [("change_lsn", .string "00000002:00020000:0001")] ∧
      ¬OrderKept (extractLsn truncatedLong .sqlServer [("change_lsn", .string "00000002:00010000:0001")])
        (extractLsn truncatedLong .sqlServer [("change_lsn", .string "00000002:00020000:0001")])) ∧
    ∃ p q : LogPosition, p.Precedes q ∧
      p.Reports [("file", .string "mysql-bin.600000"), ("pos", .number (.ofInt 4))] ∧
      q.Reports [("file", .string "mysql-bin.600000"), ("pos", .number (.ofInt 157))] ∧
      ¬OrderKept (extractLsn truncatedLong .mySql [("file", .string "mysql-bin.600000"), ("pos", .number (.ofInt 4))])
        (extractLsn truncatedLong .mySql [("file", .string "mysql-bin.600000"), ("pos", .number (.ofInt 157))]) := by
  have hlsn : LogPosition.Reports [("change_lsn", .string "00000002:00010000:0001")]
      (.lsn 2 0x10000 1 (by decide) (by decide) (by decide)) := ⟨_, rfl, by decide⟩
  have hlsn' : LogPosition.Reports [("change_lsn", .string "00000002:00020000:0001")]
      (.lsn 2 0x20000 1 (by decide) (by decide) (by decide)) := ⟨_, rfl, by decide⟩
  have hbinlog : LogPosition.Reports [("file", .string "mysql-bin.600000"), ("pos", .number (.ofInt 4))]
      (.binlog 600000 4 (by decide) (by decide)) :=
    ⟨rfl, _, "mysql-bin".toList, 6, rfl, by decide, by decide, by decide⟩
  have hbinlog' : LogPosition.Reports [("file", .string "mysql-bin.600000"), ("pos", .number (.ofInt 157))]
      (.binlog 600000 157 (by decide) (by decide)) :=
    ⟨rfl, _, "mysql-bin".toList, 6, rfl, by decide, by decide, by decide⟩
  refine ⟨⟨_, _, ?_, hlsn, hlsn', ?_⟩, _, _, ?_, hbinlog, hbinlog', ?_⟩
  · exact Or.inr ⟨rfl, Or.inl (by decide)⟩
  · have he := extractLsn_of_reports readsIntegers_truncatedLong hlsn
    have he' := extractLsn_of_reports readsIntegers_truncatedLong hlsn'
    rw [LogPosition.connector] at he he'
    rw [he, he', orderKept_ofNat_iff (LogPosition.packed_lt _) (LogPosition.packed_lt _)]
    decide
  · exact Or.inr ⟨rfl, by decide⟩
  · have he := extractLsn_of_reports readsIntegers_truncatedLong hbinlog
    have he' := extractLsn_of_reports readsIntegers_truncatedLong hbinlog'
    rw [LogPosition.connector] at he he'
    rw [he, he', orderKept_ofNat_iff (LogPosition.packed_lt _) (LogPosition.packed_lt _)]
    decide

/-- two records of one block, in order -/
theorem slots_ordered :
    OrderKept (extractLsn truncatedLong .sqlServer [("change_lsn", .string "0000002a:00000f10:0003")])
      (extractLsn truncatedLong .sqlServer [("change_lsn", .string "0000002a:00000f10:0004")]) :=
  (extractLsn_ordered_iff (p := .lsn 0x2a 0xf10 3 (by decide) (by decide) (by decide))
    (q := .lsn 0x2a 0xf10 4 (by decide) (by decide) (by decide)) readsIntegers_truncatedLong ⟨_, rfl, by decide⟩
    ⟨_, rfl, by decide⟩ (Or.inr ⟨rfl, Or.inr ⟨rfl, by decide⟩⟩)).2
    ⟨by decide, Or.inr ⟨rfl, Or.inr ⟨rfl, by decide⟩⟩⟩

end DrasiPlatform.Relational
