import RootHerald.Boot.EventLogBounds

/-! UEFI variable data: a GUID, the lengths of name and data, a UTF-16 name and the data. The units
the two name extractions see, and the name the format gives the variable. -/
namespace RootHerald.Boot
open Lib

structure VariableData where
  guid : Bytes
  name : List UInt16
  data : Bytes
  guid_length : guid.length = 16

theorem zeroGuid_length : (List.replicate 16 0 : Bytes).length = 16 := rfl

namespace VariableData

def write (v : VariableData) : Bytes :=
  v.guid ++ (leBytes 8 v.name.length ++ (leBytes 8 v.data.length ++ (v.name.flatMap bytes16 ++ v.data)))

theorem write_length (v : VariableData) : v.write.length = 32 + 2 * v.name.length + v.data.length := by
  simp only [write, List.length_append, v.guid_length, leBytes_length, length_flatMap_bytes16]
  omega

variable (v : VariableData)

theorem drop_guid : v.write.drop 16 =
    leBytes 8 v.name.length ++ (leBytes 8 v.data.length ++ (v.name.flatMap bytes16 ++ v.data)) :=
  List.drop_left' v.guid_length

theorem drop_nameLength : v.write.drop 24 = leBytes 8 v.data.length ++ (v.name.flatMap bytes16 ++ v.data) := by
  rw [show 24 = 16 + 8 from rfl, ← List.drop_drop, drop_guid]
  exact List.drop_left' (leBytes_length 8 _)

theorem drop_lengths : v.write.drop 32 = v.name.flatMap bytes16 ++ v.data := by
  rw [show 32 = 24 + 8 from rfl, ← List.drop_drop, drop_nameLength]
  exact List.drop_left' (leBytes_length 8 _)

theorem drop_name : v.write.drop (32 + 2 * v.name.length) = v.data := by
  rw [← List.drop_drop, drop_lengths, ← length_flatMap_bytes16]
  exact List.drop_left

end VariableData

/-- The value a 64-bit field keeps. -/
theorem toNat_ofNat_leBytes {n : Nat} (h : n < 2 ^ 64) (rest : Bytes) :
    (UInt64.ofNat (leNat ((leBytes 8 n ++ rest).take 8))).toNat = n := by
  rw [List.take_left' (leBytes_length 8 n), leNat_leBytes, Nat.mod_eq_of_lt (show n < 256 ^ 8 from h)]
  exact UInt64.toNat_ofNat_of_lt' h

/-- The declared VariableDataLength. -/
def dataLength (d : Bytes) : UInt64 := UInt64.ofNat (leNat ((d.drop 24).take 8))

/-- The offset of the variable data, as the code sums it. -/
def dataOffset (d : Bytes) : UInt64 := 32 + nameLength d * 2

section Units

/-- The declared name lies inside the data, without wrapping. -/
def NameFits (d : Bytes) : Prop := 32 ≤ d.length ∧ 32 + 2 * (nameLength d).toNat ≤ d.length

instance (d : Bytes) : Decidable (NameFits d) := inferInstanceAs (Decidable (_ ∧ _))

/-- The UTF-16 variable name up to its first NUL, when the data holds one. -/
def uefiName (d : Bytes) : Option (List UInt16) :=
  if NameFits d then some (((units16 (d.drop 32)).take (nameLength d).toNat).takeWhile (· ≠ 0)) else none

/-- The units the extraction appends: past the length checks, at most 256 and up to the first NUL. -/
def visibleUnits (d : Bytes) : List UInt16 :=
  if d.length < 32 ∨ d.length < (32 + nameLength d * 2).toNat then []
  else ((units16 (d.drop 32)).take (nameUnits d)).takeWhile (· ≠ 0)

/-- What the loop has still to visit at index i starts with the unit it reads. -/
private theorem units_at {d : Bytes} {i k : Nat} {ch : UInt16} (hi : i < k)
    (h : readU16LE (d.drop (32 + i * 2)) = .ok ch) :
    ((units16 (d.drop 32)).take k).drop i = ch :: ((units16 (d.drop 32)).take k).drop (i + 1) := by
  have hunits : (units16 (d.drop 32)).drop i = ch :: (units16 (d.drop 32)).drop (i + 1) := by
    rw [units16_drop, units16_drop, List.drop_drop, List.drop_drop]
    rw [show 32 + i * 2 = 32 + 2 * i by omega] at h
    rw [units16_of_read h, List.drop_drop]
    rfl
  rw [List.drop_take, List.drop_take, hunits, show k - i = (k - (i + 1)) + 1 by omega, List.take_succ_cons]

private theorem variableNameLoop_units {append : Bytes → UInt16 → Bytes} {d : Bytes} {nameLen : UInt64} {i : Nat}
    {name r : Bytes} (h : variableNameLoop append d nameLen i name = .ok r) :
    r = ((((units16 (d.drop 32)).take (min nameLen.toNat 256)).drop i).takeWhile (· ≠ 0)).foldl append name := by
  fun_induction variableNameLoop append d nameLen i name with
  | case1 i name hi ih =>
    obtain ⟨ch, hch, h⟩ := bind_eq_ok h
    rw [units_at (lt_min hi.1 hi.2) hch]
    by_cases hz : ch = 0
    · rw [if_pos hz] at h
      cases h
      simp [hz]
    · rw [if_neg hz] at h
      rw [List.takeWhile_cons_of_pos (by simpa using hz), List.foldl_cons]
      exact ih ch h
  | case2 i name hi =>
    cases h
    have hdrop : ((units16 (d.drop 32)).take (min nameLen.toNat 256)).drop i = [] :=
      List.drop_eq_nil_iff.mpr ((List.length_take_le _ _).trans (by omega))
    rw [hdrop]
    rfl

/-- A name that is read is built from the visible units. -/
theorem variableName_units {append : Bytes → UInt16 → Bytes} {d r : Bytes} (h : variableName append d = .ok r) :
    r = (visibleUnits d).foldl append [] := by
  unfold variableName at h
  unfold visibleUnits
  by_cases h32 : d.length < 32
  · rw [if_pos h32] at h
    rw [if_pos (.inl h32)]
    exact (Except.ok.inj h).symm
  · rw [if_neg h32, readU64LE_ok (by rw [List.length_drop]; omega), ok_bind] at h
    change (if d.length < (32 + nameLength d * 2).toNat then _ else _) = Except.ok r at h
    by_cases hg : d.length < (32 + nameLength d * 2).toNat
    · rw [if_pos hg] at h
      rw [if_pos (.inr hg)]
      exact (Except.ok.inj h).symm
    · rw [if_neg hg] at h
      rw [if_neg (not_or.mpr ⟨h32, hg⟩)]
      exact variableNameLoop_units h

/-- A name that fits passes the wrapping check. -/
theorem visibleUnits_of_fits {d : Bytes} (h : NameFits d) :
    uefiName d = some (((units16 (d.drop 32)).take (nameLength d).toNat).takeWhile (· ≠ 0)) ∧
      visibleUnits d = (((units16 (d.drop 32)).take (nameLength d).toNat).takeWhile (· ≠ 0)).take 256 := by
  obtain ⟨h32, hfits⟩ := h
  refine ⟨if_pos ⟨h32, hfits⟩, ?_⟩
  have hguard : (32 + nameLength d * 2).toNat ≤ 32 + 2 * (nameLength d).toNat := by
    rw [UInt64.toNat_add, UInt64.toNat_mul]
    exact (Nat.mod_le _ _).trans (by
      have := Nat.mod_le ((nameLength d).toNat * 2) (2 ^ 64)
      change 32 + (nameLength d).toNat * 2 % 2 ^ 64 ≤ _
      omega)
  rw [visibleUnits, if_neg (not_or.mpr ⟨by omega, by omega⟩), nameUnits, Nat.min_comm, ← List.take_take,
    List.take_takeWhile]

end Units

section Spelling

/-- The bytes of a name as units. -/
def asUnits (name : Bytes) : List UInt16 := name.map UInt8.toUInt16

/-- A name of ASCII characters without a question mark, shorter than the cap. -/
def PlainName (name : Bytes) : Prop := name.length < 256 ∧ ∀ c ∈ name, c < 128 ∧ c ≠ '?'.toUInt8

instance (name : Bytes) : Decidable (PlainName name) := inferInstanceAs (Decidable (_ ∧ _))

theorem toUInt16_toUInt8 {u : UInt16} (h : u < 128) : u.toUInt8.toUInt16 = u := by
  rw [← UInt16.toNat_inj]
  rw [UInt16.lt_iff_toNat_lt] at h
  simp at h ⊢
  omega

theorem toUInt16_lt {c : UInt8} (h : c < 128) : c.toUInt16 < 128 := by
  rw [UInt16.lt_iff_toNat_lt]
  rw [UInt8.lt_iff_toNat_lt] at h
  simpa using h

private theorem map_eq_map_iff_of {α β : Type} {f : α → β} {g : β → α} {bs : List β}
    (h : ∀ b ∈ bs, ∀ a, f a = b ↔ a = g b) (as : List α) : as.map f = bs ↔ as = bs.map g := by
  induction bs generalizing as with
  | nil => simp
  | cons b bs ih =>
    cases as with
    | nil => simp
    | cons a as =>
      obtain ⟨hb, hbs⟩ := List.forall_mem_cons.mp h
      rw [List.map_cons, List.map_cons, List.cons.injEq, List.cons.injEq, hb, ih hbs]

/-- The analyser reads a plain name exactly where the visible units spell it. -/
theorem extractEfiVariableName_eq_iff {d r name : Bytes} (h : extractEfiVariableName d = .ok r)
    (hname : PlainName name) : r = name ↔ visibleUnits d = asUnits name := by
  have hfold : ∀ (us : List UInt16) (name : Bytes),
      us.foldl (fun name ch => name ++ [if ch < 128 then ch.toUInt8 else '?'.toUInt8]) name =
        name ++ us.map fun ch => if ch < 128 then ch.toUInt8 else '?'.toUInt8 := by
    intro us
    induction us with
    | nil => simp
    | cons u us ih =>
      intro name
      rw [List.foldl_cons, ih, List.append_assoc, List.map_cons, List.singleton_append]
  rw [variableName_units h, hfold, List.nil_append]
  refine map_eq_map_iff_of (fun c hc u => ?_) _
  obtain ⟨hascii, hmark⟩ := hname.2 c hc
  by_cases hu : u < 128
  · rw [if_pos hu]
    constructor
    · rintro rfl
      exact (toUInt16_toUInt8 hu).symm
    · rintro rfl
      simp
  · rw [if_neg hu]
    refine ⟨fun h => absurd h.symm hmark, fun h => absurd ?_ hu⟩
    rw [h]
    exact toUInt16_lt hascii

/-- Where the declared name fits, the cap and the replacement of other characters do not matter. -/
theorem extractEfiVariableName_eq_uefiName {d r name : Bytes} (h : extractEfiVariableName d = .ok r)
    (hname : PlainName name) (hfits : NameFits d) : r = name ↔ uefiName d = some (asUnits name) := by
  obtain ⟨huefi, hvisible⟩ := visibleUnits_of_fits hfits
  rw [extractEfiVariableName_eq_iff h hname, huefi, hvisible, Option.some.injEq]
  generalize ((units16 (d.drop 32)).take (nameLength d).toNat).takeWhile (· ≠ 0) = us
  have hlen : (asUnits name).length < 256 := (List.length_map _).trans_lt hname.1
  constructor
  · intro htake
    have := congrArg List.length htake
    rw [List.length_take] at this
    rw [← htake, List.take_of_length_le (by omega)]
  · rintro rfl
    exact List.take_of_length_le (by omega)

end Spelling

namespace VariableData
variable (v : VariableData)

/-- The name up to its first NUL. -/
def shortName : List UInt16 := v.name.takeWhile (· ≠ 0)

theorem nameLength_write (h : v.write.length < 2 ^ 64) : (nameLength v.write).toNat = v.name.length := by
  rw [write_length] at h
  rw [nameLength, drop_guid]
  exact toNat_ofNat_leBytes (by omega) _

theorem dataLength_write (h : v.write.length < 2 ^ 64) : (dataLength v.write).toNat = v.data.length := by
  rw [write_length] at h
  rw [dataLength, drop_nameLength]
  exact toNat_ofNat_leBytes (by omega) _

theorem dataOffset_write (h : v.write.length < 2 ^ 64) : (dataOffset v.write).toNat = 32 + 2 * v.name.length := by
  have hlen := v.write_length
  rw [dataOffset, UInt64.toNat_add, UInt64.toNat_mul, v.nameLength_write h]
  change (32 + v.name.length * 2 % 2 ^ 64) % 2 ^ 64 = _
  omega

theorem nameFits_write (h : v.write.length < 2 ^ 64) : NameFits v.write := by
  rw [NameFits, v.nameLength_write h, write_length]
  omega

theorem uefiName_write (h : v.write.length < 2 ^ 64) : uefiName v.write = some v.shortName := by
  rw [(visibleUnits_of_fits (v.nameFits_write h)).1, v.nameLength_write h, drop_lengths, units16_flatMap,
    List.take_left, shortName]

theorem nameInBounds_write (h : v.write.length < 2 ^ 64) : NameInBounds v.write := by
  have hfits := (v.nameFits_write h).2
  refine .inr (.inr (.inl ?_))
  rw [nameUnits]
  omega

end VariableData
end RootHerald.Boot
