import RootHerald.Lib.Checked

/-! Fixed-width fields at the front of a byte string, and the checked reads that see them. -/
namespace RootHerald.Lib

/-- The first n bytes and the rest. -/
def takeBytes (n : Nat) (s : Bytes) : Option (Bytes × Bytes) :=
  if n ≤ s.length then some (s.take n, s.drop n) else none

theorem takeBytes_eq_some {n : Nat} {s q rest : Bytes} :
    takeBytes n s = some (q, rest) ↔ s = q ++ rest ∧ q.length = n := by
  unfold takeBytes
  constructor
  · intro h
    split_ifs at h with hn
    cases h
    exact ⟨(List.take_append_drop n s).symm, by simp [hn]⟩
  · rintro ⟨rfl, rfl⟩
    simp

theorem takeBytes_eq_none {n : Nat} {s : Bytes} : takeBytes n s = none ↔ s.length < n := by
  unfold takeBytes
  split_ifs with hn
  · simpa using hn
  · simpa using hn

/-- A 16-bit little-endian field. -/
def take16 (s : Bytes) : Option (UInt16 × Bytes) :=
  (takeBytes 2 s).map fun f => (UInt16.ofNat (leNat f.1), f.2)

/-- A 32-bit little-endian field. -/
def take32 (s : Bytes) : Option (UInt32 × Bytes) :=
  (takeBytes 4 s).map fun f => (UInt32.ofNat (leNat f.1), f.2)

theorem bytes16_ofNat {q : Bytes} (h : q.length = 2) : bytes16 (UInt16.ofNat (leNat q)) = q := by
  have hlt := leNat_lt q
  have hq := leBytes_leNat q
  rw [h] at hlt hq
  rw [bytes16, UInt16.toNat_ofNat_of_lt' hlt, hq]

theorem bytes32_ofNat {q : Bytes} (h : q.length = 4) : bytes32 (UInt32.ofNat (leNat q)) = q := by
  have hlt := leNat_lt q
  have hq := leBytes_leNat q
  rw [h] at hlt hq
  rw [bytes32, UInt32.toNat_ofNat_of_lt' hlt, hq]

theorem ofNat_bytes16 (v : UInt16) : UInt16.ofNat (leNat (bytes16 v)) = v := by
  rw [bytes16, leNat_leBytes, Nat.mod_eq_of_lt (show v.toNat < 256 ^ 2 from v.toNat_lt), UInt16.ofNat_toNat]

theorem ofNat_bytes32 (v : UInt32) : UInt32.ofNat (leNat (bytes32 v)) = v := by
  rw [bytes32, leNat_leBytes, Nat.mod_eq_of_lt (show v.toNat < 256 ^ 4 from v.toNat_lt), UInt32.ofNat_toNat]

theorem take16_eq_some {s rest : Bytes} {v : UInt16} : take16 s = some (v, rest) ↔ s = bytes16 v ++ rest := by
  simp only [take16, Option.map_eq_some_iff, Prod.exists, Prod.mk.injEq]
  constructor
  · rintro ⟨q, r, h, rfl, rfl⟩
    obtain ⟨hs, hq⟩ := takeBytes_eq_some.1 h
    rw [bytes16_ofNat hq, hs]
  · rintro rfl
    exact ⟨bytes16 v, rest, takeBytes_eq_some.2 ⟨rfl, bytes16_length v⟩, ofNat_bytes16 v, rfl⟩

theorem take32_eq_some {s rest : Bytes} {v : UInt32} : take32 s = some (v, rest) ↔ s = bytes32 v ++ rest := by
  simp only [take32, Option.map_eq_some_iff, Prod.exists, Prod.mk.injEq]
  constructor
  · rintro ⟨q, r, h, rfl, rfl⟩
    obtain ⟨hs, hq⟩ := takeBytes_eq_some.1 h
    rw [bytes32_ofNat hq, hs]
  · rintro rfl
    exact ⟨bytes32 v, rest, takeBytes_eq_some.2 ⟨rfl, bytes32_length v⟩, ofNat_bytes32 v, rfl⟩

theorem take16_eq_none {s : Bytes} : take16 s = none ↔ s.length < 2 := by
  simp [take16, takeBytes_eq_none]

theorem take32_eq_none {s : Bytes} : take32 s = none ↔ s.length < 4 := by
  simp [take32, takeBytes_eq_none]

@[simp] theorem takeBytes_append (q rest : Bytes) : takeBytes q.length (q ++ rest) = some (q, rest) :=
  takeBytes_eq_some.2 ⟨rfl, rfl⟩

@[simp] theorem take16_bytes16 (v : UInt16) (rest : Bytes) : take16 (bytes16 v ++ rest) = some (v, rest) :=
  take16_eq_some.2 rfl

@[simp] theorem take32_bytes32 (v : UInt32) (rest : Bytes) : take32 (bytes32 v ++ rest) = some (v, rest) :=
  take32_eq_some.2 rfl

/-- A 16-bit read through a pointer sees the field there. -/
@[simp] theorem readU16LE_bytes16 (v : UInt16) (rest : Bytes) : readU16LE (bytes16 v ++ rest) = .ok v := by
  have h := ofNat_bytes16 v
  simp only [bytes16, leBytes, List.cons_append, List.nil_append, readU16LE] at h ⊢
  rw [← le16_toNat, UInt16.ofNat_toNat] at h
  exact congrArg _ h

/-- A 32-bit read through a pointer sees the field there. -/
@[simp] theorem readU32LE_bytes32 (v : UInt32) (rest : Bytes) : readU32LE (bytes32 v ++ rest) = .ok v := by
  have h := ofNat_bytes32 v
  simp only [bytes32, leBytes, List.cons_append, List.nil_append, readU32LE] at h ⊢
  rw [← le32_toNat, UInt32.ofNat_toNat] at h
  exact congrArg _ h

@[simp] theorem readRange_append (q rest : Bytes) : readRange (q ++ rest) q.length = .ok q := by
  simp [readRange]

theorem exists_bytes16 {s : Bytes} (h : 2 ≤ s.length) : ∃ v rest, s = bytes16 v ++ rest := by
  cases hs : take16 s with
  | none => exact absurd (take16_eq_none.1 hs) (by omega)
  | some f => exact ⟨f.1, f.2, take16_eq_some.1 hs⟩

theorem exists_bytes32 {s : Bytes} (h : 4 ≤ s.length) : ∃ v rest, s = bytes32 v ++ rest := by
  cases hs : take32 s with
  | none => exact absurd (take32_eq_none.1 hs) (by omega)
  | some f => exact ⟨f.1, f.2, take32_eq_some.1 hs⟩

/-- The 32-bit word at byte i. -/
def wordAt (s : Bytes) (i : Nat) : UInt32 := UInt32.ofNat (leNat ((s.drop i).take 4))

theorem take32_drop {s : Bytes} {i : Nat} (h : i + 4 ≤ s.length) :
    take32 (s.drop i) = some (wordAt s i, (s.drop i).drop 4) := by
  have hlen : 4 ≤ (s.drop i).length := by
    rw [List.length_drop]
    omega
  rw [take32, takeBytes, if_pos hlen]
  rfl

theorem readU32LE_drop {s : Bytes} {i : Nat} (h : i + 4 ≤ s.length) : readU32LE (s.drop i) = .ok (wordAt s i) := by
  have htake := take32_eq_some.1 (take32_drop h)
  rw [htake]
  exact readU32LE_bytes32 _ _

/-- The 16-bit units of a byte string; an odd last byte is left out. -/
def units16 : Bytes → List UInt16
  | b₀ :: b₁ :: s => le16 b₀ b₁ :: units16 s
  | _ => []

theorem units16_short {s : Bytes} (h : s.length < 2) : units16 s = [] := by
  match s, h with
  | [], _ => rfl
  | [_], _ => rfl

theorem units16_of_read {s : Bytes} {v : UInt16} (h : readU16LE s = .ok v) :
    units16 s = v :: units16 (s.drop 2) := by
  match s, h with
  | b₀ :: b₁ :: s, h =>
    cases h
    rfl

theorem units16_drop (s : Bytes) (i : Nat) : (units16 s).drop i = units16 (s.drop (2 * i)) := by
  induction i generalizing s with
  | zero => rfl
  | succ i ih =>
    match s with
    | [] => simp [units16]
    | [b] =>
      rw [show 2 * (i + 1) = 2 * i + 1 + 1 by omega]
      simp [units16]
    | b₀ :: b₁ :: s => exact ih s

@[simp] theorem units16_bytes16 (v : UInt16) (s : Bytes) : units16 (bytes16 v ++ s) = v :: units16 s := by
  rw [units16_of_read (readU16LE_bytes16 v s), List.drop_left' (bytes16_length v)]

theorem units16_flatMap (us : List UInt16) (s : Bytes) :
    units16 (us.flatMap bytes16 ++ s) = us ++ units16 s := by
  induction us with
  | nil => rfl
  | cons u us ih => rw [List.flatMap_cons, List.append_assoc, units16_bytes16, ih, List.cons_append]

theorem length_flatMap_bytes16 (us : List UInt16) : (us.flatMap bytes16).length = 2 * us.length := by
  induction us with
  | nil => rfl
  | cons u us ih =>
    rw [List.flatMap_cons, List.length_append, bytes16_length, ih, List.length_cons]
    omega

theorem readU16LE_ok {p : Bytes} (h : 2 ≤ p.length) : ∃ v, readU16LE p = .ok v := by
  obtain ⟨v, rest, rfl⟩ := exists_bytes16 h
  exact ⟨v, readU16LE_bytes16 v rest⟩

end RootHerald.Lib
