import RootHerald.Boot.EventRecord

/-! Which reads of the analyser stay inside the vector they index. Only the variable-name guard,
whose sum wraps in 64 bits, lets a log read past its event data. -/
namespace RootHerald.Boot
open Lib

/-- The declared UnicodeNameLength. -/
def nameLength (data : Bytes) : UInt64 := UInt64.ofNat (leNat ((data.drop 16).take 8))

/-- Unit i of the name, when the data reaches that far. -/
def nameUnit (data : Bytes) (i : Nat) : Nat := leNat ((data.drop (32 + i * 2)).take 2)

/-- The units the loop may visit. -/
def nameUnits (data : Bytes) : Nat := min (nameLength data).toNat 256

/-- The name is refused by the length checks, lies inside the data, or meets a NUL inside it. -/
def NameInBounds (data : Bytes) : Prop :=
  data.length < 32 ∨ data.length < (32 + nameLength data * 2).toNat ∨ 32 + 2 * nameUnits data ≤ data.length ∨
    ∃ i < nameUnits data, 34 + 2 * i ≤ data.length ∧ nameUnit data i = 0

instance (data : Bytes) : Decidable (NameInBounds data) := by
  unfold NameInBounds
  infer_instance

section NameLoop
variable (append : Bytes → UInt16 → Bytes)

private theorem readU16LE_take (p : Bytes) (h : 2 ≤ p.length) :
    readU16LE p = .ok (UInt16.ofNat (leNat (p.take 2))) := by
  obtain ⟨v, rest, rfl⟩ := exists_bytes16 h
  rw [readU16LE_bytes16, ← bytes16_length v, List.take_left, ofNat_bytes16]

private theorem unit_zero_iff (p : Bytes) : UInt16.ofNat (leNat (p.take 2)) = 0 ↔ leNat (p.take 2) = 0 := by
  have hlt : leNat (p.take 2) < 2 ^ 16 := by
    have h := leNat_lt (p.take 2)
    have hl : (p.take 2).length ≤ 2 := List.length_take_le 2 p
    exact h.trans_le (show 256 ^ (p.take 2).length ≤ 256 ^ 2 from Nat.pow_le_pow_right (by decide) hl)
  rw [← UInt16.toNat_inj, UInt16.toNat_ofNat_of_lt' hlt]
  rfl

/-- The loop stays in bounds exactly when the units do, up to a NUL it meets first. -/
private theorem variableNameLoop_ok_iff (data : Bytes) (nameLen : UInt64) (i : Nat) (name : Bytes) :
    (∃ n, variableNameLoop append data nameLen i name = .ok n) ↔
      32 + 2 * min nameLen.toNat 256 ≤ data.length ∨ min nameLen.toNat 256 ≤ i ∨
        ∃ j, i ≤ j ∧ j < min nameLen.toNat 256 ∧ 34 + 2 * j ≤ data.length ∧ nameUnit data j = 0 := by
  induction hk : 256 - i using Nat.strongRecOn generalizing i name with
  | ind k ih =>
    rw [variableNameLoop]
    by_cases hi : i < nameLen.toNat ∧ i < 256
    · rw [if_pos hi]
      have hmin : i < min nameLen.toNat 256 := lt_min hi.1 hi.2
      by_cases hread : 34 + 2 * i ≤ data.length
      · rw [readU16LE_take _ (by rw [List.length_drop]; omega), ok_bind]
        by_cases hz : nameUnit data i = 0
        · rw [if_pos ((unit_zero_iff _).mpr hz)]
          exact ⟨fun _ => .inr (.inr ⟨i, le_refl i, hmin, hread, hz⟩), fun _ => ⟨name, rfl⟩⟩
        · rw [if_neg (mt (unit_zero_iff _).mp hz), ih (256 - (i + 1)) (by omega) (i + 1) _ rfl]
          constructor
          · rintro (h | h | ⟨j, hj, h⟩)
            · exact .inl h
            · exact .inl (by omega)
            · exact .inr (.inr ⟨j, by omega, h⟩)
          · rintro (h | h | ⟨j, hj, h⟩)
            · exact .inl h
            · exact absurd h (by omega)
            · rcases Nat.eq_or_lt_of_le hj with rfl | hlt
              · exact absurd h.2.2 hz
              · exact .inr (.inr ⟨j, hlt, h⟩)
      · rw [readU16LE_error (by rw [List.length_drop]; omega), error_bind]
        constructor
        · rintro ⟨n, h⟩
          cases h
        · rintro (h | h | ⟨j, hj, -, h, -⟩) <;> omega
    · rw [if_neg hi]
      exact ⟨fun _ => .inr (.inl (by omega)), fun _ => ⟨name, rfl⟩⟩

/-- A name is read inside the event data exactly on NameInBounds. -/
theorem variableName_ok_iff (data : Bytes) : (∃ n, variableName append data = .ok n) ↔ NameInBounds data := by
  unfold variableName NameInBounds
  by_cases h32 : data.length < 32
  · rw [if_pos h32]
    exact ⟨fun _ => .inl h32, fun _ => ⟨[], rfl⟩⟩
  · rw [if_neg h32, readU64LE_ok (by rw [List.length_drop]; omega), ok_bind]
    change (∃ n, (if data.length < (32 + nameLength data * 2).toNat then _ else _) = Except.ok n) ↔ _
    by_cases hg : data.length < (32 + nameLength data * 2).toNat
    · rw [if_pos hg]
      exact ⟨fun _ => .inr (.inl hg), fun _ => ⟨[], rfl⟩⟩
    · rw [if_neg hg]
      refine (variableNameLoop_ok_iff append data (nameLength data) 0 []).trans ?_
      simp only [h32, hg, false_or, nameUnits, Nat.zero_le, true_and]
      constructor
      · rintro (h | h | h)
        · exact .inl h
        · exact .inl (by omega)
        · exact .inr h
      · rintro (h | h)
        · exact .inl h
        · exact .inr (.inr h)

end NameLoop

section Scans

private theorem readU16LE_drop_ok {data : Bytes} {i : Nat} (h : i + 1 < data.length) :
    ∃ ch, readU16LE (data.drop i) = .ok ch :=
  readU16LE_ok (by rw [List.length_drop]; omega)

/-- The path scan tests both bytes of a unit before it reads them. -/
private theorem bootAppPathLoop_ok (data : Bytes) (i : Nat) (result : Bytes) :
    ∃ path, bootAppPathLoop data i result = .ok path := by
  fun_induction bootAppPathLoop data i result with
  | case1 i result hi ihPath ihClear =>
    obtain ⟨ch, hch⟩ := readU16LE_drop_ok hi
    rw [hch, ok_bind]
    split_ifs
    · simpa [*] using ihPath ch
    · simpa [*] using ihPath ch
    · exact ⟨result, rfl⟩
    · exact ihClear
    · exact ihClear
  | case2 i result hi => exact ⟨_, rfl⟩

theorem crtmVersionLoop_ok (data : Bytes) (i : Nat) (version : Bytes) :
    ∃ v, crtmVersionLoop data i version = .ok v := by
  fun_induction crtmVersionLoop data i version with
  | case1 i version hi ih =>
    obtain ⟨ch, hch⟩ := readU16LE_drop_ok hi
    rw [hch, ok_bind]
    split_ifs
    · exact ⟨version, rfl⟩
    · simpa [*] using ih ch
    · simpa [*] using ih ch
  | case2 i version hi => exact ⟨version, rfl⟩

theorem extractBootAppPath_ok (data : Bytes) : ∃ path, extractBootAppPath data = .ok path := by
  unfold extractBootAppPath
  split_ifs
  · exact ⟨_, rfl⟩
  · exact bootAppPathLoop_ok data 32 []

/-- The value byte is read only at an offset below the size, however that offset wrapped. -/
theorem isSecureBootEnabled_ok (varName data : Bytes) : ∃ b, isSecureBootEnabled varName data = .ok b := by
  unfold isSecureBootEnabled
  by_cases hname : varName ≠ text "SecureBoot"
  · exact ⟨false, if_pos hname⟩
  by_cases h33 : data.length < 33
  · rw [if_neg hname, if_pos h33]
    exact ⟨false, rfl⟩
  rw [if_neg hname, if_neg h33, readU64LE_ok (by rw [List.length_drop]; omega),
    readU64LE_ok (by rw [List.length_drop]; omega)]
  simp only [ok_bind]
  split_ifs with h
  · obtain ⟨b, hb⟩ := readU8_ok (mt List.drop_eq_nil_iff.mp (Nat.not_le.mpr h.1))
    rw [hb]
    exact ⟨_, rfl⟩
  · exact ⟨_, rfl⟩

end Scans

end RootHerald.Boot
