import Mathlib.Data.List.Infix
import RootHerald.Boot.EventLogBounds
import RootHerald.Boot.VariableData
import RootHerald.Lib.Locators

/-! The path of a boot application. The scan keeps the units of its class, starts over behind any other,
and returns what it has at a NUL; the digits are not in the class. -/
namespace RootHerald.Boot
open Lib

section Alphabet

def IsLetter (c : UInt8) : Prop := 'A'.toUInt8 ≤ c ∧ c ≤ 'Z'.toUInt8 ∨ 'a'.toUInt8 ≤ c ∧ c ≤ 'z'.toUInt8

def IsDigit (c : UInt8) : Prop := '0'.toUInt8 ≤ c ∧ c ≤ '9'.toUInt8

/-- A character of a file path. -/
def IsFilePathChar (c : UInt8) : Prop :=
  IsLetter c ∨ IsDigit c ∨ c ∈ ['\\'.toUInt8, '/'.toUInt8, '.'.toUInt8, '-'.toUInt8, '_'.toUInt8]

instance : DecidablePred IsLetter := fun _ => inferInstanceAs (Decidable (_ ∨ _))

instance : DecidablePred IsDigit := fun _ => inferInstanceAs (Decidable (_ ∧ _))

instance : DecidablePred IsFilePathChar := fun _ => inferInstanceAs (Decidable (_ ∨ _ ∨ _))

/-- The scan keeps the characters of a path but the digits. -/
private theorem isPathChar_byte {c : UInt8} (hc : IsFilePathChar c) :
    c.toUInt16 < 128 ∧ c.toUInt16 ≠ 0 ∧ (isPathChar c.toUInt16 ↔ ¬ IsDigit c) := by
  have hbyte : ∀ n < 256, IsFilePathChar (UInt8.ofNat n) → (UInt8.ofNat n).toUInt16 < 128 ∧
      (UInt8.ofNat n).toUInt16 ≠ 0 ∧ (isPathChar (UInt8.ofNat n).toUInt16 ↔ ¬ IsDigit (UInt8.ofNat n)) := by
    decide +kernel
  have hchar := hbyte c.toNat c.toNat_lt
  rw [UInt8.ofNat_toNat] at hchar
  exact hchar hc

private theorem isDigit_filePathChar {c : UInt8} (h : IsDigit c) : IsFilePathChar c := .inr (.inl h)

private theorem isPathChar_node {u : UInt16} (h : u = 0 ∨ 0x0100 ≤ u) : isPathChar u = false := by
  rcases h with rfl | h
  · decide
  · have hne : ∀ v : UInt16, v < 0x0100 → u ≠ v := by
      rintro v hv rfl
      exact absurd hv (UInt16.not_lt.mpr h)
    have hlast : ¬ u ≤ 'z'.toNat.toUInt16 := fun hu => absurd (UInt16.le_trans h hu) (by decide)
    simp only [isPathChar, hlast, hne _ (show '\\'.toNat.toUInt16 < 0x0100 by decide),
      hne _ (show '/'.toNat.toUInt16 < 0x0100 by decide), hne _ (show '.'.toNat.toUInt16 < 0x0100 by decide),
      hne _ (show '-'.toNat.toUInt16 < 0x0100 by decide), hne _ (show '_'.toNat.toUInt16 < 0x0100 by decide),
      decide_false, Bool.and_false, Bool.or_false]

end Alphabet

section Scan

/-- What the scan makes of the units it has still to visit. -/
def scanPath : List UInt16 → Bytes → Bytes
  | [], result => if result = [] then text "(binary device path)" else result
  | ch :: us, result =>
    if isPathChar ch then scanPath us (if ch < 128 then result ++ [ch.toUInt8] else result)
    else if ch = 0 ∧ result ≠ [] ∧ isBootPath result then result
    else scanPath us []

theorem bootAppPathLoop_eq (data : Bytes) (i : Nat) (result : Bytes) :
    bootAppPathLoop data i result = .ok (scanPath (units16 (data.drop i)) result) := by
  fun_induction bootAppPathLoop data i result with
  | case1 i result hi ihPath ihClear =>
    obtain ⟨ch, hch⟩ : ∃ ch, readU16LE (data.drop i) = .ok ch := readU16LE_ok (by rw [List.length_drop]; omega)
    have hunits : units16 (data.drop i) = ch :: units16 (data.drop (i + 2)) := by
      rw [units16_of_read hch, List.drop_drop]
    rw [hch, ok_bind, hunits, scanPath]
    by_cases hpath : isPathChar ch
    · rw [if_pos hpath, if_pos hpath]
      exact ihPath ch
    · rw [if_neg hpath, if_neg hpath]
      by_cases hend : ch = 0 ∧ result ≠ []
      · by_cases hboot : isBootPath result
        · rw [if_pos hend, if_pos hboot, if_pos ⟨hend.1, hend.2, hboot⟩]
          rfl
        · rw [if_pos hend, if_neg hboot, if_neg fun h => hboot h.2.2]
          exact ihClear
      · rw [if_neg hend, if_neg fun h => hend ⟨h.1, h.2.1⟩]
        exact ihClear
  | case2 i result hi =>
    have hlen : (data.drop i).length < 2 := by
      rw [List.length_drop]
      omega
    rw [units16_short hlen]
    rfl

theorem extractBootAppPath_eq {data : Bytes} (h : 32 ≤ data.length) :
    extractBootAppPath data = .ok (scanPath (units16 (data.drop 32)) []) := by
  rw [extractBootAppPath, if_neg (not_lt.mpr h), bootAppPathLoop_eq]

/-- Binary device-path nodes leave nothing in front of a path. -/
private theorem scanPath_nodes {nodes : List UInt16} (h : ∀ u ∈ nodes, u = 0 ∨ 0x0100 ≤ u) (us : List UInt16) :
    scanPath (nodes ++ us) [] = scanPath us [] := by
  induction nodes with
  | nil => rfl
  | cons u nodes ih =>
    obtain ⟨hu, hnodes⟩ := List.forall_mem_cons.mp h
    rw [List.cons_append, scanPath, isPathChar_node hu, if_neg (by decide), if_neg fun h => h.2.1 rfl]
    exact ih hnodes

/-- A path without digits is kept whole. -/
private theorem scanPath_path {path : Bytes} (hpath : ∀ c ∈ path, IsFilePathChar c) (hdigits : ∀ c ∈ path, ¬ IsDigit c)
    (us : List UInt16) (result : Bytes) : scanPath (asUnits path ++ us) result = scanPath us (result ++ path) := by
  induction path generalizing result with
  | nil => rw [List.append_nil]; rfl
  | cons c path ih =>
    obtain ⟨hc, hpath⟩ := List.forall_mem_cons.mp hpath
    obtain ⟨hdigit, hdigits⟩ := List.forall_mem_cons.mp hdigits
    obtain ⟨hascii, -, hkept⟩ := isPathChar_byte hc
    rw [asUnits, List.map_cons, List.cons_append, scanPath, if_pos (hkept.mpr hdigit), if_pos hascii, ← asUnits,
      ih hpath hdigits, UInt8.toUInt8_toUInt16, List.append_assoc]
    rfl

/-- No digit is ever returned. -/
private theorem scanPath_digits (us : List UInt16) {result : Bytes} (h : ∀ c ∈ result, ¬ IsDigit c) :
    ∀ c ∈ scanPath us result, ¬ IsDigit c := by
  have hunknown : ∀ c ∈ text "(binary device path)", ¬ IsDigit c := by decide
  have hnone : ∀ c ∈ ([] : Bytes), ¬ IsDigit c := fun c hc => by cases hc
  induction us generalizing result with
  | nil =>
    rw [scanPath]
    split_ifs
    · exact hunknown
    · exact h
  | cons ch us ih =>
    rw [scanPath]
    by_cases hpath : isPathChar ch
    · rw [if_pos hpath]
      apply ih
      by_cases hascii : ch < 128
      · rw [if_pos hascii]
        intro c hc
        rcases List.mem_append.mp hc with hc | hc
        · exact h c hc
        · obtain rfl := List.mem_singleton.mp hc
          intro hdigit
          have hkept := (isPathChar_byte (isDigit_filePathChar hdigit)).2.2
          rw [toUInt16_toUInt8 hascii] at hkept
          exact hkept.mp hpath hdigit
      · rw [if_neg hascii]
        exact h
    · rw [if_neg hpath]
      split_ifs
      · exact h
      · exact ih hnone

end Scan

section Event

/-- A boot-application event: the four header fields, device-path nodes, and a file path with its NUL. -/
structure BootAppEvent where
  header : Bytes
  nodes : List UInt16
  path : Bytes
  trailing : Bytes
  header_length : header.length = 32
  nodes_binary : ∀ u ∈ nodes, u = 0 ∨ 0x0100 ≤ u
  path_chars : ∀ c ∈ path, IsFilePathChar c
  path_long : 4 < path.length
  path_rooted : '\\'.toUInt8 ∈ path

namespace BootAppEvent

def write (e : BootAppEvent) : Bytes :=
  e.header ++ (e.nodes.flatMap bytes16 ++ ((asUnits e.path).flatMap bytes16 ++ (bytes16 0 ++ e.trailing)))

/-- The path is returned exactly when there is no digit in it. -/
theorem extractBootAppPath_write (e : BootAppEvent) :
    extractBootAppPath e.write = .ok e.path ↔ ∀ c ∈ e.path, ¬ IsDigit c := by
  have hlen : 32 ≤ e.write.length := by
    rw [write, List.length_append, e.header_length]
    exact Nat.le_add_right _ _
  have hunits : units16 (e.write.drop 32) = e.nodes ++ (asUnits e.path ++ 0 :: units16 e.trailing) := by
    rw [write, List.drop_left' e.header_length, units16_flatMap, units16_flatMap, units16_bytes16]
  rw [extractBootAppPath_eq hlen, hunits, scanPath_nodes e.nodes_binary, Except.ok.injEq]
  constructor
  · intro hpath
    have hdigits : ∀ c ∈ scanPath (asUnits e.path ++ 0 :: units16 e.trailing) [], ¬ IsDigit c :=
      scanPath_digits _ fun c hc => by cases hc
    rwa [hpath] at hdigits
  · intro hdigits
    have hne : e.path ≠ [] := List.ne_nil_of_mem e.path_rooted
    have hbackslash : text "\\" = ['\\'.toUInt8] := by decide
    have hrooted : contains e.path (text "\\") := by
      rw [contains_iff, hbackslash, List.singleton_infix_iff]
      exact e.path_rooted
    have hboot : isBootPath e.path := by
      rw [isBootPath, hrooted, decide_eq_true e.path_long, Bool.or_true]
      rfl
    rw [scanPath_path e.path_chars hdigits, List.nil_append, scanPath, if_neg (by decide),
      if_pos ⟨rfl, hne, hboot⟩]

/-- The path of the default boot loader. -/
def defaultLoader : BootAppEvent where
  header := List.replicate 32 0
  nodes := []
  path := text "\\EFI\\BOOT\\BOOTX64.EFI"
  trailing := []
  header_length := rfl
  nodes_binary _ h := by cases h
  path_chars := by decide +kernel
  path_long := by decide +kernel
  path_rooted := by decide +kernel

/-- Behind its last digit only .EFI is left, which is too short. -/
theorem default_loader_lost :
    extractBootAppPath defaultLoader.write = .ok (text "(binary device path)") ∧
      ¬ ∀ e : BootAppEvent, extractBootAppPath e.write = .ok e.path := by
  refine ⟨?_, fun h => ?_⟩
  · rw [extractBootAppPath_eq (by decide)]
    exact congrArg Except.ok (by decide)
  · have hdigits := defaultLoader.extractBootAppPath_write.1 (h defaultLoader)
    exact absurd hdigits (by decide)

end BootAppEvent
end Event
end RootHerald.Boot
