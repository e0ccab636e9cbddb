import RootHerald.Boot.EventLogParser
import RootHerald.Lib.Fields
import RootHerald.Lib.PrefixCode

/-! Well-formed TCG_PCR_EVENT2 records as a self-delimiting code, and the parser's loop as
reading the longest sequence of them. -/
namespace RootHerald.Boot
open Lib

/-- A digest of a known algorithm at its size. -/
structure Digest where
  algId : UInt16
  value : Bytes
  sized : digestSize algId = some value.length

namespace Digest

def write (d : Digest) : Bytes := bytes16 d.algId ++ d.value

def read (s : Bytes) : Option (Digest × Bytes) :=
  (take16 s).bind fun (algId, s) =>
  (digestSize algId).bind fun n =>
  (takeBytes n s).bind fun (value, rest) =>
  if sized : digestSize algId = some value.length then some (⟨algId, value, sized⟩, rest) else none

theorem read_eq_some {s rest : Bytes} {d : Digest} : read s = some (d, rest) ↔ s = d.write ++ rest := by
  simp only [read, Option.bind_eq_some_iff, Prod.exists, write]
  constructor
  · rintro ⟨algId, s', h16, n, hn, value, rest', hv, h⟩
    obtain ⟨rfl, rfl⟩ := takeBytes_eq_some.mp hv
    rw [dif_pos hn] at h
    cases h
    rw [List.append_assoc]
    exact take16_eq_some.mp h16
  · rintro rfl
    refine ⟨d.algId, d.value ++ rest, ?_, d.value.length, d.sized, d.value, rest, takeBytes_append _ _, ?_⟩
    · rw [List.append_assoc]
      exact take16_bytes16 _ _
    · rw [dif_pos d.sized]

/-- n digests in a row. -/
def readMany : Nat → Bytes → Option (List Digest × Bytes)
  | 0, s => some ([], s)
  | n + 1, s => (read s).bind fun (d, s) => (readMany n s).map fun (ds, rest) => (d :: ds, rest)

theorem readMany_eq_some {n : Nat} {s rest : Bytes} {ds : List Digest} :
    readMany n s = some (ds, rest) ↔ s = ds.flatMap write ++ rest ∧ ds.length = n := by
  induction n generalizing s ds with
  | zero =>
    simp only [readMany, Option.some.injEq, Prod.mk.injEq, List.length_eq_zero_iff]
    constructor
    · rintro ⟨rfl, rfl⟩
      exact ⟨rfl, rfl⟩
    · rintro ⟨rfl, rfl⟩
      exact ⟨rfl, rfl⟩
  | succ n ih =>
    simp only [readMany, Option.bind_eq_some_iff, Option.map_eq_some_iff, Prod.exists, Prod.mk.injEq]
    constructor
    · rintro ⟨d, s', hd, ds', rest', hds, rfl, rfl⟩
      obtain ⟨rfl, rfl⟩ := ih.mp hds
      rw [read_eq_some.1 hd, List.flatMap_cons, List.append_assoc]
      exact ⟨rfl, rfl⟩
    · rintro ⟨rfl, hlen⟩
      match ds, hlen with
      | d :: ds, hlen =>
        refine ⟨d, ds.flatMap write ++ rest, ?_, ds, rest, ih.mpr ⟨rfl, by simpa using hlen⟩, rfl, rfl⟩
        rw [List.flatMap_cons, List.append_assoc]
        exact read_eq_some.2 rfl

end Digest

/-- A well-formed record: at most eight digests, event data below 4 GiB. -/
structure EventRecord where
  pcrIndex : UInt32
  eventType : UInt32
  digests : List Digest
  eventData : Bytes
  digests_le : digests.length ≤ 8
  eventData_lt : eventData.length < 2 ^ 32

namespace EventRecord

def write (r : EventRecord) : Bytes :=
  bytes32 r.pcrIndex ++ (bytes32 r.eventType ++ (bytes32 (UInt32.ofNat r.digests.length) ++
    (r.digests.flatMap Digest.write ++ (bytes32 (UInt32.ofNat r.eventData.length) ++ r.eventData))))

def read (s : Bytes) : Option (EventRecord × Bytes) :=
  (take32 s).bind fun (pcrIndex, s) =>
  (take32 s).bind fun (eventType, s) =>
  (take32 s).bind fun (count, s) =>
  (Digest.readMany count.toNat s).bind fun (digests, s) =>
  (take32 s).bind fun (size, s) =>
  (takeBytes size.toNat s).bind fun (eventData, rest) =>
  if h : digests.length ≤ 8 ∧ eventData.length < 2 ^ 32 then
    some (⟨pcrIndex, eventType, digests, eventData, h.1, h.2⟩, rest)
  else none

theorem noDigests_le : ([] : List Digest).length ≤ 8 := by decide

theorem noEventData_lt : ([] : Bytes).length < 2 ^ 32 := by decide

theorem toNat_digestCount (r : EventRecord) : (UInt32.ofNat r.digests.length).toNat = r.digests.length :=
  UInt32.toNat_ofNat_of_lt' (Nat.lt_of_le_of_lt r.digests_le (by decide))

theorem toNat_eventDataSize (r : EventRecord) : (UInt32.ofNat r.eventData.length).toNat = r.eventData.length :=
  UInt32.toNat_ofNat_of_lt' r.eventData_lt

theorem read_eq_some {s rest : Bytes} {r : EventRecord} : read s = some (r, rest) ↔ s = r.write ++ rest := by
  simp only [read, Option.bind_eq_some_iff, Prod.exists, write, List.append_assoc]
  constructor
  · rintro ⟨pcrIndex, s₁, h₁, eventType, s₂, h₂, count, s₃, h₃, digests, s₄, h₄, size, s₅, h₅, eventData, s₆, h₆, h⟩
    obtain ⟨hs₄, hlen⟩ := Digest.readMany_eq_some.1 h₄
    obtain ⟨hs₆, hsize⟩ := takeBytes_eq_some.mp h₆
    split_ifs at h with hb
    cases h
    simp only [hlen, hsize, UInt32.ofNat_toNat]
    rw [take32_eq_some.mp h₁, take32_eq_some.mp h₂, take32_eq_some.mp h₃, hs₄, take32_eq_some.mp h₅, hs₆]
  · rintro rfl
    refine ⟨_, _, take32_bytes32 _ _, _, _, take32_bytes32 _ _, _, _, take32_bytes32 _ _, r.digests, _,
      Digest.readMany_eq_some.2 ⟨rfl, (toNat_digestCount r).symm⟩, _, _, take32_bytes32 _ _, r.eventData, rest, ?_, ?_⟩
    · rw [toNat_eventDataSize]
      exact takeBytes_append _ _
    · rw [dif_pos ⟨r.digests_le, r.eventData_lt⟩]

theorem write_length (r : EventRecord) : 16 ≤ r.write.length := by
  simp only [write, List.length_append, bytes32_length]
  omega

/-- Records as a self-delimiting code. -/
def code : PrefixCode EventRecord UInt8 where
  write := write
  read := read
  read_write _ _ := read_eq_some.mpr rfl
  write_read _ _ _ h := read_eq_some.mp h
  write_ne r h := by
    have := r.write_length
    rw [h, List.length_nil] at this
    omega

/-- The value the record gives last for an algorithm. -/
def lastDigest (r : EventRecord) (algId : UInt16) : Option Bytes :=
  (r.digests.reverse.find? (fun d => d.algId = algId)).map Digest.value

end EventRecord

/-- The digest map the loop builds, from one it already holds. -/
def insertDigests (m : DigestMap) (ds : List Digest) : DigestMap :=
  ds.foldl (fun m d => m.insert d.algId d.value) m

theorem find?_insertDigests (m : DigestMap) (ds : List Digest) (algId : UInt16) :
    (insertDigests m ds).find? algId =
      ((ds.reverse.find? (fun d => d.algId = algId)).map Digest.value).or (m.find? algId) := by
  induction ds generalizing m with
  | nil => simp [insertDigests]
  | cons d ds ih =>
    rw [insertDigests, List.foldl_cons]
    refine (ih _).trans ?_
    rw [OrdMap.find?_insert, List.reverse_cons, List.find?_append]
    cases ds.reverse.find? (fun d => d.algId = algId) with
    | some d' => rfl
    | none =>
      by_cases h : algId = d.algId
      · simp [h]
      · simp [h, Ne.symm h]

/-- The entry the loop builds for a record before classifying it. -/
def EventRecord.entry (r : EventRecord) : EventLogEntry :=
  ⟨r.pcrIndex, r.eventType, eventTypeName r.eventType, insertDigests .empty r.digests, r.eventData, [], none⟩

theorem EventRecord.entry_digests (r : EventRecord) (algId : UInt16) :
    r.entry.digests.find? algId = r.lastDigest algId := by
  rw [entry, find?_insertDigests, lastDigest]
  simp

section Refinement

/-- A cursor at the front of s with an exact count. -/
abbrev cursorAt (s : Bytes) : Cursor := ⟨s, s.length⟩

private theorem advance_of_split {s q rest : Bytes} {n : Nat} (h : s = q ++ rest) (hq : q.length = n) :
    (cursorAt s).advance n = cursorAt rest := by
  subst h hq
  exact Cursor.advance_append q rest

private theorem bytes16_remaining {v : UInt16} {s : Bytes} : ¬ (cursorAt (bytes16 v ++ s)).remaining < 2 := by
  change ¬ (bytes16 v ++ s).length < 2
  rw [List.length_append, bytes16_length]
  omega

/-- The loop body decodes a digest exactly when the code does. -/
private theorem readDigests_succ_none {n : Nat} {m : DigestMap} {s : Bytes} (h : Digest.read s = none) :
    readDigests (n + 1) m (cursorAt s) = .ok none := by
  rw [readDigests]
  cases h₁ : take16 s with
  | none => exact if_pos (take16_eq_none.mp h₁)
  | some f₁ =>
    obtain ⟨algId, s₁⟩ := f₁
    have hs := take16_eq_some.mp h₁
    have hlen : ¬ (cursorAt s).remaining < 2 := hs ▸ bytes16_remaining
    rw [if_neg hlen, advance_of_split hs (bytes16_length algId)]
    simp only [hs, readU16LE_bytes16, ok_bind]
    cases hn : digestSize algId with
    | none => rfl
    | some size =>
      by_cases hsize : s₁.length < size
      · exact if_pos hsize
      · obtain ⟨⟨value, rest⟩, hv⟩ := Option.ne_none_iff_exists'.mp (mt takeBytes_eq_none.mp hsize)
        obtain ⟨hs₁, hlen₁⟩ := takeBytes_eq_some.mp hv
        have hd : Digest.read s = some (⟨algId, value, by rw [hn, hlen₁]⟩, rest) :=
          Digest.read_eq_some.2 (by rw [hs, hs₁, Digest.write, List.append_assoc])
        rw [h] at hd
        cases hd

private theorem readDigests_succ_write {n : Nat} {m : DigestMap} {d : Digest} {rest : Bytes} :
    readDigests (n + 1) m (cursorAt (d.write ++ rest)) =
      readDigests n (m.insert d.algId d.value) (cursorAt rest) := by
  have hs : d.write ++ rest = bytes16 d.algId ++ (d.value ++ rest) := by rw [Digest.write, List.append_assoc]
  have hlen : ¬ (cursorAt (d.write ++ rest)).remaining < 2 := hs ▸ bytes16_remaining
  have hlen₁ : ¬ (cursorAt (d.value ++ rest)).remaining < d.value.length := by simp
  rw [readDigests, if_neg hlen, advance_of_split hs (bytes16_length _)]
  simp only [hs, readU16LE_bytes16, ok_bind, d.sized]
  rw [if_neg hlen₁, readRange_append, ok_bind, advance_of_split rfl rfl]

/-- The digest loop decodes digests exactly when the code does. -/
theorem readDigests_cursorAt (n : Nat) (m : DigestMap) (s : Bytes) :
    readDigests n m (cursorAt s) =
      .ok ((Digest.readMany n s).map fun f => (insertDigests m f.1, cursorAt f.2)) := by
  induction n generalizing m s with
  | zero => rfl
  | succ n ih =>
    rw [Digest.readMany]
    cases h : Digest.read s with
    | none => exact readDigests_succ_none h
    | some f =>
      obtain ⟨d, rest⟩ := f
      rw [Digest.read_eq_some.1 h, readDigests_succ_write, ih, Option.bind_some]
      change _ = Except.ok (((Digest.readMany n rest).map _).map _)
      cases Digest.readMany n rest <;> rfl

/-- What a 32-bit field at the front of s gives both readers. -/
private theorem field32 {s rest : Bytes} {v : UInt32} (h : s = bytes32 v ++ rest) :
    take32 s = some (v, rest) ∧ readU32LE s = .ok v ∧ (cursorAt s).advance 4 = cursorAt rest ∧
      ¬ (cursorAt s).remaining < 4 := by
  refine ⟨take32_eq_some.mpr h, ?_, advance_of_split h (bytes32_length v), by simp [h]⟩
  rw [h]
  exact readU32LE_bytes32 v rest

/-- The event data and its size, read after the digests. -/
private theorem eventData_cursorAt (s : Bytes) (f : Bytes → EventLogEntry) :
    (if (cursorAt s).remaining < 4 then (pure none : Checked (Option (EventLogEntry × Cursor)))
      else do
        let eventDataSize ← readU32LE s
        if ((cursorAt s).advance 4).remaining < eventDataSize.toNat then pure none
          else do
            let eventData ← readRange ((cursorAt s).advance 4).p eventDataSize.toNat
            pure (some (f eventData, ((cursorAt s).advance 4).advance eventDataSize.toNat))) =
      .ok (((take32 s).bind fun g => takeBytes g.1.toNat g.2).map fun k => (f k.1, cursorAt k.2)) := by
  cases h : take32 s with
  | none =>
    rw [if_pos (take32_eq_none.mp h)]
    rfl
  | some g =>
    obtain ⟨size, s'⟩ := g
    obtain ⟨-, hread, hadv, hrem⟩ := field32 (take32_eq_some.mp h)
    rw [if_neg hrem, hread, hadv, ok_bind, Option.bind_some]
    cases hk : takeBytes size.toNat s' with
    | none =>
      rw [if_pos (takeBytes_eq_none.mp hk)]
      rfl
    | some k =>
      obtain ⟨data, rest⟩ := k
      obtain ⟨hs, hsize⟩ := takeBytes_eq_some.mp hk
      have hrem' : ¬ (cursorAt s').remaining < size.toNat := by simp [hs, hsize]
      rw [if_neg hrem', advance_of_split hs hsize]
      simp only [hs, ← hsize, readRange_append, ok_bind, pure_eq_ok, Option.map_some]

/-- One pass of the record loop decodes a record exactly when the code does. -/
theorem readRecord_cursorAt {s : Bytes} (h12 : 12 ≤ s.length) :
    readRecord (cursorAt s) = .ok ((EventRecord.read s).map fun f => (f.1.entry, cursorAt f.2)) := by
  obtain ⟨pcrIndex, s₁, hs⟩ := exists_bytes32 (s := s) (by omega)
  have hlen := congrArg List.length hs
  rw [List.length_append, bytes32_length] at hlen
  obtain ⟨eventType, s₂, hs₁⟩ := exists_bytes32 (s := s₁) (by omega)
  have hlen₁ := congrArg List.length hs₁
  rw [List.length_append, bytes32_length] at hlen₁
  obtain ⟨count, s₃, hs₂⟩ := exists_bytes32 (s := s₂) (by omega)
  obtain ⟨take₁, read₁, adv₁, -⟩ := field32 hs
  obtain ⟨take₂, read₂, adv₂, -⟩ := field32 hs₁
  obtain ⟨take₃, read₃, adv₃, hrem⟩ := field32 hs₂
  simp only [readRecord, EventRecord.read, read₁, adv₁, read₂, adv₂, ok_bind, take₁, take₂, take₃, Option.bind_some]
  rw [if_neg hrem, read₃, adv₃, ok_bind, readDigests_cursorAt]
  cases hd : Digest.readMany count.toNat s₃ with
  | none => split_ifs <;> rfl
  | some f =>
    obtain ⟨ds, s₄⟩ := f
    have hcount := (Digest.readMany_eq_some.1 hd).2
    simp only [Option.map_some, ok_bind, Option.bind_some]
    by_cases h8 : 8 < count.toNat
    · have hds : ¬ ds.length ≤ 8 := by omega
      rw [if_pos h8]
      simp only [hds, false_and, dite_false, Option.bind_fun_none, Option.map_none, pure_eq_ok]
    · have hds : ds.length ≤ 8 := by omega
      rw [if_neg h8]
      refine (eventData_cursorAt s₄ fun data =>
        ⟨pcrIndex, eventType, eventTypeName eventType, insertDigests .empty ds, data, [], none⟩).trans ?_
      cases take32 s₄ with
      | none => rfl
      | some g =>
        simp only [Option.bind_some]
        cases hk : takeBytes g.1.toNat g.2 with
        | none => rfl
        | some k =>
          have hdata : k.1.length < 2 ^ 32 := (takeBytes_eq_some.mp hk).2 ▸ g.1.toNat_lt
          rw [Option.bind_some, dif_pos ⟨hds, hdata⟩]
          rfl

/-- The records the loop meets from s on. -/
def recordsFrom (s : Bytes) : List EventRecord := (EventRecord.code.readAll s).1

/-- Classify a decoded record. -/
def classifyRecord (a : EventLogAnalysis) (r : EventRecord) : Checked EventLogAnalysis := classifyEntry a r.entry

theorem read_none_of_short {s : Bytes} (h : s.length < 12) : EventRecord.read s = none := by
  cases hr : EventRecord.read s with
  | none => rfl
  | some f =>
    have hlen := congrArg List.length (EventRecord.read_eq_some.1 hr)
    have := f.1.write_length
    rw [List.length_append] at hlen
    omega

/-- The record loop is a fold of the classification over the longest sequence of records. -/
theorem parseLoop_cursorAt (s : Bytes) (a : EventLogAnalysis) :
    parseLoop (cursorAt s) a = (recordsFrom s).foldlM classifyRecord a := by
  induction s using EventRecord.code.readAll_induction generalizing a with
  | stop s h =>
    rw [recordsFrom, EventRecord.code.readAll_none h, parseLoop]
    split_ifs with hc
    · have hr := readRecord_cursorAt hc
      rw [show EventRecord.read s = none from h] at hr
      split
      · simp_all
      · rfl
      · simp_all
    · rfl
  | step s r rest h ih =>
    have hc : 12 ≤ s.length := by
      by_contra hc
      rw [show EventRecord.code.read s = EventRecord.read s from rfl, read_none_of_short (by omega)] at h
      cases h
    have hr := readRecord_cursorAt hc
    rw [show EventRecord.read s = some (r, rest) from h] at hr
    rw [recordsFrom, EventRecord.code.readAll_some h, parseLoop, dif_pos hc, List.foldlM_cons]
    split
    · simp_all
    · simp_all
    · rename_i entry c' hr'
      rw [hr] at hr'
      cases hr'
      exact congrArg _ (funext ih)

end Refinement
end RootHerald.Boot
