import RootHerald.Boot.EventLogDecoding

/-! Where decoding starts behind a Spec ID header. The length of the header record is summed in 32
bits, and a header that overruns the log leaves the cursor in front of it. -/
namespace RootHerald.Boot
open Lib

/-- The end of the header record, without wrapping. -/
def headerEnd (rawLog : Bytes) : Nat := 32 + (wordAt rawLog 28).toNat

/-- Decoding starts behind the header record, and a header that overruns the log leaves no entries. -/
def HeaderSkipped (rawLog : Bytes) : Prop :=
  (headerEnd rawLog ≤ rawLog.length → skipHeader ⟨rawLog, rawLog.length⟩ =
    .ok ⟨rawLog.drop (headerEnd rawLog), rawLog.length - headerEnd rawLog⟩) ∧
  (rawLog.length < headerEnd rawLog → ∃ a, parseAndAnalyzeEventLog rawLog = .ok a ∧ a.entries = [])

/-- A well-formed record starts at byte i. -/
def RecordAt (rawLog : Bytes) (i : Nat) : Prop := (EventRecord.read (rawLog.drop i)).isSome

instance (rawLog : Bytes) (i : Nat) : Decidable (RecordAt rawLog i) := inferInstanceAs (Decidable (_ = true))

section Start
variable {rawLog : Bytes}

private theorem skip_toNat (rawLog : Bytes) : (32 + wordAt rawLog 28).toNat = headerEnd rawLog % 2 ^ 32 :=
  UInt32.toNat_add 32 _

/-- The header step moves by the wrapped length, or not at all. -/
theorem afterHeader_eq_drop (h32 : 32 ≤ rawLog.length) (hty : wordAt rawLog 4 = EV_NO_ACTION) :
    afterHeader rawLog = rawLog.drop
      (if headerEnd rawLog % 2 ^ 32 ≤ rawLog.length then headerEnd rawLog % 2 ^ 32 else 0) := by
  have h₄ := take32_drop (show 4 + 4 ≤ rawLog.length by omega)
  have h₂₈ := take32_drop (show 28 + 4 ≤ rawLog.length by omega)
  simp only [afterHeader, h₄, h₂₈, hty, skip_toNat, true_and]
  split_ifs <;> rfl

/-- A log gives no entries exactly when no record starts behind its header step. -/
theorem no_entries_iff : (∃ a, parseAndAnalyzeEventLog rawLog = .ok a ∧ a.entries = []) ↔
    EventRecord.read (afterHeader rawLog) = none := by
  have hrecords : decodedRecords rawLog = [] ↔ EventRecord.read (afterHeader rawLog) = none := by
    constructor
    · intro h
      have hleft := EventRecord.code.read_leftover (afterHeader rawLog)
      have hsplit := EventRecord.code.writeAll_readAll (afterHeader rawLog)
      rw [show (EventRecord.code.readAll (afterHeader rawLog)).1 = [] from h, PrefixCode.writeAll_nil,
        List.nil_append] at hsplit
      rwa [← hsplit] at hleft
    · intro h
      rw [decodedRecords, recordsFrom, EventRecord.code.readAll_none h]
  rw [← hrecords]
  constructor
  · rintro ⟨a, ha, hnil⟩
    obtain ⟨a₀, ⟨⟨es, hes, hrs⟩, -, -, -⟩, rfl⟩ := parse_analyses ha
    rw [generateVerdict_entries, hes] at hnil
    rw [show es = [] from hnil] at hrs
    exact List.forall₂_nil_right_iff.mp hrs
  · intro h
    have hbounds : ∀ r ∈ decodedRecords rawLog, r.InBounds := by simp [h]
    obtain ⟨a, ha⟩ := parse_ok_of_inBounds hbounds
    obtain ⟨a₀, ⟨⟨es, hes, hrs⟩, -, -, -⟩, rfl⟩ := parse_analyses ha
    rw [h, List.forall₂_nil_left_iff] at hrs
    exact ⟨_, ha, by rw [generateVerdict_entries, hes, hrs]; rfl⟩

/-- Two positions inside a log are told apart by what they leave. -/
private theorem drop_inj {i j : Nat} (hi : i ≤ rawLog.length) (hj : j ≤ rawLog.length)
    (h : rawLog.drop i = rawLog.drop j) : i = j := by
  have hlen := congrArg List.length h
  rw [List.length_drop, List.length_drop] at hlen
  omega

/-- Decoding that starts at a byte of the log skips the header exactly if it should start there. -/
private theorem headerSkipped_start {start : Nat} (hstart : start ≤ rawLog.length)
    (hafter : afterHeader rawLog = rawLog.drop start) : HeaderSkipped rawLog ↔
      (headerEnd rawLog ≤ rawLog.length → start = headerEnd rawLog) ∧
        (rawLog.length < headerEnd rawLog → ¬ RecordAt rawLog start) := by
  simp only [HeaderSkipped, no_entries_iff, skipHeader_eq, hafter, RecordAt, Option.not_isSome_iff_eq_none]
  refine and_congr_left fun _ => forall_congr' fun hfit => ⟨fun h => ?_, fun h => ?_⟩
  · exact drop_inj hstart hfit (congrArg Cursor.p (Except.ok.inj h))
  · rw [h, cursorAt, List.length_drop]

/-- A header is skipped as its length says exactly when the end of the header stays below 2^32 and inside
the log, or when it overruns the log and no record starts where the cursor is left: in front of the
header, or where the wrapped length leads. -/
theorem header_skipped_iff (rawLog : Bytes) (h32 : 32 ≤ rawLog.length) (hty : wordAt rawLog 4 = EV_NO_ACTION) :
    HeaderSkipped rawLog ↔
      (headerEnd rawLog < 2 ^ 32 ∧ (headerEnd rawLog ≤ rawLog.length ∨ ¬ RecordAt rawLog 0)) ∨
      (2 ^ 32 ≤ headerEnd rawLog ∧ rawLog.length < headerEnd rawLog ∧
        ¬ RecordAt rawLog (headerEnd rawLog - 2 ^ 32)) := by
  have hafter := afterHeader_eq_drop h32 hty
  have hsize : headerEnd rawLog < 2 ^ 32 + 32 := by
    have := (wordAt rawLog 28).toNat_lt
    unfold headerEnd
    omega
  by_cases hwrap : headerEnd rawLog < 2 ^ 32
  · rw [Nat.mod_eq_of_lt hwrap] at hafter
    by_cases hfit : headerEnd rawLog ≤ rawLog.length
    · rw [if_pos hfit] at hafter
      rw [headerSkipped_start hfit hafter]
      exact iff_of_true ⟨fun _ => rfl, fun h => absurd hfit (not_le.mpr h)⟩ (.inl ⟨hwrap, .inl hfit⟩)
    · rw [if_neg hfit] at hafter
      rw [headerSkipped_start (Nat.zero_le _) hafter]
      constructor
      · rintro ⟨-, hnone⟩
        exact .inl ⟨hwrap, .inr (hnone (not_le.mp hfit))⟩
      · rintro (⟨-, h | hnone⟩ | ⟨h, -⟩)
        · exact absurd h hfit
        · exact ⟨fun h => absurd h hfit, fun _ => hnone⟩
        · omega
  · have hmod : headerEnd rawLog % 2 ^ 32 = headerEnd rawLog - 2 ^ 32 := by omega
    have hinside : headerEnd rawLog - 2 ^ 32 ≤ rawLog.length := by omega
    rw [hmod, if_pos hinside] at hafter
    rw [headerSkipped_start hinside hafter]
    constructor
    · rintro ⟨hstart, hnone⟩
      -- the cursor is 2^32 bytes in front of the end of the header
      have hover : rawLog.length < headerEnd rawLog := by
        by_contra hfit
        have := hstart (not_lt.mp hfit)
        omega
      exact .inr ⟨not_lt.mp hwrap, hover, hnone hover⟩
    · rintro (⟨h, -⟩ | ⟨-, hover, hnone⟩)
      · exact absurd h hwrap
      · exact ⟨fun h => absurd hover (not_lt.mpr h), fun _ => hnone⟩

end Start

/-- A header of no digest that declares one byte of event data the log does not have. -/
def overrunningHeader : Bytes := bytes32 0 ++ bytes32 EV_NO_ACTION ++ List.replicate 20 0 ++ bytes32 1

/-- Its first sixteen bytes come back as a record. -/
theorem header_read_as_event :
    ¬ ∀ rawLog : Bytes, 32 ≤ rawLog.length → wordAt rawLog 4 = EV_NO_ACTION → HeaderSkipped rawLog := by
  intro h
  have hover : overrunningHeader.length < headerEnd overrunningHeader := by decide
  have hskipped := (h overrunningHeader (by decide) (by decide)).2 hover
  have hafter : afterHeader overrunningHeader = overrunningHeader := by decide
  rw [no_entries_iff, hafter, ← Option.not_isSome_iff_eq_none] at hskipped
  exact hskipped (by decide)

theorem header_skipped_empty : HeaderSkipped emptyHeader.write :=
  (header_skipped_iff emptyHeader.write (by decide) (by decide)).mpr
    (.inl ⟨by decide, .inl (by decide)⟩)

end RootHerald.Boot
