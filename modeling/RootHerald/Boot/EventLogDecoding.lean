import Mathlib.Data.List.Forall2
import RootHerald.Boot.EventLogRun

/-! What the parser reads and what it returns: its reads stay inside their vectors exactly on the
logs whose variable names do, and there it returns the records of the log. -/
namespace RootHerald.Boot
open Lib

section Reads

/-- Every read of the parser lies inside the vector it indexes exactly when every variable record
the log decodes to holds its name. -/
theorem parseAndAnalyzeEventLog_inBounds_iff (rawLog : Bytes) :
    (∃ a, parseAndAnalyzeEventLog rawLog = .ok a) ↔
      ∀ r ∈ decodedRecords rawLog, IsVariableEvent r.eventType → NameInBounds r.eventData := by
  constructor
  · rintro ⟨a, h⟩
    exact inBounds_of_parse_ok h
  · exact parse_ok_of_inBounds

/-- A variable header alone, with a UnicodeNameLength whose double is zero in 64 bits. -/
def wrappedNameRecord : EventRecord where
  pcrIndex := 7
  eventType := EV_EFI_VARIABLE_DRIVER_CONFIG
  digests := []
  eventData := List.replicate 16 0 ++ leBytes 8 (2 ^ 63) ++ List.replicate 8 0
  digests_le := EventRecord.noDigests_le
  eventData_lt := by decide

/-- A Spec ID header without event data. -/
def emptyHeader : SpecIdHeader where
  pcrIndex := 0
  digest := List.replicate 20 0
  eventData := []
  digest_length := rfl
  skip_lt := by decide

theorem parseAndAnalyzeEventLog_reads_past_end :
    ¬ ∀ rawLog, ∃ a, parseAndAnalyzeEventLog rawLog = .ok a := by
  intro h
  obtain ⟨a, ha⟩ := h (emptyHeader.write ++ EventRecord.code.writeAll [wrappedNameRecord])
  have hmem : wrappedNameRecord ∈ decodedRecords (emptyHeader.write ++ EventRecord.code.writeAll [wrappedNameRecord]) := by
    rw [SpecIdHeader.decodedRecords_writeAll]
    exact List.mem_singleton_self _
  exact absurd (inBounds_of_parse_ok ha _ hmem) (by decide +kernel)

end Reads

section Records

/-- The entry has the record's index, type and data, and its value last given for each algorithm. -/
def EventRecord.DecodesTo (r : EventRecord) (e : EventLogEntry) : Prop :=
  e.pcrIndex = r.pcrIndex ∧ e.eventType = r.eventType ∧ (∀ algId, e.digests.find? algId = r.lastDigest algId) ∧
    e.eventData = r.eventData

theorem EventRecord.Classified.decodesTo {r : EventRecord} {e : EventLogEntry} (h : r.Classified e) :
    r.DecodesTo e := by
  obtain ⟨d, rfl⟩ := h
  exact ⟨rfl, rfl, r.entry_digests, rfl⟩

/-- Behind a header the parser returns the records of the rest in order. -/
theorem SpecIdHeader.parse_decodes (h : SpecIdHeader) {rest : Bytes} {a : EventLogAnalysis}
    (ha : parseAndAnalyzeEventLog (h.write ++ rest) = .ok a) :
    List.Forall₂ EventRecord.DecodesTo (recordsFrom rest) a.entries := by
  obtain ⟨a₀, ⟨⟨es, hes, hrs⟩, -, -, -⟩, rfl⟩ := parse_analyses ha
  rw [h.decodedRecords_write] at hrs
  rw [generateVerdict_entries, hes]
  exact hrs.imp fun _ _ => EventRecord.Classified.decodesTo

/-- Written records come back, and of any bytes the longest sequence of records they start with. -/
theorem parseAndAnalyzeEventLog_records (h : SpecIdHeader) :
    (∀ rs : List EventRecord, (∀ r ∈ rs, r.InBounds) →
      ∃ a, parseAndAnalyzeEventLog (h.write ++ EventRecord.code.writeAll rs) = .ok a ∧
        List.Forall₂ EventRecord.DecodesTo rs a.entries) ∧
    ∀ rest : Bytes, ∃ rs, EventRecord.code.IsLongest rest rs ∧ ((∀ r ∈ rs, r.InBounds) →
      ∃ a, parseAndAnalyzeEventLog (h.write ++ rest) = .ok a ∧
        List.Forall₂ EventRecord.DecodesTo rs a.entries) := by
  constructor
  · intro rs hrs
    have hin : ∀ r ∈ decodedRecords (h.write ++ EventRecord.code.writeAll rs), r.InBounds := by
      rwa [h.decodedRecords_writeAll]
    obtain ⟨a, ha⟩ := parse_ok_of_inBounds hin
    have hdecodes := h.parse_decodes ha
    rw [← h.decodedRecords_write, h.decodedRecords_writeAll] at hdecodes
    exact ⟨a, ha, hdecodes⟩
  · intro rest
    refine ⟨recordsFrom rest, EventRecord.code.readAll_isLongest rest, fun hrs => ?_⟩
    have hin : ∀ r ∈ decodedRecords (h.write ++ rest), r.InBounds := by
      rwa [h.decodedRecords_write]
    obtain ⟨a, ha⟩ := parse_ok_of_inBounds hin
    exact ⟨a, ha, h.parse_decodes ha⟩

/-- Pairwise distinct algorithms. -/
def EventRecord.DistinctAlgorithms (r : EventRecord) : Prop := (r.digests.map Digest.algId).Nodup

/-- as is the longest sequence of records with distinct algorithms that s starts with. -/
def IsLongestDistinct (s : Bytes) (rs : List EventRecord) : Prop :=
  (∀ r ∈ rs, r.DistinctAlgorithms) ∧ (∃ rest, s = EventRecord.code.writeAll rs ++ rest) ∧
    ∀ rs' rest, (∀ r ∈ rs', r.DistinctAlgorithms) → s = EventRecord.code.writeAll rs' ++ rest → rs' <+: rs

/-- A separator with two SHA-1 digests. -/
def repeatedDigestRecord : EventRecord where
  pcrIndex := 0
  eventType := EV_SEPARATOR
  digests := [⟨0x0004, List.replicate 20 0, rfl⟩, ⟨0x0004, List.replicate 20 1, rfl⟩]
  eventData := []
  digests_le := by decide
  eventData_lt := EventRecord.noEventData_lt

/-- The parser takes a record that repeats an algorithm. -/
theorem parseAndAnalyzeEventLog_repeated_algorithm :
    ¬ ∀ (h : SpecIdHeader) (rest : Bytes) (a : EventLogAnalysis),
      parseAndAnalyzeEventLog (h.write ++ rest) = .ok a →
        ∃ rs, IsLongestDistinct rest rs ∧ List.Forall₂ EventRecord.DecodesTo rs a.entries := by
  intro hall
  have hrs : recordsFrom (EventRecord.code.writeAll [repeatedDigestRecord]) = [repeatedDigestRecord] := by
    rw [← emptyHeader.decodedRecords_write, emptyHeader.decodedRecords_writeAll]
  have hin : ∀ r ∈ decodedRecords (emptyHeader.write ++ EventRecord.code.writeAll [repeatedDigestRecord]), r.InBounds := by
    rw [emptyHeader.decodedRecords_writeAll]
    decide
  obtain ⟨a, ha⟩ := parse_ok_of_inBounds hin
  have hlen := (emptyHeader.parse_decodes ha).length_eq
  rw [hrs] at hlen
  obtain ⟨rs, ⟨hdistinct, ⟨rest, hsplit⟩, -⟩, hdecodes⟩ := hall _ _ _ ha
  have hprefix := EventRecord.code.prefix_readAll hsplit
  rw [show (EventRecord.code.readAll (EventRecord.code.writeAll [repeatedDigestRecord])).1 = _ from hrs] at hprefix
  have heq : rs = [repeatedDigestRecord] := hprefix.eq_of_length (hdecodes.length_eq.trans hlen.symm)
  exact absurd (hdistinct repeatedDigestRecord (heq ▸ List.mem_singleton_self _)) (by
    unfold EventRecord.DistinctAlgorithms; decide)

end Records
end RootHerald.Boot
