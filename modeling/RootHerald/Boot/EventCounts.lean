import RootHerald.Boot.EventLogDecoding

/-! The counters of the analysis: each arm of the switch counts its entry under the class it sets,
so the counters are the sizes of the classes and the verdict is a statement about the entries. -/
namespace RootHerald.Boot
open Lib

namespace EventLogAnalysis

/-- The counter of a class. -/
def count (a : EventLogAnalysis) : Classification → Nat
  | .verified => a.verifiedCount
  | .revoked => a.revokedCount
  | .unknown => a.unknownCount
  | .policy => a.policyCount

/-- The entries the switch put in a class. -/
def entriesOf (a : EventLogAnalysis) (c : Classification) : Nat :=
  a.entries.countP fun e => e.classification = some c

/-- Every counter is the size of its class, and every entry has one. -/
structure Counted (a : EventLogAnalysis) : Prop where
  count_eq : ∀ c, a.count c = a.entriesOf c
  classified : ∀ e ∈ a.entries, ∃ c, e.classification = some c

theorem count_push (a : EventLogAnalysis) (entry : EventLogEntry) (d : Bytes) (c c' : Classification) :
    (a.push entry d c).count c' = a.count c' + if c = c' then 1 else 0 := by
  cases c <;> cases c' <;> rfl

theorem entriesOf_push (a : EventLogAnalysis) (entry : EventLogEntry) (d : Bytes) (c c' : Classification) :
    (a.push entry d c).entriesOf c' = a.entriesOf c' + if c = c' then 1 else 0 := by
  simp [entriesOf, List.countP_append, List.countP_cons]

/-- An entry pushed under a class keeps the counters right. -/
theorem Counted.push {a : EventLogAnalysis} (h : a.Counted) (entry : EventLogEntry) (d : Bytes)
    (c : Classification) : (a.push entry d c).Counted where
  count_eq c' := by rw [count_push, entriesOf_push, h.count_eq]
  classified e he := by
    rw [push_entries, List.mem_append, List.mem_singleton] at he
    rcases he with he | rfl
    · exact h.classified e he
    · exact ⟨c, rfl⟩

/-- The settings of a variable leave counters and entries alone. -/
theorem Counted.settings {a : EventLogAnalysis} (h : a.Counted) (enabled keys : Bool) :
    { a with secureBootEnabled := enabled, secureBootMicrosoftKeys := keys }.Counted :=
  ⟨fun c => (show _ = a.count c by cases c <;> rfl).trans (h.count_eq c), h.classified⟩

theorem Counted.total {a : EventLogAnalysis} (h : a.Counted) :
    a.verifiedCount + a.policyCount + a.unknownCount + a.revokedCount = a.entries.length := by
  have hsum : ∀ es : List EventLogEntry, (∀ e ∈ es, ∃ c, e.classification = some c) →
      es.countP (fun e => e.classification = some .verified) + es.countP (fun e => e.classification = some .policy) +
        es.countP (fun e => e.classification = some .unknown) +
        es.countP (fun e => e.classification = some .revoked) = es.length := by
    intro es hes
    induction es with
    | nil => rfl
    | cons e es ih =>
      obtain ⟨⟨c, hc⟩, hes⟩ := List.forall_mem_cons.mp hes
      have := ih hes
      simp only [List.countP_cons, List.length_cons, hc, Option.some.injEq, decide_eq_true_eq]
      cases c <;> simp <;> omega
  have hc := h.count_eq
  have := hsum a.entries h.classified
  change a.entriesOf .verified + a.entriesOf .policy + a.entriesOf .unknown + a.entriesOf .revoked = _ at this
  rwa [← hc, ← hc, ← hc, ← hc] at this

end EventLogAnalysis

/-- One record, whichever arm it takes. -/
theorem classifyRecord_counted {a a' : EventLogAnalysis} {r : EventRecord} (h : classifyRecord a r = .ok a')
    (ha : a.Counted) : a'.Counted := by
  obtain ⟨d, m, rfl⟩ := classifyRecord_spec h
  exact (ha.settings _ m).push r.entry d r.switchClass

theorem generateVerdict_counted {a : EventLogAnalysis} (h : a.Counted) : (generateVerdict a).Counted := by
  have hcount : (generateVerdict a).count = a.count := by
    unfold generateVerdict
    split_ifs <;> (funext c; cases c <;> rfl)
  have hentries := generateVerdict_entries a
  refine ⟨fun c => ?_, by rw [hentries]; exact h.classified⟩
  rw [hcount, h.count_eq, EventLogAnalysis.entriesOf, EventLogAnalysis.entriesOf, hentries]

theorem parse_counted {rawLog : Bytes} {a : EventLogAnalysis} (h : parseAndAnalyzeEventLog rawLog = .ok a) :
    a.Counted ∧ ∃ a₀, a = generateVerdict a₀ := by
  rw [parseAndAnalyzeEventLog_eq] at h
  obtain ⟨a₀, h₀, ha⟩ := bind_eq_ok h
  cases ha
  have hempty : ({} : EventLogAnalysis).Counted := ⟨fun c => by cases c <;> rfl, by simp⟩
  exact ⟨generateVerdict_counted (foldlM_keeps (fun _ _ _ ha h => classifyRecord_counted h ha) h₀ hempty), a₀, rfl⟩

/-- A counter is an int: it fits on every log below 32 GiB. -/
theorem entries_fit {rawLog : Bytes} {a : EventLogAnalysis} (h : parseAndAnalyzeEventLog rawLog = .ok a)
    (hlog : rawLog.length < 2 ^ 35) : a.entries.length < 2 ^ 31 := by
  obtain ⟨a₀, ⟨⟨es, hes, hrs⟩, -, -, -⟩, rfl⟩ := parse_analyses h
  have hlen : (decodedRecords rawLog).length = es.length := hrs.length_eq
  have hbytes : ∀ rs : List EventRecord, 16 * rs.length ≤ (EventRecord.code.writeAll rs).length := by
    intro rs
    induction rs with
    | nil => simp
    | cons r rs ih =>
      have : 16 ≤ (EventRecord.code.write r).length := r.write_length
      rw [PrefixCode.writeAll_cons, List.length_append, List.length_cons]
      omega
  have hsplit := congrArg List.length (EventRecord.code.writeAll_readAll (afterHeader rawLog))
  have := hbytes (decodedRecords rawLog)
  have := afterHeader_length_le rawLog
  rw [List.length_append] at hsplit
  rw [generateVerdict_entries, hes]
  change es.length < 2 ^ 31
  unfold decodedRecords recordsFrom at *
  omega

private theorem generateVerdict_cases {a a₀ : EventLogAnalysis} (h : a = generateVerdict a₀) :
    a.verdict = some (if a.secureBootEnabled ∧ a.unknownCount = 0 ∧ a.revokedCount = 0 then .pass
      else if a.secureBootEnabled ∧ 0 < a.unknownCount ∧ a.revokedCount = 0 then .warning
      else .fail) := by
  subst h
  unfold generateVerdict
  by_cases hsb : a₀.secureBootEnabled <;> by_cases hr : a₀.revokedCount = 0 <;>
    by_cases hu : a₀.unknownCount = 0
  all_goals simp [hsb, hr, hu, Nat.pos_iff_ne_zero]

private theorem entriesOf_eq_zero {a : EventLogAnalysis} {c : Classification} :
    a.entriesOf c = 0 ↔ ∀ e ∈ a.entries, e.classification ≠ some c := by
  simp [EventLogAnalysis.entriesOf, List.countP_eq_zero]

private theorem entriesOf_pos {a : EventLogAnalysis} {c : Classification} :
    0 < a.entriesOf c ↔ ∃ e ∈ a.entries, e.classification = some c := by
  simp [EventLogAnalysis.entriesOf, List.countP_pos_iff]

/-- The counters of an analysed log are the sizes of the classes, they add up to the entries, and the
verdict is the one of the entries. -/
theorem analysis_counts (rawLog : Bytes) (a : EventLogAnalysis) (h : parseAndAnalyzeEventLog rawLog = .ok a) :
    (a.verifiedCount = a.entriesOf .verified ∧ a.policyCount = a.entriesOf .policy ∧
      a.unknownCount = a.entriesOf .unknown ∧ a.revokedCount = a.entriesOf .revoked) ∧
    a.verifiedCount + a.policyCount + a.unknownCount + a.revokedCount = a.entries.length ∧
    a.verdict = some (
      if a.secureBootEnabled ∧
          ∀ e ∈ a.entries, e.classification ≠ some .unknown ∧ e.classification ≠ some .revoked then .pass
      else if a.secureBootEnabled ∧ (∃ e ∈ a.entries, e.classification = some .unknown) ∧
          ∀ e ∈ a.entries, e.classification ≠ some .revoked then .warning
      else .fail) := by
  obtain ⟨hcounted, a₀, ha⟩ := parse_counted h
  have hunknown : a.unknownCount = a.entriesOf .unknown := hcounted.count_eq .unknown
  have hrevoked : a.revokedCount = a.entriesOf .revoked := hcounted.count_eq .revoked
  refine ⟨⟨hcounted.count_eq .verified, hcounted.count_eq .policy, hunknown, hrevoked⟩, hcounted.total, ?_⟩
  rw [generateVerdict_cases ha, hunknown, hrevoked]
  simp only [entriesOf_eq_zero, entriesOf_pos, forall₂_and]

theorem analysis_counts_separator :
    ∃ a, parseAndAnalyzeEventLog (emptyHeader.write ++ EventRecord.code.writeAll [repeatedDigestRecord]) = .ok a ∧
      a.verifiedCount + a.policyCount + a.unknownCount + a.revokedCount = a.entries.length := by
  have hin : ∀ r ∈ decodedRecords (emptyHeader.write ++ EventRecord.code.writeAll [repeatedDigestRecord]),
      r.InBounds := by
    rw [emptyHeader.decodedRecords_writeAll]
    decide
  obtain ⟨a, ha⟩ := parse_ok_of_inBounds hin
  exact ⟨a, ha, (analysis_counts _ a ha).2.1⟩

end RootHerald.Boot
