import RootHerald.Boot.EventLogDecoding
import RootHerald.Boot.VariableData

/-! The Secure Boot state of a log of well-formed variables: the first data byte of the last variable
named SecureBoot, whatever its GUID, PCR and lengths. -/
namespace RootHerald.Boot
open Lib

private theorem plainName_secureBoot : PlainName (text "SecureBoot") := by decide

/-- The second offset agrees with the first: the byte tested is the first data byte. -/
theorem isSecureBootEnabled_write {v : VariableData} (h : v.write.length < 2 ^ 64)
    (hname : 1 ≤ v.name.length) :
    isSecureBootEnabled (text "SecureBoot") v.write = .ok (v.data.head? = some 1) := by
  have hlen := v.write_length
  have hm : (UInt64.ofNat (leNat ((v.write.drop 24).take 8))).toNat = v.data.length := v.dataLength_write h
  have hoffset : (32 + UInt64.ofNat (leNat ((v.write.drop 16).take 8)) * 2).toNat = 32 + 2 * v.name.length :=
    v.dataOffset_write h
  unfold isSecureBootEnabled
  rw [if_neg (not_not.mpr rfl)]
  by_cases h33 : v.write.length < 33
  · omega
  rw [if_neg h33, readU64LE_ok (by rw [List.length_drop]; omega), readU64LE_ok (by rw [List.length_drop]; omega)]
  simp only [ok_bind, hoffset, v.drop_name, UInt64.le_iff_toNat_le, hm]
  cases hdata : v.data with
  | nil => simp
  | cons b data =>
    rw [hdata, List.length_cons] at hlen
    rw [if_pos ⟨by omega, by simp⟩]
    simp [readU8]

/-- A variable event that carries v, whose name up to its first NUL is SecureBoot. -/
def IsSecureBootEvent (r : EventRecord) (v : VariableData) : Prop :=
  IsVariableEvent r.eventType ∧ r.eventData = v.write ∧ v.shortName = asUnits (text "SecureBoot")

/-- A record of well-formed variable data, if it is a variable event at all. -/
def EventRecord.WellFormedVariable (r : EventRecord) : Prop :=
  IsVariableEvent r.eventType → ∃ v : VariableData, r.eventData = v.write

theorem VariableData.length_lt {r : EventRecord} {v : VariableData} (h : r.eventData = v.write) :
    v.write.length < 2 ^ 64 :=
  h ▸ r.eventData_lt.trans (by decide)

theorem EventRecord.WellFormedVariable.inBounds {r : EventRecord} (h : r.WellFormedVariable) : r.InBounds := by
  intro hv
  obtain ⟨v, hv⟩ := h hv
  rw [hv]
  exact v.nameInBounds_write (VariableData.length_lt hv)

/-- The analyser finds the name the format gives. -/
theorem extractEfiVariableName_write {r : EventRecord} {v : VariableData} (h : r.eventData = v.write) :
    extractEfiVariableName r.eventData = .ok (text "SecureBoot") ↔ v.shortName = asUnits (text "SecureBoot") := by
  have hlen := VariableData.length_lt h
  obtain ⟨name, hname⟩ := (variableName_ok_iff _ _).mpr (v.nameInBounds_write hlen)
  change extractEfiVariableName v.write = _ at hname
  rw [h, hname, Except.ok.injEq, extractEfiVariableName_eq_uefiName hname plainName_secureBoot (v.nameFits_write hlen),
    v.uefiName_write hlen, Option.some.injEq]

/-- What a SecureBoot event sets. -/
theorem secureBootSetting_event {r : EventRecord} {v : VariableData} (h : IsSecureBootEvent r v) :
    r.secureBootSetting = some (v.data.head? = some 1 : Bool) := by
  obtain ⟨hty, hdata, hname⟩ := h
  have hlong : 1 ≤ v.name.length := by
    have htake := (List.takeWhile_prefix (p := (· ≠ 0)) (l := v.name)).length_le
    have : v.shortName.length = 10 := by
      rw [hname]
      decide
    rw [VariableData.shortName] at this
    omega
  rw [EventRecord.secureBootSetting, if_pos ⟨hty, (extractEfiVariableName_write hdata).mpr hname⟩, hdata,
    isSecureBootEnabled_write (VariableData.length_lt hdata) hlong]
  simp

/-- No other record sets the state. -/
theorem secureBootSetting_none {r : EventRecord} (h : r.WellFormedVariable) (hno : ∀ v, ¬ IsSecureBootEvent r v) :
    r.secureBootSetting = none := by
  apply if_neg
  rintro ⟨hty, hname⟩
  obtain ⟨v, hv⟩ := h hty
  exact hno v ⟨hty, hv, (extractEfiVariableName_write hv).mp hname⟩

theorem lastSetting_true_iff {rs : List EventRecord} (hrs : ∀ r ∈ rs, r.WellFormedVariable) :
    lastSetting rs = some true ↔ ∃ before r after v, rs = before ++ r :: after ∧ IsSecureBootEvent r v ∧
      (∀ r' ∈ after, ∀ v', ¬ IsSecureBootEvent r' v') ∧ v.data.head? = some 1 := by
  rw [lastSetting, List.getLast?_filterMap, List.findSome?_eq_some_iff]
  constructor
  · rintro ⟨l₁, r, l₂, hsplit, hset, hnone⟩
    have hrs' : rs = l₂.reverse ++ r :: l₁.reverse := by
      rw [← List.reverse_reverse rs, hsplit]
      simp
    have hr := hrs r (by simp [hrs'])
    by_cases hsb : ∃ v, IsSecureBootEvent r v
    · obtain ⟨v, hv⟩ := hsb
      rw [secureBootSetting_event hv] at hset
      refine ⟨_, r, _, v, hrs', hv, fun r' hr' v' hv' => ?_, by simpa using hset⟩
      have := hnone r' (List.mem_reverse.mp hr')
      rw [secureBootSetting_event hv'] at this
      cases this
    · rw [secureBootSetting_none hr (not_exists.mp hsb)] at hset
      cases hset
  · rintro ⟨before, r, after, v, hsplit, hv, hafter, hdata⟩
    refine ⟨after.reverse, r, before.reverse, by simp [hsplit], ?_, fun r' hr' => ?_⟩
    · rw [secureBootSetting_event hv, hdata]
      simp
    · rw [List.mem_reverse] at hr'
      exact secureBootSetting_none (hrs r' (by simp [hsplit, hr'])) (hafter r' hr')

/-- A log of well-formed variables is on exactly when its last SecureBoot variable has data that starts
with the byte 1. -/
theorem secureBootEnabled_iff (h : SpecIdHeader) (rs : List EventRecord) (hrs : ∀ r ∈ rs, r.WellFormedVariable) :
    ∃ a, parseAndAnalyzeEventLog (h.write ++ EventRecord.code.writeAll rs) = .ok a ∧
      (a.secureBootEnabled = true ↔ ∃ before r after v, rs = before ++ r :: after ∧ IsSecureBootEvent r v ∧
        (∀ r' ∈ after, ∀ v', ¬ IsSecureBootEvent r' v') ∧ v.data.head? = some 1) := by
  have hin : ∀ r ∈ decodedRecords (h.write ++ EventRecord.code.writeAll rs), r.InBounds := by
    rw [h.decodedRecords_writeAll]
    exact fun r hr => (hrs r hr).inBounds
  obtain ⟨a, ha⟩ := parse_ok_of_inBounds hin
  refine ⟨a, ha, ?_⟩
  obtain ⟨a₀, ⟨-, hsb, -, -⟩, rfl⟩ := parse_analyses ha
  rw [generateVerdict_secureBootEnabled, hsb, h.decodedRecords_writeAll, ← lastSetting_true_iff hrs]
  cases lastSetting rs <;> simp

/-- A DRIVER_CONFIG record of a variable. -/
def variableRecord (pcrIndex : UInt32) (v : VariableData) (h : v.write.length < 2 ^ 32) : EventRecord :=
  ⟨pcrIndex, EV_EFI_VARIABLE_DRIVER_CONFIG, [], v.write, EventRecord.noDigests_le, h⟩

/-- A SecureBoot variable with a NUL behind its name, on. -/
def secureBootOn : VariableData := ⟨List.replicate 16 0, asUnits (text "SecureBoot") ++ [0, 65], [1], zeroGuid_length⟩

theorem secureBootOn_lt : secureBootOn.write.length < 2 ^ 32 := by decide

theorem secureBootEnabled_on : ∃ a,
    parseAndAnalyzeEventLog (emptyHeader.write ++
      EventRecord.code.writeAll [variableRecord 7 secureBootOn secureBootOn_lt]) = .ok a ∧
    a.secureBootEnabled = true := by
  obtain ⟨a, ha, hiff⟩ := secureBootEnabled_iff emptyHeader [variableRecord 7 secureBootOn secureBootOn_lt]
    (List.forall_mem_singleton.mpr fun _ => ⟨secureBootOn, rfl⟩)
  exact ⟨a, ha, hiff.mpr ⟨[], _, [], secureBootOn, rfl, ⟨.inl rfl, rfl, by decide⟩, by simp, rfl⟩⟩

end RootHerald.Boot
