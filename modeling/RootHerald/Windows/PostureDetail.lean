import RootHerald.Boot.CertificateNames
import RootHerald.Boot.EventCounts
import RootHerald.Windows.Enrollment

/-! The local posture snapshot. Its detail text is copied into a buffer of 2048 bytes, which holds
every text the client can build. -/
namespace RootHerald.Windows
open Lib Boot

section Posture

/-- A flag is 1, 0, or -1 where it is undetermined, and so are the counts of the log. -/
structure RootHeraldPosture where
  hasTpm : Bool := false
  isEnrolled : Bool := false
  ekCertPresent : Bool := false
  secureBoot : Int32 := -1
  oemKeyed : Int32 := -1
  oemName : Bytes := []
  bootLogMeasurements : Int32 := -1
  bootLogRevoked : Int32 := -1
  deviceId : Bytes := []
  detailJson : Bytes := []

def localEntries (hasTpm isEnrolled ekCertPresent : Bool) (deviceId : Bytes) : List (Bytes × Bytes) := [
  (text "hasTpm", boolText hasTpm),
  (text "isEnrolled", boolText isEnrolled),
  (text "ekCertPresent", boolText ekCertPresent),
  (text "deviceId", deviceId),
  (text "platform", text "windows")]

def bootEntries (chainReport : SecureBootChainReport) (eventAnalysis : EventLogAnalysis) : List (Bytes × Bytes) := [
  (text "secureBootEnabled", boolText chainReport.secureBootEnabled),
  (text "pkIsKnownOem", boolText chainReport.pkIsKnownOem),
  (text "pkOemName", chainReport.pkOemName),
  (text "kekHasMicrosoft", boolText chainReport.kekHasMicrosoft),
  (text "dbxHashCount", decimal chainReport.dbxHashCount),
  (text "totalMeasurements", decimal eventAnalysis.entries.length),
  (text "verifiedCount", decimal eventAnalysis.verifiedCount),
  (text "unknownCount", decimal eventAnalysis.unknownCount),
  (text "revokedCount", decimal eventAnalysis.revokedCount),
  (text "verdict", chainReport.verdict)]

/-- What the log adds to the detail, or that there is none. -/
def logEntries (secureBoot : Option (SecureBootChainReport × EventLogAnalysis)) : List (Bytes × Bytes) :=
  match secureBoot with
  | none => [(text "eventLog", text "unavailable")]
  | some (chainReport, eventAnalysis) => bootEntries chainReport eventAnalysis

def postureDetail (hasTpm isEnrolled ekCertPresent : Bool) (deviceId : Bytes)
    (secureBoot : Option (SecureBootChainReport × EventLogAnalysis)) : Fields :=
  (logEntries secureBoot).foldl (fun detail e => detail.insert e.1 e.2)
    (.ofList (localEntries hasTpm isEnrolled ekCertPresent deviceId))

/-- The signals of the log. -/
def RootHeraldPosture.measured (posture : RootHeraldPosture)
    (secureBoot : Option (SecureBootChainReport × EventLogAnalysis)) : RootHeraldPosture :=
  match secureBoot with
  | none => posture
  | some (chainReport, eventAnalysis) => { posture with
      secureBoot := if chainReport.secureBootEnabled then 1 else 0
      oemKeyed := if chainReport.pkIsKnownOem then 1 else 0
      oemName := truncatedCopy 64 chainReport.pkOemName
      bootLogMeasurements := .ofNat eventAnalysis.entries.length
      bootLogRevoked := .ofNat eventAnalysis.revokedCount }

variable (sys : System)

/-- pcpAvailable is whether the PCP provider opens, eventLog what ReadEventLog answers. -/
def rootHeraldCollectLocalPosture (outPosture pcpAvailable : Bool) (env : CallEnv) (eventLog : Bytes) :
    Tbs (Checked (RootHeraldResult × RootHeraldPosture)) := do
  if ¬ outPosture then return .ok (.invalidParam, {})
  let isEnrolled ← anyAkPresent
  let ekCertPresent : Bool := 32 < (readEkCertFromWindowsStore env.sources.certStore).length
  let deviceId := if pcpAvailable then truncatedCopy 129 (deriveLocalDeviceId sys.sha1 sys.sha256 env.sources) else []
  match collectSecureBoot sys eventLog with
  | .error fault => return .error fault
  | .ok secureBoot =>
    let posture : RootHeraldPosture := { hasTpm := pcpAvailable, isEnrolled, ekCertPresent, deviceId }
    let detailJson := jsonBuild (postureDetail pcpAvailable isEnrolled ekCertPresent deviceId secureBoot)
    return .ok (.ok, { posture.measured secureBoot with detailJson := truncatedCopy 2048 detailJson })

/-- The detail of a posture, from its own fields and the analysis of the log. -/
def RootHeraldPosture.detail (posture : RootHeraldPosture)
    (secureBoot : Option (SecureBootChainReport × EventLogAnalysis)) : Fields :=
  postureDetail posture.hasTpm posture.isEnrolled posture.ekCertPresent posture.deviceId secureBoot

end Posture

section Lengths

/-- What a member adds to the text at most: every character of the value escaped, two pairs of
quotation marks, a colon and a comma. -/
def memberCost (field : Bytes × Bytes) : Nat := field.1.length + 6 + 2 * field.2.length

theorem escapeChar_length_le (c : UInt8) : (escapeChar c).length ≤ 2 := by
  rw [escapeChar]
  split_ifs <;> simp

theorem jsonValue_length_le (value : Bytes) : (jsonValue value).length ≤ 2 + 2 * value.length := by
  have hescaped : (value.flatMap escapeChar).length ≤ 2 * value.length := by
    induction value with
    | nil => exact le_rfl
    | cons c value ih =>
      have hc := escapeChar_length_le c
      rw [List.flatMap_cons, List.length_append, List.length_cons]
      omega
  rw [jsonValue, quoted]
  split_ifs
  · omega
  · rw [List.length_cons, List.length_append, List.length_singleton]
    omega

theorem jsonMember_length_lt (field : Bytes × Bytes) : (jsonMember field).length < memberCost field := by
  have hvalue := jsonValue_length_le field.2
  rw [jsonMember, memberCost]
  simp only [List.length_cons, List.length_append]
  omega

/-- The length of an object, from its entries. -/
theorem jsonBuild_length_le (fields : Fields) : (jsonBuild fields).length ≤ 2 + (fields.entries.map memberCost).sum := by
  have hmembers : ∀ es : List (Bytes × Bytes),
      ([','.toUInt8].intercalate (es.map jsonMember)).length ≤ (es.map memberCost).sum := by
    intro es
    induction es with
    | nil => simp
    | cons e es ih =>
      have he := jsonMember_length_lt e
      cases es with
      | nil => simpa using he.le
      | cons e' es =>
        have hsum : ((e :: e' :: es).map memberCost).sum = memberCost e + ((e' :: es).map memberCost).sum := by
          rw [List.map_cons, List.sum_cons]
        rw [hsum, List.map_cons, List.map_cons, List.intercalate_cons_cons, ← List.map_cons]
        simp only [List.length_append, List.length_singleton]
        omega
  have h := hmembers fields.entries
  rw [jsonBuild, List.length_cons, List.length_append, List.length_singleton]
  omega

private theorem punctuation_no_nul : (0 : UInt8) ≠ quote ∧ (0 : UInt8) ≠ ':'.toUInt8 ∧ (0 : UInt8) ≠ ','.toUInt8 ∧
    (0 : UInt8) ≠ '{'.toUInt8 ∧ (0 : UInt8) ≠ '}'.toUInt8 := by decide

theorem jsonValue_no_nul {value : Bytes} (h : 0 ∉ value) : 0 ∉ jsonValue value := by
  have hescape : ∀ c : UInt8, c ≠ 0 → 0 ∉ escapeChar c := by
    intro c hc
    rw [escapeChar]
    split_ifs
    · decide
    · decide
    · decide
    · simpa using hc.symm
  have hescaped : 0 ∉ value.flatMap escapeChar := by
    intro hmem
    obtain ⟨c, hc, hmem⟩ := List.mem_flatMap.mp hmem
    exact hescape c (fun hzero => h (hzero ▸ hc)) hmem
  rw [jsonValue, quoted]
  split_ifs
  · exact h
  · simp [hescaped, punctuation_no_nul.1]

/-- An object of keys and values without a NUL has none. -/
theorem jsonBuild_no_nul {fields : Fields} (h : ∀ e ∈ fields.entries, 0 ∉ e.1 ∧ 0 ∉ e.2) : 0 ∉ jsonBuild fields := by
  obtain ⟨hquote, hcolon, hcomma, hopen, hclose⟩ := punctuation_no_nul
  have hmember : ∀ e ∈ fields.entries, 0 ∉ jsonMember e := by
    intro e he
    obtain ⟨hkey, hvalue⟩ := h e he
    simp [jsonMember, hkey, jsonValue_no_nul hvalue, hquote, hcolon]
  have hmembers : ∀ ms : List Bytes, (∀ m ∈ ms, 0 ∉ m) → 0 ∉ [','.toUInt8].intercalate ms := by
    intro ms
    induction ms with
    | nil => simp
    | cons m ms ih =>
      intro hms
      obtain ⟨hm, hms⟩ := List.forall_mem_cons.mp hms
      cases ms with
      | nil => simpa using hm
      | cons m' ms =>
        rw [List.intercalate_cons_cons]
        have hrest := ih hms
        simp [hm, hrest, hcomma]
  have hjoined := hmembers (fields.entries.map jsonMember) (List.forall_mem_map.mpr hmember)
  simp [jsonBuild, hjoined, hopen, hclose]

end Lengths

section Complete

theorem boolText_fits (b : Bool) : FitsBuffer 6 (boolText b) := by
  cases b <;> decide

/-- A count of 64 bits has 20 digits at most. -/
theorem decimal_fits {n : Nat} (h : n < 2 ^ 64) : FitsBuffer 21 (decimal n) := by
  refine ⟨?_, fun hmem => ?_⟩
  · exact Nat.lt_succ_of_le (decimal_length_le (by decide) (h.trans (by decide)))
  · obtain ⟨v, hv, hzero⟩ := mem_decimal hmem
    exact (by decide : ∀ v < 10, (0 : UInt8) ≠ hexDigit v) v hv hzero

/-- The counts of report and analysis fit in 64 bits. -/
structure CountsFit (chainReport : SecureBootChainReport) (eventAnalysis : EventLogAnalysis) : Prop where
  dbxHashCount : chainReport.dbxHashCount < 2 ^ 64
  totalMeasurements : eventAnalysis.entries.length < 2 ^ 64
  verifiedCount : eventAnalysis.verifiedCount < 2 ^ 64
  unknownCount : eventAnalysis.unknownCount < 2 ^ 64
  revokedCount : eventAnalysis.revokedCount < 2 ^ 64

def localKeys : List Bytes :=
  [text "hasTpm", text "isEnrolled", text "ekCertPresent", text "deviceId", text "platform"]

def bootKeys : List Bytes :=
  [text "secureBootEnabled", text "pkIsKnownOem", text "pkOemName", text "kekHasMicrosoft", text "dbxHashCount",
    text "totalMeasurements", text "verifiedCount", text "unknownCount", text "revokedCount", text "verdict"]

theorem keys_fit : (localKeys.map List.length).sum = 45 ∧ (bootKeys.map List.length).sum = 126 ∧
    ∀ key ∈ localKeys ++ bootKeys, 0 ∉ key := by decide +kernel

/-- What entries add to a text they are written to. -/
structure EntriesFit (cost : Nat) (es : List (Bytes × Bytes)) : Prop where
  sum_le : (es.map memberCost).sum ≤ cost
  no_nul : ∀ e ∈ es, 0 ∉ e.1 ∧ 0 ∉ e.2

/-- Entries under the given keys whose values have the given lengths at most. -/
theorem entriesFit_of {keys : List Bytes} {lengths : List Nat} {es : List (Bytes × Bytes)} (hkeys : es.map Prod.fst = keys)
    (hnul : ∀ key ∈ keys, 0 ∉ key) (h : List.Forall₂ (fun n e => FitsBuffer (n + 1) e.2) lengths es) :
    EntriesFit ((keys.map List.length).sum + 6 * es.length + 2 * lengths.sum) es := by
  subst hkeys
  induction h with
  | nil => exact ⟨le_rfl, List.forall_mem_nil _⟩
  | @cons n e lengths es he _ ih =>
    have hlen := he.length_lt
    obtain ⟨hkey, hkeys⟩ := List.forall_mem_cons.mp hnul
    obtain ⟨hsum, hno⟩ := ih hkeys
    refine ⟨?_, List.forall_mem_cons.mpr ⟨⟨hkey, he.no_nul⟩, hno⟩⟩
    simp only [List.map_cons, List.sum_cons, List.length_cons, memberCost]
    omega

theorem localEntries_fit (hasTpm isEnrolled ekCertPresent : Bool) {deviceId : Bytes} (hid : FitsBuffer 129 deviceId) :
    EntriesFit 375 (localEntries hasTpm isEnrolled ekCertPresent deviceId) := by
  have hlengths : List.Forall₂ (fun n e => FitsBuffer (n + 1) e.2) [5, 5, 5, 128, 7]
      (localEntries hasTpm isEnrolled ekCertPresent deviceId) :=
    .cons (boolText_fits _) (.cons (boolText_fits _) (.cons (boolText_fits _) (.cons hid
      (.cons (by decide) .nil))))
  obtain ⟨hlocal, -, hnul⟩ := keys_fit
  have hfit := entriesFit_of (show _ = localKeys from rfl) (fun key hkey => hnul key (List.mem_append_left _ hkey)) hlengths
  rw [hlocal] at hfit
  exact hfit

variable {chainReport : SecureBootChainReport} {eventAnalysis : EventLogAnalysis}

theorem bootEntries_fit (hcounts : CountsFit chainReport eventAnalysis) (hverdict : FitsBuffer 572 chainReport.verdict)
    (hname : FitsBuffer 20 chainReport.pkOemName) : EntriesFit 1596 (bootEntries chainReport eventAnalysis) := by
  have hlengths : List.Forall₂ (fun n e => FitsBuffer (n + 1) e.2) [5, 5, 19, 5, 20, 20, 20, 20, 20, 571]
      (bootEntries chainReport eventAnalysis) :=
    .cons (boolText_fits _) (.cons (boolText_fits _) (.cons hname (.cons (boolText_fits _)
      (.cons (decimal_fits hcounts.dbxHashCount) (.cons (decimal_fits hcounts.totalMeasurements)
        (.cons (decimal_fits hcounts.verifiedCount) (.cons (decimal_fits hcounts.unknownCount)
          (.cons (decimal_fits hcounts.revokedCount) (.cons hverdict .nil)))))))))
  obtain ⟨-, hboot, hnul⟩ := keys_fit
  have hfit := entriesFit_of (show _ = bootKeys from rfl) (fun key hkey => hnul key (List.mem_append_right _ hkey)) hlengths
  rw [hboot] at hfit
  exact hfit

theorem unavailable_fit : EntriesFit 1596 [(text "eventLog", text "unavailable")] :=
  ⟨by decide, by decide⟩

/-- Whatever the log adds, the text of the detail fits its buffer. -/
theorem postureDetail_fits (hasTpm isEnrolled ekCertPresent : Bool) {deviceId : Bytes} (hid : FitsBuffer 129 deviceId)
    {secureBoot : Option (SecureBootChainReport × EventLogAnalysis)} (hlog : EntriesFit 1596 (logEntries secureBoot)) :
    FitsBuffer 2048 (jsonBuild (postureDetail hasTpm isEnrolled ekCertPresent deviceId secureBoot)) := by
  have hlocal := localEntries_fit hasTpm isEnrolled ekCertPresent hid
  constructor
  · have hwritten :
        ((postureDetail hasTpm isEnrolled ekCertPresent deviceId secureBoot).entries.map memberCost).sum ≤ _ :=
      OrdMap.sum_foldl_insert_le memberCost (logEntries secureBoot)
        (.ofList (localEntries hasTpm isEnrolled ekCertPresent deviceId))
    have hlisted : _ ≤ _ + 0 :=
      OrdMap.sum_foldl_insert_le memberCost (localEntries hasTpm isEnrolled ekCertPresent deviceId) .empty
    have hlength := jsonBuild_length_le (postureDetail hasTpm isEnrolled ekCertPresent deviceId secureBoot)
    have hsum := hlog.sum_le
    have hsum' := hlocal.sum_le
    rw [← OrdMap.ofList] at hlisted
    omega
  · apply jsonBuild_no_nul
    intro e he
    rcases OrdMap.mem_foldl_insert he with hmem | hmem
    · exact hlog.no_nul e hmem
    · rcases OrdMap.mem_foldl_insert hmem with hmem | hmem
      · exact hlocal.no_nul e hmem
      · cases hmem

/-- The system whose certificates the decoder names. -/
def System.decoding (sys : System) (decoder : CertDecoder) : System :=
  { sys with parseDerCertificate := Boot.parseDerCertificate decoder }

theorem logEntries_fit {sys : System} {decoder : CertDecoder} {eventLog : Bytes}
    {secureBoot : Option (SecureBootChainReport × EventLogAnalysis)}
    (h : collectSecureBoot (sys.decoding decoder) eventLog = .ok secureBoot)
    (hcounts : ∀ log ∈ secureBoot, CountsFit log.1 log.2) : EntriesFit 1596 (logEntries secureBoot) := by
  rw [collectSecureBoot] at h
  split_ifs at h
  · cases h
    exact unavailable_fit
  · obtain ⟨chainReport, hvalidate, h⟩ := bind_eq_ok h
    obtain ⟨eventAnalysis, -, h⟩ := bind_eq_ok h
    obtain rfl := Except.ok.inj h
    obtain ⟨-, rfl⟩ := (validateSecureBootChain_eq_ok _).mp hvalidate
    obtain ⟨hverdict, hname⟩ := conclude_fits decoder (decodedRecords eventLog)
    exact bootEntries_fit (hcounts _ rfl) hverdict hname

/-- Whatever the device and whatever the log, the posture carries the whole text of its detail. -/
theorem collectLocalPosture_detail_whole (sys : System) (decoder : CertDecoder) (pcpAvailable : Bool) (env : CallEnv)
    (eventLog : Bytes) (w : World) {secureBoot : Option (SecureBootChainReport × EventLogAnalysis)}
    (hlog : collectSecureBoot (sys.decoding decoder) eventLog = .ok secureBoot)
    (hcounts : ∀ log ∈ secureBoot, CountsFit log.1 log.2) :
    ∃ posture, ((rootHeraldCollectLocalPosture (sys.decoding decoder) true pcpAvailable env eventLog).run w).1 =
        .ok (.ok, posture) ∧
      (jsonBuild (posture.detail secureBoot)).length ≤ 2047 ∧
      posture.detailJson = jsonBuild (posture.detail secureBoot) := by
  have hentries := logEntries_fit hlog hcounts
  have hreturns : Triple (fun _ => True)
      (rootHeraldCollectLocalPosture (sys.decoding decoder) true pcpAvailable env eventLog)
      fun r _ => ∃ posture, r = .ok (.ok, posture) ∧ (jsonBuild (posture.detail secureBoot)).length ≤ 2047 ∧
        posture.detailJson = jsonBuild (posture.detail secureBoot) := by
    refine .ite (fun h => absurd rfl h) fun _ => .bind (.any _) fun isEnrolled => ?_
    rw [hlog]
    refine .pure fun _ _ => ⟨_, rfl, ?_⟩
    have hid : FitsBuffer 129 (if pcpAvailable then
        truncatedCopy 129 (deriveLocalDeviceId sys.sha1 sys.sha256 env.sources) else []) := by
      split_ifs
      · exact truncatedCopy_fits (by decide) _
      · exact fitsBuffer_nil (by decide)
    have hfits := postureDetail_fits pcpAvailable isEnrolled
      (32 < (readEkCertFromWindowsStore env.sources.certStore).length) hid hentries
    have hcopy := truncatedCopy_eq_self hfits
    cases secureBoot with
    | none => exact ⟨Nat.le_of_lt_succ hfits.length_lt, hcopy⟩
    | some log => exact ⟨Nat.le_of_lt_succ hfits.length_lt, hcopy⟩
  exact hreturns w trivial

/-- The counts of an analysis fit for every log below 32 GiB. -/
theorem analysis_counts_fit {eventLog : Bytes} {eventAnalysis : EventLogAnalysis}
    (h : parseAndAnalyzeEventLog eventLog = .ok eventAnalysis) (hlog : eventLog.length < 2 ^ 35)
    (hdbx : chainReport.dbxHashCount < 2 ^ 64) : CountsFit chainReport eventAnalysis := by
  have hentries := entries_fit h hlog
  have htotal := (parse_counted h).1.total
  exact ⟨hdbx, by omega, by omega, by omega, by omega⟩

/-- A decoder that decodes nothing. -/
def emptyDecoder : CertDecoder := ⟨fun _ => none, fun _ => []⟩

/-- A log with Secure Boot on and no key. -/
def postureLog : Bytes := emptyHeader.write ++ EventRecord.code.writeAll [secureBootRecord 7 1]

theorem postureLog_collected : ∃ log : SecureBootChainReport × EventLogAnalysis,
    collectSecureBoot (sampleSystem.decoding emptyDecoder) postureLog = .ok (some log) ∧ CountsFit log.1 log.2 := by
  have hrecords : decodedRecords postureLog = [secureBootRecord 7 1] := emptyHeader.decodedRecords_writeAll _
  have hin : ∀ r ∈ decodedRecords postureLog, r.InBounds := by
    rw [hrecords]
    decide
  have hlists : ∀ r ∈ decodedRecords postureLog, r.ListsInBounds (Boot.parseDerCertificate emptyDecoder) := by
    rw [hrecords]
    exact List.forall_mem_singleton.mpr fun _ => ⟨[], by decide +kernel⟩
  obtain ⟨a, ha⟩ := parse_ok_of_inBounds hin
  have hreport := (validateSecureBootChain_eq_ok (Boot.parseDerCertificate emptyDecoder)).mpr
    ⟨fun r hr => ⟨hin r hr, hlists r hr⟩, rfl⟩
  refine ⟨(conclude (Boot.parseDerCertificate emptyDecoder) (decodedRecords postureLog), a), ?_,
    analysis_counts_fit ha (by decide) ?_⟩
  · rw [collectSecureBoot, if_neg (by decide)]
    change (validateSecureBootChain (Boot.parseDerCertificate emptyDecoder) postureLog >>= _) = _
    rw [hreport, ok_bind, ha]
    rfl
  · dsimp only
    rw [hrecords]
    decide +kernel

theorem collectLocalPosture_sample : ∃ posture log,
    ((rootHeraldCollectLocalPosture (sampleSystem.decoding emptyDecoder) true true sampleEnv postureLog).run
      { tpm := { openCredential := fun _ _ _ _ => none, persistent := none }, outcomes := [] }).1 = .ok (.ok, posture) ∧
    posture.detailJson = jsonBuild (posture.detail (some log)) := by
  obtain ⟨log, hlog, hcounts⟩ := postureLog_collected
  obtain ⟨posture, hrun, -, hdetail⟩ := collectLocalPosture_detail_whole sampleSystem emptyDecoder true sampleEnv
    postureLog { tpm := { openCredential := fun _ _ _ _ => none, persistent := none }, outcomes := [] } hlog
    (fun _ h => Option.some.inj h ▸ hcounts)
  exact ⟨posture, log, hrun, hdetail⟩

end Complete
end RootHerald.Windows
