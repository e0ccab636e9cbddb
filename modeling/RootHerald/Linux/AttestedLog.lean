import RootHerald.Linux.AttestBody
import RootHerald.Linux.JsonReading
import RootHerald.Linux.AttestationKey

/-! When the body that Attest posts carries the whole event log. -/
namespace RootHerald.Linux
open Lib Json

section Reading

/-- What a reader finds of the registers. -/
def pcrValue (e : Evidence) : Json :=
  .object [(text "sha256", .object (pcrIndices.map fun index => (decimal index, .string (pcrHex e index))))]

theorem pcrText_strict (depth : Nat) (e : Evidence) : Strict (readValue (depth + 3)) (pcrText e) (pcrValue e) True := by
  have hindex : ∀ index ∈ pcrIndices, ∀ c ∈ decimal index, isPlain c := by decide
  have hname : ∀ c ∈ text "sha256", isPlain c := by decide
  have hparts : ∀ p ∈ pcrIndices.map fun index => stringPart (decimal index) (pcrHex e index), p.Ok (depth + 1) :=
    List.forall_mem_map.mpr fun index hi => stringPart_ok (hindex index hi) _
  have hregisters := object_strict (by simp [pcrIndices]) hparts
  rw [List.map_map, List.map_map] at hregisters
  have hbank : ∀ p ∈ [(⟨text "sha256", _, _, _⟩ : Part)], p.Ok (depth + 2) :=
    List.forall_mem_singleton.mpr ⟨hname, hregisters⟩
  exact (object_strict (List.cons_ne_nil _ _) hbank).congr (iff_of_true (List.forall_mem_singleton.mpr (List.forall_mem_map.mpr fun index _ =>
    stringPart_reads (pcrHex_plain e index))) trivial)

def quoteValue (e : Evidence) : Json :=
  .object [(text "quoted", .string (Base64.encode e.quoted)), (text "signature", .string (Base64.encode e.signature))]

theorem quoteText_strict (depth : Nat) (e : Evidence) :
    Strict (readValue (depth + 2)) (quoteText e) (quoteValue e) True := by
  have hnames : ∀ name ∈ [text "quoted", text "signature"], ∀ c ∈ name, isPlain c := by decide
  have hnames := List.forall_mem_cons.mp hnames
  have hparts : ∀ p ∈ [stringPart (text "quoted") (Base64.encode e.quoted),
      stringPart (text "signature") (Base64.encode e.signature)], p.Ok (depth + 1) :=
    List.forall_mem_cons.mpr ⟨stringPart_ok hnames.1 _, List.forall_mem_singleton.mpr
      (stringPart_ok (List.forall_mem_singleton.mp hnames.2) _)⟩
  exact (object_strict (List.cons_ne_nil _ _) hparts).congr (iff_of_true (List.forall_mem_cons.mpr ⟨stringPart_reads (base64_plain _),
    List.forall_mem_singleton.mpr (stringPart_reads (base64_plain _))⟩) trivial)

def bodyParts (sessionId : Bytes) (e : Evidence) : List Part :=
  [stringPart (text "sessionId") sessionId, ⟨text "quote", quoteText e, quoteValue e, True⟩,
    ⟨text "pcrValues", pcrText e, pcrValue e, True⟩, stringPart (text "eventLog") (Base64.encode (logRead e))]

def bodyValue (sessionId : Bytes) (e : Evidence) : List (Bytes × Json) :=
  [(text "sessionId", .string sessionId), (text "quote", quoteValue e), (text "pcrValues", pcrValue e),
    (text "eventLog", .string (Base64.encode (logRead e)))]

private theorem bodyParts_ok (depth : Nat) (sessionId : Bytes) (e : Evidence) :
    ∀ p ∈ bodyParts sessionId e, p.Ok (depth + 3) := by
  have hnames : ∀ name ∈ [text "sessionId", text "quote", text "pcrValues", text "eventLog"], ∀ c ∈ name, isPlain c := by
    decide +kernel
  simp only [List.forall_mem_cons, List.not_mem_nil, false_imp_iff, implies_true, and_true] at hnames
  obtain ⟨hsessionId, hquote, hpcrValues, heventLog⟩ := hnames
  simp only [bodyParts, List.forall_mem_cons, List.not_mem_nil, false_imp_iff, implies_true, and_true]
  exact ⟨stringPart_ok hsessionId _, ⟨hquote, quoteText_strict (depth + 1) e⟩, ⟨hpcrValues, pcrText_strict depth e⟩,
    stringPart_ok heventLog _⟩

private theorem bodyParts_reads (sessionId : Bytes) (e : Evidence) :
    (∀ p ∈ bodyParts sessionId e, p.reads) ↔ Windows.isText sessionId = true := by
  simp only [bodyParts, List.forall_mem_cons, List.not_mem_nil, false_imp_iff, implies_true, and_true, true_and]
  exact and_iff_left (stringPart_reads (base64_plain _))

/-- The text of the body is an object exactly if the session id is text. -/
theorem parse_bodyText (sessionId : Bytes) (e : Evidence) : parse (bodyText sessionId e) =
    if Windows.isText sessionId = true then some (.object (bodyValue sessionId e)) else none := by
  have hbody (depth : Nat) : Strict (readValue (depth + 4)) (bodyText sessionId e) (.object (bodyValue sessionId e))
      (Windows.isText sessionId = true) :=
    (object_strict (List.cons_ne_nil _ _) (bodyParts_ok depth sessionId e)).congr (bodyParts_reads sessionId e)
  have hlength : 4 ≤ (bodyText sessionId e).length := by
    rw [bodyText, objectText_length, Entry.text, memberText_length]
    omega
  obtain ⟨hreads, hrefuses⟩ := parse_strict hlength hbody
  split_ifs with htext
  · exact hreads htext
  · exact hrefuses htext

end Reading

section Whole

/-- The body is an object whose eventLog is the base 64 of the whole file. -/
def CarriesLog (e : Evidence) (body : Checked Bytes) : Prop :=
  ∃ t members value, body = .ok t ∧ parse t = some (.object members) ∧
    members.lookup (text "eventLog") = some (.string value) ∧ Base64.decode value = some e.measurements

/-- The file is read to its end, the session id is text, and the body has room for all of it. -/
structure WholeLog (sessionId : Bytes) (e : Evidence) : Prop where
  read : if e.opens then e.measurements.length ≤ eventLogSize else e.measurements = []
  isText : Windows.isText sessionId = true
  fits : (bodyText sessionId e).length < bodySize

theorem logRead_eq_iff (e : Evidence) : logRead e = e.measurements ↔
    if e.opens then e.measurements.length ≤ eventLogSize else e.measurements = [] := by
  unfold logRead eventLogRead
  split_ifs
  · exact List.take_eq_self_iff _
  · exact eq_comm

private theorem lookup_eventLog (sessionId : Bytes) (e : Evidence) :
    (bodyValue sessionId e).lookup (text "eventLog") = some (.string (Base64.encode (logRead e))) := by
  have hne : ∀ name ∈ [text "sessionId", text "quote", text "pcrValues"], (text "eventLog" == name) = false := by
    decide
  simp only [List.forall_mem_cons] at hne
  simp only [bodyValue, List.lookup_cons, hne, BEq.rfl]

/-- A body that is cut is no object. -/
private theorem cut_not_object {front value : Bytes} {c : UInt8} {members : List (Bytes × Json)}
    (hvalue : ∀ c ∈ value, isPlain c ∧ isWhitespace c = false ∧ c ≠ closeBrace)
    (hc : c = quotationMark ∨ c ∈ value.flatMap escapeChar) : parse (front ++ [c]) ≠ some (.object members) := by
  rw [flatMap_escapeChar fun c hc => (hvalue c hc).1] at hc
  intro h
  rcases hc with rfl | hc
  · exact absurd (parse_object_getLast h (by decide)) (by decide)
  · exact (hvalue c hc).2.2 (parse_object_getLast h (hvalue c hc).2.1)

/-- A body that is an object is the text of all its parts. -/
theorem attestBody_object {sessionId t : Bytes} {e : Evidence} {members : List (Bytes × Json)}
    (ht : attestBody sessionId e = .ok t) (hobject : parse t = some (.object members)) :
    members = bodyValue sessionId e ∧ Windows.isText sessionId = true ∧ (bodyText sessionId e).length < bodySize := by
  rw [attestBody_eq] at ht
  by_cases hfits : (bodyText sessionId e).length < bodySize
  · rw [jsonObject_fits hfits] at ht
    obtain rfl := Except.ok.inj ht
    have hparse := (parse_bodyText sessionId e).symm.trans hobject
    split_ifs at hparse with htext
    exact ⟨(object.inj (Option.some.inj hparse)).symm, htext, hfits⟩
  · rcases jsonObject_full (by decide) (not_lt.mp hfits) with hleft | ⟨front, c, hcut, hc⟩
    · cases hleft.symm.trans ht
    · obtain rfl := Except.ok.inj (hcut.symm.trans ht)
      refine absurd hobject (cut_not_object (fun c hc => ?_) hc)
      exact Base64.encode_all (p := fun c => isPlain c = true ∧ isWhitespace c = false ∧ c ≠ closeBrace) (by decide)
        (by decide) hc

theorem attestBody_fits {sessionId : Bytes} {e : Evidence} (htext : Windows.isText sessionId = true)
    (hfits : (bodyText sessionId e).length < bodySize) :
    attestBody sessionId e = .ok (bodyText sessionId e) ∧
      parse (bodyText sessionId e) = some (.object (bodyValue sessionId e)) := by
  rw [attestBody_eq, jsonObject_fits hfits, parse_bodyText, if_pos htext]
  exact ⟨rfl, rfl⟩

theorem attestBody_carriesLog_iff (sessionId : Bytes) (e : Evidence) :
    CarriesLog e (attestBody sessionId e) ↔ WholeLog sessionId e := by
  constructor
  · rintro ⟨t, members, value, ht, hobject, hlookup, hdecode⟩
    obtain ⟨rfl, htext, hfits⟩ := attestBody_object ht hobject
    obtain rfl := string.inj (Option.some.inj ((lookup_eventLog sessionId e).symm.trans hlookup))
    rw [Base64.decode_encode] at hdecode
    exact ⟨(logRead_eq_iff e).mp (Option.some.inj hdecode), htext, hfits⟩
  · intro hwhole
    obtain ⟨hbody, hobject⟩ := attestBody_fits hwhole.isText hwhole.fits
    refine ⟨_, _, _, hbody, hobject, lookup_eventLog sessionId e, ?_⟩
    rw [Base64.decode_encode, (logRead_eq_iff e).mpr hwhole.read]

end Whole

section Posted

/-- Whatever else is passed, and whatever the TPM and the server answer, a body that is posted carries
the whole log. -/
def LogPosted (sessionId : CString) (e : Evidence) : Prop :=
  ∀ serverUrl nonceB64 outInfo stack reply w body,
    ((rootHeraldAttestPost serverUrl (some sessionId) nonceB64 outInfo stack reply e).run w).1 = some body →
      CarriesLog e body

theorem rootHeraldAttestPost_run (serverUrl nonceB64 : Option CString) (sessionId : CString) (outInfo : Bool)
    (stack : Bytes) (reply : AttestReply) (e : Evidence) (w : World) :
    ((rootHeraldAttestPost serverUrl (some sessionId) nonceB64 outInfo stack reply e).run w).1 =
      if ((rootHeraldAttest serverUrl (some sessionId) nonceB64 outInfo stack reply).run w).1.posted then
        some (attestBody sessionId.chars e)
      else none :=
  rfl

/-- With a TPM that answers up to the quote, the body is posted. -/
theorem rootHeraldAttest_posts (sessionId : CString) : ((rootHeraldAttest (some sessionId) (some sessionId)
    (some someString) true [0, 0, 0] ⟨0, [], [], [], []⟩).run { codes := List.replicate 5 true }).1.posted = true := by
  have hdecode : (base64Decode someString.chars [0, 0, 0]).1 ≠ 0 := by decide +kernel
  have hrun : rootHeraldAttest (some sessionId) (some sessionId) (some someString) true [0, 0, 0] ⟨0, [], [], [], []⟩ =
      if (base64Decode someString.chars [0, 0, 0]).1 = 0 then Pure.pure { status := .invalidParam }
      else attestNonce sessionId.chars (base64Decode someString.chars [0, 0, 0]).2
        (base64Decode someString.chars [0, 0, 0]).1 ⟨0, [], [], [], []⟩ := rfl
  rw [hrun, if_neg hdecode]
  rfl

/-- Attest posts the whole log exactly if the log fits the buffer it is read to, the session id is
text, and the body has room for both. -/
theorem logPosted_iff (sessionId : CString) (e : Evidence) : LogPosted sessionId e ↔ WholeLog sessionId.chars e := by
  rw [← attestBody_carriesLog_iff]
  constructor
  · intro h
    refine h (some sessionId) (some someString) true [0, 0, 0] ⟨0, [], [], [], []⟩ { codes := List.replicate 5 true } _ ?_
    rw [rootHeraldAttestPost_run, if_pos (rootHeraldAttest_posts sessionId)]
  · intro h serverUrl nonceB64 outInfo stack reply w body hbody
    rw [rootHeraldAttestPost_run] at hbody
    obtain ⟨-, hbody⟩ := Option.ite_none_right_eq_some.mp hbody
    exact Option.some.inj hbody ▸ h

/-- A log of one byte more than is read. -/
def longLog : Evidence where
  quoted := []
  signature := []
  pcrRead := fun _ => none
  opens := true
  measurements := List.replicate 65537 0
  quoted_le := Nat.zero_le _
  signature_le := Nat.zero_le _
  digest_le := fun _ _ h => by cases h

theorem log_cut_to_buffer : ¬ ∀ sessionId e, LogPosted sessionId e := by
  intro h
  have hread := ((logPosted_iff someString longLog).mp (h someString longLog)).read
  change (List.replicate 65537 (0 : UInt8)).length ≤ 65536 at hread
  rw [List.length_replicate] at hread
  omega

end Posted
end RootHerald.Linux
