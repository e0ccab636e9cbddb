import RootHerald.Linux.HostPayloads
import RootHerald.Linux.JsonReading

/-! When the texts of the host's answers are JSON, and what a reader finds in them. -/
namespace RootHerald.Linux
open Lib Json

section Payloads
variable {n : Nat} {t key : Bytes} {P Q : Prop}

/-- The text of a value nested to the depth, which is read if P, and not JSON otherwise. -/
def ReadIff (depth : Nat) (t : Bytes) (P : Prop) : Prop := ∃ v, ∀ d, Strict (readValue (d + depth)) t v P

theorem ReadIff.congr (h : ReadIff n t P) (hPQ : P ↔ Q) : ReadIff n t Q :=
  h.imp fun _ hv d => (hv d).congr hPQ

theorem ReadIff.deeper (h : ReadIff n t P) : ReadIff (n + 1) t P :=
  h.imp fun _ hv d => Nat.add_right_comm d 1 n ▸ hv (d + 1)

theorem object_reads {ps : List Part} (hne : ps ≠ []) (h : ∀ p ∈ ps, ∀ d, p.Ok (d + n)) :
    ReadIff (n + 1) (objectText (ps.map Part.member)) (∀ p ∈ ps, p.reads) :=
  ⟨_, fun d => object_strict hne fun p hp => h p hp d⟩

private theorem keys_plain : ∀ key ∈ [text "id", text "type", text "payload", text "success", text "error", text "data",
    text "status", text "deviceId", text "platform", text "hasTpm", text "authorizationCode", text "redirectUri"],
    ∀ c ∈ key, isPlain c := by decide +kernel

/-- A bool among the members. -/
def boolPart (key : Bytes) (b : Bool) : Part := ⟨key, boolText b, .bool b, True⟩

theorem boolPart_ok (hkey : ∀ c ∈ key, isPlain c) (b : Bool) (depth : Nat) : (boolPart key b).Ok (depth + 1) := by
  refine ⟨hkey, ?_⟩
  cases b with
  | true => exact true_strict depth
  | false => exact false_strict depth

theorem errorText_reads (message : Bytes) : ReadIff 2 (errorText message) (Windows.isText message = true) := by
  have hparts : ∀ p ∈ [boolPart (text "success") false, stringPart (text "error") message], ∀ d, p.Ok (d + 1) := by
    simp only [List.forall_mem_cons, List.not_mem_nil, false_imp_iff, implies_true, and_true]
    exact ⟨boolPart_ok (keys_plain _ (by simp)) false, fun d => stringPart_ok (keys_plain _ (by simp)) message⟩
  refine (object_reads (List.cons_ne_nil _ _) hparts).congr ?_
  simp [boolPart, stringPart]

theorem statusData_reads {status : DeviceStatus} (hplatform : status.platform = text "linux") :
    ReadIff 2 (statusData status) (Windows.isText (status.deviceId.takeWhile (· ≠ 0)) = true) := by
  have hparts : ∀ p ∈ [stringPart (text "status") (if status.isEnrolled then text "enrolled" else text "not_enrolled"),
      stringPart (text "deviceId") (status.deviceId.takeWhile (· ≠ 0)), stringPart (text "platform") status.platform,
      boolPart (text "hasTpm") status.hasTpm], ∀ d, p.Ok (d + 1) := by
    simp only [List.forall_mem_cons, List.not_mem_nil, false_imp_iff, implies_true, and_true]
    exact ⟨fun d => stringPart_ok (keys_plain _ (by simp)) _, fun d => stringPart_ok (keys_plain _ (by simp)) _,
      fun d => stringPart_ok (keys_plain _ (by simp)) _, boolPart_ok (keys_plain _ (by simp)) _⟩
  have hvalues : ∀ v ∈ [text "enrolled", text "not_enrolled", text "linux"], Windows.isText v = true := by decide
  have hstate : Windows.isText (if status.isEnrolled then text "enrolled" else text "not_enrolled") = true := by
    split_ifs
    · exact hvalues _ (by simp)
    · exact hvalues _ (by simp)
  have hlinux : Windows.isText status.platform = true := hplatform ▸ hvalues _ (by simp)
  refine (object_reads (List.cons_ne_nil _ _) hparts).congr ?_
  simp [boolPart, stringPart, hstate, hlinux]

/-- A payload of a success flag and data. -/
theorem dataText_reads (b : Bool) {data : Bytes} (hdata : ReadIff n data P) (hn : 1 ≤ n) : ReadIff (n + 1)
    (objectText ([.raw (text "success") (boolText b), .raw (text "data") data].map Entry.text)) P := by
  obtain ⟨v, hv⟩ := hdata
  obtain ⟨n, rfl⟩ := Nat.exists_eq_add_of_le' hn
  have hparts : ∀ p ∈ [boolPart (text "success") b, ⟨text "data", data, v, P⟩], ∀ d, p.Ok (d + (n + 1)) := by
    simp only [List.forall_mem_cons, List.not_mem_nil, false_imp_iff, implies_true, and_true]
    exact ⟨fun d => boolPart_ok (keys_plain _ (by simp)) b _, fun d => ⟨keys_plain _ (by simp), hv d⟩⟩
  refine (object_reads (List.cons_ne_nil _ _) hparts).congr ?_
  simp [boolPart]

theorem enrollData_reads (info : EnrollmentInfo) :
    ReadIff 2 (enrollData info) (Windows.isText info.deviceId = true) := by
  have hparts : ∀ p ∈ [stringPart (text "deviceId") info.deviceId], ∀ d, p.Ok (d + 1) :=
    List.forall_mem_singleton.mpr fun d => stringPart_ok (keys_plain _ (by simp)) _
  exact (object_reads (List.cons_ne_nil _ _) hparts).congr List.forall_mem_singleton

/-- All that the server says of an attestation is text. -/
structure InfoIsText (info : AttestationInfo) : Prop where
  authorizationCode : Windows.isText info.authorizationCode = true
  status : Windows.isText info.status = true
  redirectUri : Windows.isText info.redirectUri = true
  failureReason : Windows.isText info.failureReason = true

/-- The members of the data, with the last value given. -/
def dataParts (info : AttestationInfo) (redirectUri : Bytes) : List Part :=
  [stringPart (text "authorizationCode") info.authorizationCode, stringPart (text "status") info.status,
    stringPart (text "redirectUri") redirectUri]

theorem dataParts_ok (info : AttestationInfo) (redirectUri : Bytes) (d : Nat) :
    ∀ p ∈ dataParts info redirectUri, p.Ok (d + 1) := by
  simp only [dataParts, List.forall_mem_cons, List.not_mem_nil, false_imp_iff, implies_true, and_true]
  exact ⟨stringPart_ok (keys_plain _ (by simp)) _, stringPart_ok (keys_plain _ (by simp)) _,
    stringPart_ok (keys_plain _ (by simp)) _⟩

theorem attestText_reads (ok : Bool) (info : AttestationInfo) :
    ReadIff 3 (attestText ok (attestData info) info.failureReason) (InfoIsText info) := by
  obtain ⟨v, hv⟩ := object_reads (List.cons_ne_nil _ _) fun p hp d => dataParts_ok info info.redirectUri d p hp
  have hparts : ∀ p ∈ [boolPart (text "success") ok,
      ⟨text "data", attestData info, v, ∀ p ∈ dataParts info info.redirectUri, p.reads⟩,
      stringPart (text "error") info.failureReason], ∀ d, p.Ok (d + 2) := by
    simp only [List.forall_mem_cons, List.not_mem_nil, false_imp_iff, implies_true, and_true]
    exact ⟨fun d => boolPart_ok (keys_plain _ (by simp)) ok _, fun d => ⟨keys_plain _ (by simp), hv d⟩,
      fun d => stringPart_ok (keys_plain _ (by simp)) _⟩
  refine (object_reads (List.cons_ne_nil _ _) hparts).congr ?_
  simp only [dataParts, List.forall_mem_cons, List.not_mem_nil, false_imp_iff, implies_true, and_true, boolPart, stringPart,
    true_and]
  exact ⟨fun h => ⟨h.1.1, h.1.2.1, h.1.2.2, h.2⟩, fun h => ⟨⟨h.1, h.2, h.3⟩, h.4⟩⟩

end Payloads

section Responses
variable {payload : Bytes} {P : Prop}

/-- A body is an object with the type and the id of a response. -/
def Answers (id body : Bytes) : Prop :=
  ∃ members, parse body = some (.object members) ∧
    members.lookup (text "type") = some (.string (text "response")) ∧ members.lookup (text "id") = some (.string id)

theorem not_answers_of_none {id body : Bytes} (h : parse body = none) : ¬ Answers id body := by
  rintro ⟨members, hmembers, -⟩
  cases h.symm.trans hmembers

/-- The response is read exactly if its id is text and its payload is read. -/
theorem responseBody_answers_iff (hpayload : ReadIff 3 payload P) (requestId id : Bytes) :
    Answers id (responseBody requestId payload) ↔ requestId = id ∧ Windows.isText requestId = true ∧ P := by
  obtain ⟨v, hv⟩ := hpayload
  have hparts (d : Nat) : ∀ p ∈ [stringPart (text "id") requestId, stringPart (text "type") (text "response"),
      ⟨text "payload", payload, v, P⟩], p.Ok (d + 3) := by
    simp only [List.forall_mem_cons, List.not_mem_nil, false_imp_iff, implies_true, and_true]
    exact ⟨stringPart_ok (keys_plain _ (by simp)) _, stringPart_ok (keys_plain _ (by simp)) _,
      ⟨keys_plain _ (by simp), hv d⟩⟩
  have hresponse : Windows.isText (text "response") = true := by decide
  have hlength : 4 ≤ (responseBody requestId payload).length := by
    rw [responseBody, List.map_cons]
    exact (Nat.le_succ 4).trans (length_objectText (k := text "id") (t := quoted requestId) List.mem_cons_self)
  obtain ⟨hreads, hrefuses⟩ := parse_strict hlength fun d => object_strict (List.cons_ne_nil _ _) (hparts d)
  have hall : (∀ p ∈ [stringPart (text "id") requestId, stringPart (text "type") (text "response"),
      ⟨text "payload", payload, v, P⟩], p.reads) ↔ Windows.isText requestId = true ∧ P := by
    simp [stringPart, hresponse]
  rw [hall] at hreads hrefuses
  have hkeys : (text "type" == text "id") = false := by decide
  by_cases hok : Windows.isText requestId = true ∧ P
  · constructor
    · rintro ⟨members, hmembers, -, hid⟩
      obtain rfl := object.inj (Option.some.inj ((hreads hok).symm.trans hmembers))
      simp only [List.map_cons, stringPart, List.lookup_cons, BEq.rfl] at hid
      exact ⟨string.inj (Option.some.inj hid), hok⟩
    · rintro ⟨rfl, -⟩
      exact ⟨_, hreads hok, by simp [List.lookup_cons, stringPart, hkeys], by simp [stringPart]⟩
  · exact iff_of_false (not_answers_of_none (hrefuses hok)) fun h => hok h.2

end Responses

section Cut
variable {depth : Nat}

/-- The data as far as the buffer goes, with the beginning of the last value, and its mark or not. -/
def cutData (info : AttestationInfo) (w mark : Bytes) : Bytes :=
  lastHead (.string (text "authorizationCode") info.authorizationCode) [.string (text "status") info.status]
    (text "redirectUri") ++ w.flatMap escapeChar ++ mark

private def responseFront (requestId : Bytes) : List Part :=
  [stringPart (text "id") requestId, stringPart (text "type") (text "response")]

private theorem responseFront_ok (requestId : Bytes) : ∀ p ∈ responseFront requestId, p.Ok (depth + 1) := by
  simp only [responseFront, List.forall_mem_cons, List.not_mem_nil, false_imp_iff, implies_true, and_true]
  exact ⟨stringPart_ok (keys_plain _ (by simp)) _, stringPart_ok (keys_plain _ (by simp)) _⟩

/-- With the mark, the error becomes a member of the data, the braces close the data and the payload,
and the response stays open. -/
private theorem responseBody_marked (requestId w reason : Bytes) (ok : Bool) (info : AttestationInfo) :
    responseBody requestId (attestText ok (cutData info w [quotationMark]) reason) =
      openBrace :: ((responseFront requestId).flatMap (fun p => p.member ++ [comma]) ++ memberText (text "payload")
        (objectText [(boolPart (text "success") ok).member, memberText (text "data")
          (objectText ((dataParts info w ++ [stringPart (text "error") reason]).map Part.member))])) := by
  simp [responseBody, attestText, cutData, objectText, commaSeparated_cons_cons, commaSeparated_singleton, Entry.text,
    memberText, quoted, lastHead, tailText, Part.member, stringPart, boolPart, dataParts, responseFront]

/-- Without it, the value goes on to the mark of the next key. -/
private theorem responseBody_unmarked (requestId w reason : Bytes) (ok : Bool) (info : AttestationInfo) :
    responseBody requestId (attestText ok (cutData info w []) reason) =
      openBrace :: ((responseFront requestId).flatMap (fun p => p.member ++ [comma]) ++ memberText (text "payload")
        (openBrace :: ([boolPart (text "success") ok].flatMap (fun p => p.member ++ [comma]) ++ memberText (text "data")
          (openBrace :: (((dataParts info w).take 2).flatMap (fun p => p.member ++ [comma]) ++
            ((stringPart (text "redirectUri") (w ++ [comma])).member ++ (text "error" ++
              quotationMark :: colon :: (quoted reason ++ [closeBrace, closeBrace])))))))) := by
  have hcomma : escapeChar comma = [comma] := by decide
  simp [responseBody, attestText, cutData, objectText, commaSeparated_cons_cons, commaSeparated_singleton, Entry.text,
    memberText, quoted, lastHead, tailText, Part.member, stringPart, boolPart, dataParts, responseFront, hcomma]

private theorem four_le_length (requestId payload : Bytes) : 4 ≤ (responseBody requestId payload).length := by
  rw [responseBody, List.map_cons]
  exact (Nat.le_succ 4).trans (length_objectText (k := text "id") (t := quoted requestId) List.mem_cons_self)

private theorem parse_marked (requestId w reason : Bytes) (ok : Bool) (info : AttestationInfo) :
    parse (responseBody requestId (attestText ok (cutData info w [quotationMark]) reason)) = none := by
  refine parse_none (four_le_length _ _) fun d => ?_
  have hdata : ∀ p ∈ dataParts info w ++ [stringPart (text "error") reason], p.Ok (d + 1) :=
    List.forall_mem_append.mpr ⟨dataParts_ok info w d, List.forall_mem_singleton.mpr
      (stringPart_ok (keys_plain _ (by simp)) reason)⟩
  have hpayload : ∀ p ∈ [boolPart (text "success") ok, ⟨text "data", _, _, _⟩], p.Ok (d + 2) :=
    List.forall_mem_cons.mpr ⟨boolPart_ok (keys_plain _ (by simp)) ok _, List.forall_mem_singleton.mpr
      ⟨keys_plain _ (by simp), object_strict (by simp) hdata⟩⟩
  have hopen := object_open_none (responseFront_ok requestId) (p := ⟨text "payload", _, _, _⟩)
    ⟨keys_plain _ (by simp), object_strict (List.cons_ne_nil _ _) hpayload⟩
  rw [responseBody_marked]
  exact hopen

private theorem parse_unmarked (requestId w reason : Bytes) (ok : Bool) (info : AttestationInfo) :
    parse (responseBody requestId (attestText ok (cutData info w []) reason)) = none := by
  refine parse_none (four_le_length _ _) fun d => ?_
  rw [responseBody_unmarked]
  apply object_lastNone (responseFront_ok requestId) (keys_plain _ (by simp))
  refine object_lastNone (List.forall_mem_singleton.mpr (boolPart_ok (keys_plain _ (by simp)) ok _))
    (keys_plain _ (by simp)) ?_
  refine object_junk_none (fun p hp => dataParts_ok info w d p (List.take_subset _ _ hp))
    (stringPart_ok (keys_plain _ (by simp)) _) fun c rest h => ?_
  have herror : text "error" = 'e'.toUInt8 :: (text "error").tail := by decide
  rw [herror, List.cons_append, skip_cons (by decide)] at h
  obtain ⟨rfl, -⟩ := List.cons.inj h
  exact ⟨by decide, by decide⟩

/-- A response whose data are cut is not JSON. -/
theorem parse_cut (requestId w mark reason : Bytes) (ok : Bool) (info : AttestationInfo)
    (hmark : mark = [] ∨ mark = [quotationMark]) :
    parse (responseBody requestId (attestText ok (cutData info w mark) reason)) = none := by
  rcases hmark with rfl | rfl
  · exact parse_unmarked requestId w reason ok info
  · exact parse_marked requestId w reason ok info

end Cut
end RootHerald.Linux
