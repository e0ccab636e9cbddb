import RootHerald.Linux.AttestBody
import RootHerald.Linux.HostPayloads
import RootHerald.Linux.JsonReading
import RootHerald.Linux.PemText

/-! The two bodies that Enroll posts: objects of strings, built in buffers with room for whatever the TPM and the
server answer. -/
namespace RootHerald.Linux
open Lib Json

section Source

def ekCertSize : Nat := 4096
def publicAreaSize : Nat := 1024
def akNameSize : Nat := 256
def secretSize : Nat := 256

/-- What the wrapper hands out in bytes: the certificate in NV, the public area and the name of a key, and the secret
of a credential blob and encrypted secret. No function hands out more than fits the buffer it is given. -/
structure TpmBytes where
  ekCert : Option Bytes
  publicArea : Key → Bytes
  name : Key → Bytes
  secret : (credBlob encSecret : Bytes) → Bytes
  ekCert_le : ∀ der ∈ ekCert, der.length ≤ ekCertSize
  publicArea_le : ∀ key, (publicArea key).length ≤ publicAreaSize
  name_le : ∀ key, (name key).length ≤ akNameSize
  secret_le : ∀ credBlob encSecret, (secret credBlob encSecret).length ≤ secretSize

def ekCertPemSize : Nat := 8192
def publicAreaB64Size : Nat := 2048
def akNameB64Size : Nat := 512
def secretB64Size : Nat := 512
def enrollBodySize : Nat := 16384
def activateBodySize : Nat := 8192

/-- The buffer starts out empty. -/
def ekCertPem (ekCert : Option Bytes) : Checked Bytes :=
  match ekCert with
  | none => return []
  | some der => do
    let (_, pem) ← derToPem der (List.replicate ekCertPemSize 0)
    return pem.takeWhile (· ≠ 0)

/-- Steps 6 and 7, for the keys whose public areas and name were read. -/
def enrollBody (out : TpmBytes) (ek ak named : Key) : Checked Bytes := do
  let ekCertPem ← ekCertPem out.ekCert
  let ekPubB64 ← base64Encode (out.publicArea ek) publicAreaB64Size
  let akPubB64 ← base64Encode (out.publicArea ak) publicAreaB64Size
  let akNameB64 ← base64Encode (out.name named) akNameB64Size
  jsonObject enrollBodySize (.string (text "ekCertPem") ekCertPem)
    [.string (text "ekPublicKey") ekPubB64, .string (text "akPublicArea") akPubB64, .string (text "akName") akNameB64,
      .string (text "platform") (text "linux")]

/-- Step 12. -/
def activateBody (out : TpmBytes) (ak : Key) (deviceId secret : Bytes) : Checked Bytes := do
  let decryptedB64 ← base64Encode secret secretB64Size
  let akPubB64 ← base64Encode (out.publicArea ak) publicAreaB64Size
  jsonObject activateBodySize (.string (text "deviceId") deviceId)
    [.string (text "decryptedSecret") decryptedB64, .string (text "akPublicKey") akPubB64]

end Source

section Strings
variable {size : Nat}

/-- Keys with their values. -/
abbrev Members := List (Bytes × Bytes)

def stringsText (members : Members) : Bytes := objectText (members.map fun m => (Entry.string m.1 m.2).text)

def stringsValue (members : Members) : Json := .object (members.map fun m => (m.1, .string m.2))

/-- The object is read exactly if every value is text. -/
theorem parse_stringsText {members : Members} (hne : members ≠ []) (hkeys : ∀ m ∈ members, ∀ c ∈ m.1, isPlain c) :
    parse (stringsText members) =
      if ∀ m ∈ members, Windows.isText m.2 = true then some (stringsValue members) else none := by
  have hparts (d : Nat) : ∀ p ∈ members.map fun m => stringPart m.1 m.2, p.Ok (d + 1) :=
    List.forall_mem_map.mpr fun m hm => stringPart_ok (hkeys m hm) m.2
  have hstrict (d : Nat) := (object_strict (by simpa using hne) (hparts d)).congr List.forall_mem_map
  have hlength : 2 ≤ (stringsText members).length := by
    rw [stringsText, objectText]
    simp
  rw [List.map_map, List.map_map] at hstrict
  obtain ⟨hreads, hrefuses⟩ := parse_strict hlength hstrict
  split_ifs with htext
  · exact hreads htext
  · exact hrefuses htext

/-- A value without characters to escape. -/
theorem plain_string_length {key value : Bytes} (h : ∀ c ∈ value, isPlain c) :
    (Entry.string key value).text.length = key.length + value.length + 5 := by
  rw [Entry.text, memberText_length, quoted_length h]
  omega

theorem base64_string_length (key bs : Bytes) :
    (Entry.string key (Base64.encode bs)).text.length = key.length + 4 * ((bs.length + 2) / 3) + 5 := by
  rw [plain_string_length (base64_plain bs), Base64.length_encode]

end Strings

section Bodies
variable (out : TpmBytes)

/-- The text between the markers. -/
def pemText (der : Bytes) : Bytes := certificateHeader ++ Base64.encode der ++ certificateFooter

private theorem markers : Windows.isText certificateHeader = true ∧ Windows.isText certificateFooter = true ∧
    certificateHeader.length = 28 ∧ certificateFooter.length = 26 ∧ 0 ∉ certificateHeader ∧ 0 ∉ certificateFooter := by
  decide +kernel

theorem pemText_isText (der : Bytes) : Windows.isText (pemText der) = true := by
  have hbody := isText_of_plain (base64_plain der)
  rw [pemText, List.append_assoc, Windows.isText_append markers.1, Windows.isText_append hbody]
  exact markers.2.1

theorem pemText_length (der : Bytes) : (pemText der).length = 4 * ((der.length + 2) / 3) + 54 := by
  obtain ⟨-, -, hheader, hfooter, -⟩ := markers
  rw [pemText, List.length_append, List.length_append, hheader, hfooter, Base64.length_encode]
  omega

theorem pemText_noNul (der : Bytes) : ∀ c ∈ pemText der, c ≠ 0 := by
  obtain ⟨-, -, -, -, hheader, hfooter⟩ := markers
  intro c hc
  rw [pemText, List.mem_append, List.mem_append] at hc
  rcases hc with (hc | hc) | hc
  · exact ne_of_mem_of_not_mem hc hheader
  · exact Base64.encode_all (p := fun c => c ≠ 0) (by decide) (by decide) hc
  · exact ne_of_mem_of_not_mem hc hfooter

/-- Every certificate that was read fits as PEM. -/
theorem ekCertPem_eq : ekCertPem out.ekCert = .ok (out.ekCert.elim [] pemText) := by
  have hle := out.ekCert_le
  cases hcert : out.ekCert with
  | none => rfl
  | some der =>
    have hder : der.length ≤ 4096 := hle der hcert
    have hroom : certificateHeader.length + 4 * ((der.length + 2) / 3) + certificateFooter.length + 1 ≤
        (List.replicate ekCertPemSize (0 : UInt8)).length := by
      rw [List.length_replicate, markers.2.2.1, markers.2.2.2.1]
      unfold ekCertPemSize
      omega
    have hlength : (List.replicate ekCertPemSize (0 : UInt8)).length < 2 ^ 64 := by
      rw [List.length_replicate]
      decide
    rw [ekCertPem, derToPem_fits hlength hroom, ok_bind]
    refine congrArg Except.ok ?_
    change (pemText der ++ 0 :: _).takeWhile (· ≠ 0) = pemText der
    rw [List.takeWhile_append_of_pos fun c hc => by simpa using pemText_noNul der c hc, List.takeWhile_cons_of_neg (by simp),
      List.append_nil]

def enrollMembers (ek ak named : Key) : Members := [
  (text "ekCertPem", out.ekCert.elim [] pemText),
  (text "ekPublicKey", Base64.encode (out.publicArea ek)),
  (text "akPublicArea", Base64.encode (out.publicArea ak)),
  (text "akName", Base64.encode (out.name named)),
  (text "platform", text "linux")]

def activateMembers (ak : Key) (deviceId secret : Bytes) : Members := [
  (text "deviceId", deviceId),
  (text "decryptedSecret", Base64.encode secret),
  (text "akPublicKey", Base64.encode (out.publicArea ak))]

private theorem names : ∀ name ∈ [text "ekCertPem", text "ekPublicKey", text "akPublicArea", text "akName",
    text "platform", text "deviceId", text "decryptedSecret", text "akPublicKey"],
    (∀ c ∈ name, isPlain c) ∧ name.length ≤ 15 := by
  decide +kernel

theorem enrollMembers_keys (ek ak named : Key) : ∀ m ∈ enrollMembers out ek ak named, ∀ c ∈ m.1, isPlain c := by
  simp only [enrollMembers, List.forall_mem_cons, List.not_mem_nil, false_imp_iff, implies_true, and_true]
  exact ⟨(names _ (by simp)).1, (names _ (by simp)).1, (names _ (by simp)).1, (names _ (by simp)).1,
    (names _ (by simp)).1⟩

theorem activateMembers_keys (ak : Key) (deviceId secret : Bytes) :
    ∀ m ∈ activateMembers out ak deviceId secret, ∀ c ∈ m.1, isPlain c := by
  simp only [activateMembers, List.forall_mem_cons, List.not_mem_nil, false_imp_iff, implies_true, and_true]
  exact ⟨(names _ (by simp)).1, (names _ (by simp)).1, (names _ (by simp)).1⟩

private theorem pem_length : (out.ekCert.elim [] pemText).length ≤ 5518 := by
  cases hcert : out.ekCert with
  | none => exact Nat.zero_le _
  | some der =>
    have hder : der.length ≤ 4096 := out.ekCert_le der hcert
    rw [Option.elim_some, pemText_length]
    omega

theorem enrollText_room (ek ak named : Key) : (stringsText (enrollMembers out ek ak named)).length < enrollBodySize := by
  have hcert := Entry.string_length (text "ekCertPem") (out.ekCert.elim [] pemText)
  have hpem := pem_length out
  have hek : (out.publicArea ek).length ≤ 1024 := out.publicArea_le ek
  have hak : (out.publicArea ak).length ≤ 1024 := out.publicArea_le ak
  have hname : (out.name named).length ≤ 256 := out.name_le named
  have hplatform := Entry.string_length (text "platform") (text "linux")
  have hlinux : (text "linux").length = 5 := by decide
  have h₁ : (text "ekCertPem").length ≤ 15 := (names _ (by simp)).2
  have h₂ : (text "ekPublicKey").length ≤ 15 := (names _ (by simp)).2
  have h₃ : (text "akPublicArea").length ≤ 15 := (names _ (by simp)).2
  have h₄ : (text "akName").length ≤ 15 := (names _ (by simp)).2
  have h₅ : (text "platform").length ≤ 15 := (names _ (by simp)).2
  have hlength := objectText_length (.string (text "ekCertPem") (out.ekCert.elim [] pemText))
    [.string (text "ekPublicKey") (Base64.encode (out.publicArea ek)),
      .string (text "akPublicArea") (Base64.encode (out.publicArea ak)),
      .string (text "akName") (Base64.encode (out.name named)), .string (text "platform") (text "linux")]
  simp only [List.map_cons, List.map_nil, List.sum_cons, List.sum_nil, base64_string_length] at hlength
  change (objectText _).length < _
  simp only [enrollMembers, List.map_cons, List.map_nil]
  rw [hlength]
  unfold enrollBodySize
  omega

/-- Whatever the TPM answers, the enrollment has room. -/
theorem enrollBody_eq (ek ak named : Key) : enrollBody out ek ak named = .ok (stringsText (enrollMembers out ek ak named)) := by
  have hek : (out.publicArea ek).length ≤ 1024 := out.publicArea_le ek
  have hak : (out.publicArea ak).length ≤ 1024 := out.publicArea_le ak
  have hname : (out.name named).length ≤ 256 := out.name_le named
  unfold enrollBody
  rw [ekCertPem_eq, ok_bind, base64Encode_fits (by unfold publicAreaB64Size; omega), ok_bind,
    base64Encode_fits (by unfold publicAreaB64Size; omega), ok_bind,
    base64Encode_fits (by unfold akNameB64Size; omega), ok_bind]
  exact jsonObject_fits (enrollText_room out ek ak named)

/-- And is read as what the TPM answered. -/
theorem parse_enrollBody (ek ak named : Key) :
    parse (stringsText (enrollMembers out ek ak named)) = some (stringsValue (enrollMembers out ek ak named)) := by
  have hne : enrollMembers out ek ak named ≠ [] := List.cons_ne_nil _ _
  rw [parse_stringsText hne (enrollMembers_keys out ek ak named), if_pos]
  simp only [enrollMembers, List.forall_mem_cons, List.not_mem_nil, false_imp_iff, implies_true, and_true]
  refine ⟨?_, isText_of_plain (base64_plain _), isText_of_plain (base64_plain _), isText_of_plain (base64_plain _),
    by decide⟩
  cases out.ekCert with
  | none => rfl
  | some der => exact pemText_isText der

theorem activateText_room (ak : Key) {deviceId secret : Bytes} (hid : deviceId.length ≤ 63)
    (hsecret : secret.length ≤ secretSize) :
    (stringsText (activateMembers out ak deviceId secret)).length < activateBodySize := by
  have hdevice := Entry.string_length (text "deviceId") deviceId
  have hak : (out.publicArea ak).length ≤ 1024 := out.publicArea_le ak
  have h₁ : (text "deviceId").length ≤ 15 := (names _ (by simp)).2
  have h₂ : (text "decryptedSecret").length ≤ 15 := (names _ (by simp)).2
  have h₃ : (text "akPublicKey").length ≤ 15 := (names _ (by simp)).2
  have hlength := objectText_length (.string (text "deviceId") deviceId)
    [.string (text "decryptedSecret") (Base64.encode secret),
      .string (text "akPublicKey") (Base64.encode (out.publicArea ak))]
  simp only [List.map_cons, List.map_nil, List.sum_cons, List.sum_nil, base64_string_length] at hlength
  change (objectText _).length < _
  simp only [activateMembers, List.map_cons, List.map_nil]
  rw [hlength]
  unfold secretSize at hsecret
  unfold activateBodySize
  omega

/-- For a device id and a secret of the buffers that hold them. -/
theorem activateBody_eq (ak : Key) {deviceId secret : Bytes} (hid : deviceId.length ≤ 63)
    (hsecret : secret.length ≤ secretSize) :
    activateBody out ak deviceId secret = .ok (stringsText (activateMembers out ak deviceId secret)) := by
  have hak : (out.publicArea ak).length ≤ 1024 := out.publicArea_le ak
  have hroom := activateText_room out ak hid hsecret
  unfold secretSize at hsecret
  unfold activateBody
  rw [base64Encode_fits (by unfold secretB64Size; omega), ok_bind,
    base64Encode_fits (by unfold publicAreaB64Size; omega), ok_bind]
  exact jsonObject_fits hroom

/-- Only the device id can spoil it. -/
theorem parse_activateBody (ak : Key) (deviceId secret : Bytes) :
    parse (stringsText (activateMembers out ak deviceId secret)) =
      if Windows.isText deviceId = true then some (stringsValue (activateMembers out ak deviceId secret)) else none := by
  have hne : activateMembers out ak deviceId secret ≠ [] := List.cons_ne_nil _ _
  rw [parse_stringsText hne (activateMembers_keys out ak deviceId secret)]
  refine if_congr ?_ rfl rfl
  simp only [activateMembers, List.forall_mem_cons, List.not_mem_nil, false_imp_iff, implies_true, and_true]
  exact and_iff_left ⟨isText_of_plain (base64_plain _), isText_of_plain (base64_plain _)⟩

end Bodies
end RootHerald.Linux
