import RootHerald.Windows.CommandGrammar

/-! The bytes the client marshals for each of its commands, and the requests the TPM reads in them. -/
namespace RootHerald.Windows
open Lib Wire

section Bytes

/-- What SendCommand is handed, its size field filled in. -/
def Command.bytes : Command → Bytes
  | .createPrimary hierarchy => createPrimaryCommand hierarchy
  | .startAuthSession => startAuthSessionCommand
  | .policySecret session => policySecretCommand session
  | .activateCredential activateHandle keyHandle session credentialBlob encryptedSecret =>
    activateCredentialCommand (UInt32.ofNat activateHandle) (UInt32.ofNat keyHandle) session credentialBlob encryptedSecret
  | .flushContext handle => flushContextCommand handle
  | .readPublic handle => readPublicCommand handle
  | .evictControl objectHandle persistentHandle => evictControlCommand objectHandle persistentHandle

end Bytes

section Requests

def nullSymmetric : SymDef := ⟨TPM2_ALG_NULL, none⟩

/-- A restricted RSA 2048 key that signs with RSASSA and SHA-256. -/
def akPublic : RsaPublic where
  nameAlg := TPM2_ALG_SHA256
  objectAttributes := akAttributes
  authPolicy := []
  symmetric := nullSymmetric
  scheme := ⟨TPM2_ALG_RSASSA, some TPM2_ALG_SHA256⟩
  keyBits := 2048
  exponent := 0
  unique := List.replicate 256 0

/-- A restricted RSA 2048 key that decrypts, with AES-128-CFB, under the endorsement policy. -/
def ekPublic : RsaPublic where
  nameAlg := TPM2_ALG_SHA256
  objectAttributes := ekAttributes
  authPolicy := ekPolicy
  symmetric := ⟨0x0006, some (128, 0x0043)⟩
  scheme := ⟨TPM2_ALG_NULL, none⟩
  keyBits := 2048
  exponent := 0
  unique := List.replicate 256 0

def Hierarchy.inPublic : Hierarchy → RsaPublic
  | .owner => akPublic
  | .endorsement => ekPublic

/-- TPM_RH_NULL. -/
def TPM2_RH_NULL : Nat := 0x40000007

def createPrimaryRequest (hierarchy : Hierarchy) : Request .createPrimary where
  handles := [hierarchy.handle]
  auths := [passwordSession]
  parameters := { userAuth := [], data := [], inPublic := hierarchy.inPublic, outsideInfo := [], creationPcr := [] }

/-- An unsalted, unbound policy session. -/
def startAuthSessionRequest : Request .startAuthSession where
  handles := [TPM2_RH_NULL, TPM2_RH_NULL]
  auths := []
  parameters := {
    nonceCaller := sessionNonce, encryptedSalt := [], sessionType := 1, symmetric := nullSymmetric,
    authHash := TPM2_ALG_SHA256 }

def policySecretRequest (session : Handle) : Request .policySecret where
  handles := [Hierarchy.endorsement.handle, session]
  auths := [passwordSession]
  parameters := { nonceTpm := [], cpHashA := [], policyRef := [], expiration := 0 }

/-- The policy session authorizes the use of the EK. -/
def activateCredentialRequest (activateHandle keyHandle session : Handle) (credential secret : Bytes) :
    Request .activateCredential where
  handles := [activateHandle, keyHandle]
  auths := [passwordSession, ⟨session, [], 1, []⟩]
  parameters := (credential, secret)

def flushContextRequest (handle : Handle) : Request .flushContext := ⟨[], [], handle⟩

def readPublicRequest (handle : Handle) : Request .readPublic := ⟨[handle], [], ()⟩

def evictControlRequest (objectHandle persistentHandle : Handle) : Request .evictControl :=
  ⟨[Hierarchy.owner.handle, objectHandle], [passwordSession], persistentHandle⟩

/-- The command as it should be read; a size stands in front of either blob. -/
def Command.request : Command → Σ code, Request code
  | .createPrimary hierarchy => ⟨_, createPrimaryRequest hierarchy⟩
  | .startAuthSession => ⟨_, startAuthSessionRequest⟩
  | .policySecret session => ⟨_, policySecretRequest session⟩
  | .activateCredential activateHandle keyHandle session credentialBlob encryptedSecret =>
    ⟨_, activateCredentialRequest activateHandle keyHandle session (credentialBlob.drop 2) (encryptedSecret.drop 2)⟩
  | .flushContext handle => ⟨_, flushContextRequest handle⟩
  | .readPublic handle => ⟨_, readPublicRequest handle⟩
  | .evictControl objectHandle persistentHandle => ⟨_, evictControlRequest objectHandle persistentHandle⟩

end Requests

section Marshalling

theorem createPrimaryCommand_eq (hierarchy : Hierarchy) :
    createPrimaryCommand hierarchy = (createPrimaryRequest hierarchy).marshal := by
  cases hierarchy <;> decide +kernel

theorem startAuthSessionCommand_eq : startAuthSessionCommand = startAuthSessionRequest.marshal := by
  decide

theorem policySecretCommand_eq (session : Handle) : policySecretCommand session = (policySecretRequest session).marshal := by
  simp only [policySecretCommand, List.append_assoc]
  rfl

theorem flushContextCommand_eq (handle : Handle) : flushContextCommand handle = (flushContextRequest handle).marshal := rfl

theorem readPublicCommand_eq (handle : Handle) : readPublicCommand handle = (readPublicRequest handle).marshal := rfl

theorem evictControlCommand_eq (objectHandle persistentHandle : Handle) :
    evictControlCommand objectHandle persistentHandle = (evictControlRequest objectHandle persistentHandle).marshal := by
  simp only [evictControlCommand, List.append_assoc]
  rfl

end Marshalling

section Reading
open Format

theorem sized_nil (k : Nat) : (sized k).Fits [] := sized_fits.mpr (Nat.pow_pos (by decide))

/-- A session that carries neither nonce nor HMAC. -/
theorem bareSession_fits {session : Handle} (h : session < 2 ^ 32) : authCommand.Fits ⟨session, [], 1, []⟩ :=
  ⟨h, sized_nil 2, (by decide : 1 < 256 ^ 1), sized_nil 2⟩

theorem passwordSession_fits : authCommand.Fits passwordSession := bareSession_fits (by decide)

theorem passwordArea_fits : (authorizationArea 1).Fits [passwordSession] :=
  ⟨(repeated_fits _ _).mpr ⟨rfl, by simpa using passwordSession_fits⟩, by decide⟩

theorem noArea_fits : (authorizationArea 0).Fits [] := (repeated_fits _ _).mpr ⟨rfl, by simp⟩

theorem body_fits {code : Code} {r : Request code} (hhandles : r.handles.length = code.handles)
    (hlt : ∀ handle ∈ r.handles, handle < 2 ^ 32) (hauths : (authorizationArea code.authorizations).Fits r.auths)
    (hparameters : code.parameters.Fits r.parameters) : code.body.Fits r :=
  ⟨(repeated_fits _ _).mpr ⟨hhandles, hlt⟩, hauths, hparameters⟩

theorem handles_lt {code : Code} {r : Request code} (h : r.Fits) : ∀ handle ∈ r.handles, handle < 2 ^ 32 :=
  ((repeated_fits _ _).mp h.1.1).2

/-- A request of bounded length, as its bytes show. -/
theorem Request.fits_of_bytes {code : Code} {r : Request code} {tag value : Nat} {params : Bytes}
    (hbody : code.body.Fits r) (hbytes : commandBytes tag value params = r.marshal) (hlen : 10 + params.length < 2 ^ 32) :
    r.Fits := by
  refine ⟨hbody, ?_⟩
  rwa [← r.marshal_length, ← hbytes, commandBytes_length]

theorem createPrimaryRequest_fits (hierarchy : Hierarchy) : (createPrimaryRequest hierarchy).Fits := by
  have hbody : Code.createPrimary.body.Fits (createPrimaryRequest hierarchy) := by
    refine body_fits rfl ?_ passwordArea_fits (fits_of_whole _ ?_)
    · cases hierarchy <;> decide
    · change createPrimaryFormat.whole _ = some _
      cases hierarchy <;> decide +kernel
  refine Request.fits_of_bytes hbody (createPrimaryCommand_eq hierarchy) ?_
  cases hierarchy <;> decide +kernel

theorem startAuthSessionRequest_fits : startAuthSessionRequest.Fits := by
  have hbody : Code.startAuthSession.body.Fits startAuthSessionRequest := by
    refine body_fits rfl (by decide) noArea_fits (fits_of_whole _ ?_)
    change startAuthSessionFormat.whole _ = some _
    decide
  exact Request.fits_of_bytes hbody startAuthSessionCommand_eq (by decide)

theorem policySecretRequest_fits {session : Handle} : (policySecretRequest session).Fits ↔ session < 2 ^ 32 := by
  constructor
  · intro h
    exact handles_lt h session (by simp [policySecretRequest])
  · intro h
    have hbody : Code.policySecret.body.Fits (policySecretRequest session) :=
      body_fits rfl (by simpa [policySecretRequest, Hierarchy.handle] using h) passwordArea_fits
        ⟨sized_nil 2, sized_nil 2, sized_nil 2, (by decide : 0 < 256 ^ 4)⟩
    refine Request.fits_of_bytes hbody (policySecretCommand_eq session) ?_
    simp only [List.length_append, beBytes_length, passwordAuth_length]
    decide

theorem flushContextRequest_fits {handle : Handle} : (flushContextRequest handle).Fits ↔ handle < 2 ^ 32 := by
  constructor
  · exact fun h => h.1.2.2
  · exact fun h => Request.fits_of_bytes (body_fits rfl (by simp [flushContextRequest]) noArea_fits h)
      (flushContextCommand_eq handle) (by rw [beBytes_length]; decide)

theorem readPublicRequest_fits {handle : Handle} : (readPublicRequest handle).Fits ↔ handle < 2 ^ 32 := by
  constructor
  · exact fun h => handles_lt h handle (List.mem_singleton_self handle)
  · exact fun h => Request.fits_of_bytes (body_fits rfl (by simpa [readPublicRequest] using h) noArea_fits trivial)
      (readPublicCommand_eq handle) (by rw [beBytes_length]; decide)

theorem evictControlRequest_fits {objectHandle persistentHandle : Handle} :
    (evictControlRequest objectHandle persistentHandle).Fits ↔ objectHandle < 2 ^ 32 ∧ persistentHandle < 2 ^ 32 := by
  constructor
  · exact fun h => ⟨handles_lt h objectHandle (by simp [evictControlRequest]), h.1.2.2⟩
  · rintro ⟨hobject, hpersistent⟩
    refine Request.fits_of_bytes (body_fits rfl (by simpa [evictControlRequest, Hierarchy.handle] using hobject)
      passwordArea_fits hpersistent) (evictControlCommand_eq objectHandle persistentHandle) ?_
    simp only [List.length_append, beBytes_length, passwordAuth_length]
    decide

theorem commandBytes_inj {tag value : Nat} {params params' : Bytes} :
    commandBytes tag value params = commandBytes tag value params' ↔ params = params' := by
  constructor
  · intro h
    rw [commandBytes_eq_header, commandBytes_eq_header] at h
    exact (List.append_inj h (by rw [commandHeader_length, commandHeader_length])).2
  · rintro rfl
    rfl

variable {activateHandle keyHandle session : Handle} {credentialBlob encryptedSecret : Bytes}

theorem activateCredentialRequest_marshal (credential secret : Bytes) :
    (activateCredentialRequest activateHandle keyHandle session credential secret).marshal =
      commandBytes TPM2_ST_SESSIONS TPM2_CC_ActivateCredential ((beBytes 4 activateHandle ++ (beBytes 4 keyHandle ++
        (beBytes 4 (activationAuth session).length ++ activationAuth session))) ++
          (writeTpm2b credential ++ writeTpm2b secret)) := by
  simp only [List.append_assoc, activationAuth]
  rfl

theorem activateCredentialCommand_eq_iff (hactivate : activateHandle < 2 ^ 32) (hkey : keyHandle < 2 ^ 32)
    (credential secret : Bytes) :
    (Command.activateCredential activateHandle keyHandle session credentialBlob encryptedSecret).bytes =
      (activateCredentialRequest activateHandle keyHandle session credential secret).marshal ↔
      credentialBlob ++ encryptedSecret = writeTpm2b credential ++ writeTpm2b secret := by
  have hbytes : (Command.activateCredential activateHandle keyHandle session credentialBlob encryptedSecret).bytes =
      commandBytes TPM2_ST_SESSIONS TPM2_CC_ActivateCredential ((beBytes 4 activateHandle ++ (beBytes 4 keyHandle ++
        (beBytes 4 (activationAuth session).length ++ activationAuth session))) ++
          (credentialBlob ++ encryptedSecret)) := by
    rw [Command.bytes, activateCredentialCommand, UInt32.toNat_ofNat_of_lt' hactivate, UInt32.toNat_ofNat_of_lt' hkey]
    simp only [List.append_assoc]
  rw [hbytes, activateCredentialRequest_marshal, commandBytes_inj, List.append_cancel_left_eq]

theorem activationAuth_length (session : Handle) : (activationAuth session).length = 18 := by
  simp only [activationAuth, List.length_append, beBytes_length, List.length_singleton]

theorem activationArea_fits (h : session < 2 ^ 32) : (authorizationArea 2).Fits [passwordSession, ⟨session, [], 1, []⟩] := by
  have hauths : ∀ a ∈ [passwordSession, ⟨session, [], 1, []⟩], authCommand.Fits a := by
    simpa using ⟨passwordSession_fits, bareSession_fits h⟩
  refine ⟨(repeated_fits _ _).mpr ⟨rfl, hauths⟩, ?_⟩
  change (activationAuth session).length < 256 ^ 4
  rw [activationAuth_length]
  decide

theorem activateCredentialRequest_fits {credential secret : Bytes} :
    (activateCredentialRequest activateHandle keyHandle session credential secret).Fits ↔
      (activateHandle < 2 ^ 32 ∧ keyHandle < 2 ^ 32 ∧ session < 2 ^ 32) ∧
        credential.length < 2 ^ 16 ∧ secret.length < 2 ^ 16 := by
  constructor
  · rintro ⟨⟨hhandles, harea, hcredential, hsecret⟩, -⟩
    have hlt := ((repeated_fits _ _).mp hhandles).2
    have hsession : authCommand.Fits ⟨session, [], 1, []⟩ := ((repeated_fits _ _).mp harea.1).2 _ (by simp [activateCredentialRequest])
    exact ⟨⟨hlt activateHandle (by simp [activateCredentialRequest]), hlt keyHandle (by simp [activateCredentialRequest]),
      hsession.1⟩, hcredential.1, hsecret.1⟩
  · rintro ⟨⟨hactivate, hkey, hsession⟩, hcredential, hsecret⟩
    have hbody : Code.activateCredential.body.Fits
        (activateCredentialRequest activateHandle keyHandle session credential secret) :=
      body_fits rfl (by simpa [activateCredentialRequest] using ⟨hactivate, hkey⟩) (activationArea_fits hsession)
        ⟨sized_fits.mpr hcredential, sized_fits.mpr hsecret⟩
    refine ⟨hbody, ?_⟩
    rw [← Request.marshal_length, activateCredentialRequest_marshal, commandBytes_length]
    simp only [List.length_append, beBytes_length, activationAuth_length, writeTpm2b_length]
    omega

/-- TPM2B with content that fits its size. -/
def Tpm2b (s : Bytes) : Prop := ∃ content : Bytes, content.length < 2 ^ 16 ∧ s = writeTpm2b content

/-- The command is read as it should be exactly if its handles are those of a TPM and each of its blobs is a
TPM2B. -/
def Command.Readable : Command → Prop
  | .createPrimary _ | .startAuthSession => True
  | .policySecret session => session < 2 ^ 32
  | .activateCredential activateHandle keyHandle session credentialBlob encryptedSecret =>
    (activateHandle < 2 ^ 32 ∧ keyHandle < 2 ^ 32 ∧ session < 2 ^ 32) ∧ Tpm2b credentialBlob ∧ Tpm2b encryptedSecret
  | .flushContext handle => handle < 2 ^ 32
  | .readPublic handle => handle < 2 ^ 32
  | .evictControl objectHandle persistentHandle => objectHandle < 2 ^ 32 ∧ persistentHandle < 2 ^ 32

theorem tpm2b_drop {s : Bytes} (h : Tpm2b s) : (s.drop 2).length < 2 ^ 16 ∧ s = writeTpm2b (s.drop 2) := by
  obtain ⟨content, hlt, rfl⟩ := h
  rw [writeTpm2b, List.drop_left' (beBytes_length _ _)]
  exact ⟨hlt, rfl⟩

/-- Two blobs behind one another read as they were meant are both framed. -/
private theorem tpm2b_of_append {s s' : Bytes} (hlt : (s.drop 2).length < 2 ^ 16) (hlt' : (s'.drop 2).length < 2 ^ 16)
    (h : s ++ s' = writeTpm2b (s.drop 2) ++ writeTpm2b (s'.drop 2)) : Tpm2b s ∧ Tpm2b s' := by
  have hlen := congrArg List.length h
  simp only [List.length_append, writeTpm2b_length, List.length_drop] at hlen
  obtain ⟨hs, hs'⟩ := List.append_inj h (by rw [writeTpm2b_length, List.length_drop]; omega)
  exact ⟨⟨_, hlt, hs⟩, ⟨_, hlt', hs'⟩⟩

theorem unmarshal_bytes_iff (cmd : Command) : unmarshal cmd.bytes = some cmd.request ↔ cmd.Readable := by
  cases cmd with
  | createPrimary hierarchy =>
    exact iff_of_true (unmarshal_eq_some.mpr ⟨createPrimaryRequest_fits hierarchy, createPrimaryCommand_eq hierarchy⟩) trivial
  | startAuthSession =>
    exact iff_of_true (unmarshal_eq_some.mpr ⟨startAuthSessionRequest_fits, startAuthSessionCommand_eq⟩) trivial
  | policySecret session =>
    exact (unmarshal_eq_some.trans (and_iff_left (policySecretCommand_eq session))).trans policySecretRequest_fits
  | activateCredential activateHandle keyHandle session credentialBlob encryptedSecret =>
    refine unmarshal_eq_some.trans ⟨?_, ?_⟩
    · rintro ⟨hfits, hbytes⟩
      obtain ⟨hhandles, hcredential, hsecret⟩ := activateCredentialRequest_fits.1 hfits
      exact ⟨hhandles, tpm2b_of_append hcredential hsecret
        ((activateCredentialCommand_eq_iff hhandles.1 hhandles.2.1 _ _).mp hbytes)⟩
    · rintro ⟨hhandles, hcredential, hsecret⟩
      obtain ⟨hlt, hframed⟩ := tpm2b_drop hcredential
      obtain ⟨hlt', hframed'⟩ := tpm2b_drop hsecret
      exact ⟨activateCredentialRequest_fits.2 ⟨hhandles, hlt, hlt'⟩,
        (activateCredentialCommand_eq_iff hhandles.1 hhandles.2.1 _ _).mpr (congrArg₂ _ hframed hframed')⟩
  | flushContext handle =>
    exact (unmarshal_eq_some.trans (and_iff_left (flushContextCommand_eq handle))).trans flushContextRequest_fits
  | readPublic handle =>
    exact (unmarshal_eq_some.trans (and_iff_left (readPublicCommand_eq handle))).trans readPublicRequest_fits
  | evictControl objectHandle persistentHandle =>
    exact (unmarshal_eq_some.trans (and_iff_left (evictControlCommand_eq objectHandle persistentHandle))).trans
      evictControlRequest_fits

end Reading
end RootHerald.Windows
