import RootHerald.Windows.WireReads

/-! An NV index that holds a certificate, the responses of the TPM for it, and a TPM that answers NV_Read
with the front of what is asked for. -/
namespace RootHerald.Windows.Wire
open Lib

section Responses

/-- A response with its size in front of it. -/
def response (tag : Nat) (params : Bytes) : Bytes := responseHeader tag (10 + params.length) 0 ++ params

/-- Parameters behind their size, and the authorization area. -/
def sessionResponse (handles params authorization : Bytes) : Bytes :=
  response TPM2_ST_SESSIONS (handles ++ (beBytes 4 params.length ++ (params ++ authorization)))

theorem response_length (tag : Nat) (params : Bytes) : (response tag params).length = 10 + params.length := by
  rw [response, List.length_append, responseHeader_length]

/-- A field of two bytes behind others. -/
theorem readU16_response {tag i n : Nat} {front rest : Bytes} (hi : 10 + front.length = i) (hn : n < 2 ^ 16) :
    Windows.readU16 (response tag (front ++ (beBytes 2 n ++ rest))) i = n := by
  rw [response, ← List.append_assoc]
  refine readU16_append ?_ hn
  rw [List.length_append, responseHeader_length, hi]

theorem readU32_response {tag i n : Nat} {front rest : Bytes} (hi : 10 + front.length = i) (hn : n < 2 ^ 32) :
    Windows.readU32 (response tag (front ++ (beBytes 4 n ++ rest))) i = n := by
  rw [response, ← List.append_assoc]
  refine readU32_append ?_ hn
  rw [List.length_append, responseHeader_length, hi]

theorem drop_response {tag i : Nat} {front rest : Bytes} (hi : 10 + front.length = i) :
    (response tag (front ++ rest)).drop i = rest := by
  have hlen : (responseHeader tag (10 + (front ++ rest).length) 0 ++ front).length = i := by
    rw [List.length_append, responseHeader_length, hi]
  rw [response, ← List.append_assoc, ← hlen, List.drop_left]

theorem response_code (tag : Nat) (params : Bytes) : Windows.readU32 (response tag params) 6 = 0 :=
  responseCode_whole _ _ _

end Responses

/-- TPMS_NV_PUBLIC of an index, its name, and what it holds. -/
structure NvArea where
  nvIndex : UInt32
  nameAlg : UInt16
  attributes : UInt32
  authPolicy : Bytes
  name : Bytes
  content : Bytes
  authPolicy_lt : authPolicy.length < 2 ^ 16 - 14
  content_ne : content ≠ []
  content_lt : content.length < 2 ^ 16

namespace NvArea
variable (area : NvArea)

def nvPublic : Bytes :=
  beBytes 4 area.nvIndex.toNat ++ (beBytes 2 area.nameAlg.toNat ++ (beBytes 4 area.attributes.toNat ++
    (writeTpm2b area.authPolicy ++ beBytes 2 area.content.length)))

/-- TPM2B_NV_PUBLIC and TPM2B_NAME. -/
def publicResponse : Bytes := response TPM2_ST_NO_SESSIONS (writeTpm2b area.nvPublic ++ writeTpm2b area.name)

theorem content_pos : 0 < area.content.length := List.length_pos_iff.mpr area.content_ne

theorem nvPublic_length : area.nvPublic.length = 14 + area.authPolicy.length := by
  simp only [nvPublic, List.length_append, beBytes_length, writeTpm2b_length]
  omega

theorem nvPublicSize_publicResponse : nvPublicSize area.publicResponse = some area.content.length := by
  have hlen := area.nvPublic_length
  have hpolicy := area.authPolicy_lt
  have htotal : area.publicResponse.length = 10 + (2 + area.nvPublic.length) + (2 + area.name.length) := by
    rw [publicResponse, response_length, List.length_append, writeTpm2b_length, writeTpm2b_length]
    omega
  have hsize : Windows.readU16 area.publicResponse 10 = area.nvPublic.length := by
    rw [publicResponse, writeTpm2b, List.append_assoc]
    exact @readU16_response _ _ _ [] _ rfl (by omega)
  have hpolicySize : Windows.readU16 area.publicResponse 22 = area.authPolicy.length := by
    have hsplit : writeTpm2b area.nvPublic ++ writeTpm2b area.name =
        (beBytes 2 area.nvPublic.length ++ (beBytes 4 area.nvIndex.toNat ++ (beBytes 2 area.nameAlg.toNat ++
          beBytes 4 area.attributes.toNat))) ++ (beBytes 2 area.authPolicy.length ++ (area.authPolicy ++
            (beBytes 2 area.content.length ++ writeTpm2b area.name))) := by
      simp only [writeTpm2b, nvPublic, List.append_assoc]
    rw [publicResponse, hsplit]
    exact readU16_response (by simp) (by omega)
  have hdataSize : Windows.readU16 area.publicResponse (24 + area.authPolicy.length) = area.content.length := by
    have hsplit : writeTpm2b area.nvPublic ++ writeTpm2b area.name =
        (beBytes 2 area.nvPublic.length ++ (beBytes 4 area.nvIndex.toNat ++ (beBytes 2 area.nameAlg.toNat ++
          (beBytes 4 area.attributes.toNat ++ (beBytes 2 area.authPolicy.length ++ area.authPolicy))))) ++
            (beBytes 2 area.content.length ++ writeTpm2b area.name) := by
      simp only [writeTpm2b, nvPublic, List.append_assoc]
    rw [publicResponse, hsplit]
    refine readU16_response ?_ area.content_lt
    simp only [List.length_append, beBytes_length]
    omega
  have hcode : Windows.readU32 area.publicResponse 6 = 0 := response_code _ _
  have hpos := area.content_pos
  unfold nvPublicSize
  rw [hsize, hpolicySize, hdataSize, if_neg]
  rintro (h | h | h | h | h)
  · omega
  · exact h hcode
  · omega
  · omega
  · omega

end NvArea

section NvRead

/-- TPM2B_MAX_NV_BUFFER. -/
def nvReadResponse (data authorization : Bytes) : Bytes := sessionResponse [] (writeTpm2b data) authorization

theorem nvData_nvReadResponse {data : Bytes} (hne : data ≠ []) (hlt : data.length < 2 ^ 16) (authorization : Bytes) :
    nvData (nvReadResponse data authorization) = some data := by
  have hsplit : ([] : Bytes) ++ (beBytes 4 (writeTpm2b data).length ++ (writeTpm2b data ++ authorization)) =
      beBytes 4 (writeTpm2b data).length ++ (beBytes 2 data.length ++ (data ++ authorization)) := by
    rw [List.nil_append, writeTpm2b, List.append_assoc]
  have hresp : nvReadResponse data authorization = response TPM2_ST_SESSIONS
      (beBytes 4 (writeTpm2b data).length ++ (beBytes 2 data.length ++ (data ++ authorization))) := by
    rw [nvReadResponse, sessionResponse, hsplit]
  have hgot : Windows.readU16 (nvReadResponse data authorization) 14 = data.length := by
    rw [hresp]
    exact readU16_response (by rw [beBytes_length]) hlt
  have hdata : (nvReadResponse data authorization).drop 16 = data ++ authorization := by
    rw [hresp, ← List.append_assoc]
    exact drop_response (by simp)
  have htotal : (nvReadResponse data authorization).length = 16 + (data.length + authorization.length) := by
    rw [hresp, response_length]
    simp only [List.length_append, beBytes_length]
    omega
  have hcode : Windows.readU32 (nvReadResponse data authorization) 6 = 0 := hresp ▸ response_code _ _
  have hpos := List.length_pos_iff.mpr hne
  unfold nvData
  rw [hgot, hdata, List.take_left, if_neg]
  rintro (h | h | h | h)
  · omega
  · exact h hcode
  · omega
  · omega

theorem nvData_empty (authorization : Bytes) : nvData (nvReadResponse [] authorization) = none := by
  refine if_pos (.inr (.inr (.inl ?_)))
  have hresp : nvReadResponse [] authorization =
      response TPM2_ST_SESSIONS (beBytes 4 2 ++ (beBytes 2 0 ++ authorization)) := rfl
  rw [hresp]
  exact readU16_response (by rw [beBytes_length]) (by decide)

/-- An NV_Read as the TPM reads it. -/
structure NvRead where
  nvIndex : Nat
  size : Nat
  offset : Nat
  deriving DecidableEq

/-- Handles, authorization area, size and offset. -/
def unmarshalNvRead (cmd : Bytes) : Option NvRead := do
  let rest ← takeHeader TPM2_ST_SESSIONS TPM2_CC_NV_Read cmd
  let (_authHandle, rest) ← takeBytes 4 rest
  let (nvIndex, rest) ← takeBytes 4 rest
  let (_auth, rest) ← takeSized 4 rest
  let (size, rest) ← takeBytes 2 rest
  let (offset, rest) ← takeBytes 2 rest
  guard (rest = [])
  return ⟨beNat nvIndex, beNat size, beNat offset⟩

theorem unmarshalNvRead_nvReadCommand (nvIndex : UInt32) {want readOffset : Nat} (hwant : want < 2 ^ 16)
    (hoffset : readOffset < 2 ^ 16) :
    unmarshalNvRead (nvReadCommand nvIndex want readOffset) = some ⟨nvIndex.toNat, want, readOffset⟩ := by
  have hhandle (rest : Bytes) : takeBytes 4 (beBytes 4 nvIndex.toNat ++ rest) = some (beBytes 4 nvIndex.toNat, rest) :=
    takeBytes_front (beBytes_length _ _)
  have hword (n : Nat) (rest : Bytes) : takeBytes 2 (beBytes 2 n ++ rest) = some (beBytes 2 n, rest) :=
    takeBytes_front (beBytes_length _ _)
  have hlast : takeBytes 2 (beBytes 2 readOffset) = some (beBytes 2 readOffset, []) := by
    rw [← hword readOffset [], List.append_nil]
  have hlt : nvIndex.toNat < 256 ^ 4 := nvIndex.toNat_lt
  unfold unmarshalNvRead nvReadCommand
  rw [takeHeader_commandBytes (by decide) (by decide) (by simp [passwordAuth_length])]
  simp only [Option.bind_eq_bind, Option.bind_some, hhandle, takeSized_passwordAuth, hword, hlast, guard, if_true,
    Option.pure_def, beNat_beBytes hlt, beNat_beBytes (k := 2) hwant, beNat_beBytes (k := 2) hoffset]

end NvRead

section HonestTpm

/-- What becomes of a command: it fails, or the TPM answers, an NV_Read with so many bytes at most. -/
inductive NvAnswer where
  | failing (resp : Bytes) (fails : Fails resp)
  | served (n : Nat) (authorization : Bytes)

/-- The command with that number does not fail, and an NV_Read, each behind the first, brings a byte. -/
def NvAnswer.Brings : Nat → NvAnswer → Prop
  | _, .failing _ _ => False
  | 0, .served _ _ => True
  | _ + 1, .served n _ => 0 < n

/-- A TPM that has the index, and answers an NV_Read inside it with a prefix of the bytes asked for. -/
def NvArea.tbs (area : NvArea) (answers : Nat → NvAnswer) : Tbs := fun i cmd =>
  match answers i with
  | .failing resp _ => resp
  | .served n authorization =>
    if cmd = nvReadPublicCommand area.nvIndex then area.publicResponse
    else
      match unmarshalNvRead cmd with
      | none => refusal 0
      | some read =>
        if read.nvIndex = area.nvIndex.toNat ∧ read.offset + read.size ≤ area.content.length then
          nvReadResponse (((area.content.drop read.offset).take read.size).take n) authorization
        else refusal 0

variable {area : NvArea} {answers : Nat → NvAnswer} {i n : Nat} {authorization : Bytes}

theorem tbs_failing {cmd resp : Bytes} {fails : Fails resp} (h : answers i = .failing resp fails) :
    Fails (area.tbs answers i cmd) := by
  rw [NvArea.tbs, h]
  exact fails

theorem tbs_public (h : answers i = .served n authorization) :
    area.tbs answers i (nvReadPublicCommand area.nvIndex) = area.publicResponse := by
  simp only [NvArea.tbs, h, if_true]

theorem tbs_read (h : answers i = .served n authorization) {want readOffset : Nat}
    (hinside : readOffset + want ≤ area.content.length) :
    area.tbs answers i (nvReadCommand area.nvIndex want readOffset) =
      nvReadResponse (((area.content.drop readOffset).take want).take n) authorization := by
  have hlt := area.content_lt
  have hne : nvReadCommand area.nvIndex want readOffset ≠ nvReadPublicCommand area.nvIndex := by
    intro heq
    have hlength := congrArg List.length heq
    rw [nvReadCommand, nvReadPublicCommand, commandBytes_length, commandBytes_length] at hlength
    simp [passwordAuth_length] at hlength
  simp only [NvArea.tbs, h, if_neg hne]
  rw [unmarshalNvRead_nvReadCommand area.nvIndex (by omega) (by omega)]
  exact if_pos ⟨rfl, hinside⟩

end HonestTpm
end RootHerald.Windows.Wire
