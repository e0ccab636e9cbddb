import RootHerald.Lib.Fields
import RootHerald.Windows.TpmCommands

/-! TPM2_CreatePrimary as the client marshals it, and what the TPM reads from the bytes. -/
namespace RootHerald.Windows
open Lib

section Marshalling

/-- BeginCommand, the parameters, and the size SendCommand fills in. -/
def commandBytes (tag commandCode : Nat) (params : Bytes) : Bytes :=
  beBytes 2 tag ++ beBytes 4 (10 + params.length) ++ beBytes 4 commandCode ++ params

def TPM2_ST_SESSIONS : Nat := 0x8002
def TPM2_CC_CreatePrimary : Nat := 0x00000131

def writeTpm2b (data : Bytes) : Bytes := beBytes 2 data.length ++ data

/-- TPM_RS_PW with an empty password. -/
def writePasswordAuth : Bytes :=
  let auth := beBytes 4 0x40000009 ++ beBytes 2 0 ++ [0x01] ++ beBytes 2 0
  beBytes 4 auth.length ++ auth

def akAttributes : Nat := 1 <<< 1 ||| 1 <<< 4 ||| 1 <<< 5 ||| 1 <<< 6 ||| 1 <<< 16 ||| 1 <<< 18

def akTemplate : Bytes :=
  beBytes 2 0x0001 ++ beBytes 2 0x000B ++ beBytes 4 akAttributes ++ beBytes 2 0 ++ beBytes 2 0x0010 ++
    beBytes 2 0x0014 ++ beBytes 2 0x000B ++ beBytes 2 2048 ++ beBytes 4 0 ++ beBytes 2 256 ++ List.replicate 256 0

def ekAttributes : Nat := 1 <<< 1 ||| 1 <<< 4 ||| 1 <<< 5 ||| 1 <<< 7 ||| 1 <<< 16 ||| 1 <<< 17

def ekPolicy : Bytes :=
  [0x83, 0x71, 0x97, 0x67, 0x44, 0x84, 0xB3, 0xF8, 0x1A, 0x90, 0xCC, 0x8D, 0x46, 0xA5, 0xD7, 0x24,
    0xFD, 0x52, 0xD7, 0x6E, 0x06, 0x52, 0x0B, 0x64, 0xF2, 0xA1, 0xDA, 0x1B, 0x33, 0x14, 0x69, 0xAA]

def ekTemplate : Bytes :=
  beBytes 2 0x0001 ++ beBytes 2 0x000B ++ beBytes 4 ekAttributes ++ beBytes 2 32 ++ ekPolicy ++ beBytes 2 0x0006 ++
    beBytes 2 128 ++ beBytes 2 0x0043 ++ beBytes 2 0x0010 ++ beBytes 2 2048 ++ beBytes 4 0 ++ beBytes 2 256 ++
    List.replicate 256 0

/-- TPM_RH_OWNER and TPM_RH_ENDORSEMENT. -/
def Hierarchy.handle : Hierarchy → Nat
  | .owner => 0x40000001
  | .endorsement => 0x4000000B

def Hierarchy.template : Hierarchy → Bytes
  | .owner => akTemplate
  | .endorsement => ekTemplate

/-- The command of CreateAndLoadAk and of CreateEk. -/
def createPrimaryCommand (hierarchy : Hierarchy) : Bytes :=
  commandBytes TPM2_ST_SESSIONS TPM2_CC_CreatePrimary
    (beBytes 4 hierarchy.handle ++ writePasswordAuth ++ (beBytes 2 4 ++ beBytes 2 0 ++ beBytes 2 0) ++
      writeTpm2b hierarchy.template ++ beBytes 2 0 ++ beBytes 4 0)

end Marshalling

section Unmarshalling

structure CreatePrimary where
  primaryHandle : Nat
  inSensitive : Bytes
  inPublic : Bytes
  deriving DecidableEq

/-- A field behind its size in n bytes. -/
def takeSized (n : Nat) (s : Bytes) : Option (Bytes × Bytes) := do
  let (size, rest) ← takeBytes n s
  takeBytes (beNat size) rest

/-- Header, handle, authorization area, inSensitive, inPublic, outsideInfo and creationPCR. -/
def unmarshalCreatePrimary (cmd : Bytes) : Option CreatePrimary := do
  let (header, rest) ← takeBytes 10 cmd
  guard (header = beBytes 2 TPM2_ST_SESSIONS ++ beBytes 4 cmd.length ++ beBytes 4 TPM2_CC_CreatePrimary)
  let (handle, rest) ← takeBytes 4 rest
  let (_, rest) ← takeSized 4 rest
  let (inSensitive, rest) ← takeSized 2 rest
  let (inPublic, rest) ← takeSized 2 rest
  let (_, rest) ← takeSized 2 rest
  guard (rest = beBytes 4 0)
  return ⟨beNat handle, inSensitive, inPublic⟩

/-- Every command the client sends is well formed: empty sensitive data and a fixed template. -/
theorem unmarshal_createPrimaryCommand (hierarchy : Hierarchy) :
    unmarshalCreatePrimary (createPrimaryCommand hierarchy) =
      some ⟨hierarchy.handle, beBytes 2 0 ++ beBytes 2 0, hierarchy.template⟩ := by
  cases hierarchy with
  | owner => decide +kernel
  | endorsement => decide +kernel

end Unmarshalling
end RootHerald.Windows
