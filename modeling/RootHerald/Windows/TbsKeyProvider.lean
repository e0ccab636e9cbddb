import RootHerald.Windows.TpmCommands

/-! The attestation key of the Windows client: created in a TBS context, kept at a persistent handle. -/
namespace RootHerald.Windows
open Lib

structure TbsKeyProvider where
  tpm : TpmCommands := none
  ekHandle : Handle := 0
  akHandle : Handle := 0
  akPubArea : Bytes := []
  deriving DecidableEq

namespace TbsKeyProvider

def openContext (p : TbsKeyProvider) : Tbs (Bool × TbsKeyProvider) := do
  let (opened, tpm) ← tpmOpen p.tpm
  return (opened, { p with tpm })

def flushTransients (p : TbsKeyProvider) : Tbs TbsKeyProvider := do
  flushHandle p.tpm p.akHandle
  flushHandle p.tpm p.ekHandle
  return { p with akHandle := 0, ekHandle := 0 }

/-- Also what the destructor does. -/
def close (p : TbsKeyProvider) : Tbs Unit := do
  let p ← p.flushTransients
  tpmClose p.tpm

def akExists (p : TbsKeyProvider) : Tbs Bool := isPersistentPresent p.tpm kTbsAkPersistentHandle

def createAk (p : TbsKeyProvider) : Tbs (Bool × TbsKeyProvider) := do
  let p ← p.flushTransients
  let p := { p with akPubArea := [] }
  let ekHandle ← createEk p.tpm
  let p := { p with ekHandle }
  if ekHandle = 0 then return (false, p)
  let (akHandle, akPubArea) ← createAndLoadAk p.tpm
  let p := { p with akHandle, akPubArea }
  if akHandle = 0 ∨ akPubArea = [] then
    let p ← p.flushTransients
    return (false, p)
  return (true, p)

def loadAk (p : TbsKeyProvider) : Tbs Bool := isPersistentPresent p.tpm kTbsAkPersistentHandle

def deleteAk (p : TbsKeyProvider) : Tbs TbsKeyProvider := p.flushTransients

def activateCredential (p : TbsKeyProvider) (credentialBlob encryptedSecret : Bytes) : Tbs Bytes := do
  if p.akHandle = 0 ∨ p.ekHandle = 0 then return []
  Windows.activateCredential p.tpm p.akHandle p.ekHandle credentialBlob encryptedSecret

def persistAk (p : TbsKeyProvider) : Tbs (Bool × TbsKeyProvider) := do
  if p.akHandle = 0 then return (false, p)
  if ← evictControl p.tpm p.akHandle kTbsAkPersistentHandle then
    let p ← p.flushTransients
    return (true, p)
  else return (false, p)

end TbsKeyProvider
end RootHerald.Windows
