import RootHerald.Lib.Checked
import RootHerald.Lib.OrdMap

/-! Event types, entries and analysis of the measured-boot log. -/
namespace RootHerald.Boot
open Lib

section EventTypes

@[match_pattern] abbrev EV_PREBOOT_CERT : UInt32 := 0x00000000
@[match_pattern] abbrev EV_POST_CODE : UInt32 := 0x00000001
@[match_pattern] abbrev EV_NO_ACTION : UInt32 := 0x00000003
@[match_pattern] abbrev EV_SEPARATOR : UInt32 := 0x00000004
@[match_pattern] abbrev EV_ACTION : UInt32 := 0x00000005
@[match_pattern] abbrev EV_S_CRTM_CONTENTS : UInt32 := 0x00000007
@[match_pattern] abbrev EV_S_CRTM_VERSION : UInt32 := 0x00000008
@[match_pattern] abbrev EV_CPU_MICROCODE : UInt32 := 0x00000009
@[match_pattern] abbrev EV_PLATFORM_CONFIG_FLAGS : UInt32 := 0x0000000A
@[match_pattern] abbrev EV_TABLE_OF_DEVICES : UInt32 := 0x0000000B
@[match_pattern] abbrev EV_COMPACT_HASH : UInt32 := 0x0000000C
@[match_pattern] abbrev EV_IPL : UInt32 := 0x0000000D
@[match_pattern] abbrev EV_NONHOST_CODE : UInt32 := 0x0000000F
@[match_pattern] abbrev EV_NONHOST_CONFIG : UInt32 := 0x00000010
@[match_pattern] abbrev EV_EFI_VARIABLE_DRIVER_CONFIG : UInt32 := 0x80000001
@[match_pattern] abbrev EV_EFI_VARIABLE_BOOT : UInt32 := 0x80000002
@[match_pattern] abbrev EV_EFI_BOOT_SERVICES_APPLICATION : UInt32 := 0x80000003
@[match_pattern] abbrev EV_EFI_BOOT_SERVICES_DRIVER : UInt32 := 0x80000004
@[match_pattern] abbrev EV_EFI_RUNTIME_SERVICES_DRIVER : UInt32 := 0x80000005
@[match_pattern] abbrev EV_EFI_GPT_EVENT : UInt32 := 0x80000006
@[match_pattern] abbrev EV_EFI_ACTION : UInt32 := 0x80000007
@[match_pattern] abbrev EV_EFI_PLATFORM_FIRMWARE_BLOB : UInt32 := 0x80000008
@[match_pattern] abbrev EV_EFI_HANDOFF_TABLES : UInt32 := 0x80000009
@[match_pattern] abbrev EV_EFI_PLATFORM_FIRMWARE_BLOB2 : UInt32 := 0x8000000A
@[match_pattern] abbrev EV_EFI_HANDOFF_TABLES2 : UInt32 := 0x8000000B
@[match_pattern] abbrev EV_EFI_VARIABLE_BOOT2 : UInt32 := 0x8000000C
@[match_pattern] abbrev EV_EFI_VARIABLE_AUTHORITY : UInt32 := 0x800000E0
@[match_pattern] abbrev EV_EFI_SPDM_FIRMWARE_BLOB : UInt32 := 0x800000E1

end EventTypes

/-- Human-readable name of an event type; the enumerators without a case are UNKNOWN too. -/
def eventTypeName (eventType : UInt32) : Bytes :=
  text <| match eventType with
  | EV_PREBOOT_CERT => "EV_PREBOOT_CERT"
  | EV_POST_CODE => "EV_POST_CODE"
  | EV_NO_ACTION => "EV_NO_ACTION"
  | EV_SEPARATOR => "EV_SEPARATOR"
  | EV_ACTION => "EV_ACTION"
  | EV_S_CRTM_CONTENTS => "EV_S_CRTM_CONTENTS"
  | EV_S_CRTM_VERSION => "EV_S_CRTM_VERSION"
  | EV_CPU_MICROCODE => "EV_CPU_MICROCODE"
  | EV_PLATFORM_CONFIG_FLAGS => "EV_PLATFORM_CONFIG_FLAGS"
  | EV_TABLE_OF_DEVICES => "EV_TABLE_OF_DEVICES"
  | EV_COMPACT_HASH => "EV_COMPACT_HASH"
  | EV_IPL => "EV_IPL"
  | EV_NONHOST_CODE => "EV_NONHOST_CODE"
  | EV_NONHOST_CONFIG => "EV_NONHOST_CONFIG"
  | EV_EFI_VARIABLE_DRIVER_CONFIG => "EV_EFI_VARIABLE_DRIVER_CONFIG"
  | EV_EFI_VARIABLE_BOOT => "EV_EFI_VARIABLE_BOOT"
  | EV_EFI_BOOT_SERVICES_APPLICATION => "EV_EFI_BOOT_SERVICES_APPLICATION"
  | EV_EFI_BOOT_SERVICES_DRIVER => "EV_EFI_BOOT_SERVICES_DRIVER"
  | EV_EFI_RUNTIME_SERVICES_DRIVER => "EV_EFI_RUNTIME_SERVICES_DRIVER"
  | EV_EFI_GPT_EVENT => "EV_EFI_GPT_EVENT"
  | EV_EFI_ACTION => "EV_EFI_ACTION"
  | EV_EFI_PLATFORM_FIRMWARE_BLOB => "EV_EFI_PLATFORM_FIRMWARE_BLOB"
  | EV_EFI_PLATFORM_FIRMWARE_BLOB2 => "EV_EFI_PLATFORM_FIRMWARE_BLOB2"
  | EV_EFI_HANDOFF_TABLES => "EV_EFI_HANDOFF_TABLES"
  | EV_EFI_VARIABLE_AUTHORITY => "EV_EFI_VARIABLE_AUTHORITY"
  | EV_EFI_SPDM_FIRMWARE_BLOB => "EV_EFI_SPDM_FIRMWARE_BLOB"
  | _ => "UNKNOWN"

inductive Classification where
  | verified | revoked | unknown | policy
  deriving DecidableEq, Repr

inductive Verdict where
  | pass | fail | warning
  deriving DecidableEq, Repr

/-- std::map from algorithm id to digest. -/
abbrev DigestMap := OrdMap UInt16 Bytes

/-- One decoded record. Before classification the description is empty and the class is not set. -/
structure EventLogEntry where
  pcrIndex : UInt32
  eventType : UInt32
  eventTypeName : Bytes
  digests : DigestMap
  eventData : Bytes
  description : Bytes := []
  classification : Option Classification := none
  deriving DecidableEq

structure EventLogAnalysis where
  entries : List EventLogEntry := []
  secureBootEnabled : Bool := false
  secureBootMicrosoftKeys : Bool := false
  verifiedCount : Nat := 0
  unknownCount : Nat := 0
  revokedCount : Nat := 0
  policyCount : Nat := 0
  verdict : Option Verdict := none
  verdictReason : Bytes := []
  deriving DecidableEq

end RootHerald.Boot
