import Mathlib.Algebra.Order.BigOperators.Group.List
import RootHerald.Linux.Base64Codec
import RootHerald.Linux.Client
import RootHerald.Linux.JsonHelpers

/-! The body that Attest posts: what it is built of, and its text where every buffer has room. -/
namespace RootHerald.Linux
open Lib Json

section Source

def quotedSize : Nat := 4096
def signatureSize : Nat := 1024
def digestSize : Nat := 64

/-- What the TPM and the kernel answer while the body is built. tpm_quote and tpm_pcr_read fail on
what is longer than the buffer they are given. -/
structure Evidence where
  quoted : Bytes
  signature : Bytes
  pcrRead : Nat → Option Bytes
  /-- Whether fopen succeeds on binary_bios_measurements, and what the file holds. -/
  opens : Bool
  measurements : Bytes
  quoted_le : quoted.length ≤ quotedSize
  signature_le : signature.length ≤ signatureSize
  digest_le : ∀ i, ∀ digest ∈ pcrRead i, digest.length ≤ digestSize

def eventLogRead (e : Evidence) (bufLen : Nat) : Option Bytes :=
  if e.opens then some (e.measurements.take bufLen) else none

def pcrIndices : List Nat := [0, 1, 2, 3, 4, 7]

def pcrJsonSize : Nat := 4096

/-- Zeros where the register cannot be read. -/
def pcrHex (e : Evidence) (index : Nat) : Bytes :=
  match e.pcrRead index with
  | some digest => hexEncode digest
  | none => List.replicate 64 '0'.toUInt8

/-- The text for the register at place i of the indices. -/
def pcrChunk (e : Evidence) (index i : Nat) : Bytes :=
  (if 0 < i then [comma] else []) ++ quotationMark :: (decimal index ++ [quotationMark, colon, quotationMark] ++
    pcrHex e index ++ [quotationMark])

def pcrJson (e : Evidence) : Checked Bytes := do
  let buf ← snprintf pcrJsonSize [] (openBrace :: quotationMark :: (text "sha256" ++ [quotationMark, colon, openBrace]))
  let buf ← pcrIndices.zipIdx.foldlM (fun buf p => snprintf pcrJsonSize buf (pcrChunk e p.1 p.2)) buf
  snprintf pcrJsonSize buf [closeBrace, closeBrace]

def eventLogSize : Nat := 65536
def quotedB64Size : Nat := 8192
def signatureB64Size : Nat := 2048
def eventLogB64Size : Nat := 131072
def quoteJsonSize : Nat := 16384
def bodySize : Nat := 262144

/-- Steps 4 to 7. A log that cannot be read counts as empty. -/
def attestBody (sessionId : Bytes) (e : Evidence) : Checked Bytes := do
  let eventLog := (eventLogRead e eventLogSize).getD []
  let pcr ← pcrJson e
  let quotedB64 ← base64Encode e.quoted quotedB64Size
  let signatureB64 ← base64Encode e.signature signatureB64Size
  let eventLogB64 ← base64Encode eventLog eventLogB64Size
  let quote ← jsonObject quoteJsonSize (.string (text "quoted") quotedB64) [.string (text "signature") signatureB64]
  jsonObject bodySize (.string (text "sessionId") sessionId)
    [.raw (text "quote") quote, .raw (text "pcrValues") pcr, .string (text "eventLog") eventLogB64]

/-- The body Attest posts, if it gets as far as that. -/
def rootHeraldAttestPost (serverUrl sessionId nonceB64 : Option CString) (outInfo : Bool) (stack : Bytes)
    (reply : AttestReply) (e : Evidence) : Esys (Option (Checked Bytes)) := do
  let r ← rootHeraldAttest serverUrl sessionId nonceB64 outInfo stack reply
  return if r.posted then sessionId.map fun sessionId => attestBody sessionId.chars e else none

end Source

section Text

/-- The texts of the parts. -/
def pcrText (e : Evidence) : Bytes :=
  objectText [memberText (text "sha256")
    (objectText (pcrIndices.map fun index => memberText (decimal index) (quoted (pcrHex e index))))]

def quoteText (e : Evidence) : Bytes :=
  objectText ([.string (text "quoted") (Base64.encode e.quoted), .string (text "signature") (Base64.encode e.signature)].map
    Entry.text)

/-- The log as it was read. -/
def logRead (e : Evidence) : Bytes := (eventLogRead e eventLogSize).getD []

def bodyEntries (e : Evidence) : List Entry :=
  [.raw (text "quote") (quoteText e), .raw (text "pcrValues") (pcrText e)]

def bodyText (sessionId : Bytes) (e : Evidence) : Bytes :=
  objectText ((.string (text "sessionId") sessionId :: (bodyEntries e ++
    [.string (text "eventLog") (Base64.encode (logRead e))])).map Entry.text)

/-- Characters that stand for themselves are not escaped. -/
theorem flatMap_escapeChar {v : Bytes} (h : ∀ c ∈ v, isPlain c) : v.flatMap escapeChar = v := by
  induction v with
  | nil => rfl
  | cons c v ih =>
    obtain ⟨hc, hv⟩ := List.forall_mem_cons.mp h
    simp only [isPlain, Bool.and_eq_true, decide_eq_true_eq] at hc
    have hnewline : c ≠ '\n'.toUInt8 := fun heq => absurd hc.1.1.1 (heq ▸ by decide)
    rw [List.flatMap_cons, ih hv, escapeChar, if_neg (not_or.mpr ⟨hc.1.2, hc.2⟩), if_neg hnewline]
    rfl

theorem base64_plain (bs : Bytes) : ∀ c ∈ Base64.encode bs, isPlain c :=
  fun _ hc => Base64.encode_all (p := fun c => isPlain c = true) (by decide) (by decide) hc

theorem pcrHex_plain (e : Evidence) (index : Nat) : ∀ c ∈ pcrHex e index, isPlain c := by
  intro c hc
  unfold pcrHex at hc
  split at hc
  · obtain ⟨v, hv, rfl⟩ := mem_hexEncode hc
    exact (by decide : ∀ v < 16, isPlain (hexDigit v) = true) v hv
  · exact List.eq_of_mem_replicate hc ▸ by decide

theorem pcrHex_length (e : Evidence) (index : Nat) : (pcrHex e index).length ≤ 128 := by
  unfold pcrHex
  split
  · rename_i digest hdigest
    have hle : digest.length ≤ 64 := e.digest_le index digest hdigest
    rw [hexEncode_length]
    omega
  · rw [List.length_replicate]
    omega

private theorem snprintf_foldlM {α : Type} {size : Nat} {chunk : α → Bytes} (as : List α) {buf : Bytes}
    (h : (buf ++ as.flatMap chunk).length < size) :
    as.foldlM (fun buf a => snprintf size buf (chunk a)) buf = .ok (buf ++ as.flatMap chunk) := by
  induction as generalizing buf with
  | nil =>
    rw [List.flatMap_nil, List.append_nil]
    rfl
  | cons a as ih =>
    rw [List.flatMap_cons, ← List.append_assoc] at h ⊢
    have hchunk : (buf ++ chunk a).length < size := by
      rw [@List.length_append _ (buf ++ chunk a)] at h
      omega
    rw [List.foldlM_cons, snprintf_fits hchunk, ok_bind]
    exact ih h

private theorem pcrText_eq (e : Evidence) : (openBrace :: quotationMark :: (text "sha256" ++
    [quotationMark, colon, openBrace])) ++ pcrIndices.zipIdx.flatMap (fun p => pcrChunk e p.1 p.2) ++
      [closeBrace, closeBrace] = pcrText e := by
  have hquoted : ∀ index, quoted (pcrHex e index) = quotationMark :: (pcrHex e index ++ [quotationMark]) := fun index => by
    rw [quoted, flatMap_escapeChar (pcrHex_plain e index)]
  simp [pcrText, objectText, commaSeparated_cons, pcrIndices, List.zipIdx, pcrChunk, memberText, hquoted]

theorem pcrText_length (e : Evidence) : (pcrText e).length < pcrJsonSize := by
  have hindex : ∀ index ∈ pcrIndices, (decimal index).length = 1 := by decide
  have hsha : (text "sha256").length = 6 := by decide
  have hchunk : ∀ p ∈ pcrIndices.zipIdx, (pcrChunk e p.1 p.2).length ≤ 135 := by
    intro p hp
    have hlen := hindex p.1 (List.fst_mem_of_mem_zipIdx hp)
    have hhex := pcrHex_length e p.1
    have hcomma : (if 0 < p.2 then [comma] else []).length ≤ 1 := by split_ifs <;> simp
    simp only [pcrChunk, List.length_append, List.length_cons, List.length_nil, hlen]
    omega
  have htotal : (pcrIndices.zipIdx.flatMap fun p => pcrChunk e p.1 p.2).length ≤ 6 * 135 := by
    rw [List.length_flatMap]
    refine (List.sum_le_card_nsmul _ 135 fun n hn => ?_).trans (le_of_eq ?_)
    · obtain ⟨p, hp, rfl⟩ := List.mem_map.mp hn
      exact hchunk p hp
    · rw [List.length_map]
      rfl
  rw [← pcrText_eq]
  simp only [List.length_append, List.length_cons, List.length_nil, hsha]
  unfold pcrJsonSize
  omega

/-- All registers are written, whatever their values. -/
theorem pcrJson_eq (e : Evidence) : pcrJson e = .ok (pcrText e) := by
  have hlength := pcrText_length e
  rw [← pcrText_eq] at hlength ⊢
  have hchunks : ((openBrace :: quotationMark :: (text "sha256" ++ [quotationMark, colon, openBrace])) ++
      pcrIndices.zipIdx.flatMap (fun p => pcrChunk e p.1 p.2)).length < pcrJsonSize := by
    rw [@List.length_append _ _ [closeBrace, closeBrace]] at hlength
    omega
  have hhead : ([] ++ openBrace :: quotationMark :: (text "sha256" ++ [quotationMark, colon, openBrace])).length <
      pcrJsonSize := by
    rw [List.length_append] at hchunks
    rw [List.nil_append]
    omega
  unfold pcrJson
  rw [snprintf_fits hhead, ok_bind, List.nil_append, snprintf_foldlM _ hchunks, ok_bind, snprintf_fits hlength]

theorem quoted_length {v : Bytes} (h : ∀ c ∈ v, isPlain c) : (quoted v).length = v.length + 2 := by
  rw [quoted, flatMap_escapeChar h]
  simp

theorem quoteText_length (e : Evidence) : (quoteText e).length < quoteJsonSize := by
  have hquoted : e.quoted.length ≤ 4096 := e.quoted_le
  have hsignature : e.signature.length ≤ 1024 := e.signature_le
  have hnames : (text "quoted").length = 6 ∧ (text "signature").length = 9 := by decide
  have htext : quoteText e = openBrace :: (memberText (text "quoted") (quoted (Base64.encode e.quoted)) ++
      comma :: memberText (text "signature") (quoted (Base64.encode e.signature)) ++ [closeBrace]) := by
    simp [quoteText, objectText, commaSeparated_cons, Entry.text]
  rw [htext]
  simp only [List.length_cons, List.length_append, List.length_nil, memberText_length, quoted_length (base64_plain _),
    Base64.length_encode, hnames]
  unfold quoteJsonSize
  omega

theorem logRead_length (e : Evidence) : (logRead e).length ≤ 65536 := by
  unfold logRead eventLogRead
  split_ifs
  · exact List.length_take_le _ _
  · exact Nat.zero_le _

/-- Only the last of the objects may find no room. -/
theorem attestBody_eq (sessionId : Bytes) (e : Evidence) : attestBody sessionId e =
    jsonObject bodySize (.string (text "sessionId") sessionId)
      (bodyEntries e ++ [.string (text "eventLog") (Base64.encode (logRead e))]) := by
  have hquoted : e.quoted.length ≤ 4096 := e.quoted_le
  have hsignature : e.signature.length ≤ 1024 := e.signature_le
  have hlog : (logRead e).length ≤ 65536 := logRead_length e
  unfold attestBody
  rw [pcrJson_eq, ok_bind, base64Encode_fits (by unfold quotedB64Size; omega), ok_bind,
    base64Encode_fits (by unfold signatureB64Size; omega), ok_bind]
  rw [base64Encode_fits (by unfold eventLogB64Size; unfold logRead at hlog; omega), ok_bind,
    jsonObject_fits (quoteText_length e), ok_bind]
  rfl

/-- Beside a short session id there is room for everything. -/
theorem bodyText_length {sessionId : Bytes} (hplain : ∀ c ∈ sessionId, isPlain c) (hshort : sessionId.length ≤ 63)
    (e : Evidence) : (bodyText sessionId e).length < bodySize := by
  have hpcr := pcrText_length e
  have hquote := quoteText_length e
  have hlog := logRead_length e
  have hnames : (text "sessionId").length = 9 ∧ (text "quote").length = 5 ∧ (text "pcrValues").length = 9 ∧
      (text "eventLog").length = 8 := by decide
  have htext : bodyText sessionId e = openBrace :: (memberText (text "sessionId") (quoted sessionId) ++
      comma :: (memberText (text "quote") (quoteText e) ++ comma :: (memberText (text "pcrValues") (pcrText e) ++
        comma :: memberText (text "eventLog") (quoted (Base64.encode (logRead e))))) ++ [closeBrace]) := by
    simp [bodyText, bodyEntries, objectText, commaSeparated_cons, Entry.text]
  rw [htext]
  simp only [List.length_cons, List.length_append, List.length_nil, memberText_length, quoted_length hplain,
    quoted_length (base64_plain _), Base64.length_encode, hnames]
  unfold pcrJsonSize at hpcr
  unfold quoteJsonSize at hquote
  unfold bodySize
  omega

end Text
end RootHerald.Linux
