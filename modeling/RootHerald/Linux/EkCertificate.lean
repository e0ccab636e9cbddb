import RootHerald.Lib.Checked
import RootHerald.Lib.Loops

/-! The EK certificate in NV, read in as many pieces as the library returns. -/
namespace RootHerald.Linux
open Lib

section Reading

/-- TPM2_MAX_NV_BUFFER_SIZE. -/
def maxNvBufferSize : Nat := 2048

/-- TPM2B_MAX_NV_BUFFER. -/
structure NvBuffer where
  buffer : Bytes
  size_le : buffer.length ≤ maxNvBufferSize

/-- What the library answers: the handle, the dataSize of the index, and each Esys_NV_Read by its
number, size and offset. -/
structure NvLibrary where
  trFromTpmPublic : Bool
  nvReadPublic : Option UInt16
  nvRead : Nat → UInt16 → UInt16 → Option NvBuffer

/-- memcpy to an offset of a buffer. -/
def copyTo (dst : Bytes) (offset : Nat) (src : Bytes) : Checked Bytes :=
  if offset + src.length ≤ dst.length then .ok (dst.take offset ++ src ++ dst.drop (offset + src.length))
  else .error .outOfBounds

/-- The state of the loop. -/
structure NvReading where
  reads : Nat := 0
  offset : Nat := 0
  outCert : Bytes

/-- One round, left with whether all reads succeeded. -/
def nvReadRound (lib : NvLibrary) (nvSize : UInt16) (s : NvReading) : Round NvReading (Checked (Bool × NvReading)) :=
  if s.offset < nvSize.toNat then
    let chunk := nvSize - UInt16.ofNat s.offset
    let chunk := if maxNvBufferSize < chunk.toNat then UInt16.ofNat maxNvBufferSize else chunk
    match lib.nvRead s.reads chunk (UInt16.ofNat s.offset) with
    | none => .leave (.ok (false, s))
    | some nvData =>
      match copyTo s.outCert s.offset nvData.buffer with
      | .error e => .leave (.error e)
      | .ok outCert => .again ⟨s.reads + 1, s.offset + nvData.buffer.length, outCert⟩
  else .leave (.ok (true, s))

structure EkCertResult where
  rc : Int
  outCert : Bytes
  outCertLen : Nat
  /-- Results of Esys_NV_Read. -/
  reads : Nat := 0

/-- A caller without a buffer asks for the size. No result is that of a loop still running behind so many
rounds. -/
def tpmReadEkCert (lib : NvLibrary) (outCert : Option Bytes) (outCertLen rounds : Nat) : Option (Checked EkCertResult) :=
  let buffer := outCert.getD []
  if lib.trFromTpmPublic = false then some (.ok ⟨-1, buffer, outCertLen, 0⟩)
  else
    match lib.nvReadPublic, outCert with
    | none, _ => some (.ok ⟨-1, buffer, outCertLen, 0⟩)
    | some nvSize, none => some (.ok ⟨0, [], nvSize.toNat, 0⟩)
    | some nvSize, some outCert =>
      if outCertLen < nvSize.toNat then some (.ok ⟨-1, outCert, nvSize.toNat, 0⟩)
      else
        (Round.loop (nvReadRound lib nvSize) rounds { outCert }).map fun left => do
          let (succeeded, s) ← left
          return if succeeded then ⟨0, s.outCert, nvSize.toNat, s.reads⟩ else ⟨-1, s.outCert, outCertLen, s.reads⟩

end Reading

section Pieces
variable (chunks : Nat → NvBuffer)

/-- A library all of whose calls succeed. -/
def succeedingLibrary (nvSize : UInt16) : NvLibrary where
  trFromTpmPublic := true
  nvReadPublic := some nvSize
  nvRead i _ _ := some (chunks i)

/-- The first n pieces, put together. -/
def returnedPieces (n : Nat) : Bytes := (List.range n).flatMap fun i => (chunks i).buffer

/-- The call ends without a write outside the buffer, and behind a return of 0 the certificate is what the
reads returned. -/
def ReadsCertificate (nvSize : UInt16) (outCert : Bytes) : Prop :=
  ∃ rounds r, tpmReadEkCert (succeedingLibrary chunks nvSize) (some outCert) outCert.length rounds = some (.ok r) ∧
    (r.rc = 0 → r.outCert.take r.outCertLen = returnedPieces chunks r.reads)

variable {chunks} {nvSize : UInt16} {outCert : Bytes}

theorem returnedPieces_succ (n : Nat) : returnedPieces chunks (n + 1) = returnedPieces chunks n ++ (chunks n).buffer := by
  rw [returnedPieces, List.range_succ, List.flatMap_append, List.flatMap_singleton]
  rfl

theorem returnedPieces_mono {m n : Nat} (h : m ≤ n) : (returnedPieces chunks m).length ≤ (returnedPieces chunks n).length := by
  induction h with
  | refl => exact le_refl _
  | step _ ih =>
    rw [returnedPieces_succ, List.length_append]
    exact ih.trans (Nat.le_add_right _ _)

theorem copyTo_eq_ok {dst src out : Bytes} {offset : Nat} (h : copyTo dst offset src = .ok out) :
    out.length = dst.length ∧ out.take (offset + src.length) = dst.take offset ++ src := by
  unfold copyTo at h
  split_ifs at h with hfits
  cases h
  have hfront : (dst.take offset ++ src).length = offset + src.length := by
    rw [List.length_append, List.length_take, min_eq_left (by omega)]
  refine ⟨?_, ?_⟩
  · rw [List.length_append, hfront, List.length_drop]
    omega
  · rw [← hfront, List.take_left]

/-- Behind n rounds the buffer begins with the first n pieces. -/
structure Filled (chunks : Nat → NvBuffer) (capacity n : Nat) (s : NvReading) : Prop where
  reads : s.reads = n
  offset : s.offset = (returnedPieces chunks n).length
  length : s.outCert.length = capacity
  front : s.outCert.take s.offset = returnedPieces chunks n

private theorem nvReadRound_filled {capacity n : Nat} {s s' : NvReading} (h : Filled chunks capacity n s)
    (hround : nvReadRound (succeedingLibrary chunks nvSize) nvSize s = .again s') : Filled chunks capacity (n + 1) s' := by
  unfold nvReadRound at hround
  split_ifs at hround with hmore
  simp only [succeedingLibrary, h.reads] at hround
  split at hround
  · cases hround
  · rename_i out hout
    cases hround
    obtain ⟨hlength, htake⟩ := copyTo_eq_ok hout
    refine ⟨rfl, ?_, hlength.trans h.length, ?_⟩
    · rw [returnedPieces_succ, List.length_append, ← h.offset]
    · rw [returnedPieces_succ, htake, h.front]

private theorem start_filled : Filled chunks outCert.length 0 { outCert } := ⟨rfl, rfl, rfl, rfl⟩

/-- A run that comes to an end without a fault has read the area to its end, and no call failed. -/
private theorem left_filled {s : NvReading} {left : Bool × NvReading} {n : Nat} (h : Filled chunks outCert.length n s)
    (hleft : nvReadRound (succeedingLibrary chunks nvSize) nvSize s = .leave (.ok left)) :
    left = (true, s) ∧ nvSize.toNat ≤ (returnedPieces chunks n).length := by
  unfold nvReadRound at hleft
  split_ifs at hleft with hmore
  · simp only [succeedingLibrary] at hleft
    split at hleft
    · cases hleft
    · cases hleft
  · cases hleft
    exact ⟨rfl, h.offset ▸ not_lt.mp hmore⟩

/-- While the pieces leave room for the area they are copied into the buffer. -/
private theorem nvReadRound_again {s : NvReading} {n : Nat} (h : Filled chunks outCert.length n s)
    (hmore : (returnedPieces chunks n).length < nvSize.toNat) (hroom : (returnedPieces chunks (n + 1)).length ≤ outCert.length) :
    ∃ s', nvReadRound (succeedingLibrary chunks nvSize) nvSize s = .again s' := by
  rw [returnedPieces_succ, List.length_append] at hroom
  unfold nvReadRound
  rw [if_pos (h.offset ▸ hmore)]
  simp only [succeedingLibrary, h.reads]
  rw [copyTo, if_pos (by rw [h.offset, h.length]; exact hroom)]
  exact ⟨_, rfl⟩

/-- Before the first pieces that fill the area, none do. -/
private theorem first_filling (h : ∃ n, (returnedPieces chunks n).length = nvSize.toNat) :
    ∃ n, (returnedPieces chunks n).length = nvSize.toNat ∧ ∀ i < n, (returnedPieces chunks i).length < nvSize.toNat := by
  classical
  refine ⟨Nat.find h, Nat.find_spec h, fun i hi => ?_⟩
  have hle := (returnedPieces_mono hi.le).trans (Nat.find_spec h).le
  exact lt_of_le_of_ne hle (Nat.find_min h hi)

private theorem tpmReadEkCert_roomy (hroom : nvSize.toNat ≤ outCert.length) (rounds : Nat) :
    tpmReadEkCert (succeedingLibrary chunks nvSize) (some outCert) outCert.length rounds =
      (Round.loop (nvReadRound (succeedingLibrary chunks nvSize) nvSize) rounds { outCert }).map fun left => do
        let (succeeded, s) ← left
        return if succeeded then ⟨0, s.outCert, nvSize.toNat, s.reads⟩ else ⟨-1, s.outCert, outCert.length, s.reads⟩ :=
  if_neg (not_lt.mpr hroom)

/-- The certificate is read exactly if some number of pieces together are of the size of the area. -/
theorem readsCertificate_iff (hroom : nvSize.toNat ≤ outCert.length) :
    ReadsCertificate chunks nvSize outCert ↔ ∃ n, (returnedPieces chunks n).length = nvSize.toNat := by
  constructor
  · rintro ⟨rounds, r, hr, hcert⟩
    rw [tpmReadEkCert_roomy hroom] at hr
    obtain ⟨left, hleft, hr⟩ := Option.map_eq_some_iff.mp hr
    obtain ⟨n, -, s, hs, hend⟩ := Round.loop_eq_some_iff.mp hleft
    have hfilled : Filled chunks outCert.length n s :=
      Round.after_invariant start_filled (fun _ _ _ => nvReadRound_filled) hs
    obtain ⟨left, rfl, hr⟩ := bind_eq_ok hr
    obtain ⟨rfl, hsize⟩ := left_filled hfilled hend
    cases hr
    refine ⟨n, ?_⟩
    have hlength := congrArg List.length (hcert rfl)
    simp only [List.length_take, hfilled.length, hfilled.reads, if_true] at hlength
    omega
  · intro h
    obtain ⟨n, hsize, hlt⟩ := first_filling h
    have hagain : ∀ i < n, ∀ s, Filled chunks outCert.length i s →
        ∃ s', nvReadRound (succeedingLibrary chunks nvSize) nvSize s = .again s' := by
      intro i hi s hfilled
      have hle := (returnedPieces_mono hi).trans hsize.le
      exact nvReadRound_again hfilled (hlt i hi) (hle.trans hroom)
    obtain ⟨s, hs, hfilled⟩ := Round.after_progress start_filled (fun _ _ _ => nvReadRound_filled) hagain
    have hend : nvReadRound (succeedingLibrary chunks nvSize) nvSize s = .leave (.ok (true, s)) :=
      if_neg (by rw [hfilled.offset, hsize]; exact lt_irrefl _)
    refine ⟨n + 1, ⟨0, s.outCert, nvSize.toNat, s.reads⟩, ?_, fun _ => ?_⟩
    · rw [tpmReadEkCert_roomy hroom, Round.loop_eq_some_iff.mpr ⟨n, Nat.lt_succ_self n, s, hs, hend⟩]
      rfl
    · have hfront := hfilled.front
      rw [hfilled.offset, hsize] at hfront
      rw [hfilled.reads]
      exact hfront

end Pieces

section Samples

theorem piece_le : ([0, 0] : Bytes).length ≤ maxNvBufferSize := by decide

/-- Pieces of two bytes, whatever is asked for. -/
def samplePieces : Nat → NvBuffer := fun _ => ⟨[0, 0], piece_le⟩

/-- Four bytes in two pieces. -/
theorem readsCertificate_sample : (4 : UInt16).toNat ≤ (List.replicate 4 (0 : UInt8)).length ∧
    ReadsCertificate samplePieces 4 (List.replicate 4 0) :=
  ⟨by decide, (readsCertificate_iff (by decide)).mpr ⟨2, rfl⟩⟩

/-- A piece longer than the area is copied past the end of a buffer of its size. -/
theorem readsCertificate_overruns : ¬ ∀ (chunks : Nat → NvBuffer) (nvSize : UInt16) (outCert : Bytes),
    nvSize.toNat ≤ outCert.length → ReadsCertificate chunks nvSize outCert := by
  intro h
  obtain ⟨rounds, r, hr, -⟩ := h samplePieces 1 [0] (by decide)
  cases rounds with
  | zero => cases hr
  | succ rounds =>
    have hoverrun : tpmReadEkCert (succeedingLibrary samplePieces 1) (some [0]) 1 (rounds + 1) = some (.error .outOfBounds) := rfl
    cases hoverrun.symm.trans hr

end Samples
end RootHerald.Linux
