import RootHerald.Lib.Buffers

/-! The response buffer of the libcurl transport, which the transfer fills chunk by chunk. -/
namespace RootHerald.Linux
open Lib

section Callback

structure ResponseCtx where
  buf : Bytes
  /-- total capacity -/
  bufLen : Nat
  /-- bytes written so far -/
  written : Nat
  deriving DecidableEq, Repr

/-- written += n behind a copy of n bytes, and the terminator. -/
def ResponseCtx.terminate (rctx : ResponseCtx) (buf : Bytes) (n : Nat) : Checked ResponseCtx := do
  let written := (rctx.written + n) % 2 ^ 64
  return { rctx with buf := ← writeRange buf written [0], written }

/-- The bytes reported as consumed, and the context. -/
def writeCallback (ptr : Bytes) (size nmemb : Nat) (rctx : ResponseCtx) : Checked (Nat × ResponseCtx) := do
  let bytes := size * nmemb % 2 ^ 64
  if rctx.bufLen ≤ (rctx.written + bytes) % 2 ^ 64 then
    let avail := if (rctx.written + 1) % 2 ^ 64 < rctx.bufLen then sub64 (sub64 rctx.bufLen rctx.written) 1 else 0
    let buf ← if 0 < avail then writeRange rctx.buf rctx.written (← readRange ptr avail) else .ok rctx.buf
    return (bytes, ← rctx.terminate buf avail)
  else
    let buf ← writeRange rctx.buf rctx.written (← readRange ptr bytes)
    return (bytes, ← rctx.terminate buf bytes)

/-- response_buf[0] = 0 and the context the transfer starts with. -/
def openResponse (responseBuf : Bytes) : ResponseCtx := ⟨responseBuf.set 0 0, responseBuf.length, 0⟩

/-- What libcurl hands to one invocation. -/
structure Chunk where
  ptr : Bytes
  size : Nat
  nmemb : Nat
  length_eq : ptr.length = size * nmemb

/-- The invocations of a transfer: what each of them reports, and the context behind the last. -/
def transfer (rctx : ResponseCtx) : List Chunk → Checked (List Nat × ResponseCtx)
  | [] => .ok ([], rctx)
  | c :: chunks => do
    let (consumed, rctx) ← writeCallback c.ptr c.size c.nmemb rctx
    let (reports, rctx) ← transfer rctx chunks
    return (consumed :: reports, rctx)

/-- The body the chunks carry. -/
def bodyOf (chunks : List Chunk) : Bytes := chunks.flatMap (·.ptr)

end Callback

section Invariant

/-- The context once body is received: as much of it as fits in front of the terminator. -/
def holding (responseBuf body : Bytes) : ResponseCtx where
  buf := body.take (responseBuf.length - 1) ++ 0 :: responseBuf.drop ((body.take (responseBuf.length - 1)).length + 1)
  bufLen := responseBuf.length
  written := (body.take (responseBuf.length - 1)).length

variable {responseBuf : Bytes}

theorem openResponse_eq (hbuf : responseBuf ≠ []) : openResponse responseBuf = holding responseBuf [] := by
  cases responseBuf with
  | nil => exact absurd rfl hbuf
  | cons b rest => simp [openResponse, holding]

private theorem kept_append (body bs : Bytes) (room : Nat) :
    (body ++ bs).take room = body.take room ++ bs.take (room - (body.take room).length) := by
  have hroom : room - body.length = room - (body.take room).length := by
    rw [List.length_take]
    omega
  rw [List.take_append, hroom]

/-- What a copy of bs behind the written part leaves, once terminated. -/
private theorem terminate_append (kept bs rest : Bytes) (bufLen : Nat) (hfits : bs.length < rest.length)
    (hsize : kept.length + bs.length < 2 ^ 64) :
    (do
      let buf ← writeRange (kept ++ rest) kept.length bs
      (ResponseCtx.mk (kept ++ rest) bufLen kept.length).terminate buf bs.length) =
      .ok ⟨kept ++ bs ++ 0 :: rest.drop (bs.length + 1), bufLen, (kept ++ bs).length⟩ := by
  have hwrite := writeRange_terminated kept bs rest hfits
  rw [writeRange_append kept bs rest (Nat.le_of_lt hfits), ok_bind] at hwrite ⊢
  rw [ResponseCtx.terminate, Nat.mod_eq_of_lt hsize, hwrite, ok_bind, List.length_append]
  rfl

/-- What is free in front of the terminator. -/
private theorem avail_eq {written bufLen : Nat} (hlen : bufLen < 2 ^ 64) (hwritten : written < bufLen) :
    (if (written + 1) % 2 ^ 64 < bufLen then sub64 (sub64 bufLen written) 1 else 0) = bufLen - 1 - written := by
  have hnext : (written + 1) % 2 ^ 64 = written + 1 := by omega
  rw [hnext]
  split_ifs with h
  · have hfree : sub64 bufLen written = bufLen - written := sub64_of_le (Nat.le_of_lt hwritten)
    have hlast : sub64 (bufLen - written) 1 = bufLen - written - 1 := sub64_of_le (by omega)
    rw [hfree, hlast, Nat.sub_right_comm]
  · omega

/-- Either branch copies what fits in front of the terminator. -/
private theorem writeCallback_copies {kept rest : Bytes} {bufLen : Nat} (c : Chunk) (hlen : bufLen < 2 ^ 64)
    (hkept : kept.length < bufLen) (htotal : kept.length + c.ptr.length < 2 ^ 63) :
    writeCallback c.ptr c.size c.nmemb ⟨kept ++ rest, bufLen, kept.length⟩ = (do
      let buf ← writeRange (kept ++ rest) kept.length (c.ptr.take (bufLen - 1 - kept.length))
      let rctx ← (ResponseCtx.mk (kept ++ rest) bufLen kept.length).terminate buf
        (c.ptr.take (bufLen - 1 - kept.length)).length
      return (c.ptr.length, rctx)) := by
  have hbytes : c.size * c.nmemb % 2 ^ 64 = c.ptr.length := by
    rw [← c.length_eq]
    exact Nat.mod_eq_of_lt (by omega)
  have hsum : (kept.length + c.ptr.length) % 2 ^ 64 = kept.length + c.ptr.length := Nat.mod_eq_of_lt (by omega)
  simp only [writeCallback, hbytes, hsum]
  by_cases hcut : bufLen ≤ kept.length + c.ptr.length
  · have hcopied : (c.ptr.take (bufLen - 1 - kept.length)).length = bufLen - 1 - kept.length :=
      List.length_take_of_le (by omega)
    rw [if_pos hcut, avail_eq hlen hkept, hcopied]
    split_ifs with hroom
    · have hread := readRange_ok (show bufLen - 1 - kept.length ≤ c.ptr.length by omega)
      rw [hread]
      rfl
    · -- nothing is copied into a full buffer
      have hnone : bufLen - 1 - kept.length = 0 := by omega
      rw [hnone, List.take_zero, writeRange_append kept [] rest (Nat.zero_le _), List.append_nil]
      rfl
  · have hwhole : c.ptr.take (bufLen - 1 - kept.length) = c.ptr := List.take_of_length_le (by omega)
    rw [if_neg hcut, readRange_ok (le_refl _), List.take_length, hwhole]
    rfl

/-- An invocation takes the context of the body so far to that of the body with its chunk. -/
theorem writeCallback_holding (body : Bytes) (c : Chunk) (hbuf : responseBuf ≠ []) (hlen : responseBuf.length < 2 ^ 64)
    (htotal : (body ++ c.ptr).length < 2 ^ 63) :
    writeCallback c.ptr c.size c.nmemb (holding responseBuf body) =
      .ok (c.ptr.length, holding responseBuf (body ++ c.ptr)) := by
  have hpos := List.length_pos_iff.mpr hbuf
  rw [List.length_append] at htotal
  have hkept : (body.take (responseBuf.length - 1)).length ≤ responseBuf.length - 1 := List.length_take_le _ _
  have hbody : (body.take (responseBuf.length - 1)).length ≤ body.length := List.length_take_le' _ _
  simp only [holding, kept_append body c.ptr]
  generalize body.take (responseBuf.length - 1) = kept at hkept hbody ⊢
  have hcopied : (c.ptr.take (responseBuf.length - 1 - kept.length)).length ≤ responseBuf.length - 1 - kept.length :=
    List.length_take_le _ _
  rw [writeCallback_copies c hlen (by omega) (by omega)]
  generalize c.ptr.take (responseBuf.length - 1 - kept.length) = bs at hcopied ⊢
  have hterminated := terminate_append kept bs (0 :: responseBuf.drop (kept.length + 1)) responseBuf.length
    (by rw [List.length_cons, List.length_drop]; omega) (by omega)
  have hwrite := writeRange_append kept bs (0 :: responseBuf.drop (kept.length + 1))
    (by rw [List.length_cons, List.length_drop]; omega)
  rw [hwrite, ok_bind] at hterminated ⊢
  rw [hterminated, ok_bind, pure_eq_ok, List.drop_succ_cons, List.drop_drop, List.length_append, Nat.add_right_comm]

/-- A transfer takes the context of the body so far to that of the whole body. -/
theorem transfer_holding (body : Bytes) (chunks : List Chunk) (hbuf : responseBuf ≠ [])
    (hlen : responseBuf.length < 2 ^ 64) (htotal : (body ++ bodyOf chunks).length < 2 ^ 63) :
    transfer (holding responseBuf body) chunks =
      .ok (chunks.map (·.ptr.length), holding responseBuf (body ++ bodyOf chunks)) := by
  induction chunks generalizing body with
  | nil =>
    rw [bodyOf, List.flatMap_nil, List.append_nil]
    rfl
  | cons c chunks ih =>
    rw [bodyOf, List.flatMap_cons, ← List.append_assoc, ← bodyOf] at htotal ⊢
    have hfirst : (body ++ c.ptr).length < 2 ^ 63 := by
      rw [List.length_append] at htotal
      omega
    rw [transfer, writeCallback_holding body c hbuf hlen hfirst]
    simp only [ok_bind, ih (body ++ c.ptr) htotal]
    rfl

end Invariant

section Transfer

/-- What the response buffer holds of a body: its first bytes, a terminator, and behind it what it held before. -/
def Holds (responseBuf body : Bytes) (rctx : ResponseCtx) : Prop :=
  rctx.written = min body.length (responseBuf.length - 1) ∧ rctx.buf.length = responseBuf.length ∧
    rctx.buf.take (rctx.written + 1) = body.take rctx.written ++ [0] ∧
    rctx.buf.drop (rctx.written + 1) = responseBuf.drop (rctx.written + 1)

theorem holding_holds {responseBuf : Bytes} (body : Bytes) (hbuf : responseBuf ≠ []) :
    Holds responseBuf body (holding responseBuf body) := by
  have hpos := List.length_pos_iff.mpr hbuf
  have hwritten : (holding responseBuf body).written = min body.length (responseBuf.length - 1) := by
    rw [holding, List.length_take, Nat.min_comm]
  have hprefix : body.take (holding responseBuf body).written = body.take (responseBuf.length - 1) := by
    rw [hwritten, Nat.min_comm, ← List.take_take, List.take_length]
  have hkept : (body.take (responseBuf.length - 1)).length ≤ responseBuf.length - 1 := List.length_take_le _ _
  rw [Holds, hprefix]
  refine ⟨hwritten, ?_, ?_, ?_⟩
  · simp only [holding, List.length_append, List.length_cons, List.length_drop]
    omega
  · simp only [holding]
    rw [List.take_length_add_append]
    rfl
  · simp only [holding]
    rw [List.drop_length_add_append]
    rfl

/-- However a body is split, behind every invocation the buffer holds what was received so far, every chunk is
reported as consumed, and the last context depends on the body alone. -/
theorem transfer_holds (responseBuf : Bytes) (chunks : List Chunk) (hbuf : 1 ≤ responseBuf.length)
    (hlen : responseBuf.length < 2 ^ 64) (htotal : (bodyOf chunks).length < 2 ^ 63) :
    (∀ received, received <+: chunks → ∃ rctx,
      transfer (openResponse responseBuf) received = .ok (received.map (·.ptr.length), rctx) ∧
      Holds responseBuf (bodyOf received) rctx) ∧
    ∀ chunks', bodyOf chunks' = bodyOf chunks →
      (transfer (openResponse responseBuf) chunks').map (·.2) = (transfer (openResponse responseBuf) chunks).map (·.2) := by
  have hne : responseBuf ≠ [] := List.ne_nil_of_length_pos hbuf
  rw [openResponse_eq hne]
  refine ⟨?_, ?_⟩
  · rintro received ⟨rest, rfl⟩
    have hreceived : ([] ++ bodyOf received).length < 2 ^ 63 := by
      rw [bodyOf, List.flatMap_append, List.length_append] at htotal
      rw [List.nil_append, bodyOf]
      omega
    exact ⟨_, transfer_holding [] received hne hlen hreceived, holding_holds _ hne⟩
  · intro chunks' hbody
    rw [transfer_holding [] chunks hne hlen htotal, transfer_holding [] chunks' hne hlen (hbody ▸ htotal), hbody]
    rfl

/-- Seven bytes in two chunks, the second of which is cut. -/
theorem transfer_holds_seven :
    let chunks : List Chunk := [⟨[1, 2, 3], 1, 3, rfl⟩, ⟨[4, 5, 6, 7], 2, 2, rfl⟩]
    transfer (openResponse [9, 9, 9, 9, 9, 9]) chunks = .ok ([3, 4], ⟨[1, 2, 3, 4, 5, 0], 6, 5⟩) ∧
      ∃ rctx, transfer (openResponse [9, 9, 9, 9, 9, 9]) chunks = .ok ([3, 4], rctx) ∧
        Holds [9, 9, 9, 9, 9, 9] [1, 2, 3, 4, 5, 6, 7] rctx :=
  ⟨by decide, (transfer_holds [9, 9, 9, 9, 9, 9] _ (by decide) (by decide) (by decide)).1 _ (List.prefix_refl _)⟩

end Transfer
end RootHerald.Linux
