import RootHerald.Lib.Buffers
import RootHerald.Linux.JsonHelpers

/-! The JSON builder over its memory, a buffer and the offset behind its text. snprintf reports the length it
wanted, so that a member that does not fit takes the offset out of the buffer, and the terminator with it. -/
namespace RootHerald.Linux
open Lib Json

section Memory

structure Output where
  buf : Bytes
  off : Nat
  deriving DecidableEq, Repr

namespace Output

/-- buf[off++] = c. -/
def put (o : Output) (c : UInt8) : Checked Output := do
  return ⟨← writeRange o.buf o.off [c], o.off + 1⟩

/-- buf[off] = 0. -/
def terminate (o : Output) : Checked Output := do
  return { o with buf := ← writeRange o.buf o.off [0] }

end Output

/-- What there is room for is written, and the wanted length returned, where it is an int. -/
def snprintfTo (buf : Bytes) (off size : Nat) (s : Bytes) : Checked (Int × Bytes) := do
  let buf ← if 0 < size then writeRange buf off (s.take (size - 1) ++ [0]) else .ok buf
  return (if s.length < 2 ^ 31 then s.length else -1, buf)

namespace Output
variable (bufLen : Nat)

/-- n = snprintf(buf + off, buf_len - off, s); if (n > 0) off += n. -/
def format (s : Bytes) (o : Output) : Checked Output := do
  let (n, buf) ← snprintfTo o.buf o.off (sub64 bufLen o.off) s
  return ⟨buf, if 0 < n then o.off + n.toNat else o.off⟩

/-- buf[off++] = c, if the terminator still fits behind it. -/
def putIfRoom (o : Output) (c : UInt8) : Checked Output := if o.off + 1 < bufLen then o.put c else .ok o

/-- The comma in front of every member but the first. -/
def separate (isFirst : Bool) (o : Output) : Checked Output := if isFirst then .ok o else o.putIfRoom bufLen comma

/-- The loop over the value. -/
def putEscaped : Bytes → Output → Checked Output
  | [], o => .ok o
  | c :: value, o =>
    if o.off + 2 < bufLen then
      if c = quotationMark ∨ c = reverseSolidus then do
        putEscaped value (← (← o.put reverseSolidus).put c)
      else if c = '\n'.toUInt8 then do
        putEscaped value (← (← o.put reverseSolidus).put 'n'.toUInt8)
      else do
        putEscaped value (← o.put c)
    else .ok o

end Output

/-- What a call hands to snprintf. -/
def Entry.formatted : Entry → Bytes
  | .string key _ => quotationMark :: (key ++ [quotationMark, colon, quotationMark])
  | .raw key rawValue => quotationMark :: (key ++ quotationMark :: colon :: rawValue)

def jsonAppendStringTo (bufLen : Nat) (o : Output) (key value : Bytes) (isFirst : Bool) : Checked Output := do
  let o ← o.separate bufLen isFirst
  let o ← o.format bufLen (quotationMark :: (key ++ [quotationMark, colon, quotationMark]))
  let o ← o.putEscaped bufLen value
  let o ← o.putIfRoom bufLen quotationMark
  o.terminate

def jsonAppendRawTo (bufLen : Nat) (o : Output) (key rawValue : Bytes) (isFirst : Bool) : Checked Output := do
  let o ← o.separate bufLen isFirst
  let o ← o.format bufLen (quotationMark :: (key ++ quotationMark :: colon :: rawValue))
  o.terminate

/-- One call of either function. -/
structure JsonCall where
  entry : Entry
  isFirst : Bool

def JsonCall.run (bufLen : Nat) (o : Output) (c : JsonCall) : Checked Output :=
  match c.entry with
  | .string key value => jsonAppendStringTo bufLen o key value c.isFirst
  | .raw key rawValue => jsonAppendRawTo bufLen o key rawValue c.isFirst

/-- The calls one after another. -/
def runCalls (bufLen : Nat) (o : Output) (calls : List JsonCall) : Checked Output := calls.foldlM (JsonCall.run bufLen) o

end Memory

section HoldsText
variable {size : Nat} {o : Output} {t : Bytes}

/-- The buffer of size bytes starts with the text t, which the offset ends inside of it. -/
def HoldsText (size : Nat) (o : Output) (t : Bytes) : Prop :=
  ∃ b rest, o = ⟨t ++ b :: rest, t.length⟩ ∧ (t ++ b :: rest).length = size

theorem HoldsText.off_lt (h : HoldsText size o t) : o.off < size := by
  obtain ⟨b, rest, rfl, rfl⟩ := h
  rw [List.length_append, List.length_cons]
  exact Nat.lt_add_of_pos_right (Nat.zero_lt_succ _)

theorem HoldsText.off_eq (h : HoldsText size o t) : o.off = t.length := by
  obtain ⟨b, rest, rfl, -⟩ := h
  rfl

theorem HoldsText.length_eq (h : HoldsText size o t) : o.buf.length = size := by
  obtain ⟨b, rest, rfl, hsize⟩ := h
  exact hsize

theorem holds_of_off_lt (h : o.off < o.buf.length) : HoldsText o.buf.length o (o.buf.take o.off) := by
  have htake : (o.buf.take o.off).length = o.off := List.length_take_of_le (Nat.le_of_lt h)
  have hsplit : o.buf.take o.off ++ o.buf[o.off] :: o.buf.drop (o.off + 1) = o.buf := by
    rw [← List.drop_eq_getElem_cons h, List.take_append_drop]
  exact ⟨o.buf[o.off], o.buf.drop (o.off + 1), by rw [hsplit, htake], by rw [hsplit]⟩

/-- A write that ends in front of the last byte. -/
private theorem HoldsText.write (h : HoldsText size o t) (bs : Bytes) (hroom : t.length + bs.length < size) :
    ∃ buf, writeRange o.buf o.off bs = .ok buf ∧ HoldsText size ⟨buf, o.off + bs.length⟩ (t ++ bs) := by
  obtain ⟨b, rest, rfl, rfl⟩ := h
  rw [List.length_append, List.length_cons] at hroom
  have hwrite := writeRange_append t bs (b :: rest) (by rw [List.length_cons]; omega)
  obtain ⟨b', rest', hrest⟩ : ∃ b' rest', (b :: rest).drop bs.length = b' :: rest' := by
    apply List.exists_cons_of_length_pos
    rw [List.length_drop, List.length_cons]
    omega
  have hlen := congrArg List.length hrest
  rw [hrest] at hwrite
  rw [List.length_drop, List.length_cons, List.length_cons] at hlen
  refine ⟨_, hwrite, b', rest', ?_, ?_⟩
  · rw [List.length_append]
  · simp only [List.length_append, List.length_cons]
    omega

theorem HoldsText.put (h : HoldsText size o t) (c : UInt8) (hroom : t.length + 1 < size) :
    ∃ o', o.put c = .ok o' ∧ HoldsText size o' (t ++ [c]) := by
  obtain ⟨buf, hwrite, hholds⟩ := h.write [c] hroom
  exact ⟨_, by rw [Output.put, hwrite]; rfl, hholds⟩

theorem HoldsText.putIfRoom (h : HoldsText size o t) (c : UInt8) :
    ∃ o', o.putIfRoom size c = .ok o' ∧ HoldsText size o' (appendChar size t c) := by
  rw [Output.putIfRoom, appendChar, h.off_eq]
  split_ifs with hroom
  · exact h.put c hroom
  · exact ⟨o, rfl, h⟩

theorem HoldsText.terminate (h : HoldsText size o t) : ∃ o', o.terminate = .ok o' ∧ HoldsText size o' t := by
  obtain ⟨b, rest, rfl, rfl⟩ := h
  have hwrite := writeRange_append t [0] (b :: rest) (Nat.succ_le_succ (Nat.zero_le _))
  refine ⟨⟨t ++ 0 :: rest, t.length⟩, ?_, 0, rest, rfl, by simp only [List.length_append, List.length_cons]⟩
  rw [List.append_assoc] at hwrite
  rw [Output.terminate, hwrite]
  rfl

/-- The offset of a text that does not fit has left the buffer. -/
theorem terminate_outside (h : size ≤ o.off) (hsize : o.buf.length = size) : o.terminate = .error .outOfBounds := by
  have hwrite : writeRange o.buf o.off [0] = .error .outOfBounds := by
    apply if_neg
    rw [List.length_singleton]
    omega
  rw [Output.terminate, hwrite]
  rfl

/-- What snprintf writes: the text up to the place of the terminator, and the terminator. -/
private theorem HoldsText.snprintf (h : HoldsText size o t) (s : Bytes) : ∃ rest,
    snprintfTo o.buf o.off (sub64 size o.off) s =
      .ok (if s.length < 2 ^ 31 then s.length else -1, t ++ s.take (size - t.length - 1) ++ 0 :: rest) ∧
    (t ++ s.take (size - t.length - 1) ++ 0 :: rest).length = size := by
  have hroom : sub64 size o.off = size - t.length := by
    rw [← h.off_eq]
    exact sub64_of_le (Nat.le_of_lt h.off_lt)
  obtain ⟨b, rest, rfl, rfl⟩ := h
  have hspace : (t ++ b :: rest).length - t.length = rest.length + 1 := by
    rw [List.length_append, List.length_cons, Nat.add_sub_cancel_left]
  rw [hroom, hspace, Nat.add_sub_cancel]
  have htaken : (s.take rest.length).length ≤ rest.length := List.length_take_le _ _
  generalize hw : s.take rest.length = w at htaken ⊢
  have hwrite := writeRange_append t (w ++ [0]) (b :: rest)
    (by rw [List.length_append, List.length_cons]; exact Nat.succ_le_succ htaken)
  have hcells : t ++ (w ++ [0]) ++ (b :: rest).drop (w ++ [0]).length =
      t ++ w ++ 0 :: (b :: rest).drop (w ++ [0]).length := by simp only [List.append_assoc, List.singleton_append]
  rw [hcells] at hwrite
  refine ⟨(b :: rest).drop (w ++ [0]).length, ?_, ?_⟩
  · rw [snprintfTo, if_pos (Nat.succ_pos _), Nat.add_sub_cancel, hw, hwrite]
    rfl
  · simp only [List.length_append, List.length_cons, List.length_drop, List.length_nil]
    omega

theorem HoldsText.format_fits (h : HoldsText size o t) {s : Bytes} (hint : s.length < 2 ^ 31)
    (hroom : (t ++ s).length < size) :
    ∃ o', o.format size s = .ok o' ∧ HoldsText size o' (t ++ s) := by
  obtain ⟨rest, hprint, hlen⟩ := h.snprintf s
  have hwhole : s.take (size - t.length - 1) = s := by
    apply List.take_of_length_le
    rw [List.length_append] at hroom
    omega
  rw [hwhole] at hprint hlen
  have hoff : (if 0 < (s.length : Int) then o.off + (s.length : Int).toNat else o.off) = (t ++ s).length := by
    rw [List.length_append, h.off_eq, Int.toNat_natCast]
    split_ifs with hpos
    · rfl
    · omega
  refine ⟨⟨t ++ s ++ 0 :: rest, (t ++ s).length⟩, ?_, 0, rest, rfl, hlen⟩
  rw [Output.format, hprint, if_pos hint, ← hoff]
  rfl

/-- A length that is no int leaves the offset where it was. -/
theorem HoldsText.format_negative (h : HoldsText size o t) {s : Bytes} (hint : 2 ^ 31 ≤ s.length) :
    ∃ o', o.format size s = .ok o' ∧ HoldsText size o' t := by
  obtain ⟨rest, hprint, hlen⟩ := h.snprintf s
  obtain ⟨b, rest', hrest⟩ : ∃ b rest', s.take (size - t.length - 1) ++ 0 :: rest = b :: rest' := by
    apply List.exists_cons_of_length_pos
    rw [List.length_append, List.length_cons]
    omega
  rw [List.append_assoc, hrest] at hprint hlen
  refine ⟨⟨t ++ b :: rest', t.length⟩, ?_, b, rest', rfl, hlen⟩
  rw [Output.format, hprint, if_neg (not_lt.mpr hint), ← h.off_eq]
  rfl

/-- A text that is cut takes the offset past the end. -/
theorem HoldsText.format_full (h : HoldsText size o t) {s : Bytes} (hint : s.length < 2 ^ 31)
    (hfull : size ≤ (t ++ s).length) :
    ∃ o', o.format size s = .ok o' ∧ o'.buf.length = size ∧ size ≤ o'.off := by
  obtain ⟨rest, hprint, hlen⟩ := h.snprintf s
  have hlt := h.off_lt
  rw [List.length_append, ← h.off_eq] at hfull
  have hpos : 0 < (s.length : Int) := by omega
  refine ⟨⟨_, o.off + s.length⟩, ?_, hlen, hfull⟩
  rw [Output.format, hprint, if_pos hint]
  simp only [ok_bind, hpos, if_true, Int.toNat_natCast]
  rfl

/-- The loop writes the escaped text of a beginning of the value. -/
theorem HoldsText.putEscaped (h : HoldsText size o t) (value : Bytes) :
    ∃ o', o.putEscaped size value = .ok o' ∧ HoldsText size o' (appendEscaped size t value) := by
  induction value generalizing o t with
  | nil => exact ⟨o, rfl, h⟩
  | cons c value ih =>
    rw [Output.putEscaped, appendEscaped, h.off_eq]
    by_cases hroom : t.length + 2 < size
    · rw [if_pos hroom, if_pos hroom, escapeChar]
      have hpair : ∀ d e : UInt8, ∃ o', (do (← o.put d).put e) = .ok o' ∧ HoldsText size o' (t ++ [d, e]) := by
        intro d e
        obtain ⟨o₁, hput₁, h₁⟩ := h.put d (Nat.lt_of_succ_lt hroom)
        obtain ⟨o₂, hput₂, h₂⟩ := h₁.put e (by rw [List.length_append, List.length_singleton]; exact hroom)
        rw [List.append_assoc] at h₂
        exact ⟨o₂, by rw [hput₁, ok_bind, hput₂], h₂⟩
      by_cases hmark : c = quotationMark ∨ c = reverseSolidus
      · obtain ⟨o', hput, h'⟩ := hpair reverseSolidus c
        obtain ⟨o'', hrest, h''⟩ := ih h'
        rw [if_pos hmark, if_pos hmark, ← bind_assoc, hput, ok_bind]
        exact ⟨o'', hrest, h''⟩
      rw [if_neg hmark, if_neg hmark]
      by_cases hline : c = '\n'.toUInt8
      · obtain ⟨o', hput, h'⟩ := hpair reverseSolidus 'n'.toUInt8
        obtain ⟨o'', hrest, h''⟩ := ih h'
        rw [if_pos hline, if_pos hline, ← bind_assoc, hput, ok_bind]
        exact ⟨o'', hrest, h''⟩
      · obtain ⟨o', hput, h'⟩ := h.put c (Nat.lt_of_succ_lt hroom)
        obtain ⟨o'', hrest, h''⟩ := ih h'
        rw [if_neg hline, if_neg hline, hput, ok_bind]
        exact ⟨o'', hrest, h''⟩
    · rw [if_neg hroom, if_neg hroom]
      exact ⟨o, rfl, h⟩

theorem putEscaped_outside (h : size ≤ o.off) (value : Bytes) : o.putEscaped size value = .ok o := by
  cases value with
  | nil => rfl
  | cons c value => exact if_neg (by omega)

end HoldsText

section Calls
variable {size : Nat} {o : Output} {t : Bytes}

/-- What the comma leaves of the text in front of the member. -/
def separated (size : Nat) (t : Bytes) (isFirst : Bool) : Bytes := if isFirst then t else appendChar size t comma

theorem HoldsText.separate (h : HoldsText size o t) (isFirst : Bool) :
    ∃ o', o.separate size isFirst = .ok o' ∧ HoldsText size o' (separated size t isFirst) := by
  cases isFirst with
  | true => exact ⟨o, rfl, h⟩
  | false => exact h.putIfRoom comma

/-- The text behind a member whose formatted part is f. -/
def Entry.behind (size : Nat) (f : Bytes) : Entry → Bytes
  | .string _ value => appendChar size (appendEscaped size f value) quotationMark
  | .raw _ _ => f

/-- What a call does behind snprintf. -/
def Entry.finish (size : Nat) (o : Output) : Entry → Checked Output
  | .string _ value => do
    let o ← o.putEscaped size value
    let o ← o.putIfRoom size quotationMark
    o.terminate
  | .raw _ _ => o.terminate

private theorem run_eq (c : JsonCall) (o : Output) : c.run size o = (do
    let o ← o.separate size c.isFirst
    let o ← o.format size c.entry.formatted
    c.entry.finish size o) := by
  obtain ⟨entry, isFirst⟩ := c
  cases entry with
  | string key value => rfl
  | raw key rawValue => rfl

private theorem append_eq (e : Entry) (t : Bytes) (isFirst : Bool) : e.append size t isFirst =
    (snprintf size (separated size t isFirst) e.formatted >>= fun f => .ok (e.behind size f)) := by
  cases e with
  | string key value => rfl
  | raw key rawValue =>
    change snprintf size (separated size t isFirst) (Entry.raw key rawValue).formatted = _
    cases snprintf size (separated size t isFirst) (Entry.raw key rawValue).formatted <;> rfl

private theorem finish_holds (e : Entry) {f : Bytes} (h : HoldsText size o f) :
    ∃ o', e.finish size o = .ok o' ∧ HoldsText size o' (e.behind size f) := by
  cases e with
  | raw key rawValue => exact h.terminate
  | string key value =>
    obtain ⟨o₁, hescape, h₁⟩ := h.putEscaped value
    obtain ⟨o₂, hquote, h₂⟩ := h₁.putIfRoom quotationMark
    obtain ⟨o₃, hend, h₃⟩ := h₂.terminate
    exact ⟨o₃, by rw [Entry.finish, hescape, ok_bind, hquote, ok_bind, hend], h₃⟩

/-- The terminator is the write that leaves the buffer. -/
private theorem finish_outside (e : Entry) (hoff : size ≤ o.off) (hsize : o.buf.length = size) :
    e.finish size o = .error .outOfBounds := by
  have hend := terminate_outside hoff hsize
  cases e with
  | raw key rawValue => exact hend
  | string key value =>
    have hquote : o.putIfRoom size quotationMark = .ok o := if_neg (by omega)
    rw [Entry.finish, putEscaped_outside hoff, ok_bind, hquote, ok_bind, hend]

/-- A member with room for its formatted part is written. -/
theorem JsonCall.run_fits (c : JsonCall) (h : HoldsText size o t) (hint : c.entry.formatted.length < 2 ^ 31)
    (hroom : (separated size t c.isFirst ++ c.entry.formatted).length < size) :
    ∃ o', c.run size o = .ok o' ∧
      HoldsText size o' (c.entry.behind size (separated size t c.isFirst ++ c.entry.formatted)) := by
  obtain ⟨o₁, hseparate, h₁⟩ := h.separate c.isFirst
  obtain ⟨o₂, hformat, h₂⟩ := h₁.format_fits hint hroom
  rw [run_eq, hseparate, ok_bind, hformat, ok_bind]
  exact finish_holds c.entry h₂

/-- Of a member of no int length only the value is written. -/
theorem JsonCall.run_negative (c : JsonCall) (h : HoldsText size o t) (hint : 2 ^ 31 ≤ c.entry.formatted.length) :
    ∃ o', c.run size o = .ok o' ∧ HoldsText size o' (c.entry.behind size (separated size t c.isFirst)) := by
  obtain ⟨o₁, hseparate, h₁⟩ := h.separate c.isFirst
  obtain ⟨o₂, hformat, h₂⟩ := h₁.format_negative hint
  rw [run_eq, hseparate, ok_bind, hformat, ok_bind]
  exact finish_holds c.entry h₂

theorem JsonCall.run_full (c : JsonCall) (h : HoldsText size o t) (hint : c.entry.formatted.length < 2 ^ 31)
    (hfull : size ≤ (separated size t c.isFirst ++ c.entry.formatted).length) : c.run size o = .error .outOfBounds := by
  obtain ⟨o₁, hseparate, h₁⟩ := h.separate c.isFirst
  obtain ⟨o₂, hformat, hsize, hoff⟩ := h₁.format_full hint hfull
  rw [run_eq, hseparate, ok_bind, hformat, ok_bind, finish_outside c.entry hoff hsize]

/-- Where snprintf can report its length, the memory holds the text of the builder that keeps no memory, and leaves
its bounds where that one fails. -/
theorem JsonCall.run_refines (c : JsonCall) (h : HoldsText size o t) (hint : c.entry.formatted.length < 2 ^ 31) :
    match c.entry.append size t c.isFirst with
    | .ok r => ∃ o', c.run size o = .ok o' ∧ HoldsText size o' r
    | .error e => c.run size o = .error e := by
  rw [append_eq]
  by_cases hroom : (separated size t c.isFirst ++ c.entry.formatted).length < size
  · rw [snprintf_fits hroom]
    exact c.run_fits h hint hroom
  · rw [snprintf_full (not_lt.mp hroom)]
    exact c.run_full h hint (not_lt.mp hroom)

/-- The formatted part of a member fits behind the offset and the comma, or has no int length. -/
def JsonCall.Fits (bufLen off : Nat) (c : JsonCall) : Prop :=
  (if ¬ c.isFirst ∧ off + 1 < bufLen then off + 1 else off) + c.entry.formatted.length < bufLen ∨
    2 ^ 31 ≤ c.entry.formatted.length

instance (bufLen off : Nat) (c : JsonCall) : Decidable (c.Fits bufLen off) := inferInstanceAs (Decidable (_ ∨ _))

private theorem separated_length (isFirst : Bool) :
    (separated size t isFirst).length = if ¬ isFirst ∧ t.length + 1 < size then t.length + 1 else t.length := by
  cases isFirst with
  | true => rfl
  | false =>
    rw [separated, appendChar, if_neg Bool.false_ne_true]
    by_cases hroom : t.length + 1 < size
    · rw [if_pos hroom, if_pos ⟨Bool.false_ne_true, hroom⟩, List.length_append, List.length_singleton]
    · rw [if_neg hroom, if_neg fun h => hroom h.2]

/-- A call that fits stays in the buffer, and no other does. -/
theorem JsonCall.run_cases (c : JsonCall) (h : HoldsText size o t) :
    (c.Fits size o.off ∧ ∃ o' t', c.run size o = .ok o' ∧ HoldsText size o' t') ∨
      ¬ c.Fits size o.off ∧ c.run size o = .error .outOfBounds := by
  rw [JsonCall.Fits, h.off_eq, ← separated_length, ← List.length_append]
  by_cases hint : 2 ^ 31 ≤ c.entry.formatted.length
  · obtain ⟨o', hrun, h'⟩ := c.run_negative h hint
    exact .inl ⟨.inr hint, o', _, hrun, h'⟩
  · have hint' := not_le.mp hint
    by_cases hroom : (separated size t c.isFirst ++ c.entry.formatted).length < size
    · obtain ⟨o', hrun, h'⟩ := c.run_fits h hint' hroom
      exact .inl ⟨.inl hroom, o', _, hrun, h'⟩
    · exact .inr ⟨not_or.mpr ⟨hroom, hint⟩, c.run_full h hint' (not_lt.mp hroom)⟩

/-- What comes through holds a text inside the buffer. -/
theorem runCalls_holds {calls : List JsonCall} {o' : Output} (h : HoldsText size o t)
    (hrun : runCalls size o calls = .ok o') :
    ∃ t', HoldsText size o' t' := by
  refine foldlM_keeps (P := fun o => ∃ t, HoldsText size o t) ?_ hrun ⟨t, h⟩
  rintro o c o' ⟨t, h⟩ hstep
  rcases c.run_cases h with ⟨-, o₁, t₁, hrun, h₁⟩ | ⟨-, hrun⟩
  · rw [hrun] at hstep
    cases hstep
    exact ⟨t₁, h₁⟩
  · rw [hrun] at hstep
    cases hstep

/-- Every call of a run stays in the buffer exactly when every call fits where the calls before it lead. -/
theorem runCalls_ok_iff (calls : List JsonCall) (h : HoldsText size o t) :
    (∃ o', runCalls size o calls = .ok o') ↔
      ∀ front c rest, calls = front ++ c :: rest → ∀ o', runCalls size o front = .ok o' → c.Fits size o'.off := by
  induction calls generalizing o t with
  | nil =>
    refine iff_of_true ⟨o, rfl⟩ fun front c rest hcalls => ?_
    simp at hcalls
  | cons c calls ih =>
    rw [runCalls, List.foldlM_cons]
    rcases c.run_cases h with ⟨hfits, o₁, t₁, hrun, h₁⟩ | ⟨hfull, hrun⟩
    · rw [hrun, ok_bind]
      refine (ih h₁).trans ⟨?_, ?_⟩
      · intro hlater front c' rest hcalls o' hfront
        cases front with
        | nil =>
          obtain ⟨rfl, rfl⟩ := List.cons.inj hcalls
          cases hfront
          exact hfits
        | cons c₁ front =>
          obtain ⟨rfl, htail⟩ := List.cons.inj hcalls
          rw [runCalls, List.foldlM_cons, hrun, ok_bind] at hfront
          exact hlater front c' rest htail o' hfront
      · intro hall front c' rest hcalls o' hfront
        apply hall (c :: front) c' rest (by rw [hcalls, List.cons_append]) o'
        rw [runCalls, List.foldlM_cons, hrun, ok_bind]
        exact hfront
    · refine iff_of_false ?_ fun hall => hfull (hall [] c calls rfl o rfl)
      rintro ⟨o', hrun'⟩
      rw [hrun, error_bind] at hrun'
      cases hrun'

theorem runCalls_append (size : Nat) (o : Output) (front rest : List JsonCall) :
    runCalls size o (front ++ rest) = (runCalls size o front >>= fun o => runCalls size o rest) :=
  List.foldlM_append

/-- A chain of calls stays inside the buffer, and leaves the offset there behind each of them, exactly when every
call fits where the calls before it lead. -/
theorem runCalls_in_bounds_iff (o : Output) (h : o.off < o.buf.length) (calls : List JsonCall) :
    (∀ sent, sent <+: calls → ∃ o', runCalls o.buf.length o sent = .ok o' ∧ o'.buf.length = o.buf.length ∧
      o'.off < o.buf.length) ↔
      ∀ front c rest, calls = front ++ c :: rest → ∀ o', runCalls o.buf.length o front = .ok o' →
        c.Fits o.buf.length o'.off := by
  have hstart := holds_of_off_lt h
  rw [← runCalls_ok_iff calls hstart]
  constructor
  · intro hsent
    obtain ⟨o', hrun, -⟩ := hsent calls (List.prefix_refl _)
    exact ⟨o', hrun⟩
  · rintro ⟨o', hrun⟩ sent ⟨rest, rfl⟩
    rw [runCalls_append] at hrun
    obtain ⟨o₁, hsent, -⟩ := bind_eq_ok hrun
    obtain ⟨t₁, h₁⟩ := runCalls_holds hstart hsent
    exact ⟨o₁, hsent, h₁.length_eq, h₁.off_lt⟩

/-- A member of seven characters in a buffer of sixteen. -/
theorem runCalls_in_bounds_one :
    ∃ o', runCalls 16 ⟨List.replicate 16 0, 1⟩ [⟨.string (text "a") (text "b"), true⟩] = .ok o' ∧
      o'.buf.length = 16 ∧ o'.off < 16 := by
  refine (runCalls_in_bounds_iff ⟨List.replicate 16 0, 1⟩ (by decide) [⟨.string (text "a") (text "b"), true⟩]).mpr
    ?_ _ (List.prefix_refl _)
  intro front c rest hcalls o' hfront
  cases front with
  | nil =>
    obtain ⟨rfl, -⟩ := List.cons.inj hcalls
    cases hfront
    decide
  | cons c₁ front =>
    have htail := (List.cons.inj hcalls).2
    simp at htail

/-- A member of eleven characters in a buffer of eight. -/
theorem full_buffer_left :
    runCalls 8 ⟨List.replicate 8 0, 1⟩ [⟨.raw (text "key") (text "value"), true⟩] = .error .outOfBounds ∧
      ¬ ∀ (o : Output) (calls : List JsonCall), 2 ≤ o.buf.length → o.off < o.buf.length →
        ∃ o', runCalls o.buf.length o calls = .ok o' ∧ o'.off < o.buf.length := by
  have hleft : runCalls 8 ⟨List.replicate 8 0, 1⟩ [⟨.raw (text "key") (text "value"), true⟩] = .error .outOfBounds := by
    decide
  refine ⟨hleft, fun h => ?_⟩
  obtain ⟨o', hrun, -⟩ := h ⟨List.replicate 8 0, 1⟩ [⟨.raw (text "key") (text "value"), true⟩] (by decide) (by decide)
  rw [List.length_replicate, hleft] at hrun
  cases hrun

end Calls
end RootHerald.Linux
