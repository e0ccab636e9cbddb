import RootHerald.Lib.Bytes

/-! UTF-8 read one byte at a time: the value of a sequence is summed up, and overlong forms and
surrogates are refused at its end. -/
namespace RootHerald.Lib.Utf8

inductive State
  | start
  /-- Inside a sequence for a value from least on, with more bytes to follow the next one. -/
  | tail (least acc more : Nat)
  deriving DecidableEq

/-- A first byte. -/
def lead (n : Nat) : Option State :=
  if n < 0x80 then some .start
  else if n < 0xC0 then none
  else if n < 0xE0 then some (.tail 0x80 (n - 0xC0) 0)
  else if n < 0xF0 then some (.tail 0x800 (n - 0xE0) 1)
  else if n < 0xF8 then some (.tail 0x10000 (n - 0xF0) 2)
  else none

/-- A continuation byte carries six bits. -/
def follow (least acc more n : Nat) : Option State :=
  if n < 0x80 ∨ 0xC0 ≤ n then none
  else
    let acc := acc * 64 + (n - 0x80)
    match more with
    | 0 => if least ≤ acc ∧ acc.isValidChar then some .start else none
    | more + 1 => some (.tail least acc more)

def next : State → UInt8 → Option State
  | .start, c => lead c.toNat
  | .tail least acc more, c => follow least acc more c.toNat

def run : State → Bytes → Option State
  | s, [] => some s
  | s, c :: bs => (next s c).bind (run · bs)

/-- Whole sequences only. -/
def valid (bs : Bytes) : Bool := run .start bs = some .start

theorem next_start_ascii {c : UInt8} (h : c < 0x80) : next .start c = some .start :=
  if_pos (UInt8.lt_iff_toNat_lt.mp h)

theorem next_tail_ascii {least acc more : Nat} {c : UInt8} (h : c < 0x80) : next (.tail least acc more) c = none :=
  if_pos (.inl (UInt8.lt_iff_toNat_lt.mp h))

theorem valid_of_ascii {bs : Bytes} (h : ∀ c ∈ bs, c < 0x80) : valid bs = true := by
  apply decide_eq_true
  induction bs with
  | nil => rfl
  | cons c bs ih =>
    obtain ⟨hc, hbs⟩ := List.forall_mem_cons.mp h
    rw [run, next_start_ascii hc, Option.bind_some, ih hbs]

theorem run_append (s : State) (bs cs : Bytes) : run s (bs ++ cs) = (run s bs).bind (run · cs) := by
  induction bs generalizing s with
  | nil => rfl
  | cons b bs ih =>
    simp only [List.cons_append, run, Option.bind_assoc]
    exact congrArg _ (funext ih)

theorem valid_append {bs cs : Bytes} (hb : valid bs = true) : valid (bs ++ cs) = valid cs := by
  unfold valid
  rw [run_append, of_decide_eq_true hb, Option.bind_some]

section Characters

private theorem run_lead {n : Nat} (h : n < 256) {s : State} (hs : lead n = some s) (bs : Bytes) :
    run .start (UInt8.ofNat n :: bs) = run s bs := by
  rw [run, next, UInt8.toNat_ofNat', Nat.mod_eq_of_lt h, hs, Option.bind_some]

private theorem run_tail {least acc more n : Nat} (h : n < 64) (bs : Bytes) :
    run (.tail least acc (more + 1)) (UInt8.ofNat (n + 0x80) :: bs) = run (.tail least (acc * 64 + n) more) bs := by
  rw [run, next, UInt8.toNat_ofNat', Nat.mod_eq_of_lt (by omega), follow, if_neg (by omega), Nat.add_sub_cancel,
    Option.bind_some]

private theorem run_last {least acc n v : Nat} (h : n < 64) (hv : acc * 64 + n = v) (hleast : least ≤ v)
    (hvalid : v.isValidChar) (bs : Bytes) :
    run (.tail least acc 0) (UInt8.ofNat (n + 0x80) :: bs) = run .start bs := by
  simp only [run, next, UInt8.toNat_ofNat', Nat.mod_eq_of_lt (show n + 0x80 < 2 ^ 8 by omega), follow]
  rw [if_neg (by omega), Nat.add_sub_cancel, hv, if_pos ⟨hleast, hvalid⟩, Option.bind_some]

private theorem lead_two {n : Nat} (h : n < 0x20) : lead (n + 0xC0) = some (.tail 0x80 n 0) := by
  rw [lead, if_neg (by omega), if_neg (by omega), if_pos (by omega), Nat.add_sub_cancel]

private theorem lead_three {n : Nat} (h : n < 0x10) : lead (n + 0xE0) = some (.tail 0x800 n 1) := by
  rw [lead, if_neg (by omega), if_neg (by omega), if_neg (by omega), if_pos (by omega), Nat.add_sub_cancel]

private theorem lead_four {n : Nat} (h : n < 0x08) : lead (n + 0xF0) = some (.tail 0x10000 n 2) := by
  rw [lead, if_neg (by omega), if_neg (by omega), if_neg (by omega), if_neg (by omega), if_pos (by omega),
    Nat.add_sub_cancel]

/-- An encoded character leads back to the start. -/
theorem run_utf8EncodeChar (c : Char) (bs : Bytes) : run .start (String.utf8EncodeChar c ++ bs) = run .start bs := by
  have hvalid : c.val.toNat.isValidChar := c.valid
  have hlt : c.val.toNat < 0x110000 := by
    rcases hvalid with h | h <;> omega
  unfold String.utf8EncodeChar
  generalize c.val.toNat = v at hvalid hlt
  dsimp only
  split_ifs with h₁ h₂ h₃ <;> simp only [List.cons_append, List.nil_append]
  · exact run_lead (by omega) (if_pos (by omega)) bs
  · rw [run_lead (by omega) (lead_two (by omega)), run_last (by omega) (v := v) (by omega) (by omega) hvalid]
  · rw [run_lead (by omega) (lead_three (by omega)), run_tail (by omega),
      run_last (by omega) (v := v) (by omega) (by omega) hvalid]
  · rw [run_lead (by omega) (lead_four (by omega)), run_tail (by omega), run_tail (by omega),
      run_last (by omega) (v := v) (by omega) (by omega) hvalid]

theorem run_encoded (cs : List Char) : run .start (cs.flatMap String.utf8EncodeChar) = some .start := by
  induction cs with
  | nil => rfl
  | cons c cs ih => rw [List.flatMap_cons, run_utf8EncodeChar, ih]

@[simp] theorem valid_text (s : String) : valid (text s) = true := decide_eq_true (run_encoded s.toList)

private theorem run_cons_eq_some {s : State} {bs : Bytes} (hs : s ≠ .start) (h : run s bs = some .start) :
    ∃ b rest s', bs = b :: rest ∧ next s b = some s' ∧ run s' rest = some .start := by
  cases bs with
  | nil => exact absurd (Option.some.inj h) hs
  | cons b rest =>
    obtain ⟨s', hs', h⟩ := Option.bind_eq_some_iff.mp h
    exact ⟨b, rest, s', rfl, hs', h⟩

private theorem tail_eq_some {least acc more : Nat} {bs : Bytes}
    (h : run (.tail least acc (more + 1)) bs = some .start) :
    ∃ n < 64, ∃ rest, bs = UInt8.ofNat (n + 0x80) :: rest ∧
      run (.tail least (acc * 64 + n) more) rest = some .start := by
  obtain ⟨b, rest, s, rfl, hs, h⟩ := run_cons_eq_some (by simp) h
  rw [next, follow] at hs
  obtain ⟨hrange, hs⟩ := Option.ite_none_left_eq_some.mp hs
  obtain rfl := Option.some.inj hs
  refine ⟨b.toNat - 0x80, by omega, rest, ?_, h⟩
  rw [Nat.sub_add_cancel (by omega), UInt8.ofNat_toNat]

private theorem last_eq_some {least acc : Nat} {bs : Bytes} (h : run (.tail least acc 0) bs = some .start) :
    ∃ n < 64, ∃ rest, bs = UInt8.ofNat (n + 0x80) :: rest ∧ least ≤ acc * 64 + n ∧ (acc * 64 + n).isValidChar ∧
      run .start rest = some .start := by
  obtain ⟨b, rest, s, rfl, hs, h⟩ := run_cons_eq_some (by simp) h
  rw [next, follow] at hs
  obtain ⟨hrange, hs⟩ := Option.ite_none_left_eq_some.mp hs
  obtain ⟨⟨hleast, hvalid⟩, hs⟩ := Option.ite_none_right_eq_some.mp hs
  obtain rfl := Option.some.inj hs
  refine ⟨b.toNat - 0x80, by omega, rest, ?_, hleast, hvalid, h⟩
  rw [Nat.sub_add_cancel (by omega), UInt8.ofNat_toNat]

private theorem val_ofNat {v : Nat} (h : v.isValidChar) : (Char.ofNat v).val.toNat = v := by
  rw [Char.ofNat, dif_pos h]
  exact UInt32.toNat_ofNatLT

private theorem encode_one {b : UInt8} (h : b.toNat < 0x80) : String.utf8EncodeChar (Char.ofNat b.toNat) = [b] := by
  rw [String.utf8EncodeChar, val_ofNat (.inl (by omega)), if_pos (by omega), UInt8.ofNat_toNat]

private theorem encode_two {a n : Nat} (hn : n < 64) (hleast : 0x80 ≤ a * 64 + n) (ha : a < 0x20)
    (hvalid : (a * 64 + n).isValidChar) :
    String.utf8EncodeChar (Char.ofNat (a * 64 + n)) = [UInt8.ofNat (a + 0xC0), UInt8.ofNat (n + 0x80)] := by
  rw [String.utf8EncodeChar, val_ofNat hvalid, if_neg (by omega), if_pos (by omega),
    show (a * 64 + n) / 64 % 0x20 = a by omega, show (a * 64 + n) % 0x40 = n by omega]

private theorem encode_three {a n m : Nat} (hn : n < 64) (hm : m < 64) (hleast : 0x800 ≤ (a * 64 + n) * 64 + m)
    (ha : a < 0x10) (hvalid : ((a * 64 + n) * 64 + m).isValidChar) :
    String.utf8EncodeChar (Char.ofNat ((a * 64 + n) * 64 + m)) =
      [UInt8.ofNat (a + 0xE0), UInt8.ofNat (n + 0x80), UInt8.ofNat (m + 0x80)] := by
  rw [String.utf8EncodeChar, val_ofNat hvalid, if_neg (by omega), if_neg (by omega), if_pos (by omega),
    show ((a * 64 + n) * 64 + m) / 4096 % 0x10 = a by omega, show ((a * 64 + n) * 64 + m) / 64 % 0x40 = n by omega,
    show ((a * 64 + n) * 64 + m) % 0x40 = m by omega]

private theorem encode_four {a n m k : Nat} (hn : n < 64) (hm : m < 64) (hk : k < 64)
    (hleast : 0x10000 ≤ ((a * 64 + n) * 64 + m) * 64 + k) (ha : a < 0x08)
    (hvalid : (((a * 64 + n) * 64 + m) * 64 + k).isValidChar) :
    String.utf8EncodeChar (Char.ofNat (((a * 64 + n) * 64 + m) * 64 + k)) =
      [UInt8.ofNat (a + 0xF0), UInt8.ofNat (n + 0x80), UInt8.ofNat (m + 0x80), UInt8.ofNat (k + 0x80)] := by
  rw [String.utf8EncodeChar, val_ofNat hvalid, if_neg (by omega), if_neg (by omega), if_neg (by omega),
    show (((a * 64 + n) * 64 + m) * 64 + k) / 262144 % 0x08 = a by omega,
    show (((a * 64 + n) * 64 + m) * 64 + k) / 4096 % 0x40 = n by omega,
    show (((a * 64 + n) * 64 + m) * 64 + k) / 64 % 0x40 = m by omega,
    show (((a * 64 + n) * 64 + m) * 64 + k) % 0x40 = k by omega]

private theorem ofNat_sub {b : UInt8} {k : Nat} (h : k ≤ b.toNat) : UInt8.ofNat (b.toNat - k + k) = b := by
  rw [Nat.sub_add_cancel h, UInt8.ofNat_toNat]

/-- A valid text that is not empty starts with an encoded character. -/
private theorem exists_char {b : UInt8} {bs : Bytes} (h : run .start (b :: bs) = some .start) :
    ∃ c rest, b :: bs = String.utf8EncodeChar c ++ rest ∧ run .start rest = some .start := by
  obtain ⟨s, hs, h⟩ := Option.bind_eq_some_iff.mp h
  have hb := b.toNat_lt
  rw [next, lead] at hs
  split_ifs at hs with h₁ h₂ h₃ h₄ h₅ <;> obtain rfl := Option.some.inj hs
  · exact ⟨_, bs, by rw [encode_one h₁]; rfl, h⟩
  · obtain ⟨n, hn, rest, rfl, hleast, hvalid, hrest⟩ := last_eq_some h
    have hchar := encode_two hn hleast (by omega) hvalid
    rw [ofNat_sub (by omega)] at hchar
    exact ⟨_, rest, by rw [hchar]; rfl, hrest⟩
  · obtain ⟨n, hn, rest, rfl, h'⟩ := tail_eq_some h
    obtain ⟨m, hm, rest, rfl, hleast, hvalid, hrest⟩ := last_eq_some h'
    have hchar := encode_three hn hm hleast (by omega) hvalid
    rw [ofNat_sub (by omega)] at hchar
    exact ⟨_, rest, by rw [hchar]; rfl, hrest⟩
  · obtain ⟨n, hn, rest, rfl, h'⟩ := tail_eq_some h
    obtain ⟨m, hm, rest, rfl, h''⟩ := tail_eq_some h'
    obtain ⟨k, hk, rest, rfl, hleast, hvalid, hrest⟩ := last_eq_some h''
    have hchar := encode_four hn hm hk hleast (by omega) hvalid
    rw [ofNat_sub (by omega)] at hchar
    exact ⟨_, rest, by rw [hchar]; rfl, hrest⟩

private theorem exists_chars {bs : Bytes} (h : run .start bs = some .start) :
    ∃ cs : List Char, bs = cs.flatMap String.utf8EncodeChar := by
  induction hlen : bs.length using Nat.strong_induction_on generalizing bs with
  | _ n ih =>
    cases bs with
    | nil => exact ⟨[], rfl⟩
    | cons b bs =>
      obtain ⟨c, rest, heq, hrest⟩ := exists_char h
      have hsize := congrArg List.length heq
      have hpos := c.utf8Size_pos
      rw [List.length_append, String.length_utf8EncodeChar] at hsize
      obtain ⟨cs, rfl⟩ := ih rest.length (by omega) hrest rfl
      exact ⟨c :: cs, heq⟩

/-- The valid texts are the encodings of strings. -/
theorem valid_iff {bs : Bytes} : valid bs = true ↔ ∃ s : String, bs = text s := by
  constructor
  · intro h
    obtain ⟨cs, hcs⟩ := exists_chars (of_decide_eq_true h)
    exact ⟨String.ofList cs, by rw [text, String.toList_ofList, hcs]⟩
  · rintro ⟨s, rfl⟩
    exact valid_text s

end Characters
end RootHerald.Lib.Utf8
