import RootHerald.Lib.JsonEnds
import RootHerald.Lib.LenientJson

/-! The lenient reading of strings of RFC 8259: it is right where each escape stands for its character. -/
namespace RootHerald.Lib.Lenient
open Json

/-- Of the escapes before the closing mark, each stands for the character the reading takes it for. -/
def plainEscapes (escape : UInt8 → UInt8) : Bytes → Bool
  | [] => true
  | c :: rest =>
    if c = quotationMark then true
    else if c = reverseSolidus then
      match rest with
      | [] => false
      | d :: rest => unescape d = some (escape d) && plainEscapes escape rest
    else plainEscapes escape rest

/-- How a string that is read is written behind its opening mark: bytes as they are, escapes of one
character, and code units of four digits. -/
inductive StringText : Bytes → Bytes → Prop where
  | mark (rest : Bytes) : StringText (quotationMark :: rest) []
  | escape {e x : UInt8} {s v : Bytes} (hx : unescape e = some x) (hrest : StringText s v) :
      StringText (reverseSolidus :: e :: s) (x :: v)
  | unit {h₁ h₂ h₃ h₄ : UInt8} {chars s v : Bytes} (hdigits : ∀ h ∈ [h₁, h₂, h₃, h₄], (hexValue h).isSome)
      (hchars : chars.length ≤ 4) (hrest : StringText s v) :
      StringText (reverseSolidus :: 0x75 :: h₁ :: h₂ :: h₃ :: h₄ :: s) (chars ++ v)
  | pair {h₁ h₂ h₃ h₄ l₁ l₂ l₃ l₄ : UInt8} {chars s v : Bytes}
      (hdigits : ∀ h ∈ [h₁, h₂, h₃, h₄, l₁, l₂, l₃, l₄], (hexValue h).isSome)
      (hchars : chars.length ≤ 4) (hrest : StringText s v) :
      StringText (reverseSolidus :: 0x75 :: h₁ :: h₂ :: h₃ :: h₄ :: reverseSolidus :: 0x75 :: l₁ :: l₂ :: l₃ :: l₄ :: s)
        (chars ++ v)
  | byte {c : UInt8} {s v : Bytes} (hmark : c ≠ quotationMark) (hsolidus : c ≠ reverseSolidus) (hrest : StringText s v) :
      StringText (c :: s) (c :: v)

section Written
variable {s v rest : Bytes}

private theorem hexValue_of_codeUnit {h₁ h₂ h₃ h₄ : UInt8} {u : Nat} (h : codeUnit h₁ h₂ h₃ h₄ = some u) :
    ∀ d ∈ [h₁, h₂, h₃, h₄], (hexValue d).isSome := by
  simp only [codeUnit, List.foldlM_cons, List.foldlM_nil, Option.bind_eq_bind, Option.bind_eq_some_iff,
    Option.map_eq_some_iff] at h
  obtain ⟨_, ⟨_, hv₁, -⟩, _, ⟨_, hv₂, -⟩, _, ⟨_, hv₃, -⟩, _, ⟨_, hv₄, -⟩, -⟩ := h
  intro d hd
  simp only [List.mem_cons, List.not_mem_nil, or_false] at hd
  rcases hd with rfl | rfl | rfl | rfl
  · exact Option.isSome_of_eq_some hv₁
  · exact Option.isSome_of_eq_some hv₂
  · exact Option.isSome_of_eq_some hv₃
  · exact Option.isSome_of_eq_some hv₄

private theorem encodeCodePoint_length (u : Nat) : (encodeCodePoint u).length ≤ 4 := by
  rw [encodeCodePoint, String.length_utf8EncodeChar]
  exact Char.utf8Size_le_four _

private theorem stringText_map {front : Bytes} {f : Bytes → Bytes} {x : Option (Bytes × Bytes)}
    (hx : ∀ v rest, x = some (v, rest) → StringText s v) (hf : ∀ v, StringText s v → StringText front (f v))
    (h : x.map (Prod.map f id) = some (v, rest)) : StringText front v := by
  obtain ⟨⟨v', rest'⟩, hread, heq⟩ := Option.map_eq_some_iff.mp h
  obtain ⟨rfl, -⟩ := Prod.mk.inj heq
  exact hf v' (hx v' rest' hread)

theorem stringText_of_readString {state : Utf8.State} (h : readString state s = some (v, rest)) : StringText s v := by
  fun_induction readString state s generalizing v rest with
  | case1 => cases h
  | case2 state c src hmark =>
    obtain ⟨rfl, -⟩ := Prod.mk.inj (Option.some.inj h)
    obtain ⟨-, rfl⟩ := hmark
    exact .mark src
  | case3 state c _ hsolidus h₁ h₂ h₃ h₄ src ihPair ih =>
    obtain ⟨-, rfl⟩ := hsolidus
    obtain ⟨u, hunit, h⟩ := Option.bind_eq_some_iff.mp h
    have hdigits := hexValue_of_codeUnit hunit
    split_ifs at h with hhigh hlow
    · split at h
      · obtain ⟨l, hlow, h⟩ := Option.bind_eq_some_iff.mp h
        obtain ⟨-, h⟩ := Option.ite_none_right_eq_some.mp h
        have hdigits' := hexValue_of_codeUnit hlow
        refine stringText_map (fun v rest => ihPair) (fun v hv => .pair ?_ (encodeCodePoint_length _) hv) h
        intro d hd
        rcases List.mem_append.mp (show d ∈ [h₁, h₂, h₃, h₄] ++ [_, _, _, _] from hd) with hd | hd
        · exact hdigits d hd
        · exact hdigits' d hd
      · cases h
    · exact stringText_map (fun v rest => ih) (fun v hv => .unit hdigits (encodeCodePoint_length _) hv) h
  | case4 state c _ hsolidus e src _ ih =>
    obtain ⟨-, rfl⟩ := hsolidus
    obtain ⟨x, hx, h⟩ := Option.bind_eq_some_iff.mp h
    exact stringText_map (fun v rest => ih) (fun v hv => .escape hx hv) h
  | case5 => cases h
  | case6 => cases h
  | case7 state c src hmark hsolidus _ ih =>
    obtain ⟨state', hnext, h⟩ := Option.bind_eq_some_iff.mp h
    have hascii : state ≠ .start → ¬ c < 0x80 := by
      intro hne hlt
      cases state with
      | start => exact hne rfl
      | tail least acc more => cases (Utf8.next_tail_ascii hlt).symm.trans hnext
    refine stringText_map (fun v rest => ih state') (fun v hv => .byte (fun hc => ?_) (fun hc => ?_) hv) h
    · refine hmark ⟨?_, hc⟩
      by_contra hne
      exact hascii hne (hc ▸ by decide)
    · refine hsolidus ⟨?_, hc⟩
      by_contra hne
      exact hascii hne (hc ▸ by decide)

variable {escape : UInt8 → UInt8}

private theorem readQuoted_digits {digits : Bytes} (h : ∀ d ∈ digits, (hexValue d).isSome) (s : Bytes) :
    readQuoted escape (digits ++ s) = digits ++ readQuoted escape s := by
  induction digits with
  | nil => rfl
  | cons d digits ih =>
    have hd := h d List.mem_cons_self
    have hmark : d ≠ quotationMark := fun hd' => by
      rw [hd'] at hd
      exact absurd hd (by decide)
    have hsolidus : d ≠ reverseSolidus := fun hd' => by
      rw [hd'] at hd
      exact absurd hd (by decide)
    rw [List.cons_append, readQuoted_plain escape hmark hsolidus, ih fun d hd => h d (List.mem_cons_of_mem _ hd),
      List.cons_append]

/-- A code unit counts as five characters. -/
private theorem readQuoted_unit {h₁ h₂ h₃ h₄ : UInt8} (hdigits : ∀ h ∈ [h₁, h₂, h₃, h₄], (hexValue h).isSome) (s : Bytes) :
    (readQuoted escape (reverseSolidus :: 0x75 :: h₁ :: h₂ :: h₃ :: h₄ :: s)).length = 5 + (readQuoted escape s).length := by
  rw [readQuoted_escaped, show h₁ :: h₂ :: h₃ :: h₄ :: s = [h₁, h₂, h₃, h₄] ++ s from rfl, readQuoted_digits hdigits]
  simp only [List.length_cons, List.length_append, List.length_nil]
  omega

private theorem pair_digits {h₁ h₂ h₃ h₄ l₁ l₂ l₃ l₄ : UInt8}
    (hdigits : ∀ h ∈ [h₁, h₂, h₃, h₄, l₁, l₂, l₃, l₄], (hexValue h).isSome) :
    (∀ h ∈ [h₁, h₂, h₃, h₄], (hexValue h).isSome) ∧ ∀ h ∈ [l₁, l₂, l₃, l₄], (hexValue h).isSome :=
  ⟨fun d hd => hdigits d (List.mem_append_left [l₁, l₂, l₃, l₄] hd),
    fun d hd => hdigits d (List.mem_append_right [h₁, h₂, h₃, h₄] hd)⟩

theorem StringText.length_le (h : StringText s v) : v.length ≤ (readQuoted escape s).length := by
  induction h with
  | mark => exact Nat.zero_le _
  | escape _ _ ih =>
    rw [readQuoted_escaped]
    exact Nat.succ_le_succ ih
  | unit hdigits hchars _ ih =>
    rw [readQuoted_unit hdigits, List.length_append]
    omega
  | pair hdigits hchars _ ih =>
    obtain ⟨hhigh, hlow⟩ := pair_digits hdigits
    rw [readQuoted_unit hhigh, readQuoted_unit hlow, List.length_append]
    omega
  | byte hmark hsolidus _ ih =>
    rw [readQuoted_plain escape hmark hsolidus]
    exact Nat.succ_le_succ ih

theorem plainEscapes_escaped (e : UInt8) (s : Bytes) : plainEscapes escape (reverseSolidus :: e :: s) =
    (unescape e = some (escape e) && plainEscapes escape s) :=
  (if_neg (by decide)).trans (if_pos rfl)

theorem plainEscapes_byte {c : UInt8} (hmark : c ≠ quotationMark) (hsolidus : c ≠ reverseSolidus) (s : Bytes) :
    plainEscapes escape (c :: s) = plainEscapes escape s := by
  cases s <;> exact (if_neg hmark).trans (if_neg hsolidus)

/-- A code unit takes more room than its character. -/
private theorem readQuoted_units_ne {t chars : Bytes} (hrest : StringText s v) (hchars : chars.length ≤ 4)
    (hunits : 5 + (readQuoted escape s).length ≤ (readQuoted escape t).length) : readQuoted escape t ≠ chars ++ v := by
  intro heq
  have hlength := congrArg List.length heq
  have hle : v.length ≤ (readQuoted escape s).length := hrest.length_le
  rw [List.length_append] at hlength
  omega

/-- A string is read as it should be exactly if its escapes are plain. -/
theorem StringText.readQuoted_eq_iff (h : StringText s v) : readQuoted escape s = v ↔ plainEscapes escape s = true := by
  induction h with
  | mark rest =>
    rw [readQuoted_mark, plainEscapes.eq_def]
    exact iff_of_true rfl (if_pos rfl)
  | escape hx _ ih =>
    rw [readQuoted_escaped, plainEscapes_escaped, List.cons.injEq, ih, Bool.and_eq_true, decide_eq_true_iff, hx,
      Option.some.injEq, eq_comm]
  | unit hdigits hchars hrest _ =>
    rw [plainEscapes_escaped, show unescape 0x75 = none from rfl]
    exact iff_of_false (readQuoted_units_ne hrest hchars (readQuoted_unit hdigits _).ge) (by simp)
  | pair hdigits hchars hrest _ =>
    obtain ⟨hhigh, hlow⟩ := pair_digits hdigits
    rw [plainEscapes_escaped, show unescape 0x75 = none from rfl]
    refine iff_of_false (readQuoted_units_ne hrest hchars ?_) (by simp)
    rw [readQuoted_unit hhigh, readQuoted_unit hlow]
    omega
  | byte hmark hsolidus _ ih =>
    rw [readQuoted_plain escape hmark hsolidus, plainEscapes_byte hmark hsolidus, List.cons.injEq, ih, and_iff_right rfl]

theorem plainEscapes_mono {escape' : UInt8 → UInt8} (hescape : ∀ d, unescape d = some (escape d) → unescape d = some (escape' d))
    (h : plainEscapes escape s = true) : plainEscapes escape' s = true := by
  fun_induction plainEscapes escape s with
  | case1 => rfl
  | case2 => rw [plainEscapes.eq_def]; exact if_pos rfl
  | case3 => exact h
  | case4 d s _ ih =>
    rw [Bool.and_eq_true, decide_eq_true_iff] at h
    rw [plainEscapes_escaped, decide_eq_true (hescape d h.1), ih h.2]
    rfl
  | case5 c s hmark hsolidus ih =>
    rw [plainEscapes_byte hmark hsolidus]
    exact ih h

end Written
end RootHerald.Lib.Lenient
