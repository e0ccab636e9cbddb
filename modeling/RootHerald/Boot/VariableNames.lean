import RootHerald.Boot.SecureBootValidator
import RootHerald.Boot.VariableData

/-! Analyser and validator read a variable's name apart: the one replaces a unit outside ASCII, the
other drops it. -/
namespace RootHerald.Boot
open Lib

/-- The units inside ASCII, as bytes. -/
def asciiPart (us : List UInt16) : Bytes := (us.filter (· < 128)).map UInt16.toUInt8

theorem extractVarName_units {d r : Bytes} (h : extractVarName d = .ok r) : r = asciiPart (visibleUnits d) := by
  have hfold : ∀ (us : List UInt16) (name : Bytes),
      us.foldl (fun name ch => if ch < 128 then name ++ [ch.toUInt8] else name) name = name ++ asciiPart us := by
    intro us
    induction us with
    | nil => simp [asciiPart]
    | cons u us ih =>
      intro name
      rw [List.foldl_cons, ih]
      by_cases hu : u < 128 <;> simp [asciiPart, hu]
  rw [variableName_units h, hfold, List.nil_append]

theorem asciiPart_asUnits {name : Bytes} (h : ∀ c ∈ name, c < 128) : asciiPart (asUnits name) = name := by
  induction name with
  | nil => rfl
  | cons c name ih =>
    obtain ⟨hc, hname⟩ := List.forall_mem_cons.mp h
    have hu := toUInt16_lt hc
    have ih := ih hname
    simp only [asciiPart, asUnits] at ih ⊢
    rw [List.map_cons, List.filter_cons_of_pos (by simpa using hu), List.map_cons, ih]
    simp

theorem asUnits_asciiPart {us : List UInt16} (h : ∀ u ∈ us, u < 128) : asUnits (asciiPart us) = us := by
  rw [asciiPart, List.filter_eq_self.mpr (by simpa using h), asUnits, List.map_map]
  exact (List.map_congr_left fun u hu => toUInt16_toUInt8 (h u hu)).trans (List.map_id us)

/-- The validator finds the name the format gives, where it is a plain one. -/
theorem extractVarName_write {v : VariableData} {name : Bytes} (h : v.write.length < 2 ^ 64) (hname : PlainName name)
    (hv : v.shortName = asUnits name) : extractVarName v.write = .ok name := by
  obtain ⟨r, hr⟩ : ∃ r, extractVarName v.write = .ok r := (variableName_ok_iff _ _).mpr (v.nameInBounds_write h)
  obtain ⟨huefi, hvisible⟩ := visibleUnits_of_fits (v.nameFits_write h)
  have hunits := Option.some.inj (huefi.symm.trans (v.uefiName_write h))
  have hlen : (asUnits name).length ≤ 256 := (List.length_map _).le.trans hname.1.le
  rw [hunits, hv, List.take_of_length_le hlen] at hvisible
  rw [hr, extractVarName_units hr, hvisible, asciiPart_asUnits fun c hc => (hname.2 c hc).1]

/-- The names under which the validator collects key lists. -/
def keyNames : List Bytes := [text "PK", text "KEK", text "db", text "dbx"]

theorem plainName_of_keyNames : ∀ name ∈ keyNames, PlainName name := by decide

/-- Both extractions find the name where the format gives it, and nowhere else. -/
def NamesAgree (d name : Bytes) : Prop :=
  (extractVarName d = .ok name ↔ extractEfiVariableName d = .ok name) ∧
    (extractEfiVariableName d = .ok name ↔ uefiName d = some (asUnits name))

/-- The extractions agree on a key name exactly when the visible units, those outside ASCII left out, do
not spell it, or do with none left out and in a name that lies inside the data. -/
theorem names_agree_iff (d name : Bytes) (hname : name ∈ keyNames)
    (hvalidator : ∃ r, extractVarName d = .ok r) (hanalyser : ∃ r, extractEfiVariableName d = .ok r) :
    NamesAgree d name ↔
      (asciiPart (visibleUnits d) = name → (∀ u ∈ visibleUnits d, u < 128) ∧ NameFits d) := by
  have hplain := plainName_of_keyNames name hname
  obtain ⟨r, hr⟩ := hvalidator
  obtain ⟨s, hs⟩ := hanalyser
  have hspelt := extractEfiVariableName_eq_iff hs hplain
  rw [NamesAgree, hr, hs, Except.ok.injEq, Except.ok.injEq, extractVarName_units hr]
  constructor
  · rintro ⟨hsame, hformat⟩ hpart
    have hunits := hspelt.mp (hsame.mp hpart)
    refine ⟨fun u hu => ?_, ?_⟩
    · rw [hunits] at hu
      obtain ⟨c, hc, rfl⟩ := List.mem_map.mp hu
      exact toUInt16_lt (hplain.2 c hc).1
    · have hsome := hformat.mp (hsame.mp hpart)
      unfold uefiName at hsome
      split_ifs at hsome with hfits
      exact hfits
  · intro h
    have hsame : asciiPart (visibleUnits d) = name ↔ s = name := by
      rw [hspelt]
      constructor
      · intro hpart
        rw [← hpart, asUnits_asciiPart (h hpart).1]
      · intro hunits
        rw [hunits, asciiPart_asUnits fun c hc => (hplain.2 c hc).1]
    refine ⟨hsame, ?_⟩
    by_cases hfits : NameFits d
    · exact extractEfiVariableName_eq_uefiName hs hplain hfits
    · rw [uefiName, if_neg hfits]
      exact ⟨fun hs' => absurd (h (hsame.mpr hs')).2 hfits, fun hs' => by cases hs'⟩

theorem names_agree_pk : NamesAgree (VariableData.mk (List.replicate 16 0) [80, 75, 0] [] zeroGuid_length).write (text "PK") := by
  have hin := (VariableData.mk (List.replicate 16 0) [80, 75, 0] [] zeroGuid_length).nameInBounds_write (by decide)
  have hunits : visibleUnits (VariableData.mk (List.replicate 16 0) [80, 75, 0] [] zeroGuid_length).write = [80, 75] := by
    decide
  refine (names_agree_iff _ (text "PK") (by simp [keyNames]) ((variableName_ok_iff _ _).mpr hin)
    ((variableName_ok_iff _ _).mpr hin)).mpr fun _ => ⟨?_, by decide⟩
  rw [hunits]
  exact List.forall_mem_cons.mpr ⟨by decide, List.forall_mem_singleton.mpr (by decide)⟩

/-- The name P, Cyrillic a, K. -/
def disguisedPk : VariableData := ⟨List.replicate 16 0, [80, 0x0430, 75], [], zeroGuid_length⟩

/-- The validator takes it for PK. -/
theorem names_disagree :
    ¬ ∀ d : Bytes, (∃ r, extractVarName d = .ok r) → (∃ r, extractEfiVariableName d = .ok r) →
      ∀ name ∈ keyNames, NamesAgree d name := by
  intro h
  have hlen : disguisedPk.write.length < 2 ^ 64 := by decide
  have hin := disguisedPk.nameInBounds_write hlen
  obtain ⟨r, hr⟩ : ∃ r, extractVarName disguisedPk.write = .ok r := (variableName_ok_iff _ _).mpr hin
  obtain ⟨s, hs⟩ : ∃ s, extractEfiVariableName disguisedPk.write = .ok s := (variableName_ok_iff _ _).mpr hin
  have hsame := (h disguisedPk.write ⟨r, hr⟩ ⟨s, hs⟩ (text "PK") (by simp [keyNames])).1
  rw [hr, hs, Except.ok.injEq, Except.ok.injEq, extractVarName_units hr,
    extractEfiVariableName_eq_iff hs (by decide)] at hsame
  exact absurd hsame (by decide)

end RootHerald.Boot
