import RootHerald.MacOS.EnrollOutcome
import RootHerald.StatusContract

/-! Enroll and GetStatus of the macOS driver in any order: both make the device key when they find
none. -/
namespace RootHerald.MacOS
open Lib Lib.Observation

/-- A call with what its environment answers. -/
inductive StatusCall where
  | enroll (serverUrl outInfo : Bool) (sec : Security) (decodes : Bool) (enroll : HttpReply EnrollReply)
      (activate : HttpReply Unit)
  | getStatus (outStatus : Bool) (sec : Security)

inductive StatusAnswer where
  | enrolled (r : EnrollResult)
  | status (r : RootHeraldResult × DeviceStatus)

def step (chain : Keychain) : StatusCall → Keychain
  | .enroll serverUrl outInfo sec decodes enroll activate =>
    ((rootHeraldEnroll serverUrl outInfo sec decodes enroll activate).run chain).2
  | .getStatus outStatus sec => ((rootHeraldGetStatus outStatus sec).run chain).2

def answer (chain : Keychain) : StatusCall → StatusAnswer
  | .enroll serverUrl outInfo sec decodes enroll activate =>
    .enrolled ((rootHeraldEnroll serverUrl outInfo sec decodes enroll activate).run chain).1
  | .getStatus outStatus sec => .status ((rootHeraldGetStatus outStatus sec).run chain).1

def driver : Driver Keychain StatusCall StatusAnswer where
  step := step
  answer := answer
  enrolled
    | .enrolled r => if r.status = .ok then some r.info.deviceId else none
    | .status _ => none
  reported
    | .enrolled _ => none
    | .status r => if r.1 = .ok then some r.2 else none
  asksStatus
    | .enroll .. => False
    | .getStatus .. => True

/-- Enrolled exactly after an Enroll that returned OK. -/
def Agrees (enrolledAs : Option Bytes) (status : DeviceStatus) : Prop := status.isEnrolled ↔ enrolledAs.isSome

/-- The calls at which Enroll returns OK, from the keychain they meet. -/
def Completes (chain : Keychain) : StatusCall → Prop
  | .enroll serverUrl outInfo sec decodes enroll _ => EnrollCompletes chain serverUrl outInfo sec decodes enroll
  | .getStatus .. => False

/-- GetStatus with somewhere to report to. -/
def StatusCall.Reports : StatusCall → Prop
  | .enroll .. => False
  | .getStatus outStatus _ => outStatus

/-- Its search for the device key is reached and finds one. -/
def FindsKey (chain : Keychain) : StatusCall → Prop
  | .enroll .. => False
  | .getStatus _ sec => isAvailable sec ∧ secItemCopyMatching sec chain ≠ none

/-- Its search for the device key is reached, finds none, and makes one. -/
def MakesKey (chain : Keychain) : StatusCall → Prop
  | .enroll .. => False
  | .getStatus _ sec => isAvailable sec ∧ Creates sec chain

section GetStatus
variable {chain : Keychain} {sec : Security}

theorem rootHeraldGetStatus_reports (sec : Security) (chain : Keychain) :
    ((rootHeraldGetStatus true sec).run chain).1.1 = .ok ∧
      (((rootHeraldGetStatus true sec).run chain).1.2.isEnrolled ↔ isAvailable sec ∧ HasKey sec chain) := by
  have hrun : Triple (fun s => s = chain) (rootHeraldGetStatus true sec) fun r _ =>
      r.1 = .ok ∧ (r.2.isEnrolled ↔ isAvailable sec ∧ HasKey sec chain) := by
    refine .ite (fun h => absurd rfl h) fun _ => .ite (fun hsec => .pure fun _ _ => ⟨rfl, ?_⟩) fun hsec => ?_
    · exact iff_of_false Bool.false_ne_true fun h => hsec h.1
    refine .bind (getOrCreateDeviceKey_tried sec chain) fun key => .assume (fun _ h => h) fun hhas => ?_
    cases key with
    | none => exact .pure fun _ _ => ⟨rfl, iff_of_false Bool.false_ne_true fun h => Bool.false_ne_true (hhas.mpr h.2)⟩
    | some key => exact .pure fun _ _ => ⟨rfl, iff_of_true rfl ⟨not_not.mp hsec, hhas.mp rfl⟩⟩
  exact hrun chain rfl

/-- What GetStatus does to the keychain is what getOrCreateDeviceKey does. -/
private theorem rootHeraldGetStatus_keychain (hsec : isAvailable sec) :
    ((rootHeraldGetStatus true sec).run chain).2 = ((getOrCreateDeviceKey sec).run chain).2 := by
  have hrun : Triple (fun s => s = chain) (rootHeraldGetStatus true sec) fun _ s =>
      s = ((getOrCreateDeviceKey sec).run chain).2 := by
    refine .ite (fun h => absurd rfl h) fun _ => .ite (fun h => absurd hsec h) fun _ => ?_
    have hkey : Triple (fun s => s = chain) (getOrCreateDeviceKey sec) fun _ s =>
        s = ((getOrCreateDeviceKey sec).run chain).2 :=
      fun s hs => hs ▸ rfl
    refine .bind hkey fun key => ?_
    cases key with
    | none => exact .pure fun _ h => h
    | some key => exact .pure fun _ h => h
  exact hrun chain rfl

private theorem rootHeraldGetStatus_unavailable (hsec : ¬ isAvailable sec) :
    ((rootHeraldGetStatus true sec).run chain).2 = chain := by
  have hrun : Triple (fun s => s = chain) (rootHeraldGetStatus true sec) fun _ s => s = chain :=
    .ite (fun h => absurd rfl h) fun _ => .ite (fun _ => .pure fun _ h => h) fun h => absurd hsec h
  exact hrun chain rfl

end GetStatus

section Runs
variable {chain : Keychain}

theorem enrolled_isSome_iff (chain : Keychain) (c : StatusCall) :
    (driver.enrolled (driver.answer chain c)).isSome ↔ Completes chain c := by
  cases c with
  | getStatus => exact iff_of_false Bool.false_ne_true id
  | enroll serverUrl outInfo sec decodes enroll activate =>
    change (if _ then _ else none).isSome = true ↔ _
    rcases rootHeraldEnroll_outcome chain serverUrl outInfo enroll activate with ⟨hcompletes, hok, -⟩ | ⟨hnot, hok, -⟩
    · rw [if_pos hok]
      exact iff_of_true rfl hcompletes
    · rw [if_neg hok]
      exact iff_of_false Bool.false_ne_true hnot

/-- A search that returns the newest key, where no other can be made. -/
private def newest (chain : Keychain) : Security where
  available := true
  found := some chain.keys.length
  access := false
  creates := false
  exports := false
  signs := false

/-- A key that was made is seen by a later search. -/
theorem made_distinct (chain : Keychain) : ¬ Indistinct driver.step driver.answer
    { keys := chain.keys ++ [chain.drawn], drawn := chain.drawn + 1 } chain := by
  intro h
  have hreport := StatusAnswer.status.inj (h.answer_eq (.getStatus true (newest chain)))
  have hmade := (rootHeraldGetStatus_reports (newest chain) ⟨chain.keys ++ [chain.drawn], chain.drawn + 1⟩).2
  rw [hreport, (rootHeraldGetStatus_reports (newest chain) chain).2] at hmade
  rcases hmade.mpr ⟨rfl, .inl (by simp [secItemCopyMatching, newest])⟩ with ⟨-, hfound | hcreates⟩
  · exact hfound (List.getElem?_eq_none (le_refl _))
  · exact Bool.false_ne_true hcreates.2.1

/-- GetStatus changes nothing that is observed exactly if it makes no key. -/
theorem indistinct_iff (sec : Security) :
    Indistinct driver.step driver.answer (driver.step chain (.getStatus true sec)) chain ↔
      ¬ (isAvailable sec ∧ Creates sec chain) := by
  have hstep : driver.step chain (.getStatus true sec) = ((rootHeraldGetStatus true sec).run chain).2 := rfl
  rw [hstep]
  by_cases hsec : isAvailable sec
  · rw [rootHeraldGetStatus_keychain hsec]
    by_cases hcreates : Creates sec chain
    · rw [getOrCreateDeviceKey_created hcreates]
      exact iff_of_false (made_distinct chain) fun h => h ⟨hsec, hcreates⟩
    · rw [getOrCreateDeviceKey_keeps hcreates]
      exact iff_of_true (indistinct_of_eq rfl) fun h => hcreates h.2
  · rw [rootHeraldGetStatus_unavailable hsec]
    exact iff_of_true (indistinct_of_eq rfl) fun h => hsec h.1

/-- At each GetStatus with somewhere to report to: behind an Enroll that returned OK the key is found;
otherwise none is found and none is made. -/
def KeyTellsEnrolled (chain : Keychain) (calls : List StatusCall) : Prop :=
  ∀ front c back, calls = front ++ c :: back → c.Reports →
    (driver.Earlier Completes chain front → FindsKey (driver.after chain front) c) ∧
    (¬ driver.Earlier Completes chain front →
      ¬ FindsKey (driver.after chain front) c ∧ ¬ MakesKey (driver.after chain front) c)

/-- One GetStatus is right exactly if the search tells whether the device is enrolled. -/
private theorem getStatus_right_iff (sec : Security) (chain : Keychain) (enrolledAs : Option Bytes) :
    (∀ status, driver.reported (driver.answer chain (.getStatus true sec)) = some status → Agrees enrolledAs status) ∧
      Indistinct driver.step driver.answer (driver.step chain (.getStatus true sec)) chain ↔
    (enrolledAs.isSome → FindsKey chain (.getStatus true sec)) ∧
      (¬ enrolledAs.isSome → ¬ FindsKey chain (.getStatus true sec) ∧ ¬ MakesKey chain (.getStatus true sec)) := by
  obtain ⟨hok, hreports⟩ := rootHeraldGetStatus_reports sec chain
  have hanswer : driver.reported (driver.answer chain (.getStatus true sec)) =
      some ((rootHeraldGetStatus true sec).run chain).1.2 := if_pos hok
  have hexclusive : secItemCopyMatching sec chain ≠ none → ¬ Creates sec chain := fun hfound h => hfound h.1
  rw [hanswer, indistinct_iff]
  simp only [Option.some.injEq, forall_eq', Agrees, hreports, HasKey, FindsKey, MakesKey]
  constructor
  · rintro ⟨htells, hmakes⟩
    refine ⟨fun henrolled => ?_, fun henrolled => ⟨fun hfinds => ?_, hmakes⟩⟩
    · rcases htells.mpr henrolled with ⟨havailable, hfound | hcreates⟩
      · exact ⟨havailable, hfound⟩
      · exact absurd ⟨havailable, hcreates⟩ hmakes
    · exact henrolled (htells.mp ⟨hfinds.1, .inl hfinds.2⟩)
  · rintro ⟨hfinds, hnone⟩
    by_cases henrolled : enrolledAs.isSome = true
    · obtain ⟨havailable, hfound⟩ := hfinds henrolled
      exact ⟨iff_of_true ⟨havailable, .inl hfound⟩ henrolled, fun hmakes => hexclusive hfound hmakes.2⟩
    · obtain ⟨hnot, hmakes⟩ := hnone henrolled
      refine ⟨iff_of_false ?_ henrolled, hmakes⟩
      rintro ⟨havailable, hfound | hcreates⟩
      · exact hnot ⟨havailable, hfound⟩
      · exact hmakes ⟨havailable, hcreates⟩

theorem truthful_iff_keyTellsEnrolled (chain : Keychain) (calls : List StatusCall) :
    driver.Truthful Agrees chain calls ↔ KeyTellsEnrolled chain calls := by
  refine forall_congr' fun front => forall_congr' fun c => forall_congr' fun back => forall_congr' fun _ => ?_
  rw [← Driver.enrolledAs_isSome_iff enrolled_isSome_iff]
  match c with
  | .enroll .. => exact iff_of_true ⟨fun _ h => (by cases h), fun h => False.elim h⟩ fun h => False.elim h
  | .getStatus false sec =>
    exact iff_of_true ⟨fun _ h => (by cases h), fun _ => indistinct_of_eq rfl⟩ fun h => by cases h
  | .getStatus true sec =>
    refine Iff.trans ?_ ((getStatus_right_iff sec _ _).trans ⟨fun h _ => h, fun h => h rfl⟩)
    exact and_congr_right fun _ => ⟨fun h => h trivial, fun h _ => h⟩

end Runs
end RootHerald.MacOS
