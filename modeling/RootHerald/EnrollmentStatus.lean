import RootHerald.Linux.StatusRuns
import RootHerald.MacOS.StatusRuns

/-! On neither platform does GetStatus say in every run whether the device was enrolled. -/
namespace RootHerald
open Lib

/-- On Linux no run is right in which a GetStatus comes behind a successful Enroll; on macOS a run is
right exactly if the key that each GetStatus finds tells whether the device was enrolled. -/
theorem getStatus_truthful_iff (tpm : Linux.Tpm) (linuxCalls : List Linux.StatusCall) (chain : MacOS.Keychain)
    (macCalls : List MacOS.StatusCall) :
    (Linux.driver.Truthful Linux.Agrees ⟨tpm, none⟩ linuxCalls ↔ Linux.UnenrolledReports linuxCalls) ∧
      (MacOS.driver.Truthful MacOS.Agrees chain macCalls ↔ MacOS.KeyTellsEnrolled chain macCalls) :=
  ⟨Linux.truthful_iff_unenrolledReports tpm linuxCalls, MacOS.truthful_iff_keyTellsEnrolled chain macCalls⟩

/-- An Enroll to which everything is answered as it should be, without a challenge, and a GetStatus. -/
def linuxCalls : List Linux.StatusCall :=
  [.enroll (some Linux.someString) true ⟨201, text "id", [], []⟩ 0 (List.replicate 9 true),
    .getStatus true true (List.replicate 1 true)]

/-- A GetStatus on a device that was never used. -/
def macCalls : List MacOS.StatusCall :=
  [.getStatus true { available := true, found := none, access := true, creates := true, exports := true, signs := true }]

/-- On Linux an enrolled device is reported as not enrolled; on macOS a new one as enrolled. -/
theorem getStatus_misreports :
    ¬ (∀ tpm calls, Linux.driver.Truthful Linux.Agrees ⟨tpm, none⟩ calls) ∧
      ¬ ∀ drawn calls, MacOS.driver.Truthful MacOS.Agrees ⟨[], drawn⟩ calls := by
  constructor
  · intro h
    have hreports := (Linux.truthful_iff_unenrolledReports {} linuxCalls).mp (h {} linuxCalls)
    refine hreports [_] _ [] rfl rfl ⟨_, List.mem_singleton_self _, ?_⟩
    exact ⟨by decide, by decide, fun h => absurd h (by decide)⟩
  · intro h
    have hkey := (MacOS.truthful_iff_keyTellsEnrolled ⟨[], 0⟩ macCalls).mp (h 0 macCalls)
    obtain ⟨-, hmakes⟩ := (hkey [] _ [] rfl rfl).2 fun ⟨front, c, back, heq, _⟩ => by simp at heq
    exact hmakes ⟨rfl, rfl, rfl, rfl⟩

end RootHerald
