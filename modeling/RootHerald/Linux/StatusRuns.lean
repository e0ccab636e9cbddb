import RootHerald.Linux.EnrollOutcome
import RootHerald.StatusContract

/-! Enroll and GetStatus of the Linux driver in any order: no call writes the file that GetStatus
reads. -/
namespace RootHerald.Linux
open Lib Lib.Observation

/-- The TPM, and what /var/lib/rootherald/device_id holds. -/
structure Machine where
  tpm : Tpm
  deviceIdFile : Option Bytes

/-- A call with what its environment answers. -/
inductive StatusCall where
  | enroll (serverUrl : Option CString) (outInfo : Bool) (reply : EnrollReply) (activateCode : Int) (codes : List Bool)
  | getStatus (outStatus available : Bool) (codes : List Bool)

inductive StatusAnswer where
  | enrolled (r : EnrollResult)
  | status (r : RootHeraldResult × DeviceStatus)

def Machine.step (m : Machine) : StatusCall → Machine
  | .enroll serverUrl outInfo reply activateCode codes =>
    { m with tpm := ((rootHeraldEnroll serverUrl outInfo reply activateCode).run ⟨m.tpm, codes⟩).2.tpm }
  | .getStatus outStatus available codes =>
    { m with tpm := ((rootHeraldGetStatus outStatus available m.deviceIdFile).run ⟨m.tpm, codes⟩).2.tpm }

def Machine.answer (m : Machine) : StatusCall → StatusAnswer
  | .enroll serverUrl outInfo reply activateCode codes =>
    .enrolled ((rootHeraldEnroll serverUrl outInfo reply activateCode).run ⟨m.tpm, codes⟩).1
  | .getStatus outStatus available codes =>
    .status ((rootHeraldGetStatus outStatus available m.deviceIdFile).run ⟨m.tpm, codes⟩).1

def driver : Driver Machine StatusCall StatusAnswer where
  step := Machine.step
  answer := Machine.answer
  enrolled
    | .enrolled r => if r.status = .ok then some r.info.deviceId else none
    | .status _ => none
  reported
    | .enrolled _ => none
    | .status r => if r.1 = .ok then some r.2 else none
  asksStatus
    | .enroll .. => False
    | .getStatus .. => True

/-- Enrolled exactly after an Enroll that returned OK, and under the id it returned. -/
def Agrees (enrolledAs : Option Bytes) (status : DeviceStatus) : Prop :=
  (status.isEnrolled ↔ enrolledAs.isSome) ∧ ∀ deviceId ∈ enrolledAs, status.deviceId = deviceId

/-- The calls at which Enroll returns OK. -/
def StatusCall.Completes : StatusCall → Prop
  | .enroll serverUrl outInfo reply activateCode codes => EnrollCompletes serverUrl outInfo reply activateCode codes
  | .getStatus .. => False

/-- GetStatus with somewhere to report to. -/
def StatusCall.Reports : StatusCall → Prop
  | .enroll .. => False
  | .getStatus outStatus _ _ => outStatus

section GetStatus
variable {outStatus available : Bool}

/-- Opening and closing a context that loaded nothing leaves the TPM as it was. -/
theorem rootHeraldGetStatus_tpm (deviceIdFile : Option Bytes) (w : World) :
    ((rootHeraldGetStatus outStatus available deviceIdFile).run w).2.tpm = w.tpm := by
  have hkeeps : Triple (fun s => s.tpm = w.tpm) (rootHeraldGetStatus outStatus available deviceIdFile)
      fun _ s => s.tpm = w.tpm := by
    refine .ite (fun _ => .pure fun _ h => h) fun _ => .ite (fun _ => .pure fun _ h => h) fun _ => ?_
    have hopen : Triple (fun s => s.tpm = w.tpm) tpmOpen fun r s => s.tpm = w.tpm ∧ ∀ tpm ∈ r, tpm = {} := by
      refine .bind (Q := fun _ s => s.tpm = w.tpm) (fun s h => (call_tpm s).trans h) fun rc => .ite (fun _ => ?_) fun _ => ?_
      · exact .pure fun _ h => ⟨h, fun _ ht => by cases ht; rfl⟩
      · exact .pure fun _ h => ⟨h, fun _ ht => by cases ht⟩
    refine .bind hopen fun tpm => ?_
    cases tpm with
    | none => exact .pure fun _ h => h.1
    | some tpm =>
      refine .assume (c := tpm = {}) (fun _ h => h.2 tpm rfl) fun htpm => ?_
      subst htpm
      exact .bind (Q := fun _ s => s.tpm = w.tpm) (.pure fun _ h => h.1) fun _ => .pure fun _ h => h
  exact hkeeps w rfl

/-- Without the file the device is reported as never enrolled. -/
theorem rootHeraldGetStatus_noFile (w : World) :
    ((rootHeraldGetStatus true available none).run w).1.1 = .ok ∧
      ((rootHeraldGetStatus true available none).run w).1.2.isEnrolled = false := by
  have hstatus : Triple (fun _ => True) (rootHeraldGetStatus true available none) fun r _ =>
      r.1 = .ok ∧ r.2.isEnrolled = false := by
    refine .ite (fun h => absurd rfl h) fun _ => .ite (fun _ => .pure fun _ _ => ⟨rfl, rfl⟩) fun _ => ?_
    refine .bind (.any _) fun tpm => ?_
    cases tpm with
    | none => exact .pure fun _ _ => ⟨rfl, rfl⟩
    | some tpm => exact .bind (.any _) fun _ => .pure fun _ _ => ⟨rfl, rfl⟩
  exact hstatus w trivial

end GetStatus

section Runs

theorem after_deviceIdFile (m : Machine) (calls : List StatusCall) :
    (driver.after m calls).deviceIdFile = m.deviceIdFile := by
  induction calls generalizing m with
  | nil => rfl
  | cons c calls ih =>
    refine (ih (m.step c)).trans ?_
    cases c with
    | enroll => rfl
    | getStatus => rfl

theorem enrolled_isSome_iff (m : Machine) (c : StatusCall) :
    (driver.enrolled (driver.answer m c)).isSome ↔ c.Completes := by
  cases c with
  | getStatus => exact iff_of_false Bool.false_ne_true id
  | enroll serverUrl outInfo reply activateCode codes =>
    refine Iff.trans ?_ (rootHeraldEnroll_ok_iff serverUrl outInfo reply activateCode m.tpm codes)
    change (if _ then _ else none).isSome = true ↔ _
    split_ifs with hok
    · exact iff_of_true rfl hok
    · exact iff_of_false Bool.false_ne_true hok

/-- GetStatus leaves the machine as it was. -/
theorem step_getStatus {m : Machine} {c : StatusCall} (hc : driver.asksStatus c) : driver.step m c = m := by
  cases c with
  | enroll => exact hc.elim
  | getStatus outStatus available codes =>
    change { m with tpm := _ } = m
    rw [rootHeraldGetStatus_tpm]

/-- Without the file every report says not enrolled. -/
theorem reported_noFile {m : Machine} (hfile : m.deviceIdFile = none) {c : StatusCall} {status : DeviceStatus}
    (h : driver.reported (driver.answer m c) = some status) : c.Reports ∧ status.isEnrolled = false := by
  match c with
  | .getStatus false available codes => cases h
  | .getStatus true available codes =>
    refine ⟨rfl, ?_⟩
    change (if ((rootHeraldGetStatus true available m.deviceIdFile).run _).1.1 = .ok then some _ else none) = _ at h
    rw [hfile, if_pos (rootHeraldGetStatus_noFile _).1] at h
    exact Option.some.inj h ▸ (rootHeraldGetStatus_noFile _).2

theorem reports_some {m : Machine} (hfile : m.deviceIdFile = none) {c : StatusCall} (hc : c.Reports) :
    ∃ status, driver.reported (driver.answer m c) = some status := by
  match c, hc with
  | .getStatus true available codes, _ =>
    refine ⟨((rootHeraldGetStatus true available none).run ⟨m.tpm, codes⟩).1.2, ?_⟩
    change (if ((rootHeraldGetStatus true available m.deviceIdFile).run _).1.1 = .ok then some _ else none) = _
    rw [hfile, if_pos (rootHeraldGetStatus_noFile _).1]

theorem enrolledAs_isSome (m : Machine) (calls : List StatusCall) :
    (driver.enrolledAs m calls).isSome ↔ ∃ c ∈ calls, c.Completes := by
  rw [Driver.enrolledAs_isSome_iff enrolled_isSome_iff]
  constructor
  · rintro ⟨front, c, back, rfl, hc⟩
    exact ⟨c, List.mem_append_cons_self, hc⟩
  · rintro ⟨c, hmem, hc⟩
    obtain ⟨front, back, rfl⟩ := List.append_of_mem hmem
    exact ⟨front, c, back, rfl, hc⟩

/-- No GetStatus that reports comes behind an Enroll that returns OK. -/
def UnenrolledReports (calls : List StatusCall) : Prop :=
  ∀ front c back, calls = front ++ c :: back → c.Reports → ¬ ∃ c' ∈ front, c'.Completes

/-- From a device never enrolled the reports are right exactly in such runs. -/
theorem truthful_iff_unenrolledReports (tpm : Tpm) (calls : List StatusCall) :
    driver.Truthful Agrees ⟨tpm, none⟩ calls ↔ UnenrolledReports calls := by
  refine forall_congr' fun front => forall_congr' fun c => forall_congr' fun back => forall_congr' fun _ => ?_
  have hfile : (driver.after ⟨tpm, none⟩ front).deviceIdFile = none := after_deviceIdFile _ front
  rw [← enrolledAs_isSome ⟨tpm, none⟩]
  constructor
  · rintro ⟨hagrees, -⟩ hreports hsome
    obtain ⟨status, hstatus⟩ := reports_some hfile hreports
    have henrolled := (hagrees status hstatus).1.mpr hsome
    exact Bool.false_ne_true ((reported_noFile hfile hstatus).2.symm.trans henrolled)
  · intro hnone
    refine ⟨fun status hstatus => ?_, fun hc => indistinct_of_eq (step_getStatus hc)⟩
    obtain ⟨hreports, hstatus⟩ := reported_noFile hfile hstatus
    have henrolledAs := Option.not_isSome_iff_eq_none.mp (hnone hreports)
    rw [henrolledAs, Agrees, hstatus]
    exact ⟨iff_of_false Bool.false_ne_true Bool.false_ne_true, fun _ h => by cases h⟩

end Runs
end RootHerald.Linux
