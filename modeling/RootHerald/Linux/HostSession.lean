import RootHerald.Lib.Frames
import RootHerald.Linux.HostResponses

/-! The loop of the Linux host: a session of requests on stdin, and the answers on stdout. -/
namespace RootHerald.Linux
open Lib Json

section Loop

theorem readMessage_shorter {stdin rest : Bytes} {request : CString} (h : readMessage stdin = some (request, rest)) :
    rest.length < stdin.length := by
  unfold readMessage at h
  split at h
  · dsimp only at h
    split_ifs at h
    cases h
    simp only [List.length_drop, List.length_cons]
    omega
  · cases h

/-- The loop in main, with what the environment answers during each request: what it writes to stdout,
and what it leaves on stdin. -/
def hostMain (envs : Nat → HostEnv) (stdin : Bytes) : Esys (Checked Bytes × Bytes) :=
  match h : readMessage stdin with
  | none => return (.ok [], stdin)
  | some (request, rest) => do
    let response ← answerRequest request (envs 0)
    have := readMessage_shorter h
    let (written, left) ← hostMain (fun i => envs (i + 1)) rest
    return (do return writeMessage (← response) ++ (← written), left)
termination_by stdin.length

end Loop

section Turns

/-- What stands on stdin is read as frames of at most 1 MB. -/
def requestFrames : PrefixCode (Framed messageLimit) UInt8 := frames messageLimit (by decide)

/-- The other end takes any length. -/
def responseFrames : PrefixCode (Framed (UInt32.size - 1)) UInt8 := frames (UInt32.size - 1) wordLimit_lt

/-- A message as the host sees it, up to a terminator. -/
def seen (message : Framed messageLimit) : CString := cString message.1 (message.2.trans_lt (by decide))

theorem readMessage_frame (stdin : Bytes) :
    readMessage stdin = (requestFrames.read stdin).map fun p => (seen p.1, p.2) := by
  change readMessage stdin = (readFrame messageLimit stdin).map _
  unfold readFrame
  cases hword : take32 stdin with
  | none =>
    have hshort := take32_eq_none.mp hword
    match stdin, hshort with
    | [], _ => rfl
    | [_], _ => rfl
    | [_, _], _ => rfl
    | [_, _, _], _ => rfl
  | some f =>
    obtain ⟨length, rest⟩ := f
    obtain ⟨b₀, b₁, b₂, b₃, hbytes, hlength⟩ := bytes32_eq length
    have hstdin : stdin = b₀ :: b₁ :: b₂ :: b₃ :: rest := by
      rw [take32_eq_some.mp hword, hbytes]
      rfl
    rw [hstdin, Option.bind_some]
    simp only [readMessage, hlength]
    split_ifs
    · rfl
    · rfl

/-- A request, what its environment answers, and the state it is answered in. -/
structure Turn where
  request : CString
  env : HostEnv
  world : World

def Turn.id (t : Turn) : Bytes := (jsonGet t.request (text "id") 64).chars

/-- The turns of a session, each in the state that the one before it left. -/
def turns (envs : Nat → HostEnv) : List (Framed messageLimit) → World → List Turn
  | [], _ => []
  | message :: messages, w =>
    ⟨seen message, envs 0, w⟩ ::
      turns (fun i => envs (i + 1)) messages ((answerRequest (seen message) (envs 0)).run w).2

/-- The body answers the turn's request under its id, if the id and what the payload repeats are text,
and under no id otherwise. -/
def Turn.AnsweredBy (t : Turn) (body : Framed (UInt32.size - 1)) : Prop :=
  ∀ id, Answers id body.1 ↔ t.id = id ∧ Windows.isText t.id = true ∧ PayloadClean t.request t.env t.world.codes

end Turns

section Session

theorem hostMain_stop {stdin : Bytes} (envs : Nat → HostEnv) (w : World) (h : requestFrames.read stdin = none) :
    ((hostMain envs stdin).run w).1 = (.ok [], stdin) := by
  have hread : readMessage stdin = none := by rw [readMessage_frame, h, Option.map_none]
  rw [hostMain]
  split
  · rfl
  · rename_i heq
    rw [hread] at heq
    cases heq

theorem hostMain_turn {stdin rest : Bytes} {message : Framed messageLimit} (envs : Nat → HostEnv) (w : World)
    (h : requestFrames.read stdin = some (message, rest)) {body : Bytes}
    (hbody : ((answerRequest (seen message) (envs 0)).run w).1 = .ok body) :
    ((hostMain envs stdin).run w).1 =
      let r := ((hostMain (fun i => envs (i + 1)) rest).run ((answerRequest (seen message) (envs 0)).run w).2).1
      (r.1.map (writeMessage body ++ ·), r.2) := by
  have hread : readMessage stdin = some (seen message, rest) := by rw [readMessage_frame, h, Option.map_some]
  rw [hostMain]
  split
  · rename_i heq
    rw [hread] at heq
    cases heq
  · rename_i heq
    rw [hread] at heq
    cases heq
    let r := ((hostMain (fun i => envs (i + 1)) rest).run ((answerRequest (seen message) (envs 0)).run w).2).1
    change ((do return writeMessage (← ((answerRequest (seen message) (envs 0)).run w).1) ++ (← r.1)), r.2) = _
    rw [hbody]
    cases hwritten : r.1 with
    | ok written => exact congrArg (·, r.2) (congrArg (Except.map _) hwritten.symm)
    | error fault => exact congrArg (·, r.2) (congrArg (Except.map _) hwritten.symm)

/-- Whatever stands on stdin, whatever the environment answers and whatever fails below: the host reads
frames while there is one of at most 1 MB, and writes one frame for each, in order, which the other end
reads back with nothing left over; the body of each answers its own request, as far as the request can
be echoed. -/
theorem host_session (envs : Nat → HostEnv) (stdin : Bytes) (w : World) :
    ∃ stdout bodies, ((hostMain envs stdin).run w).1 = (.ok stdout, (requestFrames.readAll stdin).2) ∧
      responseFrames.readAll stdout = (bodies, []) ∧
      List.Forall₂ Turn.AnsweredBy (turns envs (requestFrames.readAll stdin).1 w) bodies := by
  -- every turn leaves a shorter stdin
  induction stdin using requestFrames.readAll_induction generalizing envs w with
  | stop stdin h =>
    rw [requestFrames.readAll_none h]
    refine ⟨[], [], hostMain_stop envs w h, ?_, .nil⟩
    exact responseFrames.readAll_none rfl
  | step stdin message rest h ih =>
    obtain ⟨body, hbody, hlength, hanswers⟩ := answerRequest_responds (seen message) (envs 0) w
    obtain ⟨stdout, bodies, hmain, hread, hturns⟩ :=
      ih (fun i => envs (i + 1)) ((answerRequest (seen message) (envs 0)).run w).2
    rw [requestFrames.readAll_some h, hostMain_turn envs w h hbody, hmain]
    let framed : Framed (UInt32.size - 1) := ⟨body, Nat.le_sub_one_of_lt hlength⟩
    refine ⟨writeMessage body ++ stdout, framed :: bodies, rfl, ?_, .cons hanswers hturns⟩
    have hframe := responseFrames.readAll_write framed stdout
    rwa [hread] at hframe

end Session
end RootHerald.Linux
