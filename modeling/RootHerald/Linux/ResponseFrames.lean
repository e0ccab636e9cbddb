import RootHerald.Linux.HostResponses

/-! The frames the Linux host writes: a length, and a body with the id of the request. -/
namespace RootHerald.Linux
open Lib Json

section Frames

/-- A message of 1 MB at most that is an object with a string "id". -/
structure Request where
  message : Bytes
  length_le : message.length ≤ messageLimit
  members : List (Bytes × Json)
  parses : parse message = some (.object members)
  id : Bytes
  hasId : members.lookup (text "id") = some (.string id)

/-- What the host sees of the message. -/
def Request.string (r : Request) : CString := cString r.message (r.length_le.trans_lt (by decide))

/-- A frame is the length of its body, and a body that answers the request. -/
def FrameAnswers (id frame : Bytes) : Prop :=
  ∃ body, frame = bytes32 (UInt32.ofNat body.length) ++ body ∧ body.length < 2 ^ 32 ∧ Answers id body

theorem writeMessage_answers_iff {body : Bytes} (h : body.length < 2 ^ 32) (id : Bytes) :
    FrameAnswers id (writeMessage body) ↔ Answers id body := by
  constructor
  · rintro ⟨body', hframe, -, hanswers⟩
    have hdrop := congrArg (List.drop 4) hframe
    rw [writeMessage, List.drop_left' (bytes32_length _), List.drop_left' (bytes32_length _)] at hdrop
    exact hdrop ▸ hanswers
  · exact fun hanswers => ⟨body, rfl, h, hanswers⟩

theorem readMessage_writeMessage (r : Request) (stdin : Bytes) :
    readMessage (writeMessage r.message ++ stdin) = some (r.string, stdin) := by
  have hlimit : r.message.length < 2 ^ 32 := r.length_le.trans_lt (by decide)
  have hlength : (UInt32.ofNat r.message.length).toNat = r.message.length := UInt32.toNat_ofNat_of_lt' hlimit
  obtain ⟨b₀, b₁, b₂, b₃, hbytes, hword⟩ := bytes32_eq (UInt32.ofNat r.message.length)
  have hread : (le32 b₀ b₁ b₂ b₃).toNat = r.message.length := hword ▸ hlength
  rw [writeMessage, hbytes]
  simp only [List.cons_append, List.nil_append, readMessage, hread, List.length_append]
  rw [dif_pos ⟨r.length_le, Nat.le_add_right _ _⟩]
  simp only [List.take_left, List.drop_left]
  rfl

end Frames

section Right

/-- Whatever follows on stdin, the turn writes a frame that answers the request, and leaves the rest. -/
def FrameRight (r : Request) (env : HostEnv) (w : World) : Prop :=
  ∀ stdin, ∃ frame, ((hostTurn (writeMessage r.message ++ stdin) env).run w).1 = some (.ok frame, stdin) ∧
    FrameAnswers r.id frame

/-- The value behind the first "id" of the message, cut to the buffer, is the id, and it is text, as is
what else the answer repeats. -/
structure Echoable (r : Request) (env : HostEnv) (codes : List Bool) : Prop where
  found : (findValue r.string.chars (text "id")).take 63 = r.id
  isText : Windows.isText r.id = true
  payload : PayloadClean r.string env codes

theorem hostTurn_run (r : Request) (env : HostEnv) (w : World) (stdin : Bytes) :
    ((hostTurn (writeMessage r.message ++ stdin) env).run w).1 =
      some (((answerRequest r.string env).run w).1.map writeMessage, stdin) := by
  unfold hostTurn
  rw [readMessage_writeMessage]
  rfl

/-- The frame answers the request exactly if what json_get takes for the id is the id, and the response
is read. -/
theorem frameRight_iff_responds (r : Request) (env : HostEnv) (w : World) : FrameRight r env w ↔
    (jsonGet r.string (text "id") 64).chars = r.id ∧ Windows.isText (jsonGet r.string (text "id") 64).chars = true ∧
      PayloadClean r.string env w.codes := by
  obtain ⟨body, hbody, hlength, hanswers⟩ := answerRequest_responds r.string env w
  have hframe (stdin : Bytes) : ((hostTurn (writeMessage r.message ++ stdin) env).run w).1 =
      some (.ok (writeMessage body), stdin) := by
    rw [hostTurn_run, hbody]
    rfl
  rw [← hanswers, ← writeMessage_answers_iff hlength]
  constructor
  · intro h
    obtain ⟨frame, hwritten, hanswer⟩ := h []
    obtain ⟨heq, -⟩ := Prod.mk.inj (Option.some.inj ((hframe []).symm.trans hwritten))
    exact Except.ok.inj heq ▸ hanswer
  · exact fun h stdin => ⟨_, hframe stdin, h⟩

/-- An id that is a tab, which a message has to escape. -/
private def tabPart : Part := ⟨text "id", [quotationMark, reverseSolidus, 't'.toUInt8, quotationMark], .string [0x09], True⟩

private theorem tabPart_ok (depth : Nat) : tabPart.Ok (depth + 1) := by
  refine ⟨by decide, fun _ rest => ?_, fun h => absurd trivial h⟩
  change readValue (depth + 1) (quotationMark :: reverseSolidus :: 't'.toUInt8 :: quotationMark :: rest) = _
  rw [readValue_string, readString_escape (by decide) (show unescape 't'.toUInt8 = some 0x09 by decide), readString_mark]
  rfl

/-- The message of one member, the id "\t". -/
def tabRequest : Request where
  message := objectText [tabPart.member]
  length_le := by decide +kernel
  members := [(text "id", .string [0x09])]
  parses := (parse_strict (n := 2) (by decide +kernel) fun depth =>
    object_strict (List.cons_ne_nil _ _) (List.forall_mem_singleton.mpr (tabPart_ok depth))).1
      (List.forall_mem_singleton.mpr trivial)
  id := [0x09]
  hasId := by simp

end Right
end RootHerald.Linux
