/-
The output of a command does not depend on its frames.

What a session gives follows from what is heard before it ends: the bytes of each of the two
streams one after the other, and the time that goes by.  How the bytes are cut into frames
is not in it, nor which stream came first, so a character may well be cut in two.

`transcript_eq` is the recursion of `transcript` seen from outside: a frame after which the
session goes on adds to what is heard, and the first other frame ends it and hides the rest.
-/
import Mathlib.Algebra.GroupWithZero.Nat
import NodeFencing.Proofs.Session.Completion

namespace NodeFencing

namespace Frame

/-- The bytes of the output that a frame carries. -/
def stdoutBytes : Frame → List UInt8
  | .stdout bytes => bytes
  | _ => []

/-- The bytes of the error stream that a frame carries. -/
def stderrBytes : Frame → List UInt8
  | .stderr bytes => bytes
  | _ => []

/-- The time that goes by in a frame. -/
def milliseconds : Frame → Nat
  | .pause n => n
  | _ => 0

end Frame

namespace Session

/-! ### What is heard of a session -/

/-- The frames before the one that ends a session. -/
def heard (frames : List Frame) : List Frame := frames.takeWhile Frame.goesOn

/-- The frame that ends a session, if there is one. -/
def stop? (frames : List Frame) : Option Frame := frames.find? fun f => !f.goesOn

/-- All bytes of the output. -/
def stdout (frames : List Frame) : List UInt8 := (heard frames).flatMap Frame.stdoutBytes

/-- All bytes of the error stream. -/
def stderr (frames : List Frame) : List UInt8 := (heard frames).flatMap Frame.stderrBytes

/-- The time until a session ends. -/
def duration (frames : List Frame) : Nat := ((heard frames).map Frame.milliseconds).sum

/-- Both streams are text, and which. -/
def Prints (frames : List Frame) (o : Output) : Prop :=
  Utf8.decode (stdout frames) = .ok o.stdout ∧ Utf8.decode (stderr frames) = .ok o.stderr

/-- Two sessions carry the same: the same bytes on each stream, and the same end, which comes in
time in both or in neither. -/
structure SameContent (timeout : Nat) (frames frames' : List Frame) : Prop where
  stdout : stdout frames = stdout frames'
  stderr : stderr frames = stderr frames'
  stop : stop? frames = stop? frames'
  inTime : duration frames < timeout ↔ duration frames' < timeout

variable {frames frames' rest : List Frame} {f : Frame} {timeout : Nat}
  {stderrFirst : Bool}

theorem transcript_cons_of_goesOn (h : f.goesOn = true) :
    transcript (f :: rest) =
      ⟨f.stdoutBytes ++ (transcript rest).stdout, f.stderrBytes ++ (transcript rest).stderr,
        f.milliseconds + (transcript rest).milliseconds, (transcript rest).close⟩ := by
  cases f with
  | status text =>
      have htext : text = "" := by simpa [Frame.goesOn] using h
      simp [transcript, htext, Frame.stdoutBytes, Frame.stderrBytes, Frame.milliseconds]
  | hang => cases h
  | drop => cases h
  | _ => simp [transcript, Frame.stdoutBytes, Frame.stderrBytes, Frame.milliseconds]

theorem transcript_cons_of_stops (h : f.goesOn = false) :
    transcript (f :: rest) = ⟨[], [], 0, (transcript [f]).close⟩ := by
  cases f with
  | status text =>
      have htext : text ≠ "" := by simpa [Frame.goesOn] using h
      simp [transcript, htext]
  | hang => rfl
  | drop => rfl
  | _ => cases h

/-- What comes out of a session is what is heard of it, and its end. -/
theorem transcript_eq (frames : List Frame) :
    transcript frames =
      ⟨stdout frames, stderr frames, duration frames,
        (transcript (stop? frames).toList).close⟩ := by
  induction frames with
  | nil => rfl
  | cons f rest ih =>
      cases hf : f.goesOn with
      | true =>
          rw [transcript_cons_of_goesOn hf, ih]
          simp [stdout, stderr, duration, heard, stop?, hf]
      | false =>
          rw [transcript_cons_of_stops hf]
          simp [stdout, stderr, duration, heard, stop?, hf]

theorem SameContent.result_eq (h : SameContent timeout frames frames') :
    (transcript frames).result stderrFirst timeout =
      (transcript frames').result stderrFirst timeout := by
  have hlate : (transcript frames).isLate timeout = (transcript frames').isLate timeout := by
    unfold Transcript.isLate
    rw [transcript_eq frames, transcript_eq frames', h.stop]
    congr 1
    simpa [Nat.not_lt] using not_congr h.inTime
  have houtput : (transcript frames).output stderrFirst =
      (transcript frames').output stderrFirst := by
    unfold Transcript.output Transcript.texts
    rw [transcript_eq frames, transcript_eq frames', h.stdout, h.stderr, h.stop]
  unfold Transcript.result
  rw [hlate, houtput]

/-! ### The output of a command that says how it ended -/

variable {text : String} {s : CommandStatus}

/-- The output of a session that delivers a status in time is decided by the status. -/
theorem result_eq_output (h : Delivers frames text) (htime : duration frames < timeout) :
    (transcript frames).result stderrFirst timeout =
      Transcript.output ⟨stdout frames, stderr frames, duration frames, .status text⟩
        stderrFirst := by
  have hclose := close_eq_status_iff.mpr h
  have htranscript := transcript_eq frames
  rw [htranscript] at hclose
  rw [htranscript, show (transcript (stop? frames).toList).close = .status text from hclose]
  unfold Transcript.result Transcript.isLate
  rw [if_neg]
  simpa using htime

theorem result_of_prints {o : Output} (h : Delivers frames text)
    (hs : Json.decode CommandStatus.read text = .ok s) (htime : duration frames < timeout)
    (ho : Prints frames o) :
    (transcript frames).result stderrFirst timeout =
      if s.status = some "Failure" then
        .error (.exited (s.message.getD "") (Text.trim o.stderr))
      else .ok o := by
  have htexts : Transcript.texts ⟨stdout frames, stderr frames, duration frames, .status text⟩
      stderrFirst = .ok o := (texts_eq_ok_iff _ _).mpr ho
  rw [result_eq_output h htime, Transcript.output, htexts]
  simp [conclude, hs, Except.mapError, bind, Except.bind]

theorem exists_result_of_not_prints (h : Delivers frames text) (htime : duration frames < timeout)
    (hnot : ∀ o, ¬ Prints frames o) :
    ∃ fault, (Utf8.decode (stdout frames) = .error fault ∨
        Utf8.decode (stderr frames) = .error fault) ∧
      (transcript frames).result stderrFirst timeout = .error (.notText fault) := by
  rw [result_eq_output h htime]
  unfold Transcript.output Transcript.texts
  cases hstdout : Utf8.decode (stdout frames) with
  | error fault =>
      cases hstderr : Utf8.decode (stderr frames) with
      | error fault' =>
          cases stderrFirst with
          | false => exact ⟨fault, .inl rfl, rfl⟩
          | true => exact ⟨fault', .inr rfl, rfl⟩
      | ok b => exact ⟨fault, .inl rfl, rfl⟩
  | ok a =>
      cases hstderr : Utf8.decode (stderr frames) with
      | error fault => exact ⟨fault, .inr rfl, rfl⟩
      | ok b => exact absurd ⟨hstdout, hstderr⟩ (hnot ⟨a, b⟩)

end Session

namespace Api.Client

/-- A client whose server opens a session next. -/
def opening (c : Client) (frames : List Frame) : Client :=
  { c with replies := .session frames :: c.replies }

variable {c : Client} {pod : Pod} {command : List String} {frames frames' : List Frame}

theorem takes_opening {r : Request}
    (hr : Request.execute c.settings.agentContainer pod command = .ok r)
    (htime : c.isOver = false) (frames : List Frame) :
    (c.opening frames).Takes (Request.execute c.settings.agentContainer pod command)
      (.session frames) :=
  ⟨⟨r, hr⟩, htime, c.replies, rfl⟩

/-- A command that cannot be sent for fails without the session. -/
theorem execute_opening_of_not_sent
    (h : (∃ f, Request.execute c.settings.agentContainer pod command = .error f) ∨
      c.isOver = true) :
    ((c.opening frames).execute pod command).1 = ((c.opening frames').execute pod command).1 := by
  have hover : ∀ frames, (c.opening frames).isOver = c.isOver := fun _ => rfl
  have hsettings : ∀ frames, (c.opening frames).settings = c.settings := fun _ => rfl
  unfold execute send
  simp only [hsettings, hover]
  rcases h with ⟨f, hf⟩ | h
  · rw [hf]
    rfl
  · rw [h]
    cases Request.execute c.settings.agentContainer pod command with
    | error f => rfl
    | ok r => rfl

/--
**The output of a command does not depend on its frames.**  Two sessions that carry the same
bytes on each stream and have the same end give a command the same result.  If a readable
status comes in time and the request for the command can be sent, the result is the text of
the two streams, or a failure with that of the error stream if the status says so; where one
of them is not text, it is the fault of one that is not.
-/
theorem execute_eq_of_sameContent (c : Client) (pod : Pod) (command : List String)
    (frames frames' : List Frame)
    (h : Session.SameContent c.settings.fenceAgentTimeout frames frames') :
    ((c.opening frames).execute pod command).1 = ((c.opening frames').execute pod command).1 ∧
    ∀ text s, Session.Delivers frames text →
      Session.duration frames < c.settings.fenceAgentTimeout →
      Json.decode Session.CommandStatus.read text = .ok s → c.isOver = false →
      (∃ r, Request.execute c.settings.agentContainer pod command = .ok r) →
      (∀ o, Session.Prints frames o →
        ((c.opening frames').execute pod command).1 =
          if s.status = some "Failure" then
            .error (.execution (.exited (s.message.getD "") (Text.trim o.stderr)))
          else .ok o) ∧
      ((∀ o, ¬ Session.Prints frames o) →
        ∃ fault, (Utf8.decode (Session.stdout frames) = .error fault ∨
            Utf8.decode (Session.stderr frames) = .error fault) ∧
          ((c.opening frames').execute pod command).1 = .error (.execution (.notText fault))) := by
  have hsame : ((c.opening frames).execute pod command).1 =
      ((c.opening frames').execute pod command).1 := by
    cases hr : Request.execute c.settings.agentContainer pod command with
    | error f => exact execute_opening_of_not_sent (.inl ⟨f, hr⟩)
    | ok r =>
        cases hover : c.isOver with
        | true => exact execute_opening_of_not_sent (.inr hover)
        | false =>
            rw [execute_of_takes (takes_opening hr hover frames),
              execute_of_takes (takes_opening hr hover frames')]
            exact congrArg (Except.mapError Error.execution) h.result_eq
  refine ⟨hsame, ?_⟩
  intro text s hdelivers htime hs hover hsent
  obtain ⟨r, hr⟩ := hsent
  have hresult : ((c.opening frames').execute pod command).1 =
      ((Session.transcript frames).result c.stderrFirst c.settings.fenceAgentTimeout).mapError
        .execution := by
    rw [← hsame]
    exact execute_of_takes (takes_opening hr hover frames)
  refine ⟨?_, ?_⟩
  · intro o ho
    rw [hresult, Session.result_of_prints hdelivers hs htime ho]
    split
    · rfl
    · rfl
  · intro hnot
    obtain ⟨fault, hfault, heq⟩ := Session.exists_result_of_not_prints hdelivers htime hnot
    rw [hresult, heq]
    exact ⟨fault, hfault, rfl⟩

/-! ### A character that is cut in two -/

/-- The status of a command that succeeded. -/
def succeeding : Frame := .status "\x7b\"status\":\"Success\"\x7d"

/-- A character whose two bytes come apart, with the error stream in between. -/
def cut : List Frame :=
  [.stdout [], .stdout [195], .stderr [33], .pause 20, .stdout [169], succeeding, .stdout [255]]

/-- The same in one piece. -/
def uncut : List Frame := [.stderr [], .stderr [33], .stdout [195, 169], succeeding, .hang]

theorem sameContent_cut : Session.SameContent closing.settings.fenceAgentTimeout cut uncut :=
  ⟨by decide, by decide, by decide, by decide⟩

/-- However a character is cut, the output is the same text. -/
theorem execute_cut :
    ((closing.opening cut).execute { metadata := { name := some "agent" } } ["a"]).1 =
        ((closing.opening uncut).execute { metadata := { name := some "agent" } } ["a"]).1 ∧
      ((closing.opening uncut).execute { metadata := { name := some "agent" } } ["a"]).1 =
        .ok ⟨"é", "!"⟩ := by
  obtain ⟨hsame, hspelled⟩ := execute_eq_of_sameContent closing
    { metadata := { name := some "agent" } } ["a"] cut uncut sameContent_cut
  have hdelivers : Session.Delivers cut "\x7b\"status\":\"Success\"\x7d" :=
    Session.close_eq_status_iff.mp (by decide)
  have hstatus : Json.decode Session.CommandStatus.read "\x7b\"status\":\"Success\"\x7d" =
      .ok { status := some "Success" } := by
    decide +kernel
  have hprints : Session.Prints cut ⟨"é", "!"⟩ := ⟨by decide +kernel, by decide +kernel⟩
  refine ⟨hsame, ?_⟩
  have htext := (hspelled _ _ hdelivers (by decide) hstatus rfl ⟨_, rfl⟩).1 _ hprints
  rw [htext]
  rfl

end Api.Client

end NodeFencing
