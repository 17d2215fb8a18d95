/-
When a command in a pod is taken for complete.

A session goes on until a status is delivered, the connection is lost, or the session is
closed.  If there is a status, it decides.  A session that is closed without one is taken
for complete with whatever was printed until then, so the output of an agent that was cut
off counts like that of an agent that came to its end.  A pass reports that the agent was
executed only after such a session, with an output in the shape of a success.
-/
import Mathlib.Control.Monad.Basic
import NodeFencing.Api.Client
import NodeFencing.Proofs.Pass.Ends

namespace NodeFencing

/-- Whether a session goes on after a frame. -/
def Frame.goesOn : Frame → Bool
  | .stdout _ | .stderr _ | .pause _ => true
  | .status text => text == ""
  | .hang | .drop => false

namespace Session

/-! ### How sessions end -/

/-- A session goes on until a status is delivered. -/
def Delivers (frames : List Frame) (text : String) : Prop :=
  ∃ before after, frames = before ++ .status text :: after ∧ text ≠ "" ∧
    ∀ f ∈ before, f.goesOn = true

/-- A session goes on until it is closed, and no status is delivered. -/
def IsCut (frames : List Frame) : Prop := ∀ f ∈ frames, f.goesOn = true

variable {frames rest : List Frame} {f : Frame} {text : String} {timeout : Nat} {o o' : Output}

theorem close_cons (h : f.goesOn = true) :
    (transcript (f :: rest)).close = (transcript rest).close := by
  cases f with
  | status text =>
      have htext : text = "" := by simpa [Frame.goesOn] using h
      simp [transcript, htext]
  | hang => cases h
  | drop => cases h
  | _ => rfl

theorem close_append {before : List Frame} (h : ∀ f ∈ before, f.goesOn = true) :
    (transcript (before ++ rest)).close = (transcript rest).close := by
  induction before with
  | nil => rfl
  | cons f before ih =>
      rw [List.cons_append, close_cons (h f List.mem_cons_self)]
      exact ih fun f' hf' => h f' (List.mem_cons_of_mem f hf')

/-- A frame that ends a session says how it ended. -/
theorem close_of_stops (h : f.goesOn = false) :
    (∃ text, f = .status text ∧ text ≠ "" ∧ (transcript (f :: rest)).close = .status text) ∨
      (transcript (f :: rest)).close = .never ∨ (transcript (f :: rest)).close = .dropped := by
  cases f with
  | status text =>
      have htext : text ≠ "" := by simpa [Frame.goesOn] using h
      exact .inl ⟨text, rfl, htext, by simp [transcript, htext]⟩
  | hang => exact .inr (.inl rfl)
  | drop => exact .inr (.inr rfl)
  | _ => cases h

theorem close_eq_clean_iff : (transcript frames).close = .clean ↔ IsCut frames := by
  constructor
  · intro h
    induction frames with
    | nil => exact fun f hf => by cases hf
    | cons f frames ih =>
        by_cases hf : f.goesOn = true
        · rw [close_cons hf] at h
          exact List.forall_mem_cons.mpr ⟨hf, ih h⟩
        · rcases close_of_stops (eq_false_of_ne_true hf) with ⟨_, -, -, heq⟩ | heq | heq
          · cases h.symm.trans heq
          · cases h.symm.trans heq
          · cases h.symm.trans heq
  · intro h
    have hclose : (transcript (frames ++ [])).close = (transcript []).close := close_append h
    rwa [List.append_nil] at hclose

theorem close_eq_status_iff : (transcript frames).close = .status text ↔ Delivers frames text := by
  constructor
  · intro h
    induction frames with
    | nil => cases h
    | cons f frames ih =>
        by_cases hf : f.goesOn = true
        · rw [close_cons hf] at h
          obtain ⟨before, after, rfl, htext, hbefore⟩ := ih h
          exact ⟨f :: before, after, rfl, htext, List.forall_mem_cons.mpr ⟨hf, hbefore⟩⟩
        · rcases close_of_stops (eq_false_of_ne_true hf) with ⟨_, rfl, htext, heq⟩ | heq | heq
          · obtain rfl := Close.status.inj (h.symm.trans heq)
            exact ⟨[], frames, rfl, htext, by simp⟩
          · cases h.symm.trans heq
          · cases h.symm.trans heq
  · rintro ⟨before, after, rfl, htext, hbefore⟩
    rw [close_append hbefore]
    simp [transcript, htext]

/-! ### What sessions give -/

/-- A session delivers a status of the command, which is not a failure. -/
def EndsWell (frames : List Frame) : Prop :=
  ∃ text s, Delivers frames text ∧ Json.decode CommandStatus.read text = .ok s ∧
    s.status ≠ some "Failure"

/-- A session is over in time, both streams are text, and it ended well or was cut. -/
structure Completes (frames : List Frame) (timeout : Nat) (o : Output) : Prop where
  inTime : (transcript frames).milliseconds < timeout
  stdout : Utf8.decode (transcript frames).stdout = .ok o.stdout
  stderr : Utf8.decode (transcript frames).stderr = .ok o.stderr
  ended : EndsWell frames ∨ IsCut frames

theorem conclude_eq_ok_iff {close : Close} :
    conclude o close = .ok o' ↔ o = o' ∧
      ((∃ text s, close = .status text ∧ Json.decode CommandStatus.read text = .ok s ∧
        s.status ≠ some "Failure") ∨ close = .clean) := by
  cases close with
  | status text =>
      unfold conclude
      cases hs : Json.decode CommandStatus.read text with
      | error fault => simp [hs]
      | ok s =>
          by_cases hfailure : s.status = some "Failure"
          · simp [hs, hfailure]
          · simp [hs, hfailure]
  | _ => simp [conclude]

theorem texts_eq_ok_iff (t : Transcript) (stderrFirst : Bool) :
    t.texts stderrFirst = .ok o ↔
      Utf8.decode t.stdout = .ok o.stdout ∧ Utf8.decode t.stderr = .ok o.stderr := by
  obtain ⟨stdout, stderr⟩ := o
  unfold Transcript.texts
  cases Utf8.decode t.stdout <;> cases Utf8.decode t.stderr <;> simp

theorem output_eq_ok_iff {t : Transcript} {stderrFirst : Bool} :
    t.output stderrFirst = .ok o ↔ Utf8.decode t.stdout = .ok o.stdout ∧
      Utf8.decode t.stderr = .ok o.stderr ∧ conclude o t.close = .ok o := by
  rw [← and_assoc, ← texts_eq_ok_iff t stderrFirst, Transcript.output]
  cases t.texts stderrFirst with
  | error fault => simp [Except.mapError, bind, Except.bind]
  | ok o' =>
      simp only [Except.mapError, bind, Except.bind, Except.ok.injEq]
      constructor
      · intro h
        obtain ⟨rfl, -⟩ := conclude_eq_ok_iff.mp h
        exact ⟨rfl, h⟩
      · rintro ⟨rfl, h⟩
        exact h

theorem result_eq_ok_iff {stderrFirst : Bool} :
    (transcript frames).result stderrFirst timeout = .ok o ↔ Completes frames timeout o := by
  unfold Transcript.result Transcript.isLate
  constructor
  · intro h
    split at h
    · cases h
    · next hlate =>
        obtain ⟨hstdout, hstderr, hend⟩ := output_eq_ok_iff.mp h
        obtain ⟨-, hended⟩ := conclude_eq_ok_iff.mp hend
        simp only [close_eq_status_iff, close_eq_clean_iff] at hended
        simp only [Bool.or_eq_true, decide_eq_true_eq, not_or, Nat.not_le] at hlate
        exact ⟨hlate.2, hstdout, hstderr, hended⟩
  · intro h
    have hend : conclude o (transcript frames).close = .ok o := by
      refine conclude_eq_ok_iff.mpr ⟨rfl, ?_⟩
      simp only [close_eq_status_iff, close_eq_clean_iff]
      exact h.ended
    -- a session that hangs is late whatever the time, but it has no end to conclude from
    have hclose : (transcript frames).close ≠ .never := by
      intro hnever
      rw [hnever] at hend
      cases hend
    have htime := h.inTime
    rw [if_neg (by simp [hclose, htime]), output_eq_ok_iff]
    exact ⟨h.stdout, h.stderr, hend⟩

end Session

namespace Api.Client

variable {c c' : Client} {o : Output}

/-- The settings are kept, and which stream comes first, and replies are only taken. -/
structure Remains (c c' : Client) : Prop where
  settings : c'.settings = c.settings
  stderrFirst : c'.stderrFirst = c.stderrFirst
  replies : ∀ reply ∈ c'.replies, reply ∈ c.replies

theorem Remains.refl (c : Client) : c.Remains c := ⟨rfl, rfl, fun _ h => h⟩

theorem Remains.trans {c'' : Client} (h : c.Remains c') (h' : c'.Remains c'') : c.Remains c'' :=
  ⟨h'.settings.trans h.settings, h'.stderrFirst.trans h.stderrFirst,
    fun reply hr => h.replies reply (h'.replies reply hr)⟩

/-- A request that can be sent in time takes the next reply. -/
def Takes (c : Client) (request : Except ClusterFault Request) (reply : Reply) : Prop :=
  (∃ r, request = .ok r) ∧ c.isOver = false ∧ ∃ rest, c.replies = reply :: rest

theorem Takes.unique {request : Except ClusterFault Request} {reply reply' : Reply}
    (h : c.Takes request reply) (h' : c.Takes request reply') : reply = reply' := by
  obtain ⟨-, -, rest, h⟩ := h
  obtain ⟨-, -, rest', h'⟩ := h'
  exact (List.cons.inj (h.symm.trans h')).1

theorem mapError_eq_ok_iff {ε ε' α : Type} {f : ε → ε'} {x : Except ε α} {a : α} :
    x.mapError f = .ok a ↔ x = .ok a := by
  cases x <;> simp [Except.mapError]

theorem send_cases (c : Client) (request : Except ClusterFault Request) :
    (∃ reply c', c.send request = (.ok reply, c') ∧ c.Remains c' ∧ c.Takes request reply) ∨
      ∃ fault c', c.send request = (.error fault, c') ∧ c.Remains c' ∧
        ∀ reply, ¬ c.Takes request reply := by
  unfold send
  cases request with
  | error fault => exact .inr ⟨fault, c, rfl, .refl c, by simp [Takes]⟩
  | ok r =>
      cases hover : c.isOver with
      | true => exact .inr ⟨exhausted, c, rfl, .refl c, by simp [Takes, hover]⟩
      | false =>
          cases hreplies : c.replies with
          | nil =>
              refine .inr ⟨exhausted, c.note r, by simp [note, hreplies], ?_, ?_⟩
              · exact ⟨rfl, rfl, fun _ h => h⟩
              · simp [Takes, hreplies]
          | cons reply rest =>
              refine .inl ⟨reply, { c.note r with replies := rest },
                by simp [note, hreplies], ?_, ?_⟩
              · refine ⟨rfl, rfl, fun reply' h => ?_⟩
                rw [hreplies]
                exact List.mem_cons_of_mem reply h
              · exact ⟨⟨r, rfl⟩, hover, rest, hreplies⟩

theorem remains_send (c : Client) (request : Except ClusterFault Request) :
    c.Remains (c.send request).2 := by
  rcases c.send_cases request with ⟨_, c', hsend, hremains, -⟩ | ⟨_, c', hsend, hremains, -⟩
  · rw [hsend]
    exact hremains
  · rw [hsend]
    exact hremains

/-- A session that is opened for a command decides, and a fault of it is one of the execution. -/
theorem execute_of_takes {pod : Pod} {command : List String} {frames : List Frame}
    (h : c.Takes (Request.execute c.settings.agentContainer pod command) (.session frames)) :
    (c.execute pod command).1 =
      ((Session.transcript frames).result c.stderrFirst c.settings.fenceAgentTimeout).mapError
        .execution := by
  unfold execute
  rcases c.send_cases (Request.execute c.settings.agentContainer pod command) with
    ⟨reply, c', hsend, hremains, htakes⟩ | ⟨fault, c', hsend, -, hnot⟩
  · obtain rfl := htakes.unique h
    rw [hsend, ← hremains.settings, ← hremains.stderrFirst]
    rfl
  · exact (hnot _ h).elim

/-- A command is taken for complete if the session that is opened for it completes. -/
theorem execute_eq_ok_iff {pod : Pod} {command : List String} :
    (c.execute pod command).1 = .ok o ↔
      ∃ frames, c.Takes (Request.execute c.settings.agentContainer pod command) (.session frames) ∧
        Session.Completes frames c.settings.fenceAgentTimeout o := by
  constructor
  · intro h
    have hcommand := h
    unfold execute at h
    rcases c.send_cases (Request.execute c.settings.agentContainer pod command) with
      ⟨reply, c', hsend, -, htakes⟩ | ⟨fault, c', hsend, -, -⟩
    · cases reply with
      | session frames =>
          rw [execute_of_takes htakes, mapError_eq_ok_iff, Session.result_eq_ok_iff] at hcommand
          exact ⟨frames, htakes, hcommand⟩
      | plain code text =>
          rw [hsend] at h
          cases h
      | lost message =>
          rw [hsend] at h
          cases h
    · rw [hsend] at h
      cases h
  · rintro ⟨frames, htakes, h⟩
    rw [execute_of_takes htakes, mapError_eq_ok_iff, Session.result_eq_ok_iff]
    exact h

theorem remains_execute (c : Client) (pod : Pod) (command : List String) :
    c.Remains (c.execute pod command).2 := by
  have hsend := c.remains_send (Request.execute c.settings.agentContainer pod command)
  unfold execute
  dsimp only
  split
  · exact hsend
  · exact ⟨hsend.settings, hsend.stderrFirst, hsend.replies⟩

section
variable {α β : Type} (c : Client) (request : Except ClusterFault Request) (read : Json.Reader α)

theorem remains_ask : c.Remains (c.ask request read).2 := c.remains_send request

theorem remains_askFor (f : α → β) : c.Remains (c.askFor request read f).2 :=
  c.remains_send request

theorem remains_find : c.Remains (c.find request read).2 := c.remains_send request

end

theorem remains_serve (c : Client) (call : Call) : c.Remains (serve call c).2 := by
  unfold serve
  cases call with
  | getRemediation inNamespace name => exact c.remains_find _ _
  | replaceRemediation r => exact c.remains_ask _ _
  | patchStatus inNamespace name s => exact c.remains_askFor _ _ _
  | listNodeNames => exact c.remains_askFor _ _ _
  | getNode name => exact c.remains_find _ _
  | replaceNode n => exact c.remains_ask _ _
  | listPods inNamespace selector => exact c.remains_askFor _ _ _
  | publishEvent about e => exact c.remains_send _
  | execute pod command => exact c.remains_execute pod command
  | readClock => exact .refl c
  | observe seen =>
      show c.Remains (c.observe seen)
      unfold observe
      split
      · exact .refl c
      · exact ⟨rfl, rfl, fun _ h => h⟩

/--
**When a command is taken for complete.**  A command that is run in a pod has an output
exactly if a session is opened for it that is over in time, prints text on both streams, and
either delivers a readable status that is not a failure, or is closed before any status.
Every other session makes it fail, with a fault of the execution.  And a pass reports that the
agent was executed only if one of the sessions that the server opened gave it such an
output, with nothing on the error stream and something on the other one.
-/
theorem complete_of_ended_or_cut (c : Client) :
    (∀ pod command o, (c.execute pod command).1 = .ok o ↔
      ∃ frames, c.Takes (Request.execute c.settings.agentContainer pod command)
          (.session frames) ∧
        Session.Completes frames c.settings.fenceAgentTimeout o) ∧
    (∀ pod command frames, c.Takes (Request.execute c.settings.agentContainer pod command)
        (.session frames) →
      (∀ o, ¬ Session.Completes frames c.settings.fenceAgentTimeout o) →
      ∃ f, (c.execute pod command).1 = .error (.execution f)) ∧
    ∀ s inNamespace name report,
      ((Pass.pass s inNamespace name).run serve c).1 = .ok report →
      report.outcome = .fenceAgentExecuted →
      ∃ frames o, .session frames ∈ c.replies ∧
        Session.Completes frames c.settings.fenceAgentTimeout o ∧ o.isSuccess = true := by
  refine ⟨fun _ _ _ => execute_eq_ok_iff, ?_, ?_⟩
  · intro pod command frames htakes hnot
    rw [execute_of_takes htakes]
    cases hresult :
      (Session.transcript frames).result c.stderrFirst c.settings.fenceAgentTimeout with
    | error f => exact ⟨f, rfl⟩
    | ok o => exact (hnot o (Session.result_eq_ok_iff.mp hresult)).elim
  · intro s inNamespace name report hreport houtcome
    have hreaches := Program.reaches_conversation serve (Pass.pass s inNamespace name) c
    obtain ⟨pod, command, o, hmem, ho⟩ := Pass.vouches s inNamespace name hreaches report
      hreport houtcome
    have hkept : ∀ call c', c.Remains c' → c.Remains (serve call c').2 :=
      fun call c' h => h.trans (c'.remains_serve call)
    obtain ⟨c', hremains, ha⟩ := Program.exists_state_of_mem hkept (.refl c) hmem
    have hexecuted : (c'.execute pod command).1 = .ok o := ha.symm
    obtain ⟨frames, ⟨-, -, rest, hreplies⟩, hcompletes⟩ := execute_eq_ok_iff.mp hexecuted
    rw [hremains.settings] at hcompletes
    refine ⟨frames, o, hremains.replies _ ?_, hcompletes, ho⟩
    rw [hreplies]
    exact List.mem_cons_self

/-! ### An agent that is cut off

The session is closed when the agent has printed something and has not said how it ended.
-/

/-- What the agent has printed until then. -/
def beginning : List Frame := [.stdout (Utf8.encode "Success: Reb".toList)]

/-- A server that answers a whole pass, and closes the session of the agent early. -/
def severing : Client where
  now := default
  replies := [
    .plain 200 ("\x7b\"metadata\":\x7b\"finalizers\":[\"" ++ Remediation.finalizer ++ "\"]\x7d," ++
      "\"spec\":\x7b\"agent\":\"a\",\"sharedParameters\":\x7b\x7d," ++
      "\"nodeParameters\":\x7b\x7d\x7d\x7d"),
    .plain 200 "\x7b\"items\":[\x7b\"metadata\":\x7b\"name\":\"n1\"\x7d\x7d]\x7d",
    .plain 200 "\x7b\"metadata\":\x7b\"name\":\"n1\"\x7d\x7d", .plain 200 "\x7b\x7d", .lost "",
    .plain 200 "\x7b\"items\":[\x7b\"metadata\":\x7b\"name\":\"agent\"\x7d\x7d]\x7d",
    .session beginning, .lost "",
    .plain 200 "\x7b\"metadata\":\x7b\x7d,\"spec\":\x7b\"agent\":\"a\"\x7d\x7d"]

theorem not_endsWell_beginning : ¬ Session.EndsWell beginning := by
  rintro ⟨text, _, hdelivers, -⟩
  have hclose : (Session.transcript beginning).close = .clean := by decide
  rw [Session.close_eq_status_iff.mpr hdelivers] at hclose
  cases hclose

/-- A server that opens this one session. -/
def closing : Client where
  now := default
  replies := [.session beginning]

/-- **A command can be taken for complete that did not end well.**  Nothing was heard of its
end. -/
theorem not_endsWell :
    ¬ ∀ (c : Client) (pod : Pod) (command : List String) (o : Output),
      (c.execute pod command).1 = .ok o →
      ∃ frames rest, c.replies = .session frames :: rest ∧ Session.EndsWell frames := by
  intro hends
  have hexecuted : (closing.execute { metadata := { name := some "agent" } }
      ["fence_ipmilan"]).1 = .ok ⟨"Success: Reb", ""⟩ := by
    decide +kernel
  obtain ⟨frames, rest, hreplies, hwell⟩ := hends closing _ _ _ hexecuted
  obtain rfl : beginning = frames := Reply.session.inj (List.cons.inj hreplies).1
  exact not_endsWell_beginning hwell

/-- Such a command is enough for a pass to report that the agent was executed. -/
theorem complete_of_ended_or_cut_severing :
    ∃ report, ((Pass.pass {} "default" "n1").run serve severing).1 = .ok report ∧
      report.outcome = .fenceAgentExecuted ∧
      ∃ frames o, .session frames ∈ severing.replies ∧ ¬ Session.EndsWell frames ∧
        Session.Completes frames severing.settings.fenceAgentTimeout o ∧ o.isSuccess = true := by
  have hok : ((Pass.pass {} "default" "n1").run serve severing).1 = .ok
      ⟨[.fetching, .nodeValidating, .lifecycleHandling, .tainting, .parameterBuilding, .executing,
        .responseValidating, .done], .fenceAgentExecuted⟩ := by
    decide +kernel
  obtain ⟨frames, o, hmem, hcompletes, ho⟩ :=
    (complete_of_ended_or_cut severing).2.2 {} "default" "n1" _ hok rfl
  have hframes : frames = beginning := by simpa [severing] using hmem
  rw [hframes] at hmem hcompletes
  exact ⟨_, hok, rfl, beginning, o, hmem, not_endsWell_beginning, hcompletes, ho⟩

end Api.Client

end NodeFencing
