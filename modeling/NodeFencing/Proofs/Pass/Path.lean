/-
The path of a pass.

The steps of a pass are written down twice: in the table of phases, which refuses every step
that it does not have, and in the program, which leaves its phases at many places.  The two
agree: no step of a pass is ever refused, so how a pass ended says which way it went.  A pass
that fails has failed in the phase that its path ends with.

`Fails` lists the steps at which a pass can fail, each with all that was said and heard until
then.  The path is followed phase by phase; while a phase lasts the tracker stands at it, and
`Tracker.reaching` is where it stands.
-/
import NodeFencing.Proofs.Pass.Calls

namespace NodeFencing

/-- The error that a call was answered with. -/
def Call.error? : (c : Call) → c.Answer → Option Error
  | .getRemediation _ _, .error e => some e
  | .replaceRemediation _, .error e => some e
  | .patchStatus _ _ _, .error e => some e
  | .listNodeNames, .error e => some e
  | .getNode _, .error e => some e
  | .replaceNode _, .error e => some e
  | .listPods _ _, .error e => some e
  | .execute _ _, .error e => some e
  | _, _ => none

/-- The path of a pass that came to a phase by all phases before it. -/
def Tracker.reaching (p : Phase) : Tracker := ⟨Phase.all.takeWhile (· != p), p⟩

/-- The phases up to a phase. -/
def Phase.path (p : Phase) : List Phase := (Tracker.reaching p).visited

/-- The ways that lead to an outcome. -/
def Outcome.paths : Outcome → List (List Phase)
  | .requestNotFound => [[.fetching, .done]]
  | .nodeNotFound =>
    [[.fetching, .nodeValidating, .done],
      [.fetching, .nodeValidating, .lifecycleHandling, .tainting, .done]]
  | .finalizerAdded | .deletionComplete =>
    [[.fetching, .nodeValidating, .lifecycleHandling, .done]]
  | .alreadyRemediated => [[.fetching, .nodeValidating, .lifecycleHandling, .tainting, .done]]
  | .fenceAgentExecuted =>
    [[.fetching, .nodeValidating, .lifecycleHandling, .tainting, .parameterBuilding, .executing,
      .responseValidating, .done]]

/-- A path that failed ends with the failure. -/
theorem Tracker.visited_fail_reaching {p : Phase} (h : p.isTerminal = false) :
    (reaching p).fail.visited = p.path ++ [.failed] := by
  have hcurrent : (reaching p).current = p := rfl
  unfold fail
  rw [hcurrent, h]
  rfl

/-! ### What fails without a call -/

/-- If a list cannot be mapped, one of its elements cannot. -/
theorem exists_of_mapM_eq_error {α β ε : Type} {f : α → Except ε β} {l : List α} {e : ε}
    (h : l.mapM f = .error e) : ∃ x ∈ l, f x = .error e := by
  induction l with
  | nil => cases h
  | cons x l ih =>
      rw [List.mapM_cons] at h
      cases hx : f x with
      | error e' =>
          rw [hx] at h
          obtain rfl := Except.error.inj h
          exact ⟨x, by simp, hx⟩
      | ok y =>
          rw [hx] at h
          cases hl : l.mapM f with
          | error e' =>
              rw [hl] at h
              obtain rfl := Except.error.inj h
              obtain ⟨x', hmem, hx'⟩ := ih hl
              exact ⟨x', by simp [hmem], hx'⟩
          | ok ys =>
              rw [hl] at h
              cases h

/-- A command only fails for parameters that the request lacks. -/
theorem Command.ofSpec_error_cases {spec : Spec} {node : String} {e : Error}
    (h : ofSpec spec node = .error e) :
    e = .missingParameters ∨ ∃ flag, e = .missingNodeParameter flag node := by
  unfold ofSpec parameters at h
  split at h
  · next shared byNode _ _ =>
      cases hargs : nodeArguments byNode node with
      | ok args =>
          rw [hargs] at h
          cases h
      | error e' =>
          rw [hargs] at h
          obtain rfl := Except.error.inj h
          obtain ⟨entry, -, hentry⟩ := exists_of_mapM_eq_error hargs
          split at hentry
          · cases hentry
          · exact .inr ⟨entry.1, (Except.error.inj hentry).symm⟩
  · exact .inl (Except.error.inj h).symm

theorem Output.eq_of_validate_eq_error {o : Output} {e : Error} (h : o.validate = .error e) :
    e = .unexpectedResponse o.stdout o.stderr := by
  unfold validate at h
  split at h
  · cases h
  · exact (Except.error.inj h).symm

/-! ### Where the life of a request fails -/

namespace Lifecycle

variable {r : Remediation} {log : List Exchange} {α : Type}

/-- A call failed with the error, and nothing was said after that. -/
def FailsLast (log : List Exchange) (result : Except Error α) : Prop :=
  ∀ e, result = .error e → ∃ before c a, log = before ++ [⟨c, a⟩] ∧ c.error? a = some e

theorem failsLast_ok (log : List Exchange) (a : α) : FailsLast log (.ok a) := by
  intro e h
  cases h

theorem failsLast_error {c : Call} {a : c.Answer} {e : Error} (h : c.error? a = some e) :
    FailsLast (α := α) (log ++ [⟨c, a⟩]) (.error e) := by
  intro e' he
  obtain rfl := Except.error.inj he
  exact ⟨log, c, a, rfl, h⟩

theorem finally_removeTaint (node : String) : (removeTaint node).Finally FailsLast log := by
  intro a
  match a with
  | .error e => exact failsLast_error rfl
  | .ok none => exact failsLast_ok _ false
  | .ok (some n) =>
      cases hn : n.removeTaint? with
      | none =>
          simp only [hn]
          exact failsLast_ok _ false
      | some sent =>
          simp only [hn]
          intro a
          cases a with
          | ok m => exact failsLast_ok _ true
          | error e =>
              cases he : e.isNotFound with
              | true =>
                  simp only [he, if_true]
                  exact failsLast_ok _ false
              | false =>
                  simp only [he, Bool.false_eq_true, if_false]
                  exact failsLast_error rfl

/-- The life of a request was settled, so that the pass does not go on, or it failed. -/
def Settles (log : List Exchange) (result : Except Error LifecycleOutcome) : Prop :=
  FailsLast log result ∧ result ≠ .ok .proceed

theorem settles_ok {outcome : LifecycleOutcome} (h : outcome ≠ .proceed) (log : List Exchange) :
    Settles log (.ok outcome) :=
  ⟨failsLast_ok log outcome, by simpa using h⟩

theorem settles_error {c : Call} {a : c.Answer} {e : Error} (h : c.error? a = some e) :
    Settles (log ++ [⟨c, a⟩]) (.error e) :=
  ⟨failsLast_error h, by simp⟩

theorem finally_attach : (attach r).Finally Settles log := by
  have hadded : ∀ log, Settles log (.ok .finalizerAdded) := settles_ok (by simp)
  unfold attach
  split
  · exact fun _ => hadded _
  · intro a
    cases a with
    | error e => exact settles_error rfl
    | ok _ => exact fun _ => hadded _

theorem finally_release : (release r).Finally Settles log := by
  have hreleased : ∀ log, Settles log (.ok .deletionComplete) := settles_ok (by simp)
  unfold release
  split
  · exact fun _ => hreleased _
  · intro a
    cases a with
    | ok _ => exact fun _ => hreleased _
    | error e =>
        cases he : e.isNotFound with
        | true =>
            simp only [he, if_true]
            exact fun _ => hreleased _
        | false =>
            simp only [he, Bool.false_eq_true, if_false]
            exact settles_error rfl

theorem finally_cleanUp : (cleanUp r).Finally Settles log := by
  refine .bind ((finally_removeTaint r.anyName).imp ?_)
  intro log result h
  cases result with
  | ok _ => exact finally_release
  | error e =>
      obtain ⟨before, c, a, rfl, he⟩ := h e rfl
      exact settles_error he

/-- If the life of a request fails, it does so at the last call. -/
theorem finally_handle (hr : r.lifecycleAction ≠ .proceed) : (handle r).Finally Settles log := by
  unfold handle
  split
  · exact finally_attach
  · exact finally_cleanUp
  · exact settles_ok (by simp) log
  · next h => exact absurd h hr

end Lifecycle

namespace Pass

variable (s : Settings) (inNamespace name : String)

/-! ### The steps that fail -/

/-- The step at which a pass failed: what was said and heard, the phase, and the error. -/
inductive Fails : List Exchange → Phase → Error → Prop
  | request {e : Error} : Fails [⟨.getRemediation inNamespace name, .error e⟩] .fetching e
  | names {r : Remediation} {e : Error} :
      Fails [⟨.getRemediation inNamespace name, .ok (some r)⟩, ⟨.listNodeNames, .error e⟩]
        .nodeValidating e
  | life {log more : List Exchange} {r : Remediation} {c : Call} {a : c.Answer} {e : Error}
      (h : Opened inNamespace name log r)
      (hlife : (Lifecycle.handle r).Reaches (more ++ [⟨c, a⟩]) (.done (.error e)))
      (he : c.error? a = some e) :
      Fails (log ++ (more ++ [⟨c, a⟩])) .lifecycleHandling e
  | node {log : List Exchange} {r : Remediation} {e : Error} (h : Opened inNamespace name log r)
      (hr : r.lifecycleAction = .proceed) :
      Fails (log ++ [⟨.getNode name, .error e⟩]) .tainting e
  | taint {log : List Exchange} {r : Remediation} {n : Node} {time : Instant} {e : Error}
      (h : Opened inNamespace name log r) (hr : r.lifecycleAction = .proceed)
      (hn : n.isTainted = false) :
      Fails (log ++ [⟨.getNode name, .ok (some n)⟩, ⟨.readClock, time⟩,
        ⟨.replaceNode (n.addTaint time), .error e⟩]) .tainting e
  | command {log : List Exchange} {r : Remediation} {e : Error}
      (h : Announced inNamespace name log r) (hc : Command.ofSpec r.spec name = .error e) :
      Fails (log ++ [⟨.publishEvent r (.invalidParameters e.message), ()⟩]) .parameterBuilding e
  | pods {log : List Exchange} {r : Remediation} {command : List String} {e : Error}
      (h : Announced inNamespace name log r) (hc : Command.ofSpec r.spec name = .ok command) :
      Fails (log ++ [⟨.listPods s.agentPodNamespace s.agentPodSelector, .error e⟩]) .executing e
  | noPod {log : List Exchange} {r : Remediation} {command : List String}
      (h : Announced inNamespace name log r) (hc : Command.ofSpec r.spec name = .ok command) :
      Fails (log ++ [⟨.listPods s.agentPodNamespace s.agentPodSelector, .ok []⟩]) .executing
        (.agentPodNotFound s.agentPodNamespace s.agentPodSelector)
  | agent {log : List Exchange} {r : Remediation} {pod : Pod} {command : List String} {e : Error}
      (h : Armed s inNamespace name log r pod command) :
      Fails (log ++ [⟨.execute pod command, .error e⟩, ⟨.observe (.execution .failure), ()⟩,
        ⟨.publishEvent r (.agentFailed e.message), ()⟩]) .executing e
  | answer {log : List Exchange} {r : Remediation} {o : Output} {time : Instant} {e : Error}
      {a : Except Error Unit} (h : Answered s inNamespace name log r o)
      (ho : o.validate = .error e) :
      Fails (log ++ [⟨.observe (.execution .unexpectedResponse), ()⟩,
        ⟨.publishEvent r (.agentFailed e.message), ()⟩, ⟨.readClock, time⟩,
        ⟨.patchStatus r.namespaceName r.anyName (r.agentFailedStatus e.message time), a⟩])
        .responseValidating e
  | status {log : List Exchange} {r : Remediation} {o : Output} {stdout : String}
      {time : Instant} {e : Error} (h : Answered s inNamespace name log r o)
      (ho : o.validate = .ok stdout) :
      Fails (log ++ [⟨.observe (.execution .success), ()⟩,
        ⟨.publishEvent r (.agentExecuted r.spec.agent name), ()⟩, ⟨.readClock, time⟩,
        ⟨.patchStatus inNamespace name (r.finishedStatus stdout time), .error e⟩])
        .responseValidating e

variable {s inNamespace name} {log : List Exchange} {r : Remediation}

theorem Fails.isTerminal_eq_false {p : Phase} {e : Error} (h : Fails s inNamespace name log p e) :
    p.isTerminal = false := by
  cases h <;> rfl

/-- Only a call fails for a step that the phases do not have. -/
theorem Fails.exists_error? {p a b : Phase}
    (h : Fails s inNamespace name log p (.invalidTransition a b)) :
    ∃ x ∈ log, x.1.error? x.2 = some (.invalidTransition a b) := by
  cases h with
  | request => exact ⟨_, .head _, rfl⟩
  | names => exact ⟨_, .tail _ (.head _), rfl⟩
  | life _ _ he => exact ⟨_, List.mem_append_right _ (List.mem_append_right _ (.head _)), he⟩
  | node _ _ => exact ⟨_, List.mem_append_right _ (.head _), rfl⟩
  | taint _ _ _ => exact ⟨_, List.mem_append_right _ (.tail _ (.tail _ (.head _))), rfl⟩
  | command _ hc =>
      obtain h | ⟨flag, h⟩ := Command.ofSpec_error_cases hc
      · cases h
      · cases h
  | pods _ _ => exact ⟨_, List.mem_append_right _ (.head _), rfl⟩
  | agent _ => exact ⟨_, List.mem_append_right _ (.head _), rfl⟩
  | answer _ ho => cases Output.eq_of_validate_eq_error ho
  | status _ _ =>
      exact ⟨_, List.mem_append_right _ (.tail _ (.tail _ (.tail _ (.head _)))), rfl⟩

/-! ### The walk through the phases -/

variable (s inNamespace name) in
/-- Where a pass got to and how it ended agree: it ended well at a phase that its outcome ends at,
or it failed in the phase that it had come to. -/
def Ending.Follows (log : List Exchange) (ending : Ending) : Prop :=
  match ending.result with
  | .ok outcome =>
    ∃ p, ending.tracker = .reaching p ∧ p.allows .done = true ∧ p.path ++ [.done] ∈ outcome.paths
  | .error e => ∃ p, ending.tracker = .reaching p ∧ Fails s inNamespace name log p e

theorem follows_responseValidating {o : Output} (h : Answered s inNamespace name log r o) :
    (responseValidating inNamespace name r o (.reaching .responseValidating)).Finally
      (Ending.Follows s inNamespace name) log := by
  unfold responseValidating
  split
  · next stdout ho =>
      -- the metrics, the event and the clock come before the status
      intro _ _ time a
      cases a with
      | error e => exact ⟨_, rfl, by simpa using Fails.status h ho⟩
      | ok _ => exact ⟨_, rfl, by decide⟩
  · next e ho =>
      intro _ _ time a
      exact ⟨_, rfl, by simpa using Fails.answer h ho⟩

theorem follows_runningIn {pod : Pod} {command : List String}
    (h : Armed s inNamespace name log r pod command) :
    (runningIn inNamespace name r command (.reaching .executing) pod).Finally
      (Ending.Follows s inNamespace name) log := by
  intro a
  cases a with
  | error e =>
      intro _ _
      exact ⟨_, rfl, by simpa using Fails.agent h⟩
  | ok o => exact follows_responseValidating (.intro h)

theorem follows_executing {command : List String} (h : Announced inNamespace name log r)
    (hc : Command.ofSpec r.spec name = .ok command) :
    (executing s inNamespace name r command (.reaching .executing)).Finally
      (Ending.Follows s inNamespace name) log := by
  intro a
  match a with
  | .error e => exact ⟨_, rfl, .pods h hc⟩
  | .ok [] => exact ⟨_, rfl, .noPod h hc⟩
  | .ok (pod :: pods) => exact follows_runningIn (.intro h hc)

theorem follows_tainted (h : Marked inNamespace name log r) :
    (tainted s inNamespace name r (.reaching .tainting)).Finally
      (Ending.Follows s inNamespace name) log := by
  intro _ time a
  have hannounced : Announced inNamespace name (log ++ [⟨.publishEvent r (.taintAdded name), ()⟩,
      ⟨.readClock, time⟩, ⟨.patchStatus r.namespaceName r.anyName (r.startedStatus time), a⟩]) r :=
    .intro h
  show (parameterBuilding s inNamespace name r (.reaching .parameterBuilding)).Finally _ _
  unfold parameterBuilding
  split
  · next e hc =>
      intro _
      exact ⟨_, rfl, by simpa using Fails.command hannounced hc⟩
  · next command hc =>
      refine follows_executing ?_ hc
      simpa using hannounced

theorem follows_tainting (h : Opened inNamespace name log r) (hr : r.lifecycleAction = .proceed) :
    (tainting s inNamespace name r (.reaching .tainting)).Finally
      (Ending.Follows s inNamespace name) log := by
  intro a
  match a with
  | .error e => exact ⟨_, rfl, .node h hr⟩
  | .ok none => exact ⟨_, rfl, by decide⟩
  | .ok (some n) =>
      by_cases hn : n.isTainted = true
      · simp only [hn, if_true]
        exact ⟨_, rfl, by decide⟩
      · have hn' : n.isTainted = false := by simpa using hn
        simp only [hn', Node.applyTaint?_of_not_isTainted hn', Bool.false_eq_true, if_false]
        intro time a
        cases a with
        | error e => exact ⟨_, rfl, by simpa using Fails.taint h hr hn'⟩
        | ok m =>
            apply follows_tainted
            simpa using Marked.intro h hr hn'

theorem follows_lifecycleHandling (h : Opened inNamespace name log r) :
    (lifecycleHandling s inNamespace name r (.reaching .lifecycleHandling)).Finally
      (Ending.Follows s inNamespace name) log := by
  by_cases hr : r.lifecycleAction = .proceed
  · unfold lifecycleHandling Lifecycle.handle
    rw [hr]
    exact follows_tainting h hr
  · refine .bind (.of_forall_reaches ?_)
    intro more result hmore
    obtain ⟨hlast, hsettled⟩ : Lifecycle.Settles more result := by
      have hfinally : (Lifecycle.handle r).Finally Lifecycle.Settles [] :=
        Lifecycle.finally_handle hr
      exact hfinally.of_reaches hmore
    match result with
    | .error e =>
        obtain ⟨before, c, a, rfl, he⟩ := hlast e rfl
        exact ⟨_, rfl, .life h hmore he⟩
    | .ok .finalizerAdded => exact ⟨_, rfl, by decide⟩
    | .ok .deletionComplete => exact ⟨_, rfl, by decide⟩
    | .ok .proceed => exact absurd rfl hsettled

theorem follows_fetching :
    (fetching s inNamespace name .start).Finally (Ending.Follows s inNamespace name) [] := by
  intro a
  match a with
  | .error e => exact ⟨_, rfl, .request⟩
  | .ok none => exact ⟨.fetching, rfl, by decide⟩
  | .ok (some r) =>
      intro a
      match a with
      | .error e => exact ⟨_, rfl, .names⟩
      | .ok names =>
          by_cases h : (names.contains name || (r.isDeleted && r.hasFinalizer)) = true
          · simp only [h, if_true]
            exact follows_lifecycleHandling (.intro h)
          · simp only [h, Bool.false_eq_true, if_false]
            exact ⟨.nodeValidating, rfl, by decide⟩

/-- A pass is closed with the path that its outcome says, or after the phase that it failed in. -/
theorem Ending.Follows.close_cases {ending : Ending}
    (h : ending.Follows s inNamespace name log) :
    (∃ outcome path, path ∈ outcome.paths ∧ ending.report = .ok ⟨path, outcome⟩) ∨
      ∃ p e, Fails s inNamespace name log p e ∧ ending.close.1.visited = p.path ++ [.failed] ∧
        ending.report = .error e := by
  obtain ⟨tracker, result⟩ := ending
  cases result with
  | error e =>
      obtain ⟨p, rfl, hfails⟩ := h
      exact .inr ⟨p, e, hfails, Tracker.visited_fail_reaching hfails.isTerminal_eq_false, rfl⟩
  | ok outcome =>
      obtain ⟨p, htracker, hdone, hpath⟩ := h
      refine .inl ⟨outcome, p.path ++ [.done], hpath, ?_⟩
      have hstep : tracker.advance? .done = some ((Tracker.reaching p).push .done) := by
        obtain rfl : tracker = .reaching p := htracker
        exact if_pos hdone
      simp only [Ending.report, Ending.close, hstep]
      rfl

/--
**The path of a pass.**  Whoever answers the calls of a pass, it never takes a step that the
phases do not have: such an error is one that a call was answered with.  A report that the
pass ended well has the path that its outcome says.  A pass that fails has failed at one of
its steps, and its path ends with the phase of that step and the failure.
-/
theorem path_of_outcome {σ : Type} (serve : (c : Call) → σ → c.Answer × σ) (state : σ)
    (s : Settings) (inNamespace name : String) :
    let log := (pass s inNamespace name).conversation serve state
    let result := ((pass s inNamespace name).run serve state).1
    let ending := ((fetching s inNamespace name .start).run serve state).1
    (∀ a b, result = .error (.invalidTransition a b) →
      ∃ x ∈ log, x.1.error? x.2 = some (.invalidTransition a b)) ∧
    (∀ report, result = .ok report → report.phases ∈ report.outcome.paths) ∧
    (∀ e, result = .error e →
      ∃ p, Fails s inNamespace name log p e ∧
        ending.close.1.visited = p.path ++ [.failed]) := by
  intro log result ending
  have hresult : result = ending.report :=
    congrArg Prod.fst (Program.run_bind serve (fetching s inNamespace name .start) _ state)
  have hlog : log = (fetching s inNamespace name .start).conversation serve state := by
    simp [log, pass, Program.map, Program.conversation_bind, Program.conversation]
  have hfollows : ending.Follows s inNamespace name log := by
    rw [hlog]
    exact follows_fetching.of_reaches (Program.reaches_conversation serve _ state)
  obtain ⟨outcome, path, hpath, hreport⟩ | ⟨p, e, hfails, hvisited, hreport⟩ :=
    hfollows.close_cases
  · rw [hresult, hreport]
    refine ⟨?_, ?_, ?_⟩
    · intro a b h
      cases h
    · intro report h
      obtain rfl := Except.ok.inj h
      exact hpath
    · intro e h
      cases h
  · rw [hresult, hreport]
    refine ⟨?_, ?_, ?_⟩
    · intro a b h
      obtain rfl := Except.error.inj h
      exact hfails.exists_error?
    · intro report h
      cases h
    · intro e' h
      obtain rfl := Except.error.inj h
      exact ⟨p, hfails, hvisited⟩

end Pass

end NodeFencing
