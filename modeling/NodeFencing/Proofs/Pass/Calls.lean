/-
What a pass has heard when it makes a call.

A pass goes through milestones.  It is `Opened` when it read its request and may handle
the life of it.  The cleanup of a deletion then has the node `Cleared` of the taint
before it lets the request go; a live request has the node `Marked` with the taint, and
after that was `Announced` and a pod was found the pass is `Armed` to run the agent, and
then the agent `Answered`.  Each milestone is the whole conversation that leads to it.

`Heard` says for every kind of call which milestone the pass is at, and `heard` that no
call comes up anywhere else.  All that is proved of passes side by side is read off it, so
nothing but this module opens the phases of a pass; only what becomes of a pass that is
alone with the cluster is computed along its phases, up to the one that taints the node.
-/
import NodeFencing.Pass
import NodeFencing.Proofs.Conversation

namespace NodeFencing

/-- The path of a pass that is about to look at the node. -/
def Tracker.tainting : Tracker :=
  ⟨[.fetching, .nodeValidating, .lifecycleHandling], .tainting⟩

namespace Pass

variable (s : Settings) (inNamespace name : String)

/-! ### Milestones -/

/-- The request was read, and there is a node for it or a finalizer to give up. -/
inductive Opened : List Exchange → Remediation → Prop
  | intro {r : Remediation} {names : List String}
      (h : (names.contains name || (r.isDeleted && r.hasFinalizer)) = true) :
      Opened [⟨.getRemediation inNamespace name, .ok (some r)⟩, ⟨.listNodeNames, .ok names⟩] r

/-- The node of a deleted request was seen without the remediation taint, or is gone. -/
inductive Cleared : List Exchange → Remediation → Prop
  | absent {log : List Exchange} {r : Remediation} (h : Opened inNamespace name log r)
      (hr : r.lifecycleAction = .cleanup) :
      Cleared (log ++ [⟨.getNode r.anyName, .ok none⟩]) r
  | clean {log : List Exchange} {r : Remediation} {n : Node}
      (h : Opened inNamespace name log r) (hr : r.lifecycleAction = .cleanup)
      (hn : n.removeTaint? = none) :
      Cleared (log ++ [⟨.getNode r.anyName, .ok (some n)⟩]) r
  | removed {log : List Exchange} {r : Remediation} {n m m' : Node}
      (h : Opened inNamespace name log r) (hr : r.lifecycleAction = .cleanup)
      (hn : n.removeTaint? = some m) :
      Cleared (log ++ [⟨.getNode r.anyName, .ok (some n)⟩] ++ [⟨.replaceNode m, .ok m'⟩]) r
  | vanished {log : List Exchange} {r : Remediation} {n m : Node} {e : Error}
      (h : Opened inNamespace name log r) (hr : r.lifecycleAction = .cleanup)
      (hn : n.removeTaint? = some m) (he : e.isNotFound = true) :
      Cleared (log ++ [⟨.getNode r.anyName, .ok (some n)⟩] ++ [⟨.replaceNode m, .error e⟩]) r

/-- The node was seen without the remediation taint, and the pass put it on. -/
inductive Marked : List Exchange → Remediation → Prop
  | intro {log : List Exchange} {r : Remediation} {n m : Node} {time : Instant}
      (h : Opened inNamespace name log r) (hr : r.lifecycleAction = .proceed)
      (hn : n.isTainted = false) :
      Marked (log ++ [⟨.getNode name, .ok (some n)⟩, ⟨.readClock, time⟩,
        ⟨.replaceNode (n.addTaint time), .ok m⟩]) r

/-- The request was told of the taint. -/
inductive Announced : List Exchange → Remediation → Prop
  | intro {log : List Exchange} {r : Remediation} {time : Instant} {a : Except Error Unit}
      (h : Marked inNamespace name log r) :
      Announced (log ++ [⟨.publishEvent r (.taintAdded name), ()⟩, ⟨.readClock, time⟩,
        ⟨.patchStatus r.namespaceName r.anyName (r.startedStatus time), a⟩]) r

/-- The command is put together and there is a pod to run it in. -/
inductive Armed : List Exchange → Remediation → Pod → List String → Prop
  | intro {log : List Exchange} {r : Remediation} {pod : Pod} {pods : List Pod}
      {command : List String} (h : Announced inNamespace name log r)
      (hc : Command.ofSpec r.spec name = .ok command) :
      Armed (log ++ [⟨.listPods s.agentPodNamespace s.agentPodSelector, .ok (pod :: pods)⟩])
        r pod command

/-- The agent was run and gave an output. -/
inductive Answered : List Exchange → Remediation → Output → Prop
  | intro {log : List Exchange} {r : Remediation} {pod : Pod} {command : List String}
      {o : Output} (h : Armed s inNamespace name log r pod command) :
      Answered (log ++ [⟨.execute pod command, .ok o⟩]) r o

/-- What is written into the status of which request, and when. -/
inductive Reports : List Exchange → String → String → Status → Prop
  | started {log : List Exchange} {r : Remediation} {time : Instant}
      (h : Marked inNamespace name log r) :
      Reports (log ++ [⟨.publishEvent r (.taintAdded name), ()⟩, ⟨.readClock, time⟩])
        r.namespaceName r.anyName (r.startedStatus time)
  | finished {log : List Exchange} {r : Remediation} {o : Output} {stdout : String}
      {time : Instant} (h : Answered s inNamespace name log r o)
      (ho : o.validate = .ok stdout) :
      Reports (log ++ [⟨.observe (.execution .success), ()⟩,
          ⟨.publishEvent r (.agentExecuted r.spec.agent name), ()⟩, ⟨.readClock, time⟩])
        inNamespace name (r.finishedStatus stdout time)
  | agentFailed {log : List Exchange} {r : Remediation} {o : Output} {e : Error}
      {time : Instant} (h : Answered s inNamespace name log r o)
      (ho : o.validate = .error e) :
      Reports (log ++ [⟨.observe (.execution .unexpectedResponse), ()⟩,
          ⟨.publishEvent r (.agentFailed e.message), ()⟩, ⟨.readClock, time⟩])
        r.namespaceName r.anyName (r.agentFailedStatus e.message time)

/-- What a pass has heard when it makes a call, and how it goes on where that matters. -/
def Heard (log : List Exchange) : (c : Call) → (c.Answer → Program (Except Error Report)) → Prop
  | .getRemediation ns n, _ => log = [] ∧ ns = inNamespace ∧ n = name
  | .listNodeNames, _ => ∃ r, log = [⟨.getRemediation inNamespace name, .ok (some r)⟩]
  | .replaceRemediation sent, next =>
    ((∃ r, Opened inNamespace name log r ∧ r.lifecycleAction = .addFinalizer ∧
        r.addFinalizer? Remediation.finalizer = some sent) ∨
      ∃ r, Cleared inNamespace name log r ∧
        r.removeFinalizer? Remediation.finalizer = some sent) ∧
    ∀ e, e.isNotFound = false → next (.error e) = .done (.error e)
  | .getNode node, _ =>
    ∃ r, Opened inNamespace name log r ∧
      (r.lifecycleAction = .cleanup ∧ node = r.anyName ∨
        r.lifecycleAction = .proceed ∧ node = name)
  | .replaceNode sent, next =>
    ((∃ before r n, Opened inNamespace name before r ∧ r.lifecycleAction = .cleanup ∧
        log = before ++ [⟨.getNode r.anyName, .ok (some n)⟩] ∧ n.removeTaint? = some sent) ∨
      ∃ before r n time, Opened inNamespace name before r ∧ r.lifecycleAction = .proceed ∧
        n.isTainted = false ∧
        log = before ++ [⟨.getNode name, .ok (some n)⟩, ⟨.readClock, time⟩] ∧
        sent = n.addTaint time ∧
        ∀ m, next (.ok m) = (tainted s inNamespace name r .tainting).map Ending.report) ∧
    ∀ e, e.isNotFound = false → next (.error e) = .done (.error e)
  | .patchStatus ns n st, _ => Reports s inNamespace name log ns n st
  | .listPods ns selector, next =>
    ∃ r command, Announced inNamespace name log r ∧ Command.ofSpec r.spec name = .ok command ∧
      ns = s.agentPodNamespace ∧ selector = s.agentPodSelector ∧
      ∀ pod pods, ∃ next', next (.ok (pod :: pods)) = .call (.execute pod command) next'
  | .execute pod command, _ => ∃ r, Armed s inNamespace name log r pod command
  | .publishEvent _ _, _ | .readClock, _ | .observe _, _ => True

variable {s inNamespace name} {log : List Exchange} {r : Remediation}

theorem Opened.mem (h : Opened inNamespace name log r) :
    ⟨.getRemediation inNamespace name, .ok (some r)⟩ ∈ log := by
  obtain ⟨-⟩ := h
  simp

theorem Cleared.mem (h : Cleared inNamespace name log r) :
    ⟨.getRemediation inNamespace name, .ok (some r)⟩ ∈ log := by
  cases h with
  | absent h _ => simp [h.mem]
  | clean h _ _ => simp [h.mem]
  | removed h _ _ => simp [h.mem]
  | vanished h _ _ _ => simp [h.mem]

theorem Marked.mem (h : Marked inNamespace name log r) :
    ⟨.getRemediation inNamespace name, .ok (some r)⟩ ∈ log := by
  obtain ⟨h, -, -⟩ := h
  simp [h.mem]

theorem Announced.mem (h : Announced inNamespace name log r) :
    ⟨.getRemediation inNamespace name, .ok (some r)⟩ ∈ log := by
  obtain ⟨h⟩ := h
  simp [h.mem]

/-- The status goes to the request that was asked for, or to the one that was answered. -/
theorem Reports.key_eq {ns n : String} {status : Status}
    (h : Reports s inNamespace name log ns n status) :
    (ns, n) = (inNamespace, name) ∨
      ∃ r, ⟨.getRemediation inNamespace name, .ok (some r)⟩ ∈ log ∧ (ns, n) = r.key := by
  cases h with
  | @started _ r _ h => exact .inr ⟨r, by simp [h.mem], rfl⟩
  | finished _ _ => exact .inl rfl
  | @agentFailed _ r _ _ _ h _ =>
      obtain ⟨⟨h, -⟩⟩ := h
      exact .inr ⟨r, by simp [h.mem], rfl⟩

theorem Cleared.lifecycleAction_eq (h : Cleared inNamespace name log r) :
    r.lifecycleAction = .cleanup := by
  cases h with
  | absent _ hr => exact hr
  | clean _ hr _ => exact hr
  | removed _ hr _ => exact hr
  | vanished _ hr _ _ => exact hr

/-! ### The walk through a pass

From the last phase to the first, every call that a phase makes comes up after what was
heard, if the phase is entered at its milestone.
-/

/-- Whether or not the table of phases has the step, nothing is called for it. -/
theorem every_enter {t : Tracker} {p : Phase} {next : Tracker → Program Ending}
    {P : List Exchange → (c : Call) → (c.Answer → Program (Except Error Report)) → Prop}
    (h : ∀ t, ((next t).map Ending.report).Every P log) :
    ((enter t p next).map Ending.report).Every P log := by
  unfold enter
  split
  · exact h _
  · exact trivial

theorem every_succeeded {o : Output} {stdout : String} (h : Answered s inNamespace name log r o)
    (ho : o.validate = .ok stdout) (t : Tracker) :
    ((succeeded inNamespace name r stdout t).map Ending.report).Every
      (Heard s inNamespace name) log := by
  -- the metrics, the event and the clock come before the status
  refine ⟨trivial, fun _ => ⟨trivial, fun _ => ⟨trivial, ?_⟩⟩⟩
  intro time
  refine ⟨?_, ?_⟩
  · have hw : Reports s inNamespace name _ _ _ (r.finishedStatus stdout time) := .finished h ho
    simpa [Heard] using hw
  · intro a
    cases a <;> exact trivial

theorem every_answeredElse {o : Output} {e : Error} (h : Answered s inNamespace name log r o)
    (ho : o.validate = .error e) (t : Tracker) :
    ((answeredElse r e t).map Ending.report).Every (Heard s inNamespace name) log := by
  refine ⟨trivial, fun _ => ⟨trivial, fun _ => ⟨trivial, ?_⟩⟩⟩
  intro time
  refine ⟨?_, fun _ => trivial⟩
  have hw : Reports s inNamespace name _ _ _ (r.agentFailedStatus e.message time) :=
    .agentFailed h ho
  simpa [Heard] using hw

theorem every_runningIn {pod : Pod} {command : List String}
    (h : Armed s inNamespace name log r pod command) (t : Tracker) :
    ((runningIn inNamespace name r command t pod).map Ending.report).Every
      (Heard s inNamespace name) log := by
  refine ⟨⟨r, h⟩, ?_⟩
  intro a
  cases a with
  | error e => exact ⟨trivial, fun _ => ⟨trivial, fun _ => trivial⟩⟩
  | ok o =>
      apply every_enter
      intro t
      have ha : Answered s inNamespace name _ r o := .intro h
      unfold responseValidating
      split
      · next stdout ho => exact every_succeeded ha ho t
      · next e ho => exact every_answeredElse ha ho t

theorem every_executing {command : List String} (h : Announced inNamespace name log r)
    (hc : Command.ofSpec r.spec name = .ok command) (t : Tracker) :
    ((executing s inNamespace name r command t).map Ending.report).Every
      (Heard s inNamespace name) log := by
  refine ⟨⟨r, command, h, hc, rfl, rfl, fun pod pods => ⟨_, rfl⟩⟩, ?_⟩
  intro a
  match a with
  | .error e => exact trivial
  | .ok [] => exact trivial
  | .ok (pod :: pods) => exact every_runningIn (.intro h hc) t

theorem every_tainted (h : Marked inNamespace name log r) (t : Tracker) :
    ((tainted s inNamespace name r t).map Ending.report).Every
      (Heard s inNamespace name) log := by
  refine ⟨trivial, fun _ => ⟨trivial, ?_⟩⟩
  intro time
  refine ⟨?_, ?_⟩
  · have hw : Reports s inNamespace name _ _ _ (r.startedStatus time) := .started h
    simpa [Heard] using hw
  · intro a
    have ha : Announced inNamespace name (log ++ [⟨.publishEvent r (.taintAdded name), ()⟩,
        ⟨.readClock, time⟩,
        ⟨.patchStatus r.namespaceName r.anyName (r.startedStatus time), a⟩]) r :=
      .intro h
    apply every_enter
    intro t
    unfold parameterBuilding
    split
    · exact ⟨trivial, fun _ => trivial⟩
    · next command hc =>
        apply every_enter
        intro t
        refine every_executing ?_ hc t
        simpa using ha

theorem every_tainting (h : Opened inNamespace name log r) (hr : r.lifecycleAction = .proceed) :
    ((tainting s inNamespace name r .tainting).map Ending.report).Every
      (Heard s inNamespace name) log := by
  refine ⟨⟨r, h, .inr ⟨hr, rfl⟩⟩, ?_⟩
  intro a
  match a with
  | .error e => exact trivial
  | .ok none => exact trivial
  | .ok (some n) =>
      by_cases hn : n.isTainted = true
      · simp only [hn, if_true]
        exact trivial
      · have hn' : n.isTainted = false := by simpa using hn
        simp only [hn', Node.applyTaint?_of_not_isTainted hn', Bool.false_eq_true, if_false]
        refine ⟨trivial, ?_⟩
        intro time
        refine ⟨⟨.inr ?_, fun e _ => rfl⟩, ?_⟩
        · exact ⟨log, r, n, time, h, hr, hn', by simp, rfl, fun m => rfl⟩
        · intro a
          cases a with
          | error e => exact trivial
          | ok m =>
              have hmarked : Marked inNamespace name (log ++ [⟨.getNode name, .ok (some n)⟩,
                  ⟨.readClock, time⟩, ⟨.replaceNode (n.addTaint time), .ok m⟩]) r :=
                .intro h hr hn'
              refine every_tainted ?_ _
              simpa using hmarked

/-- The finalizer is only given up at a cleared node; a refusal other than a missing request ends
the pass. -/
theorem every_release {t : Tracker} {k : Except Error LifecycleOutcome → Program Ending}
    (h : Cleared inNamespace name log r) (hk : ∀ e, k (.error e) = failed t e)
    (hd : k (.ok .deletionComplete) = ended t .deletionComplete) :
    (((Lifecycle.release r).bind k).map Ending.report).Every (Heard s inNamespace name) log := by
  have hdone : ∀ log, ((Program.call (.publishEvent r .finalizerRemoved) fun _ =>
      k (.ok .deletionComplete)).map Ending.report).Every (Heard s inNamespace name) log := by
    intro log
    rw [hd]
    exact ⟨trivial, fun _ => trivial⟩
  unfold Lifecycle.release
  cases hf : r.removeFinalizer? Remediation.finalizer with
  | none => exact hdone log
  | some sent =>
      refine ⟨⟨.inr ⟨r, h, hf⟩, ?_⟩, ?_⟩
      · intro e he
        simp only [he, Bool.false_eq_true, if_false, Program.bind_done, hk]
        rfl
      · intro a
        cases a with
        | ok r' => exact hdone _
        | error e =>
            cases he : e.isNotFound with
            | true =>
                simp only [he, if_true]
                exact hdone _
            | false =>
                simp only [he, Bool.false_eq_true, if_false, Program.bind_done, hk]
                exact trivial

theorem every_cleanUp {t : Tracker} {k : Except Error LifecycleOutcome → Program Ending}
    (h : Opened inNamespace name log r) (hr : r.lifecycleAction = .cleanup)
    (hk : ∀ e, k (.error e) = failed t e)
    (hd : k (.ok .deletionComplete) = ended t .deletionComplete) :
    (((Lifecycle.cleanUp r).bind k).map Ending.report).Every (Heard s inNamespace name) log := by
  have hfail : ∀ log e, ((k (.error e)).map Ending.report).Every
      (Heard s inNamespace name) log := by
    intro log e
    rw [hk]
    exact trivial
  refine ⟨⟨r, h, .inl ⟨hr, rfl⟩⟩, ?_⟩
  intro a
  match a with
  | .error e => exact hfail _ e
  | .ok none => exact every_release (.absent h hr) hk hd
  | .ok (some n) =>
      cases hn : n.removeTaint? with
      | none =>
          simp only [hn]
          exact every_release (.clean h hr hn) hk hd
      | some sent =>
          simp only [hn]
          refine ⟨⟨.inl ⟨log, r, n, h, hr, rfl, hn⟩, ?_⟩, ?_⟩
          · intro e he
            simp only [he, Bool.false_eq_true, if_false, Program.bind_done, hk]
            rfl
          · intro a
            cases a with
            | ok m => exact every_release (.removed h hr hn) hk hd
            | error e =>
                cases he : e.isNotFound with
                | true =>
                    simp only [he, if_true]
                    exact every_release (.vanished h hr hn he) hk hd
                | false =>
                    simp only [he, Bool.false_eq_true, if_false]
                    exact hfail _ e

theorem every_lifecycleHandling (h : Opened inNamespace name log r) :
    ((lifecycleHandling s inNamespace name r
      ⟨[.fetching, .nodeValidating], .lifecycleHandling⟩).map Ending.report).Every
        (Heard s inNamespace name) log := by
  unfold lifecycleHandling Lifecycle.handle
  cases hr : r.lifecycleAction with
  | addFinalizer =>
      simp only [Lifecycle.attach]
      cases hf : r.addFinalizer? Remediation.finalizer with
      | none => exact ⟨trivial, fun _ => trivial⟩
      | some sent =>
          refine ⟨⟨.inl ⟨r, h, hr, hf⟩, fun e _ => rfl⟩, ?_⟩
          intro a
          cases a with
          | error e => exact trivial
          | ok r' => exact ⟨trivial, fun _ => trivial⟩
  | cleanup => exact every_cleanUp h hr (fun e => rfl) rfl
  | awaitRemoval => exact trivial
  | proceed => exact every_tainting h hr

theorem every_fetching :
    ((fetching s inNamespace name .start).map Ending.report).Every
      (Heard s inNamespace name) [] := by
  refine ⟨⟨rfl, rfl, rfl⟩, ?_⟩
  intro a
  match a with
  | .error e => exact trivial
  | .ok none => exact trivial
  | .ok (some r) =>
      refine ⟨⟨r, rfl⟩, ?_⟩
      intro a
      match a with
      | .error e => exact trivial
      | .ok names =>
          by_cases h : (names.contains name || (r.isDeleted && r.hasFinalizer)) = true
          · simp only [h, if_true]
            exact every_lifecycleHandling (.intro h)
          · simp only [h, Bool.false_eq_true, if_false]
            exact trivial

/-- **No call of a pass comes up without its milestone.** -/
theorem heard {c : Call} {next : c.Answer → Program (Except Error Report)}
    (h : (pass s inNamespace name).Reaches log (.call c next)) :
    Heard s inNamespace name log c next :=
  (every_fetching.of_reaches h).1

end Pass

end NodeFencing
