/-
When a failed pass is tried again.

What is done about an error follows from the error alone: one that says that an object is not
there is taken for the end of the request or of its node, and any other one is tried again
after a while.  Which call it came from is not seen there.  So the calls are traced through the
pass: `FailsAt` names the one that the pass failed at, the last one that was made but for
telling of it, and an error that says that an object is not there is always one that this call
was answered with.

That call may be one for the request or its node.  But it may as well be an errand of the pass,
for the names of the nodes, for pods or for the agent: `retried_or_notFound` has all that is
done about errors, and `not_retried` the request that is given up over a list of pods.
-/
import NodeFencing.Proofs.Pass.Onward
import NodeFencing.Proofs.Reconcile.Rounds
import NodeFencing.Proofs.Site.Run

namespace NodeFencing

/-- Whether a call is for the request or its node. -/
def Call.isOwn : Call → Bool
  | .getRemediation _ _ | .replaceRemediation _ | .patchStatus _ _ _ | .getNode _
  | .replaceNode _ => true
  | _ => false

/-- Whether a call is for what the pass needs besides: the names of the nodes, pods, the agent. -/
def Call.isErrand : Call → Bool
  | .listNodeNames | .listPods _ _ | .execute _ _ => true
  | _ => false

/-- Whether a call only tells of something. -/
def Call.isTelling : Call → Bool
  | .publishEvent _ _ | .observe _ => true
  | _ => false

/-- The call that failed: it was answered with the error, and after it the pass only told of it. -/
def FailsAt (log : List Exchange) (x : Exchange) (e : Error) : Prop :=
  ∃ before after, log = before ++ x :: after ∧ x.1.error? x.2 = some e ∧
    ∀ y ∈ after, y.1.isTelling = true

theorem failsAt_last (before : List Exchange) {x : Exchange} {e : Error}
    (h : x.1.error? x.2 = some e) : FailsAt (before ++ [x]) x e :=
  ⟨before, [], rfl, h, by simp⟩

theorem Error.requeueSeconds_pos (e : Error) : 0 < e.requeueSeconds := by
  unfold requeueSeconds
  split
  · decide
  · split <;> decide

namespace Pass

variable {s : Settings} {inNamespace name : String} {log : List Exchange}

/-- An error that says that an object is not there is one that a call was answered with, after
which the pass only told of it. -/
theorem Fails.exists_failsAt {p : Phase} {e : Error} (h : Fails s inNamespace name log p e)
    (he : e.isNotFound = true) : ∃ x, FailsAt log x e := by
  cases h with
  | request => exact ⟨_, failsAt_last [] rfl⟩
  | names => exact ⟨_, failsAt_last [_] rfl⟩
  | life _ _ hcall =>
      rw [← List.append_assoc]
      exact ⟨_, failsAt_last _ hcall⟩
  | node _ _ => exact ⟨_, failsAt_last _ rfl⟩
  | @taint before _ _ _ _ _ _ _ =>
      exact ⟨_, before ++ [_, _], [], (List.append_assoc before [_, _] [_]).symm, rfl, by simp⟩
  | command _ hc =>
      obtain rfl | ⟨flag, rfl⟩ := Command.ofSpec_error_cases hc <;> cases he
  | pods _ _ => exact ⟨_, failsAt_last _ rfl⟩
  | noPod _ _ => cases he
  | agent _ => exact ⟨_, _, _, rfl, rfl, by simp [Call.isTelling]⟩
  | answer _ ho =>
      obtain rfl := Output.eq_of_validate_eq_error ho
      cases he
  | @status before _ _ _ _ _ _ _ =>
      exact ⟨_, before ++ [_, _, _], [], (List.append_assoc before [_, _, _] [_]).symm, rfl,
        by simp⟩

/-- A pass that fails has failed at one of its steps. -/
theorem fails_of_error {e : Error} (h : (pass s inNamespace name).Reaches log (.done (.error e))) :
    ∃ p, Fails s inNamespace name log p e := by
  have hsteps : (pass s inNamespace name).Finally
      (fun log result => ∀ e, result = .error e → ∃ p, Fails s inNamespace name log p e) [] := by
    refine .bind (follows_fetching.imp ?_)
    intro log ending hfollows e he
    obtain ⟨_, _, -, hreport⟩ | ⟨p, e', hfails, -, hreport⟩ := hfollows.close_cases
    · rw [hreport] at he
      cases he
    · rw [hreport] at he
      obtain rfl := Except.error.inj he
      exact ⟨p, hfails⟩
  exact hsteps.of_reaches h e rfl

/-- A pass whose errand fails has failed there, and fails with the same error. -/
theorem failsAt_errand {result : Except Error Report} {x : Exchange} {e : Error}
    (h : (pass s inNamespace name).Reaches log (.done result)) (hx : x ∈ log)
    (herrand : x.1.isErrand = true) (he : x.1.error? x.2 = some e) :
    result = .error e ∧ FailsAt log x e := by
  obtain ⟨before, after, rfl⟩ := List.append_of_mem hx
  obtain ⟨next, hcall, hafter⟩ := h.at_exchange
  obtain ⟨honward, -⟩ := (every_pass s inNamespace name).of_reaches hcall
  obtain ⟨c, a⟩ := x
  suffices hend : result = .error e ∧ ∀ y ∈ after, y.1.isTelling = true from
    ⟨hend.1, before, after, rfl, he, hend.2⟩
  cases c with
  | listNodeNames | listPods _ _ =>
      cases a with
      | ok _ => cases he
      | error e' =>
          obtain rfl := Option.some.inj he
          rw [honward] at hafter
          cases hafter
          exact ⟨rfl, by simp⟩
  | execute pod command =>
      cases a with
      | ok _ => cases he
      | error e' =>
          obtain rfl := Option.some.inj he
          obtain ⟨r, hnext⟩ := honward.2 e'
          rw [hnext] at hafter
          obtain ⟨_, _, rfl, htold⟩ := hafter.exists_answer
          obtain ⟨_, _, rfl, hdone⟩ := htold.exists_answer
          cases hdone
          exact ⟨rfl, by simp [Call.isTelling]⟩
  | _ => cases herrand

end Pass

namespace Reconcile

/--
**What is done about errors.**  Whoever answers, a pass that failed is left alone exactly if
its error says that an object is not there, and then the call that failed was answered so.
After any other error it is tried again after a while.  A pass whose errand failed ends with
that error at once, so that this is done about it.
-/
theorem retried_or_notFound {σ : Type} (serve : (c : Call) → σ → c.Answer × σ) (state : σ)
    (s : Settings) (r : Remediation) :
    let pass := Pass.pass s r.namespaceName r.anyName
    let log := pass.conversation serve state
    let result := (pass.run serve state).1
    let action := ((settle s r).run serve state).1
    (∀ e, result = .error e →
      action = .awaitChange ∧ e.isNotFound = true ∧ (∃ x, FailsAt log x e) ∨
        action = .requeue e.requeueSeconds ∧ e.isNotFound = false ∧ 0 < e.requeueSeconds) ∧
    ∀ x ∈ log, x.1.isErrand = true → ∀ e, x.1.error? x.2 = some e →
      result = .error e ∧ FailsAt log x e ∧
        action = if e.isNotFound = true then .awaitChange else .requeue e.requeueSeconds := by
  intro pass log result action
  have hrun : pass.Reaches log (.done result) := Program.reaches_conversation serve pass state
  have haction : action = comeBack result := run_settle serve state s r
  refine ⟨?_, ?_⟩
  · intro e he
    rw [haction, he]
    cases hgone : e.isNotFound with
    | true =>
        rw [he] at hrun
        obtain ⟨p, hfails⟩ := Pass.fails_of_error hrun
        exact .inl ⟨if_pos hgone, rfl, hfails.exists_failsAt hgone⟩
    | false => exact .inr ⟨if_neg (by simp [hgone]), rfl, e.requeueSeconds_pos⟩
  · intro x hx herrand e he
    obtain ⟨hresult, hfails⟩ := Pass.failsAt_errand hrun hx herrand he
    rw [haction, hresult]
    exact ⟨rfl, hfails, rfl⟩

/-- The answer about a resource that is not there. -/
def gone : Error :=
  .cluster (.refused
    ⟨"Failure", "the server could not find the requested resource", "NotFound", 404⟩)

/-- A world in which no pods can be listed. -/
def serveWithoutPods : (c : Call) → World → c.Answer × World
  | .listPods _ _, w => (.error gone, w)
  | c, w => World.serve c w

/-- The request and its node are there. -/
def present : World where
  cluster := .ofEdits Run.setting
  now := default

/-- **A request can be given up because no pods can be listed.** -/
theorem not_retried :
    ¬ ∀ (serve : (c : Call) → World → c.Answer × World) (state : World) (s : Settings)
        (r : Remediation),
      let pass := Pass.pass s r.namespaceName r.anyName
      let log := pass.conversation serve state
      let result := (pass.run serve state).1
      let action := ((settle s r).run serve state).1
      (∀ e, result = .error e → action = .awaitChange →
        ∃ x, FailsAt log x e ∧ x.1.isOwn = true ∧ e.isNotFound = true) ∧
      ∀ x ∈ log, x.1.isErrand = true → ∀ e, x.1.error? x.2 = some e →
        action = .requeue e.requeueSeconds ∧ 0 < e.requeueSeconds := by
  intro hretried
  have hcheck : (((Pass.pass {} "default" "n1").conversation serveWithoutPods present).any fun x =>
      x.1.isErrand && x.1.error? x.2 == some gone) = true := by
    decide +kernel
  have haction : ((settle {} ⟨{ name := some "n1" }, ⟨"", none, none⟩, none⟩).run serveWithoutPods
      present).1 = .awaitChange := by
    decide +kernel
  obtain ⟨x, hx, hfails⟩ := List.any_eq_true.mp hcheck
  simp only [Bool.and_eq_true, beq_iff_eq] at hfails
  obtain ⟨hrequeue, -⟩ := (hretried serveWithoutPods present {}
    ⟨{ name := some "n1" }, ⟨"", none, none⟩, none⟩).2 x hx hfails.1 gone hfails.2
  rw [haction] at hrequeue
  cases hrequeue

end Reconcile

end NodeFencing
