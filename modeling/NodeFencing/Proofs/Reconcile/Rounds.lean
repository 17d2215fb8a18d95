/-
Rounds: what it is to reconcile a request.

A request is reconciled by a pass, and the metrics are told how the pass ended: well, by
`reconcile`, or not, by `errorPolicy`.  `settle_eq` puts both into one, so that a round is a
pass and one observation after it, and what is done about the request follows from what the
pass ended with.
-/
import NodeFencing.Proofs.Watch
import NodeFencing.Reconcile

namespace NodeFencing.Reconcile

/-- What the metrics are told of a pass over a request that is over. -/
def verdict {α : Type} (r : Remediation) : Except Error α → Observation
  | .ok _ => .reconciled r.namespaceName r.anyName
  | .error _ => .failed r.namespaceName r.anyName

/-- When to come back after a pass. -/
def comeBack : Except Error Report → Action
  | .ok report => afterOutcome report.outcome
  | .error e => afterError e

/-- Reconciling is a pass of which the metrics are told the end. -/
theorem settle_eq (s : Settings) (r : Remediation) :
    settle s r = (Pass.pass s r.namespaceName r.anyName).bind fun result =>
      .call (.observe (verdict r result)) fun _ => .done (comeBack result) := by
  unfold settle reconcile
  rw [Program.bind_assoc]
  refine congrArg (Program.bind _) (funext fun result => ?_)
  cases result <;> rfl

/-- What is done about a request follows from what the pass ended with. -/
theorem run_settle {σ : Type} (serve : (c : Call) → σ → c.Answer × σ) (state : σ) (s : Settings)
    (r : Remediation) :
    ((settle s r).run serve state).1 =
      comeBack ((Pass.pass s r.namespaceName r.anyName).run serve state).1 := by
  rw [settle_eq, Program.run_bind]
  rfl

/-! ### Rounds -/

/-- A request that was reconciled. -/
structure Round where
  request : Remediation
  /-- What the controller was given back. -/
  result : Except Error Action
  /-- The time when the pass was over. -/
  finished : Instant
  /-- All that was said and heard. -/
  log : List Exchange

variable {σ : Type} (others : Others σ) (s : Settings)

/-- One round. -/
def round (r : Remediation) (w : Option Health × σ) : Round where
  request := r
  result := ((reconcile s r).run others.attend w).1
  finished := others.time ((Pass.pass s r.namespaceName r.anyName).run others.attend w).2.2
  log := (settle s r).conversation others.attend w

/-- The rounds over some requests, one after the other. -/
def rounds : List Remediation → Option Health × σ → List Round
  | [], _ => []
  | r :: rest, w => round others s r w :: rounds rest ((settle s r).run others.attend w).2

/-- What is left after the rounds. -/
def afterRounds (requests : List Remediation) (w : Option Health × σ) : Option Health × σ :=
  requests.foldl (fun w r => ((settle s r).run others.attend w).2) w

theorem map_request_rounds (requests : List Remediation) (w : Option Health × σ) :
    (rounds others s requests w).map Round.request = requests := by
  induction requests generalizing w with
  | nil => rfl
  | cons r rest ih => exact congrArg (r :: ·) (ih _)

/-! ### What is said and heard in a round -/

variable (r : Remediation) (h : Option Health) (state : σ)

theorem finished_round :
    (round others s r (h, state)).finished =
      others.time ((Pass.pass s r.namespaceName r.anyName).run others.serve state).2 :=
  congrArg others.time (others.run_attend _ h state).2

/-- What the controller is given back says how the pass ended. -/
theorem verdict_round :
    verdict r (round others s r (h, state)).result =
      verdict r ((Pass.pass s r.namespaceName r.anyName).run others.serve state).1 := by
  rw [← (others.run_attend _ h state).1]
  show verdict r ((reconcile s r).run others.attend (h, state)).1 = _
  unfold reconcile
  rw [Program.run_bind]
  cases ((Pass.pass s r.namespaceName r.anyName).run others.attend (h, state)).1 <;> rfl

/-- In a round all is said and heard in the pass, but for how it ended. -/
theorem log_round :
    (round others s r (h, state)).log =
      (Pass.pass s r.namespaceName r.anyName).conversation others.serve state ++
        [⟨.observe (verdict r (round others s r (h, state)).result), ()⟩] := by
  rw [verdict_round]
  show (settle s r).conversation others.attend (h, state) = _
  rw [settle_eq, Program.conversation_bind, others.conversation_attend,
    (others.run_attend _ h state).1]
  rfl

/-- The health after a round is the one after the pass and how it ended. -/
theorem healthAfter_settle (h : Health) :
    let pass := Pass.pass s r.namespaceName r.anyName
    others.healthAfter (settle s r) h state =
      (others.healthAfter pass h state).observe
        (verdict r (round others s r (some h, state)).result)
        (others.seconds (pass.run others.serve state).2)
        (round others s r (some h, state)).finished := by
  intro pass
  rw [verdict_round, finished_round, settle_eq, others.healthAfter_bind]
  rfl

end NodeFencing.Reconcile
