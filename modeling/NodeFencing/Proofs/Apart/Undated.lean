/-
Objects without their versions and times.

Runs of the same passes agree but for the versions that the cluster gives and the times that
the clock shows.  An object that is `undated` is left without both.  Everything that a pass
decides by is the same on two objects that are equal when they are undated, and so is every
edit that it makes of them, whatever the clock shows at each.
-/
import NodeFencing.Pass
import NodeFencing.Proofs.Conversation

namespace NodeFencing

/-- The metadata without the version. -/
def Metadata.undated (m : Metadata) : Metadata := { m with resourceVersion := none }

/-! ### Nodes -/

/-- The taint without the time at which a pass put it on. -/
def Taint.undated (t : Taint) : Taint :=
  if t.isRemediation then { t with timeAdded := none } else t

@[simp] theorem Taint.isRemediation_undated (t : Taint) :
    t.undated.isRemediation = t.isRemediation := by
  unfold undated
  split <;> rfl

namespace Node

/-- The node without its version and the times of the remediation taint. -/
def undated (n : Node) : Node :=
  { n with
    metadata := n.metadata.undated
    spec := n.spec.map fun s => { s with taints := s.taints.map (List.map Taint.undated) } }

variable {n n' : Node}

@[simp] theorem taints_undated (n : Node) : n.undated.taints = n.taints.map Taint.undated := by
  unfold taints undated
  cases n.spec with
  | none => rfl
  | some s => cases hs : s.taints <;> simp [hs]

@[simp] theorem isTainted_undated (n : Node) : n.undated.isTainted = n.isTainted := by
  simp [isTainted_eq_any, Function.comp_def]

theorem undated_withTaints (n : Node) (taints : List Taint) :
    (n.withTaints taints).undated = n.undated.withTaints (taints.map Taint.undated) := by
  unfold withTaints undated
  cases n.spec <;> rfl

theorem isTainted_eq (h : n.undated = n'.undated) : n.isTainted = n'.isTainted := by
  rw [← isTainted_undated n, h, isTainted_undated]

theorem undated_addTaint (h : n.undated = n'.undated) (time time' : Instant) :
    (n.addTaint time).undated = (n'.addTaint time').undated := by
  have htaints : n.taints.map Taint.undated = n'.taints.map Taint.undated := by
    rw [← taints_undated, h, taints_undated]
  have hnew : (Taint.remediation time).undated = (Taint.remediation time').undated := rfl
  simp only [addTaint, undated_withTaints, List.map_append, List.map_cons, List.map_nil, h,
    htaints, hnew]

theorem undated_removeTaint? (h : n.undated = n'.undated) :
    n.removeTaint?.map undated = n'.removeTaint?.map undated := by
  have hkept : ∀ n : Node, (n.taints.filter (!·.isRemediation)).map Taint.undated =
      n.undated.taints.filter (!·.isRemediation) := by
    intro n
    rw [taints_undated, List.filter_map]
    simp [Function.comp_def]
  unfold removeTaint?
  rw [isTainted_eq h]
  split
  · simp only [Option.map_some, undated_withTaints, hkept, h]
  · rfl

end Node

/-! ### Requests -/

/-- The condition without its time. -/
def Condition.undated (c : Condition) : Condition := { c with lastTransitionTime := "" }

/-- The status without its times. -/
def Status.undated (s : Status) : Status :=
  ⟨s.conditions.map Condition.undated, s.lastUpdateTime.map fun _ => ""⟩

theorem Condition.undated_succeeding (c old : Condition) :
    (c.succeeding old).undated = c.undated := by
  unfold succeeding
  split <;> rfl

/-- Which condition is replaced does not depend on times. -/
theorem Condition.map_undated_set (c : Condition) (cs : List Condition) :
    (set c cs).map undated = set c.undated (cs.map undated) := by
  induction cs with
  | nil => rfl
  | cons old rest ih =>
      by_cases h : old.type = c.type
      · have h' : old.undated.type = c.undated.type := h
        have hsame : c.undated.succeeding old.undated = c.undated := by
          unfold succeeding
          split <;> rfl
        simp only [set, if_pos h, List.map_cons, if_pos h', undated_succeeding, hsame]
      · have h' : ¬ old.undated.type = c.undated.type := h
        simp only [set, if_neg h, List.map_cons, if_neg h', ih]

namespace Remediation

/-- The request without its version and the times of its status. -/
def undated (r : Remediation) : Remediation :=
  { r with metadata := r.metadata.undated, status := r.status.map Status.undated }

variable {r r' : Remediation}

/-- What does not look at versions and times is the same on requests that are equal without. -/
theorem eq_of_undated {α : Type} (f : Remediation → α) (hf : ∀ r, f r.undated = f r)
    (h : r.undated = r'.undated) : f r = f r' := by
  rw [← hf r, h, hf r']

theorem spec_eq (h : r.undated = r'.undated) : r.spec = r'.spec := eq_of_undated _ (fun _ => rfl) h

theorem anyName_eq (h : r.undated = r'.undated) : r.anyName = r'.anyName :=
  eq_of_undated _ (fun _ => rfl) h

theorem namespaceName_eq (h : r.undated = r'.undated) : r.namespaceName = r'.namespaceName :=
  eq_of_undated _ (fun _ => rfl) h

theorem isDeleted_eq (h : r.undated = r'.undated) : r.isDeleted = r'.isDeleted :=
  eq_of_undated _ (fun _ => rfl) h

theorem hasFinalizer_eq (h : r.undated = r'.undated) : r.hasFinalizer = r'.hasFinalizer :=
  eq_of_undated _ (fun _ => rfl) h

theorem lifecycleAction_eq (h : r.undated = r'.undated) :
    r.lifecycleAction = r'.lifecycleAction := by
  unfold lifecycleAction
  rw [hasFinalizer_eq h, isDeleted_eq h]

theorem undated_addFinalizer? (h : r.undated = r'.undated) :
    (r.addFinalizer? finalizer).map undated = (r'.addFinalizer? finalizer).map undated := by
  have hundated : ∀ r : Remediation,
      (r.addFinalizer? finalizer).map undated = r.undated.addFinalizer? finalizer := by
    intro r
    have hf : r.undated.metadata.hasFinalizer finalizer = r.metadata.hasFinalizer finalizer := rfl
    unfold addFinalizer? Metadata.addFinalizer?
    rw [hf]
    split <;> rfl
  rw [hundated, hundated, h]

theorem undated_removeFinalizer? (h : r.undated = r'.undated) :
    (r.removeFinalizer? finalizer).map undated = (r'.removeFinalizer? finalizer).map undated := by
  have hundated : ∀ r : Remediation,
      (r.removeFinalizer? finalizer).map undated = r.undated.removeFinalizer? finalizer := by
    intro r
    have hf : r.undated.metadata.hasFinalizer finalizer = r.metadata.hasFinalizer finalizer := rfl
    unfold removeFinalizer? Metadata.removeFinalizer?
    rw [hf]
    split <;> rfl
  rw [hundated, hundated, h]

theorem undated_conditions (h : r.undated = r'.undated) :
    r.conditions.map Condition.undated = r'.conditions.map Condition.undated := by
  have hundated : ∀ r : Remediation, r.conditions.map Condition.undated = r.undated.conditions := by
    intro r
    unfold conditions undated
    cases r.status <;> rfl
  rw [hundated, hundated, h]

theorem undated_setCondition (h : r.undated = r'.undated) {cs cs' : List Condition}
    (hcs : cs.map Condition.undated = cs'.map Condition.undated) (aspect : Aspect) (holds : Bool)
    (reason message : String) (time time' : Instant) :
    (r.setCondition aspect holds reason message time cs).map Condition.undated =
      (r'.setCondition aspect holds reason message time' cs').map Condition.undated := by
  have hgeneration : r.metadata.generation = r'.metadata.generation :=
    eq_of_undated (fun r => r.metadata.generation) (fun _ => rfl) h
  unfold setCondition
  rw [Condition.map_undated_set, Condition.map_undated_set, hcs, hgeneration]
  rfl

theorem undated_ofConditions {cs cs' : List Condition}
    (hcs : cs.map Condition.undated = cs'.map Condition.undated) (time time' : Instant) :
    (Status.ofConditions cs time).undated = (Status.ofConditions cs' time').undated := by
  simp only [Status.undated, Status.ofConditions, hcs, Option.map_some]

theorem undated_startedStatus (h : r.undated = r'.undated) (time time' : Instant) :
    (r.startedStatus time).undated = (r'.startedStatus time').undated :=
  undated_ofConditions (undated_setCondition h (undated_conditions h) _ _ _ _ _ _) _ _

theorem undated_finishedStatus (h : r.undated = r'.undated) (stdout : String)
    (time time' : Instant) :
    (r.finishedStatus stdout time).undated = (r'.finishedStatus stdout time').undated := by
  refine undated_ofConditions ?_ _ _
  refine undated_setCondition h ?_ _ _ _ _ _ _
  refine undated_setCondition h ?_ _ _ _ _ _ _
  exact undated_setCondition h (undated_conditions h) _ _ _ _ _ _

theorem undated_agentFailedStatus (h : r.undated = r'.undated) (note : String)
    (time time' : Instant) :
    (r.agentFailedStatus note time).undated = (r'.agentFailedStatus note time').undated :=
  undated_ofConditions (undated_setCondition h (undated_conditions h) _ _ _ _ _ _) _ _

end Remediation

/-! ### What is said and heard -/

/-- The call without versions and times. -/
def Call.undated : Call → Call
  | .replaceRemediation r => .replaceRemediation r.undated
  | .patchStatus inNamespace name s => .patchStatus inNamespace name s.undated
  | .replaceNode n => .replaceNode n.undated
  | .publishEvent r e => .publishEvent r.undated e
  | c => c

/-- Whether a call writes an object. -/
def Call.isWrite : Call → Bool
  | .replaceRemediation _ | .patchStatus _ _ _ | .replaceNode _ => true
  | _ => false

/-- Calls that are the same without versions and times are the same, or differ in an object. -/
theorem Call.undated_cases {c c' : Call} (h : c.undated = c'.undated) :
    (c = c' ∧ c.isWrite = false) ∨
      (∃ r r', c = .replaceRemediation r ∧ c' = .replaceRemediation r' ∧ r.undated = r'.undated) ∨
      (∃ ns n s s', c = .patchStatus ns n s ∧ c' = .patchStatus ns n s' ∧ s.undated = s'.undated) ∨
      (∃ n n', c = .replaceNode n ∧ c' = .replaceNode n' ∧ n.undated = n'.undated) ∨
      ∃ r r' e, c = .publishEvent r e ∧ c' = .publishEvent r' e ∧ r.undated = r'.undated := by
  cases c with
  | replaceRemediation r =>
      cases c' with
      | replaceRemediation r' => exact .inr (.inl ⟨r, r', rfl, rfl, by simpa [undated] using h⟩)
      | _ => simp [undated] at h
  | patchStatus ns n s =>
      cases c' with
      | patchStatus ns' n' s' =>
          simp only [undated, Call.patchStatus.injEq] at h
          obtain ⟨rfl, rfl, h⟩ := h
          exact .inr (.inr (.inl ⟨ns, n, s, s', rfl, rfl, h⟩))
      | _ => simp [undated] at h
  | replaceNode n =>
      cases c' with
      | replaceNode n' =>
          exact .inr (.inr (.inr (.inl ⟨n, n', rfl, rfl, by simpa [undated] using h⟩)))
      | _ => simp [undated] at h
  | publishEvent r e =>
      cases c' with
      | publishEvent r' e' =>
          simp only [undated, Call.publishEvent.injEq] at h
          obtain ⟨h, rfl⟩ := h
          exact .inr (.inr (.inr (.inr ⟨r, r', e, rfl, rfl, h⟩)))
      | _ => simp [undated] at h
  | _ => cases c' <;> simp_all [undated, isWrite]

theorem Call.eq_execute {c : Call} {pod : Pod} {command : List String}
    (h : (Call.execute pod command).undated = c.undated) : c = .execute pod command := by
  rcases undated_cases h with ⟨rfl, -⟩ | ⟨_, _, hc, -⟩ | ⟨_, _, _, _, hc, -⟩ | ⟨_, _, hc, -⟩ |
    ⟨_, _, _, hc, -⟩
  · rfl
  · cases hc
  · cases hc
  · cases hc
  · cases hc

/-- The call and its answer without versions and times. -/
def Exchange.undated : Exchange → Exchange
  | ⟨.getRemediation inNamespace name, a⟩ =>
    ⟨.getRemediation inNamespace name, a.map (Option.map Remediation.undated)⟩
  | ⟨.replaceRemediation r, a⟩ => ⟨.replaceRemediation r.undated, a.map Remediation.undated⟩
  | ⟨.patchStatus inNamespace name s, a⟩ => ⟨.patchStatus inNamespace name s.undated, a⟩
  | ⟨.getNode name, a⟩ => ⟨.getNode name, a.map (Option.map Node.undated)⟩
  | ⟨.replaceNode n, a⟩ => ⟨.replaceNode n.undated, a.map Node.undated⟩
  | ⟨.publishEvent r e, a⟩ => ⟨.publishEvent r.undated e, a⟩
  | ⟨.readClock, _⟩ => ⟨.readClock, default⟩
  | ⟨.listNodeNames, a⟩ => ⟨.listNodeNames, a⟩
  | ⟨.listPods inNamespace selector, a⟩ => ⟨.listPods inNamespace selector, a⟩
  | ⟨.execute pod command, a⟩ => ⟨.execute pod command, a⟩
  | ⟨.observe o, a⟩ => ⟨.observe o, a⟩

end NodeFencing
