/-
The remediation taint over many steps.

Passes put the remediation taint on a node and take it off, again and again, among the taints
of others.  Both write the list of taints as a whole, so what others have there is safe only if
both, and the gate that lets the agent run, agree on which taints are the remediation taint.
They do: `TaintStep.revise?_eq` has both of them as one marking, whose items are the taints with
the key and the effect.  All that is said here follows from that.
-/
import NodeFencing.Node
import NodeFencing.Proofs.Revision.Marking

namespace NodeFencing

/-- The taints of others. -/
def Node.otherTaints (n : Node) : List Taint := n.taints.filter (!·.isRemediation)

/-- A step on the remediation taint: it is put on at a time, or taken off. -/
inductive TaintStep where
  | apply (time : Instant)
  | remove

namespace TaintStep

/-- What a step gives back for a node. -/
def revise? : TaintStep → Node → Option Node
  | .apply time, n => n.applyTaint? time
  | .remove, n => n.removeTaint?

/-- Whether the step wants the taint on the node. -/
def isApply : TaintStep → Bool
  | .apply _ => true
  | .remove => false

/-- The remediation taint as a mark of a node. -/
def marking : Marking TaintStep Node Taint where
  items := Node.taints
  withItems := Node.withTaints
  isAbout _ := Taint.isRemediation
  mark?
    | .apply time => some (.remediation time)
    | .remove => none
  items_withItems := Node.taints_withTaints
  withItems_withItems _ _ _ := rfl
  isAbout_mark {s} {b} h := by
    cases s with
    | apply time =>
        obtain rfl := Option.some.inj h
        simp [Taint.isRemediation, Taint.agrees, Taint.remediation]
    | remove => cases h

theorem wants_marking (s : TaintStep) : marking.wants s = s.isApply := by
  cases s <;> rfl

theorem revise?_eq : revise? = marking.revise? := by
  funext s n
  cases s with
  | apply time =>
      show n.applyTaint? time = if n.isTainted = true then none
        else some (n.withTaints (n.otherTaints ++ [.remediation time]))
      unfold Node.applyTaint? Node.addTaint
      by_cases h : n.isTainted = true
      · rw [if_pos h, if_pos h]
      · have hothers : n.otherTaints = n.taints := by
          refine List.filter_eq_self.mpr ?_
          simpa [Node.isTainted_eq_any] using h
        rw [if_neg h, if_neg h, hothers]
  | remove =>
      show n.removeTaint? = if n.isTainted = false then none
        else some (n.withTaints (n.otherTaints ++ []))
      unfold Node.removeTaint?
      rw [List.append_nil]
      cases n.isTainted <;> rfl

variable (s : TaintStep) (n : Node) (steps : List TaintStep)

/-- A step gives nothing back exactly if the gate says already what the step is for. -/
theorem revise?_eq_none_iff : s.revise? n = none ↔ n.isTainted = s.isApply := by
  rw [revise?_eq, ← wants_marking]
  exact Marking.revise?_eq_none_iff

/-- After a step the gate says what the step is for. -/
theorem isTainted_revise? : ((s.revise? n).getD n).isTainted = s.isApply := by
  rw [revise?_eq, ← wants_marking]
  exact Marking.has_revise? (M := marking)

/-- The taints of others stay, in order. -/
theorem otherTaints_revised : (revised revise? n steps).otherTaints = n.otherTaints := by
  rw [revise?_eq]
  refine Marking.filter_revised (M := marking) ?_
  intro s _ t ht
  have hown : t.isRemediation = true := ht
  rw [hown]
  rfl

/-- Nothing but the list of taints changes. -/
theorem revised_eq_or : revised revise? n steps = n ∨
    revised revise? n steps = n.withTaints (revised revise? n steps).taints := by
  rw [revise?_eq]
  exact Marking.revised_eq_or

variable {n steps}

/-- Once a step gave something back there is at most the one remediation taint, at the end. -/
theorem taints_of_revises (h : Revises revise? n steps) :
    (revised revise? n steps).taints = n.otherTaints ∨
      ∃ time, .apply time ∈ steps ∧
        (revised revise? n steps).taints = n.otherTaints ++ [.remediation time] := by
  rw [revise?_eq] at h ⊢
  obtain ⟨s, hs, hitems⟩ := Marking.exists_items_revised (fun _ => rfl) h
  cases s with
  | apply time => exact .inr ⟨time, hs, hitems⟩
  | remove => exact .inl (hitems.trans (List.append_nil _))

end TaintStep

/-- The taint is on a node if one of its taints has the key and the effect. -/
theorem Node.isTainted_iff (n : Node) : n.isTainted = true ↔
    ∃ t ∈ n.taints, t.key = Taint.remediationKey ∧ t.effect = Taint.remediationEffect := by
  simp [isTainted_eq_any, Taint.isRemediation, Taint.agrees, Taint.remediation]

/--
**What steps on the remediation taint leave of a node.**  However the node began and whichever
steps were made: a step gives nothing back exactly if the gate says already what the step is
for, and then the node stays; after a step the gate says it.  The taints of others are there, in
order.  Once a step gave something back, they are all there is, or the remediation taint comes
after them, without a value and with the time of a step that put it on.  Nothing else of the
node changes, but that an empty spec comes along with the list.
-/
theorem Node.taints_revised (n : Node) (steps : List TaintStep) :
    let m := revised TaintStep.revise? n steps
    (m.isTainted = true ↔
      ∃ t ∈ m.taints, t.key = Taint.remediationKey ∧ t.effect = Taint.remediationEffect) ∧
    (∀ s : TaintStep, let next := revised TaintStep.revise? n (steps ++ [s])
      (s.revise? m = none ↔ m.isTainted = s.isApply) ∧
      (s.revise? m = none → next = m) ∧
      (∀ k, s.revise? m = some k → next = k) ∧
      next.isTainted = s.isApply) ∧
    m.otherTaints = n.otherTaints ∧
    (Revises TaintStep.revise? n steps → m.taints = n.otherTaints ∨
      ∃ time, .apply time ∈ steps ∧
        m.taints =
          n.otherTaints ++ [⟨Taint.remediationKey, Taint.remediationEffect, none, some time⟩]) ∧
    m.metadata = n.metadata ∧ m.status = n.status ∧
    (m.spec = n.spec ∨ m.spec = some { n.spec.getD {} with taints := some m.taints }) := by
  intro m
  refine ⟨m.isTainted_iff, ?_, TaintStep.otherTaints_revised n steps,
    TaintStep.taints_of_revises, ?_⟩
  · intro s next
    have hnext : next = (s.revise? m).getD m := revised_concat ..
    refine ⟨s.revise?_eq_none_iff m, ?_, ?_, ?_⟩
    · intro h
      rw [hnext, h]
      rfl
    · intro k h
      rw [hnext, h]
      rfl
    · rw [hnext]
      exact s.isTainted_revise? m
  · have hrest : m = n ∨ m = n.withTaints m.taints := TaintStep.revised_eq_or n steps
    rcases hrest with h | h
    · rw [h]
      exact ⟨rfl, rfl, .inl rfl⟩
    · have hmetadata : m.metadata = (n.withTaints m.taints).metadata := congrArg Node.metadata h
      have hstatus : m.status = (n.withTaints m.taints).status := congrArg Node.status h
      exact ⟨hmetadata, hstatus, .inr (congrArg Node.spec h)⟩

end NodeFencing
