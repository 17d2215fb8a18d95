/-
Finalizers over many steps.

A finalizer is put at the end of the list of a request, or taken out of it wherever it stands.
Whether there is anything to do is asked four times over, by the two edits themselves, by
`hasFinalizer` and by the action that the life of the request calls for.  If these did not agree,
a finalizer could be reported as put on or taken off with nothing written.

The finalizers are marks of a request, each step being about its own one, so what holds of all
marks holds of them.  What is there after many steps is up to the last step about each.
-/
import NodeFencing.Lifecycle
import NodeFencing.Proofs.Revision.Marking

namespace NodeFencing

namespace Remediation

/-- The finalizers of the request. -/
def finalizers (q : Remediation) : List String := q.metadata.finalizers.getD []

/-- The request with other finalizers. -/
def withFinalizers (q : Remediation) (l : List String) : Remediation :=
  { q with metadata := { q.metadata with finalizers := some l } }

/-- The finalizers of others. -/
def others (q : Remediation) : List String := q.finalizers.filter (· != finalizer)

variable (q : Remediation) (f : String)

theorem hasFinalizer_iff : q.hasFinalizer = true ↔ finalizer ∈ q.finalizers :=
  List.contains_iff_mem

theorem addFinalizer?_eq : q.addFinalizer? f =
    if f ∈ q.finalizers then none else some (q.withFinalizers (q.finalizers ++ [f])) := by
  have hhas : q.metadata.hasFinalizer f = true ↔ f ∈ q.finalizers := List.contains_iff_mem
  unfold addFinalizer? Metadata.addFinalizer?
  by_cases h : f ∈ q.finalizers
  · rw [if_pos h, if_pos (hhas.mpr h)]
    rfl
  · rw [if_neg h, if_neg (mt hhas.mp h)]
    rfl

theorem removeFinalizer?_eq : q.removeFinalizer? f =
    if f ∈ q.finalizers then some (q.withFinalizers (q.finalizers.filter (· != f))) else none := by
  have hhas : q.metadata.hasFinalizer f = true ↔ f ∈ q.finalizers := List.contains_iff_mem
  unfold removeFinalizer? Metadata.removeFinalizer?
  by_cases h : f ∈ q.finalizers
  · rw [if_pos h, if_pos (hhas.mpr h)]
    rfl
  · rw [if_neg h, if_neg (mt hhas.mp h)]
    rfl

variable {q f} {next : Remediation}

theorem addFinalizer?_eq_some_iff : q.addFinalizer? f = some next ↔
    f ∉ q.finalizers ∧ next = q.withFinalizers (q.finalizers ++ [f]) := by
  rw [addFinalizer?_eq]
  by_cases h : f ∈ q.finalizers
  · simp [h]
  · simp [h, eq_comm]

theorem removeFinalizer?_eq_some_iff : q.removeFinalizer? f = some next ↔
    f ∈ q.finalizers ∧ next = q.withFinalizers (q.finalizers.filter (· != f)) := by
  rw [removeFinalizer?_eq]
  by_cases h : f ∈ q.finalizers
  · simp [h, eq_comm]
  · simp [h]

theorem hasFinalizer_of_addFinalizer? (h : q.addFinalizer? finalizer = some next) :
    next.hasFinalizer = true := by
  obtain ⟨-, rfl⟩ := addFinalizer?_eq_some_iff.mp h
  refine (hasFinalizer_iff _).mpr ?_
  show finalizer ∈ q.finalizers ++ [finalizer]
  simp

theorem hasFinalizer_of_removeFinalizer? (h : q.removeFinalizer? finalizer = some next) :
    next.hasFinalizer = false := by
  obtain ⟨-, rfl⟩ := removeFinalizer?_eq_some_iff.mp h
  rw [← Bool.not_eq_true, hasFinalizer_iff]
  show finalizer ∉ q.finalizers.filter (· != finalizer)
  simp

/-- A request without the finalizer can be given it. -/
theorem addFinalizer?_eq_some (h : q.hasFinalizer = false) :
    q.addFinalizer? finalizer = some (q.withFinalizers (q.finalizers ++ [finalizer])) := by
  rw [← Bool.not_eq_true, hasFinalizer_iff] at h
  exact addFinalizer?_eq_some_iff.mpr ⟨h, rfl⟩

/-- A request with the finalizer can be rid of it. -/
theorem removeFinalizer?_eq_some (h : q.hasFinalizer = true) :
    q.removeFinalizer? finalizer = some (q.withFinalizers q.others) :=
  removeFinalizer?_eq_some_iff.mpr ⟨q.hasFinalizer_iff.mp h, rfl⟩

/-- A live request without the finalizer goes on once it has it. -/
theorem proceed_of_addFinalizer (h : q.lifecycleAction = .addFinalizer) :
    ∃ next, q.addFinalizer? finalizer = some next ∧ next.lifecycleAction = .proceed := by
  obtain ⟨hf, hlive⟩ := lifecycleAction_eq_addFinalizer_iff.mp h
  have hadd := addFinalizer?_eq_some hf
  have hheld := hasFinalizer_of_addFinalizer? hadd
  exact ⟨_, hadd, lifecycleAction_eq_proceed_iff.mpr ⟨hheld, hlive⟩⟩

/-- A deleted request with the finalizer is done with once it has it no more. -/
theorem awaitRemoval_of_cleanup (h : q.lifecycleAction = .cleanup) :
    ∃ next, q.removeFinalizer? finalizer = some next ∧ next.lifecycleAction = .awaitRemoval := by
  obtain ⟨hf, hdeleted⟩ := lifecycleAction_eq_cleanup_iff.mp h
  have hremove := removeFinalizer?_eq_some hf
  have hfree := hasFinalizer_of_removeFinalizer? hremove
  exact ⟨_, hremove, lifecycleAction_eq_awaitRemoval_iff.mpr ⟨hfree, hdeleted⟩⟩

end Remediation

/-- A step on the finalizers of a request: one is put on, or taken off. -/
inductive FinalizerStep where
  | add (finalizer : String)
  | remove (finalizer : String)

namespace FinalizerStep

/-- The finalizer that the step is about. -/
def finalizer : FinalizerStep → String
  | .add f | .remove f => f

/-- Whether the step puts its finalizer on. -/
def isAdd : FinalizerStep → Bool
  | .add _ => true
  | .remove _ => false

/-- What a step gives back for a request. -/
def revise? : FinalizerStep → Remediation → Option Remediation
  | .add f, q => q.addFinalizer? f
  | .remove f, q => q.removeFinalizer? f

/-- Finalizers as marks of a request. -/
def marking : Marking FinalizerStep Remediation String where
  items := Remediation.finalizers
  withItems := Remediation.withFinalizers
  isAbout s f := f == s.finalizer
  mark?
    | .add f => some f
    | .remove _ => none
  items_withItems _ _ := rfl
  withItems_withItems _ _ _ := rfl
  isAbout_mark {s} {f} h := by
    cases s with
    | add g =>
        obtain rfl := Option.some.inj h
        exact beq_self_eq_true g
    | remove _ => cases h

theorem wants_marking (s : FinalizerStep) : marking.wants s = s.isAdd := by
  cases s <;> rfl

theorem has_marking_iff (s : FinalizerStep) (q : Remediation) :
    marking.has s q = true ↔ s.finalizer ∈ q.finalizers := by
  simp [Marking.has, marking]

theorem revise?_eq : revise? = marking.revise? := by
  funext s q
  have hhas := has_marking_iff s q
  cases s with
  | add f =>
      show q.addFinalizer? f = if marking.has (.add f) q = true then none
        else some (q.withFinalizers (q.finalizers.filter (· != f) ++ [f]))
      rw [q.addFinalizer?_eq]
      by_cases h : f ∈ q.finalizers
      · rw [if_pos h, if_pos (hhas.mpr h)]
      · have hothers : q.finalizers.filter (· != f) = q.finalizers := by
          refine List.filter_eq_self.mpr ?_
          intro g hg
          simpa using fun heq : g = f => h (heq ▸ hg)
        rw [if_neg h, if_neg (mt hhas.mp h), hothers]
  | remove f =>
      show q.removeFinalizer? f = if marking.has (.remove f) q = false then none
        else some (q.withFinalizers (q.finalizers.filter (· != f) ++ []))
      rw [q.removeFinalizer?_eq, List.append_nil]
      by_cases h : f ∈ q.finalizers
      · rw [if_pos h, hhas.mpr h]
        rfl
      · rw [if_neg h, if_pos (eq_false_of_ne_true (mt hhas.mp h))]

section

variable (r : Remediation) (steps : List FinalizerStep)

/-- A finalizer is there after many steps if the last step about it puts it on; without such a
step, if it was there before. -/
theorem mem_finalizers_revised (f : String) :
    f ∈ (revised revise? r steps).finalizers ↔
      match (steps.filter (·.finalizer == f)).getLast? with
      | some s => s.isAdd = true
      | none => f ∈ r.finalizers := by
  rw [revise?_eq]
  induction steps using List.reverseRecOn with
  | nil => exact Iff.rfl
  | append_singleton steps s ih =>
      rw [revised_concat]
      by_cases h : s.finalizer = f
      · have hlast : ((steps ++ [s]).filter (·.finalizer == f)).getLast? = some s := by
          simp [h]
        rw [hlast, ← h, ← has_marking_iff, Marking.has_revise?, wants_marking]
      · have hfilter : (steps ++ [s]).filter (·.finalizer == f) =
            steps.filter (·.finalizer == f) := by
          simp [h]
        have hkept : ∀ q, (marking.items ((marking.revise? s q).getD q)).filter (· == f) =
            q.finalizers.filter (· == f) := by
          intro q
          refine Marking.filter_revise? ?_
          intro g hg
          obtain rfl : g = s.finalizer := eq_of_beq hg
          exact beq_eq_false_iff_ne.mpr h
        have hmem : ∀ l : List String, f ∈ l ↔ f ∈ l.filter (· == f) := by
          intro l
          simp
        rw [hfilter, ← ih]
        refine (hmem _).trans (Iff.trans ?_ (hmem _).symm)
        exact iff_of_eq (congrArg (f ∈ ·) (hkept _))

/-- The finalizers that no step is about stay, in order. -/
theorem filter_finalizers_revised {p : String → Bool} (hp : ∀ s ∈ steps, p s.finalizer = false) :
    (revised revise? r steps).finalizers.filter p = r.finalizers.filter p := by
  rw [revise?_eq]
  refine Marking.filter_revised (M := marking) ?_
  intro s hs f hf
  obtain rfl : f = s.finalizer := eq_of_beq hf
  exact hp s hs

theorem revised_eq_or : revised revise? r steps = r ∨
    revised revise? r steps = r.withFinalizers (revised revise? r steps).finalizers := by
  rw [revise?_eq]
  exact Marking.revised_eq_or

end

end FinalizerStep

/--
**What steps on its finalizers leave of a request.**  However the request began and whichever
steps were made: an edit gives nothing back exactly if its finalizer is there already, or is not
there to be taken off; else it puts it at the end, or takes it out everywhere and leaves the
others in order.  Nothing but the list changes over all the steps, finalizers that no step is
about stay in order, and any other is there if the last step about it put it on.  What the life
of the request calls for has then something to write, and is dealt with by writing it.
-/
theorem Remediation.finalizers_revised (r : Remediation) (steps : List FinalizerStep) :
    let q := revised FinalizerStep.revise? r steps
    (∀ s, revised FinalizerStep.revise? r (steps ++ [s]) = (s.revise? q).getD q) ∧
    (∀ f, (q.addFinalizer? f = none ↔ f ∈ q.finalizers) ∧
      ∀ next, q.addFinalizer? f = some next → next = q.withFinalizers (q.finalizers ++ [f])) ∧
    (∀ f, (q.removeFinalizer? f = none ↔ f ∉ q.finalizers) ∧
      ∀ next, q.removeFinalizer? f = some next →
        next = q.withFinalizers (q.finalizers.filter (· != f))) ∧
    (q = r ∨ q = r.withFinalizers q.finalizers) ∧
    (∀ p : String → Bool, (∀ s ∈ steps, p s.finalizer = false) →
      q.finalizers.filter p = r.finalizers.filter p) ∧
    (∀ f, f ∈ q.finalizers ↔
      match (steps.filter (·.finalizer == f)).getLast? with
      | some s => s.isAdd = true
      | none => f ∈ r.finalizers) ∧
    (q.lifecycleAction = .addFinalizer →
      ∃ next, q.addFinalizer? finalizer = some next ∧ next.lifecycleAction = .proceed) ∧
    (q.lifecycleAction = .cleanup →
      ∃ next, q.removeFinalizer? finalizer = some next ∧ next.lifecycleAction = .awaitRemoval) := by
  intro q
  refine ⟨fun s => revised_concat .., ?_, ?_, FinalizerStep.revised_eq_or r steps,
    fun _ => FinalizerStep.filter_finalizers_revised r steps,
    FinalizerStep.mem_finalizers_revised r steps, proceed_of_addFinalizer,
    awaitRemoval_of_cleanup⟩
  · intro f
    refine ⟨?_, fun next h => (addFinalizer?_eq_some_iff.mp h).2⟩
    rw [q.addFinalizer?_eq]
    by_cases h : f ∈ q.finalizers <;> simp [h]
  · intro f
    refine ⟨?_, fun next h => (removeFinalizer?_eq_some_iff.mp h).2⟩
    rw [q.removeFinalizer?_eq]
    by_cases h : f ∈ q.finalizers <;> simp [h]

end NodeFencing
