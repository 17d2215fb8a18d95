/-
What an error calls for, by each account of it.

Four questions are put to an error: is an object not there, was it changed in between, what is
the error about, and may trying again soon help.  How long to wait is read off the answers.  The
last two are tables of their own.  For errors that are no fault of the cluster they say the
same.  Of the faults of the cluster `isRetryable` lists those that pass and takes the others for
ones that stay; `classify` lists those that stay and takes the others for ones that pass.

So the two part over the faults that neither lists, and there only: `IsUnsorted` has them, and
`views_agree_except_unsorted` all that the accounts have to do with one another.
-/
import NodeFencing.Error

namespace NodeFencing

namespace ClusterFault

/-- Whether a fault passes: the object was changed in between, there were too many calls, or the
cluster or the way to it does not work. -/
def Passes : ClusterFault → Prop
  | .refused r => r.code = 409 ∨ r.code = 429 ∨ 500 ≤ r.code
  | .transport _ | .connection _ => True
  | _ => False

/-- Whether a fault stays: the object is not there, or what was sent is wrong. -/
def Stays : ClusterFault → Prop
  | .refused r => r.code = 400 ∨ r.code = 404 ∨ r.code = 422
  | _ => False

/-- Whether a fault is neither listed as one that passes nor as one that stays. -/
def IsUnsorted (f : ClusterFault) : Prop := ¬ f.Passes ∧ ¬ f.Stays

theorem Passes.not_stays {f : ClusterFault} (h : f.Passes) : ¬ f.Stays := by
  cases f with
  | refused r =>
      have hpasses : r.code = 409 ∨ r.code = 429 ∨ 500 ≤ r.code := h
      show ¬ (r.code = 400 ∨ r.code = 404 ∨ r.code = 422)
      omega
  | _ => exact id

end ClusterFault

namespace Error

/-! ### Faults of the cluster -/

theorem hasCode_refused (r : Refusal) (code : Nat) :
    (Error.cluster (.refused r)).hasCode code = true ↔ r.code = code := by
  simp [hasCode, refusal?]

theorem isRetryable_cluster_iff (f : ClusterFault) :
    (Error.cluster f).isRetryable = true ↔ f.Passes := by
  cases f with
  | refused r =>
      show (decide (500 ≤ r.code) || r.code == 429 || r.code == 409) = true ↔
        r.code = 409 ∨ r.code = 429 ∨ 500 ≤ r.code
      simp only [Bool.or_eq_true, decide_eq_true_eq, beq_iff_eq]
      omega
  | transport _ | connection _ => exact iff_of_true rfl trivial
  | _ => exact iff_of_false Bool.false_ne_true id

/-- The class of a refusal by its code. -/
theorem classify_refused_cases (r : Refusal) :
    r.code = 404 ∧ (Error.cluster (.refused r)).classify = .notFound ∨
    (r.code = 400 ∨ r.code = 422) ∧ (Error.cluster (.refused r)).classify = .validation ∨
    (r.code ≠ 400 ∧ r.code ≠ 404 ∧ r.code ≠ 422) ∧
      (Error.cluster (.refused r)).classify = .transientInfra := by
  rw [classify]
  by_cases hgone : r.code = 404
  · exact .inl ⟨hgone, if_pos hgone⟩
  · rw [if_neg hgone]
    by_cases hwrong : r.code = 400 ∨ r.code = 422
    · exact .inr (.inl ⟨hwrong, if_pos hwrong⟩)
    · exact .inr (.inr ⟨by omega, if_neg hwrong⟩)

theorem classify_cluster_eq_transientInfra_iff (f : ClusterFault) :
    (Error.cluster f).classify = .transientInfra ↔ ¬ f.Stays := by
  cases f with
  | refused r =>
      show _ ↔ ¬ (r.code = 400 ∨ r.code = 404 ∨ r.code = 422)
      obtain ⟨hcode, hclass⟩ | ⟨hcode, hclass⟩ | ⟨hcode, hclass⟩ := classify_refused_cases r
      · rw [hclass]
        exact iff_of_false ErrorClass.noConfusion (by omega)
      · rw [hclass]
        exact iff_of_false ErrorClass.noConfusion (by omega)
      · rw [hclass]
        exact iff_of_true rfl (by omega)
  | _ => exact iff_of_true rfl id

/-! ### All errors -/

/-- What is not there is classed so, and nothing else is. -/
theorem isNotFound_iff_classify (e : Error) : e.isNotFound = true ↔ e.classify = .notFound := by
  cases e with
  | cluster f =>
      cases f with
      | refused r =>
          rw [isNotFound, hasCode_refused, Refusal.notFoundCode]
          obtain ⟨hcode, hclass⟩ | ⟨hcode, hclass⟩ | ⟨hcode, hclass⟩ := classify_refused_cases r
          · rw [hclass]
            exact iff_of_true hcode rfl
          · rw [hclass]
            exact iff_of_false (by omega) ErrorClass.noConfusion
          · rw [hclass]
            exact iff_of_false hcode.2.1 ErrorClass.noConfusion
      | _ => exact iff_of_false Bool.false_ne_true ErrorClass.noConfusion
  | _ => exact iff_of_false Bool.false_ne_true ErrorClass.noConfusion

/-- What was changed in between is tried again soon. -/
theorem isRetryable_of_isConflict {e : Error} (h : e.isConflict = true) :
    e.isRetryable = true := by
  cases e with
  | cluster f =>
      cases f with
      | refused r =>
          rw [isConflict, hasCode_refused] at h
          have hpasses : (ClusterFault.refused r).Passes := Or.inl h
          exact (isRetryable_cluster_iff _).mpr hpasses
      | _ => cases h
  | _ => cases h

/-- How long to wait is read off two of the answers. -/
theorem requeueSeconds_iff (e : Error) :
    (e.requeueSeconds = 1 ↔ e.isConflict = true) ∧
    (e.requeueSeconds = 10 ↔ e.isRetryable = true ∧ e.isConflict = false) ∧
    (e.requeueSeconds = 300 ↔ e.isRetryable = false ∧ e.isConflict = false) := by
  unfold requeueSeconds
  cases e.isConflict <;> cases e.isRetryable <;> decide

/-- Away from faults of the cluster, the errors that may pass are those that are classed so. -/
theorem isRetryable_iff_of_not_cluster {e : Error} (h : ∀ f, e ≠ .cluster f) :
    e.isRetryable = true ↔ e.classify = .transientInfra := by
  cases e with
  | cluster f => exact absurd rfl (h f)
  | agentPodNotFound _ _ | execution _ => exact iff_of_true rfl rfl
  | _ => exact iff_of_false Bool.false_ne_true ErrorClass.noConfusion

/-- What is tried again soon is classed as something that passes. -/
theorem classify_of_isRetryable {e : Error} (h : e.isRetryable = true) :
    e.classify = .transientInfra := by
  by_cases hcluster : ∃ f, e = .cluster f
  · obtain ⟨f, rfl⟩ := hcluster
    have hpasses : f.Passes := (isRetryable_cluster_iff f).mp h
    exact (classify_cluster_eq_transientInfra_iff f).mpr hpasses.not_stays
  · exact (isRetryable_iff_of_not_cluster fun f hf => hcluster ⟨f, hf⟩).mp h

/-- The two tables part over the faults that neither lists. -/
theorem classify_and_not_isRetryable_iff (e : Error) :
    e.classify = .transientInfra ∧ e.isRetryable = false ↔
      ∃ f, e = .cluster f ∧ f.IsUnsorted := by
  by_cases hcluster : ∃ f, e = .cluster f
  · obtain ⟨f, rfl⟩ := hcluster
    rw [classify_cluster_eq_transientInfra_iff, ← Bool.not_eq_true, isRetryable_cluster_iff]
    constructor
    · rintro ⟨hstays, hpasses⟩
      exact ⟨f, rfl, hpasses, hstays⟩
    · rintro ⟨f', hf, hpasses, hstays⟩
      obtain rfl := Error.cluster.inj hf
      exact ⟨hstays, hpasses⟩
  · have hsame := isRetryable_iff_of_not_cluster fun f hf => hcluster ⟨f, hf⟩
    constructor
    · rintro ⟨hclass, hretryable⟩
      rw [hsame.mpr hclass] at hretryable
      cases hretryable
    · rintro ⟨f, hf, -⟩
      exact absurd ⟨f, hf⟩ hcluster

/--
**What the accounts of an error have to do with one another.**  An object is not there exactly
if the error is classed so, what was changed in between is tried again soon, and the time to
wait is a second, ten seconds or five minutes by these two.  Of the faults of the cluster those
that pass are tried again soon.  Whatever is tried again soon is classed as something that
passes; what is classed so and not tried again soon is an unsorted fault of the cluster.
-/
theorem views_agree_except_unsorted (e : Error) :
    (e.isNotFound = true ↔ e.classify = .notFound) ∧
    (e.isConflict = true → e.isRetryable = true) ∧
    (e.requeueSeconds = 1 ↔ e.isConflict = true) ∧
    (e.requeueSeconds = 10 ↔ e.isRetryable = true ∧ e.isConflict = false) ∧
    (e.requeueSeconds = 300 ↔ e.isRetryable = false ∧ e.isConflict = false) ∧
    (∀ f, e = .cluster f → (e.isRetryable = true ↔ f.Passes)) ∧
    (e.isRetryable = true → e.classify = .transientInfra) ∧
    (e.classify = .transientInfra ∧ e.isRetryable = false ↔
      ∃ f, e = .cluster f ∧ f.IsUnsorted) := by
  obtain ⟨hsecond, hten, hlong⟩ := e.requeueSeconds_iff
  refine ⟨e.isNotFound_iff_classify, isRetryable_of_isConflict, hsecond, hten, hlong, ?_,
    classify_of_isRetryable, e.classify_and_not_isRetryable_iff⟩
  rintro f rfl
  exact isRetryable_cluster_iff f

/-- The answer to a call that the controller has no leave to make. -/
def forbidden : Error :=
  .cluster (.refused ⟨"Failure", "nodes \"n1\" is forbidden", "Forbidden", 403⟩)

/-- **An error can be classed as something that passes and not be tried again soon.** -/
theorem not_views_agree :
    ¬ ∀ e : Error,
      (e.isRetryable = true ↔ e.classify = .transientInfra) ∧
      (e.isNotFound = true ↔ e.classify = .notFound) ∧
      (e.isConflict = true → e.isRetryable = true) ∧
      (e.requeueSeconds = 1 ↔ e.isConflict = true) ∧
      (e.requeueSeconds = 10 ↔ e.isRetryable = true ∧ e.isConflict = false) ∧
      (e.requeueSeconds = 300 ↔ e.isRetryable = false ∧ e.isConflict = false) ∧
      ∀ f, e = .cluster f → (e.classify = .transientInfra ↔ f.Passes) := by
  intro hagree
  obtain ⟨hretryable, -⟩ := hagree forbidden
  have hclass : forbidden.classify = .transientInfra := rfl
  cases hretryable.mpr hclass

end Error

end NodeFencing
