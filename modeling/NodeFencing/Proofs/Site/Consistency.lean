/-
Whether what a status says goes together.

Where remediation succeeded, the agent did, and processing is over.  A status that is
written when the agent succeeded says all of that at once.  The other two set one condition
and carry the rest over from the request as the pass read it, so after a success of an
earlier run they say that remediation succeeded, although it is underway again or the
agent has failed.  `isConsistent_iff` reads off the last write whether that is so.
-/
import NodeFencing.Proofs.Site.Transitions

namespace NodeFencing

/-- Where remediation succeeded, the agent did, and processing is over. -/
def Status.IsConsistent (s : Status) : Prop :=
  Condition.holds .succeeded s.conditions = true →
    Condition.holds .agentSucceeded s.conditions = true ∧
      Condition.holds .processing s.conditions = false

instance (s : Status) : Decidable s.IsConsistent := inferInstanceAs (Decidable (_ → _))

namespace Remediation

variable {q : Remediation} {status : Status} {aspects : List Aspect}

theorem Tells.holds_succeeded_iff (h : q.Tells status aspects) :
    Condition.holds .succeeded status.conditions = true ↔
      .succeeded ∈ aspects ∨ Condition.holds .succeeded q.conditions = true := by
  cases h with
  | started time => simp [startedStatus]
  | finished stdout time => simp [finishedStatus]
  | agentFailed note time => simp [agentFailedStatus]

/-- A status that does not set whether remediation succeeded takes that over, and contradicts
it. -/
theorem Tells.isConsistent_iff (h : q.Tells status aspects) :
    status.IsConsistent ↔
      .succeeded ∈ aspects ∨ Condition.holds .succeeded q.conditions = false := by
  unfold Status.IsConsistent
  rw [h.holds_succeeded_iff]
  cases h with
  | started time => simp [startedStatus]
  | finished stdout time => simp [finishedStatus]
  | agentFailed note time => simp [agentFailedStatus]

end Remediation

/-! ### Where a stored status comes from -/

namespace Cluster

variable {k : Cluster} {inNamespace name : String} {status : Status}

theorem status?_changeRemediation (k : Cluster) (ns n : String) {f : Remediation → Remediation}
    (hf : ∀ q, (f q).status = q.status) (inNamespace name : String) :
    (k.changeRemediation ns n f).status? inNamespace name = k.status? inNamespace name := by
  unfold changeRemediation
  dsimp only
  split
  · rfl
  · next q hq =>
      have hstored : k.remediations.get? (ns, n) = some q := hq
      show ((k.remediations.insert (ns, n) _).get? (inNamespace, name)).bind _ =
        (k.remediations.get? (inNamespace, name)).bind _
      rw [Ordered.get?_insert]
      by_cases hkey : (ns, n) = (inNamespace, name)
      · rw [if_pos hkey, ← hkey, hstored]
        exact hf q
      · rw [if_neg hkey]

theorem status?_changeNode (k : Cluster) (node : String) (f : Node → Node)
    (inNamespace name : String) :
    (k.changeNode node f).status? inNamespace name = k.status? inNamespace name := by
  unfold changeNode
  dsimp only
  split <;> rfl

/-- Others bring in a status only with a request that has one. -/
theorem status?_edit {e : Edit} (he : ∀ q, e = .addRemediation q → q.status = none)
    (h : (k.edit e).status? inNamespace name = some status) :
    k.status? inNamespace name = some status := by
  cases e with
  | addRemediation q =>
      change ((k.remediations.insert q.key _).get? (inNamespace, name)).bind _ = _ at h
      rw [Ordered.get?_insert] at h
      split at h
      · have hnone : q.status = some status := h
        rw [he q rfl] at hnone
        cases hnone
      · exact h
  | removeRemediation ns n =>
      change ((k.remediations.erase (ns, n)).get? (inNamespace, name)).bind _ = _ at h
      rw [Ordered.get?_erase] at h
      split at h
      · cases h
      · exact h
  | setTaints node taints => exact (k.status?_changeNode node _ _ _).symm.trans h
  | markDeleted ns n time =>
      refine (k.status?_changeRemediation ns n ?_ _ _).symm.trans h
      exact fun q => rfl
  | setFinalizers ns n finalizers =>
      refine (k.status?_changeRemediation ns n ?_ _ _).symm.trans h
      exact fun q => rfl
  | setSpec ns n spec =>
      refine (k.status?_changeRemediation ns n ?_ _ _).symm.trans h
      exact fun q => rfl
  | _ => exact h

theorem status?_foldl_edit {edits : List Edit}
    (he : ∀ q, .addRemediation q ∈ edits → q.status = none)
    (hk : k.status? inNamespace name = none) :
    (edits.foldl edit k).status? inNamespace name = none := by
  induction edits generalizing k with
  | nil => exact hk
  | cons e edits ih =>
      refine ih (fun q hq => he q (List.mem_cons_of_mem e hq)) ?_
      cases hstatus : (k.edit e).status? inNamespace name with
      | none => rfl
      | some status =>
          have hbefore := status?_edit (fun q hq => he q (by simp [hq])) hstatus
          rw [hk] at hbefore
          cases hbefore

/-- A call brings in a status only by writing it. -/
theorem status?_answer {w : Surroundings} {c : Call} {fate : Fate}
    (h : (k.answer w c fate).2.status? inNamespace name = some status) :
    k.status? inNamespace name = some status ∨ c = .patchStatus inNamespace name status := by
  unfold status? at h ⊢
  rcases k.remediation?_answer w c fate inNamespace name with
    heq | ⟨sent, stored, -, -, hstored, -, heq⟩ | ⟨status', stored, hc, -, heq⟩
  · left
    rwa [heq] at h
  · -- a request that is replaced keeps its status, unless it is gone
    left
    rw [heq] at h
    rw [hstored]
    split at h
    · cases h
    · exact h
  · right
    rw [heq] at h
    obtain rfl : status' = status := Option.some.inj h
    exact hc

end Cluster

namespace Run

/-- Requests come without a status. -/
structure StartsBlank (r : Run) : Prop where
  start : ∀ ns name, r.start.status? ns name = none
  added : ∀ t q, r.moves t = .edit (.addRemediation q) → q.status = none

/-- The status that is stored at a time was written by a pass, which had read a request. -/
structure StatusFrom (r : Run) (t : Nat) (ns name : String) (status : Status) (v i g : Nat)
    (p : Remediation) (aspects : List Aspect) : Prop where
  lt : v < t
  /-- The write had its effect, whatever the pass was told of that. -/
  made : ∃ a, r.made v = some (i, ⟨.patchStatus ns name status, a⟩)
  kept : ∀ u, v < u → u ≤ t → (r.cluster u).status? ns name = some status
  read_lt : g < v
  read : r.made g = some (i, ⟨.getRemediation ns name, .ok (some p)⟩)
  tells : p.Tells status aspects

variable {r : Run} {t : Nat} {ns name : String} {status : Status}

theorem status?_succ (hblank : r.StartsBlank)
    (h : (r.cluster (t + 1)).status? ns name = some status) :
    (r.cluster t).status? ns name = some status ∨
      ∃ i a, r.made t = some (i, ⟨.patchStatus ns name status, a⟩) := by
  rcases r.cluster_succ t with heq | ⟨e, hm, heq⟩ | ⟨i, w, fate, _, c, _, -, -, hmade, heq⟩
  · left
    rwa [heq] at h
  · left
    rw [heq] at h
    refine Cluster.status?_edit ?_ h
    rintro q rfl
    exact hblank.added t q hm
  · rw [heq] at h
    rcases Cluster.status?_answer h with hbefore | rfl
    · exact .inl hbefore
    · exact .inr ⟨i, _, hmade⟩

theorem exists_statusFrom (hblank : r.StartsBlank)
    (h : (r.cluster t).status? ns name = some status) :
    ∃ v i g p aspects, r.StatusFrom t ns name status v i g p aspects := by
  induction t with
  | zero =>
      have hnone : (r.cluster 0).status? ns name = none := hblank.start ns name
      rw [hnone] at h
      cases h
  | succ t ih =>
      rcases status?_succ hblank h with hbefore | ⟨i, a, hmade⟩
      · obtain ⟨v, i, g, p, aspects, hlt, hmade, hkept, hgv, hread, htells⟩ := ih hbefore
        refine ⟨v, i, g, p, aspects, by omega, hmade, ?_, hgv, hread, htells⟩
        intro u hvu hut
        rcases Nat.lt_or_eq_of_le hut with hlt | rfl
        · exact hkept u hvu (by omega)
        · exact h
      · obtain ⟨-, g, p, aspects, hgt, hread, htells, -⟩ := exists_tells_of_made hmade
        refine ⟨t, i, g, p, aspects, Nat.lt_succ_self t, ⟨a, hmade⟩, ?_, hgt, hread, htells⟩
        intro u htu hut
        obtain rfl : u = t + 1 := by omega
        exact h

/-- A request that says that it succeeded was told so by a pass whose agent succeeded. -/
theorem exists_success (hblank : r.StartsBlank)
    (h : (r.cluster t).status? ns name = some status)
    (hs : Condition.holds .succeeded status.conditions = true) :
    ∃ u j, ∃ q : Remediation, ∃ stdout time a, u < t ∧
      r.made u = some (j, ⟨.patchStatus ns name (q.finishedStatus stdout time), a⟩) := by
  -- what the last writer read was stored before, so go back from write to read until a write
  -- has set the condition itself
  induction t using Nat.strongRecOn generalizing status with
  | ind t ih =>
      obtain ⟨v, i, g, p, aspects, hfrom⟩ := exists_statusFrom hblank h
      have hvt := hfrom.lt
      have hgv := hfrom.read_lt
      rcases hfrom.tells.holds_succeeded_iff.mp hs with hset | hread
      · obtain ⟨a, hmade⟩ := hfrom.made
        cases hfrom.tells with
        | started time => simp at hset
        | agentFailed note time => simp at hset
        | finished stdout time => exact ⟨v, i, p, stdout, time, a, hvt, hmade⟩
      · -- the pass has taken it over from what it read
        cases hp : p.status with
        | none => simp [Remediation.conditions, hp, Condition.holds, Condition.find?] at hread
        | some before =>
            have hstored : (r.cluster g).status? ns name = some before := by
              unfold Cluster.status?
              rw [r.remediation?_of_made hfrom.read]
              exact hp
            rw [Remediation.conditions_eq hp] at hread
            obtain ⟨u, j, q, stdout, time, a, hu, hmade⟩ := ih g (by omega) hstored hread
            exact ⟨u, j, q, stdout, time, a, by omega, hmade⟩

/--
**What a stored status says goes together, or is taken over.**  If requests come without a
status, then a status that is stored is that of the last write.  It is consistent if that
write told of a success, or if the request as the pass read it did not say that remediation
succeeded; and else it is not.  A request that says that it succeeded was told so by some
pass whose agent succeeded, be it the last one or not.
-/
theorem isConsistent_iff_of_stored (r : Run) (hblank : r.StartsBlank) (t : Nat)
    (ns name : String) (status : Status) (h : (r.cluster t).status? ns name = some status) :
    (∃ v i g p aspects, r.StatusFrom t ns name status v i g p aspects ∧
      (status.IsConsistent ↔
        .succeeded ∈ aspects ∨ Condition.holds .succeeded p.conditions = false)) ∧
    (Condition.holds .succeeded status.conditions = true →
      ∃ u j, ∃ q : Remediation, ∃ stdout time a, u < t ∧
        r.made u = some (j, ⟨.patchStatus ns name (q.finishedStatus stdout time), a⟩)) := by
  obtain ⟨v, i, g, p, aspects, hfrom⟩ := exists_statusFrom hblank h
  exact ⟨⟨v, i, g, p, aspects, hfrom, hfrom.tells.isConsistent_iff⟩, exists_success hblank h⟩

/-! ### An agent that fails after it succeeded

The agent succeeds, others take the taint off the node, and in the next pass the agent
answers nothing.
-/

/-- The second pass has an agent that answers nothing. -/
def refailed : Run := twice ⟨default, .ok ⟨"", ""⟩⟩

theorem isSequential_refailed : refailed.IsSequential := by
  apply (restsFrom_twice _).isSequential 2
  decide +kernel

theorem startsBlank_refailed : refailed.StartsBlank where
  start ns name := by
    refine Cluster.status?_foldl_edit (fun q hq => ?_) rfl
    simp [setting] at hq
    rw [hq]
  added t q hm := by cases edit_twice hm

/-- The request says that remediation succeeded, and that the agent failed. -/
theorem exists_status_refailed :
    ∃ status, (refailed.cluster 31).status? "default" "n1" = some status ∧
      Condition.holds .succeeded status.conditions = true ∧
      Condition.holds .agentSucceeded status.conditions = false := by
  have hcheck : ((refailed.cluster 31).status? "default" "n1").any (fun status =>
      Condition.holds .succeeded status.conditions &&
        !Condition.holds .agentSucceeded status.conditions) = true := by
    decide +kernel
  obtain ⟨status, hstored, hsays⟩ := (Option.any_eq_true _ _).mp hcheck
  exact ⟨status, hstored, by simpa using hsays⟩

/-- **A request can say that remediation succeeded after the agent has failed.**  Passes do not
overlap, and others only change taints of nodes. -/
theorem not_isConsistent :
    ¬ ∀ (r : Run) (t : Nat) (ns name : String) (status : Status), r.IsSequential →
      r.StartsBlank → (∀ t e, r.moves t = .edit e → ∃ node taints, e = .setTaints node taints) →
      (r.cluster t).status? ns name = some status → status.IsConsistent := by
  intro hconsistent
  obtain ⟨status, hstored, hsucceeded, hfailed⟩ := exists_status_refailed
  have hedits : ∀ t e, refailed.moves t = .edit e → ∃ node taints, e = .setTaints node taints :=
    fun t e hm => ⟨"n1", none, edit_twice hm⟩
  have hagent := (hconsistent refailed 31 "default" "n1" status isSequential_refailed
    startsBlank_refailed hedits hstored hsucceeded).1
  rw [hfailed] at hagent
  cases hagent

/-- The last write took over what an earlier one said. -/
theorem isConsistent_iff_of_stored_refailed :
    ∃ status v i g p aspects, refailed.StatusFrom 31 "default" "n1" status v i g p aspects ∧
      ¬ status.IsConsistent ∧ .succeeded ∉ aspects ∧
      Condition.holds .succeeded p.conditions = true := by
  obtain ⟨status, hstored, hsucceeded, hfailed⟩ := exists_status_refailed
  obtain ⟨⟨v, i, g, p, aspects, hfrom, hiff⟩, -⟩ :=
    isConsistent_iff_of_stored refailed startsBlank_refailed 31 "default" "n1" status hstored
  have hnot : ¬ status.IsConsistent := by
    intro hconsistent
    rw [(hconsistent hsucceeded).1] at hfailed
    cases hfailed
  rw [hiff, not_or, Bool.not_eq_false] at hnot
  refine ⟨status, v, i, g, p, aspects, hfrom, ?_, hnot.1, hnot.2⟩
  rwa [hiff, not_or, Bool.not_eq_false]

end Run

end NodeFencing
