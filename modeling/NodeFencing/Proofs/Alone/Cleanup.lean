/-
Cleaning up after a deletion.

A deleted request gives its finalizer up only after the remediation taint is off its node.
That takes two writes to two objects, and either may fail.  `untainted` and `released` are
the two writes as functions of the cluster, and every pass over a deleted request leaves
the cluster as it was, or after the first of them, or after both; it ends well only after
both.

After a pass that failed the request is stored as it was, so the next pass begins where
every pass begins: that is why any number of failures does no harm.
-/
import NodeFencing.Proofs.Alone.Course

namespace NodeFencing

/-- The node as the cleanup leaves it. -/
def Node.cleaned (n : Node) : Node := n.withTaints (n.taints.filter (!·.isRemediation))

theorem Node.isTainted_cleaned (n : Node) : n.cleaned.isTainted = false := by
  simp [isTainted_eq_any, cleaned]

theorem Node.removeTaint?_eq_some {n : Node} (h : n.isTainted = true) :
    n.removeTaint? = some n.cleaned :=
  removeTaint?_eq_some_iff.mpr ⟨h, rfl⟩

/-! ### The two writes -/

namespace Cluster

/-- The cluster when the remediation taint is off the node of a name. -/
def untainted (k : Cluster) (name : String) : Cluster :=
  match (k.node? name).bind Node.removeTaint? with
  | none => k
  | some sent => (k.replaceNode sent).2

/-- The cluster when a request has given the finalizer up. -/
def released (k : Cluster) (q : Remediation) : Cluster :=
  match q.removeFinalizer? Remediation.finalizer with
  | none => k
  | some sent => (k.replaceRemediation sent).2

variable {k : Cluster} {name inNamespace : String} {q : Remediation}

/-- A node without the taint is left alone. -/
theorem untainted_of_carries_eq_false (h : k.carries name = false) : k.untainted name = k := by
  unfold untainted
  cases hn : k.node? name with
  | none => rfl
  | some n =>
      have hclean : n.isTainted = false := by simpa [carries, hn] using h
      simp [Node.removeTaint?, hclean]

/-- A node with the taint is stored without it. -/
theorem Keyed.untainted_eq {n : Node} (hk : k.Keyed) (hn : k.node? name = some n)
    (ht : n.isTainted = true) :
    k.untainted name = { k.bump with
      nodes := k.nodes.insert name (n.cleaned.stamped (k.version + 1)) } := by
  have hsent : n.Edit n.cleaned := .inr ⟨ht, rfl⟩
  simp only [untainted, hn, Option.bind_some, Node.removeTaint?_eq_some ht]
  rw [hk.replaceNode_eq hn hsent]

/-- The node of the name is as it was, or without the taint. -/
theorem Keyed.node?_untainted (hk : k.Keyed) (name : String) :
    (k.untainted name).node? name = k.node? name ∨
      ∃ n, k.node? name = some n ∧
        (k.untainted name).node? name = some (n.cleaned.stamped (k.version + 1)) := by
  by_cases hcarries : k.carries name = true
  · obtain ⟨n, hn, ht⟩ := (Option.any_eq_true _ _).mp hcarries
    exact .inr ⟨n, hn, by simp [hk.untainted_eq hn ht, node?]⟩
  · rw [untainted_of_carries_eq_false (eq_false_of_ne_true hcarries)]
    exact .inl rfl

theorem Keyed.carries_untainted (hk : k.Keyed) (name : String) :
    (k.untainted name).carries name = false := by
  by_cases hcarries : k.carries name = true
  · obtain ⟨n, hn, ht⟩ := (Option.any_eq_true _ _).mp hcarries
    simp [hk.untainted_eq hn ht, carries, node?, n.isTainted_cleaned]
  · rw [untainted_of_carries_eq_false (eq_false_of_ne_true hcarries)]
    exact eq_false_of_ne_true hcarries

theorem Keyed.remediation?_untainted (hk : k.Keyed) (name ns n : String) :
    (k.untainted name).remediation? ns n = k.remediation? ns n := by
  by_cases hcarries : k.carries name = true
  · obtain ⟨m, hm, ht⟩ := (Option.any_eq_true _ _).mp hcarries
    rw [hk.untainted_eq hm ht]
    rfl
  · rw [untainted_of_carries_eq_false (eq_false_of_ne_true hcarries)]

theorem Keyed.untainted (hk : k.Keyed) (name : String) : (k.untainted name).Keyed := by
  unfold Cluster.untainted
  split
  · exact hk
  · exact hk.answer ⟨default, .ok default⟩ (.replaceNode _) .served

theorem node?_released (k : Cluster) (q : Remediation) (name : String) :
    (k.released q).node? name = k.node? name := by
  unfold released
  split
  · rfl
  · next sent _ =>
      rcases k.node?_answer ⟨default, .ok default⟩ (.replaceRemediation sent) .served name with
        heq | ⟨_, _, hc, -⟩
      · exact heq
      · cases hc

/-- A deleted request that has given the finalizer up is gone, unless others hold it. -/
theorem Keyed.remediation?_released (hk : k.Keyed) (hq : k.remediation? inNamespace name = some q)
    (hf : q.hasFinalizer = true) (hd : q.isDeleted = true) :
    (k.released q).remediation? inNamespace name =
      if q.others = [] then none
      else some ((q.withFinalizers q.others).stamped (k.version + 1)) := by
  have hsent : q.Edit (q.withFinalizers q.others) := .inr ⟨hf, rfl⟩
  have hgone : isReleased ((q.withFinalizers q.others).stamped (k.version + 1)) =
      q.others.isEmpty := by
    show (q.isDeleted && q.others.isEmpty) = _
    rw [hd, Bool.true_and]
  simp only [released, Remediation.removeFinalizer?_eq_some hf]
  rw [hk.replaceRemediation_eq hq hsent, hgone]
  cases hothers : q.others with
  | nil => simp [remediation?]
  | cons other rest => simp [remediation?]

end Cluster

/-! ### The programs that make them -/

namespace Course.Yields

variable {f : Course} {k : Cluster} {q : Remediation}

/-- The taint is taken off, or a call fails and nothing is changed. -/
theorem removeTaint (hk : k.Keyed) (name : String) :
    f.Yields (Lifecycle.removeTaint name) k fun _ result k' =>
      (∃ found, result = .ok found ∧ k' = k.untainted name) ∨
        ∃ e, result = .error e ∧ ¬ f.IsCalm ∧ k' = k := by
  refine .getNode ?_ fun e hcalm => .done (.inr ⟨e, rfl, hcalm, rfl⟩)
  cases hn : k.node? name with
  | none => exact .done (.inl ⟨false, rfl, by simp [Cluster.untainted, hn]⟩)
  | some n =>
      cases hm : n.removeTaint? with
      | none =>
          simp only [hm]
          exact .done (.inl ⟨false, rfl, by simp [Cluster.untainted, hn, hm]⟩)
      | some sent =>
          simp only [hm]
          refine .replaceNode hk hn (Node.edit_of_removeTaint? hm) ?_ ?_
          · intro m
            exact .done (.inl ⟨true, rfl, by simp [Cluster.untainted, hn, hm]⟩)
          · -- it does not fail because the node is gone: the node is there
            intro e hcalm he
            simp only [he, Bool.false_eq_true, if_false]
            exact .done (.inr ⟨e, rfl, hcalm, rfl⟩)

/-- The finalizer is given up, or a call fails and nothing is changed. -/
theorem release (hk : k.Keyed) {inNamespace name : String}
    (hq : k.remediation? inNamespace name = some q) (hf : q.hasFinalizer = true) :
    f.Yields (Lifecycle.release q) k fun _ result k' =>
      (result = .ok .deletionComplete ∧ k' = k.released q) ∨
        ∃ e, result = .error e ∧ ¬ f.IsCalm ∧ k' = k := by
  have hreleased : k.released q = (k.replaceRemediation (q.withFinalizers q.others)).2 := by
    simp only [Cluster.released, Remediation.removeFinalizer?_eq_some hf]
  unfold Lifecycle.release
  simp only [Remediation.removeFinalizer?_eq_some hf]
  refine .replaceRemediation hk hq (.inr ⟨hf, rfl⟩) ?_ ?_
  · intro m
    exact .publishEvent (.done (.inl ⟨rfl, hreleased.symm⟩))
  · intro e hcalm he
    simp only [he, Bool.false_eq_true, if_false]
    exact .done (.inr ⟨e, rfl, hcalm, rfl⟩)

/-- Both writes are made, or a call fails before the second one. -/
theorem cleanUp (hk : k.Keyed) {inNamespace name : String}
    (hq : k.remediation? inNamespace name = some q) (hf : q.hasFinalizer = true) :
    f.Yields (Lifecycle.cleanUp q) k fun _ result k' =>
      (result = .ok .deletionComplete ∧ k' = (k.untainted name).released q) ∨
        ∃ e, result = .error e ∧ ¬ f.IsCalm ∧ (k' = k ∨ k' = k.untainted name) := by
  have hname : q.anyName = name := congrArg Prod.snd (hk.request inNamespace name q hq)
  unfold Lifecycle.cleanUp
  rw [hname]
  refine .bind ((Yields.removeTaint hk name).mono ?_)
  rintro _ _ _ (⟨found, rfl, rfl⟩ | ⟨e, rfl, hcalm, rfl⟩)
  · have hq' : (k.untainted name).remediation? inNamespace name = some q := by
      rw [hk.remediation?_untainted, hq]
    refine (Yields.release (hk.untainted name) hq' hf).mono ?_
    rintro _ _ _ (hdone | ⟨e, he, hcalm, hkept⟩)
    · exact .inl hdone
    · exact .inr ⟨e, he, hcalm, .inr hkept⟩
  · exact .done (.inr ⟨e, rfl, hcalm, .inl rfl⟩)

end Course.Yields

/-! ### Passes over a deleted request -/

namespace Job

/-- The request of a pass is to be cleaned up after: it is deleted and has the finalizer. -/
structure Pending (j : Job) (k : Cluster) (q : Remediation) : Prop where
  keyed : k.Keyed
  stored : k.remediation? j.inNamespace j.name = some q
  held : q.hasFinalizer = true
  deleted : q.isDeleted = true

/-- The cleanup is complete: the node is gone or without the taint, and the request is gone, or
stored with the finalizers of others and otherwise as it was. -/
structure CleanedUp (j : Job) (q : Remediation) (k : Cluster) : Prop where
  clean : k.carries j.name = false
  released : ∃ version, k.remediation? j.inNamespace j.name =
    if q.others = [] then none else some ((q.withFinalizers q.others).stamped version)

/-- The cleanup is put off: the request is stored as it was, and the node is as it was, or as it
was without the taint. -/
structure PutOff (j : Job) (q : Remediation) (k k' : Cluster) : Prop where
  request : k'.remediation? j.inNamespace j.name = some q
  node : k'.node? j.name = k.node? j.name ∨
    ∃ n version, k.node? j.name = some n ∧ k'.node? j.name = some (n.cleaned.stamped version)

variable {j : Job} {f : Course} {k : Cluster} {q : Remediation}

/-- A pass over a deleted request does not run the agent, however its calls fare. -/
theorem isExecution_eq_false_of_isDeleted (hq : k.remediation? j.inNamespace j.name = some q)
    (hd : q.isDeleted = true) : ∀ x ∈ (j.alone f k).said, x.1.isExecution = false := by
  intro x hx
  by_contra hexecution
  obtain ⟨pod, command, a, rfl⟩ := Exchange.exists_of_isExecution (eq_true_of_ne_false hexecution)
  obtain ⟨before, after, hsaid⟩ := List.append_of_mem hx
  have hreaches := j.reaches_alone f k
  rw [hsaid] at hreaches
  obtain ⟨⟨r, _, _, _, _, hr, -, hlive, -⟩, -⟩ := Pass.gate_of_execution hreaches
  have hread := remediation?_of_mem (hsaid ▸ List.mem_append_left _ hr)
  obtain rfl : r = q := by simpa using hread.symm.trans hq
  rw [hd] at hlive
  cases hlive

theorem Pending.lifecycleAction_eq (h : j.Pending k q) : q.lifecycleAction = .cleanup :=
  Remediation.lifecycleAction_eq_cleanup_iff.mpr ⟨h.held, h.deleted⟩

theorem Pending.untainted (h : j.Pending k q) : j.Pending (k.untainted j.name) q where
  keyed := h.keyed.untainted j.name
  stored := by rw [h.keyed.remediation?_untainted, h.stored]
  held := h.held
  deleted := h.deleted

/-- A pass over a deleted request makes both writes, or a call fails before the second one. -/
theorem Pending.yields_program (h : j.Pending k q) (f : Course) :
    f.Yields j.program k fun _ result k' =>
      (result = .ok (.handled .deletionComplete) ∧ k' = (k.untainted j.name).released q) ∨
        ∃ e, result = .error e ∧ ¬ f.IsCalm ∧ (k' = k ∨ k' = k.untainted j.name) := by
  refine Job.yields_program h.stored (.inr h.lifecycleAction_eq) ?_ ?_
  · intro _ e hcalm
    exact .inr ⟨e, rfl, hcalm, .inl rfl⟩
  · unfold Lifecycle.handle
    simp only [h.lifecycleAction_eq]
    refine (Course.Yields.cleanUp h.keyed h.stored h.held).mono ?_
    rintro _ _ k' (⟨rfl, hk'⟩ | ⟨e, rfl, hcalm, hk'⟩)
    · exact .inl ⟨rfl, hk'⟩
    · exact .inr ⟨e, rfl, hcalm, hk'⟩

theorem Pending.cleanedUp (h : j.Pending k q) :
    j.CleanedUp q ((k.untainted j.name).released q) where
  clean := by
    have hclean := h.keyed.carries_untainted j.name
    unfold Cluster.carries at hclean ⊢
    rw [Cluster.node?_released, hclean]
  released := ⟨_, h.untainted.keyed.remediation?_released h.untainted.stored h.held h.deleted⟩

theorem Pending.putOff (h : j.Pending k q) {k' : Cluster} (hk' : k' = k ∨ k' = k.untainted j.name) :
    j.Pending k' q ∧ j.PutOff q k k' := by
  rcases hk' with rfl | rfl
  · exact ⟨h, h.stored, .inl rfl⟩
  · refine ⟨h.untainted, h.untainted.stored, ?_⟩
    rcases h.keyed.node?_untainted j.name with heq | ⟨n, hn, heq⟩
    · exact .inl heq
    · exact .inr ⟨n, _, hn, heq⟩

/-- After any number of passes that failed the request is still to be cleaned up after. -/
theorem Pending.after (h : j.Pending k q) (fs : Nat → Course) (t : Nat)
    (hfailed : ∀ u < t, ∃ e, (j.alone (fs u) (j.after fs k u)).result = .error e) :
    j.Pending (j.after fs k t) q := by
  induction t with
  | zero => exact h
  | succ t ih =>
      have hnow := ih fun u hu => hfailed u (by omega)
      obtain ⟨e, he⟩ := hfailed t (by omega)
      rcases alone_of_yields (hnow.yields_program (fs t)) with ⟨hok, -⟩ | ⟨_, -, -, hk'⟩
      · rw [he] at hok
        cases hok
      · exact (hnow.putOff hk').1

/--
**The finalizer is not given up before the taint is off.**  A pass over a deleted request
never runs the agent.  If it ends well, it says so and the cleanup is complete; if it
fails, wherever that is, the request is stored as it was and the node has at most lost the
taint.  So after any number of passes that failed, a pass without failing calls completes
the cleanup.
-/
theorem cleanedUp_or_putOff (j : Job) (k : Cluster) (q : Remediation) (h : j.Pending k q) :
    (∀ f : Course,
      (∀ x ∈ (j.alone f k).said, x.1.isExecution = false) ∧
      (∀ report, (j.alone f k).result = .ok report →
        report.outcome = .deletionComplete ∧ j.CleanedUp q (j.alone f k).cluster) ∧
      ∀ e, (j.alone f k).result = .error e → j.PutOff q k (j.alone f k).cluster) ∧
    ∀ (fs : Nat → Course) (t : Nat),
      (∀ u < t, ∃ e, (j.alone (fs u) (j.after fs k u)).result = .error e) → (fs t).IsCalm →
      ∃ report, (j.alone (fs t) (j.after fs k t)).result = .ok report ∧
        report.outcome = .deletionComplete ∧ j.CleanedUp q (j.after fs k (t + 1)) := by
  refine ⟨?_, ?_⟩
  · intro f
    refine ⟨isExecution_eq_false_of_isDeleted h.stored h.deleted, ?_, ?_⟩
    · intro report hreport
      rcases alone_of_yields (h.yields_program f) with ⟨hok, hk'⟩ | ⟨e, he, -⟩
      · obtain rfl := Except.ok.inj (hok.symm.trans hreport)
        rw [hk']
        exact ⟨rfl, h.cleanedUp⟩
      · cases he.symm.trans hreport
    · intro e he
      rcases alone_of_yields (h.yields_program f) with ⟨hok, -⟩ | ⟨_, -, -, hk'⟩
      · cases hok.symm.trans he
      · exact (h.putOff hk').2
  · intro fs t hfailed hcalm
    have hnow := h.after fs t hfailed
    rcases alone_of_yields (hnow.yields_program (fs t)) with ⟨hok, hk'⟩ | ⟨_, -, hnot, -⟩
    · refine ⟨_, hok, rfl, ?_⟩
      show j.CleanedUp q (j.alone (fs t) (j.after fs k t)).cluster
      rw [hk']
      exact hnow.cleanedUp
    · exact (hnot hcalm).elim

/-! ### A cleanup that fails once -/

/-- A deleted request that others hold too, and a node that has the taint twice. -/
def deleting : Cluster :=
  .ofEdits (Run.setting ++ [
    .setTaints "n1" (some
      [.remediation default, ⟨"disk", "NoSchedule", none, none⟩, .remediation default]),
    .setFinalizers "default" "n1" (some ["backup", Remediation.finalizer]),
    .markDeleted "default" "n1" default])

/-- The first pass fails when it gives the finalizer up, and the second one gets on. -/
theorem cleanedUp_deleting :
    let j : Job := ⟨{}, "default", "n1"⟩
    let fs : Nat → Course := fun t => if t = 0 then .failing 4 else .calm
    ∃ q, j.Pending deleting q ∧ q.others = ["backup"] ∧
      (j.alone (fs 0) deleting).result = .error Cluster.conflict ∧
      j.PutOff q deleting (j.after fs deleting 1) ∧
      ∃ report, (j.alone (fs 1) (j.after fs deleting 1)).result = .ok report ∧
        report.outcome = .deletionComplete ∧ j.CleanedUp q (j.after fs deleting 2) := by
  intro j fs
  have hsound : deleting.Sound := Cluster.sound_ofEdits _
  have hchecked : (deleting.remediation? "default" "n1").any (fun q =>
      q.hasFinalizer && q.isDeleted && decide (q.others = ["backup"])) = true := by decide +kernel
  obtain ⟨q, hq, hchecks⟩ := (Option.any_eq_true _ _).mp hchecked
  simp only [Bool.and_eq_true, decide_eq_true_eq] at hchecks
  obtain ⟨⟨hf, hd⟩, hothers⟩ := hchecks
  have hpending : j.Pending deleting q := ⟨hsound.keyed, hq, hf, hd⟩
  have hfailed : (j.alone (fs 0) deleting).result = .error Cluster.conflict := by decide +kernel
  obtain ⟨hpass, hretry⟩ := cleanedUp_or_putOff j deleting q hpending
  refine ⟨q, hpending, hothers, hfailed, (hpass (fs 0)).2.2 _ hfailed, ?_⟩
  refine hretry fs 1 ?_ Course.isCalm_calm
  intro u hu
  obtain rfl : u = 0 := by omega
  exact ⟨_, hfailed⟩

end Job

end NodeFencing
