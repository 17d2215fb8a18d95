/-
Passes that have nothing left to do.

A pass has nothing to do if there is no request of its name, or no node for it; if the
request is deleted and waits for others; or if the node is tainted.  `Settled` says which,
and what the pass reports.  Such a pass only looks, so what is settled stays settled, with
the same report.

It takes two passes to get there.  The first one cleans up after a deleted request, and
that is settled; or it leaves a `Live` request, one with the finalizer and a node.  The
second one taints the node, and whatever then becomes of the agent, the taint stays.
-/
import NodeFencing.Proofs.Alone.Cleanup

namespace NodeFencing

/-- Whether the call writes something, tells of something or runs the agent. -/
def Call.acts : Call → Bool
  | .replaceRemediation _ | .patchStatus _ _ _ | .replaceNode _ | .publishEvent _ _
  | .execute _ _ => true
  | _ => false

namespace Pass

variable {s : Settings} {inNamespace name : String} {log more : List Exchange} {r : Remediation}

/-- A pass that has tainted its node replaces nothing any more. -/
theorem Marked.replaces_nothing {c : Call} {next : c.Answer → Program (Except Error Report)}
    (h : Marked inNamespace name log r) (hc : Heard s inNamespace name (log ++ more) c next) :
    (∀ sent, c ≠ .replaceNode sent) ∧ ∀ sent, c ≠ .replaceRemediation sent := by
  refine ⟨?_, ?_⟩
  · rintro sent rfl
    obtain @⟨_, _, n, m, time, -, -, -⟩ := h
    have hwrite := hc.isNodeWrite_eq_false ⟨.replaceNode (n.addTaint time), .ok m⟩ (by simp)
    cases hwrite
  · rintro sent rfl
    -- before a request is replaced the clock is not read
    have hclock : ∃ time, ⟨.readClock, time⟩ ∈ log ++ more := by
      obtain @⟨_, _, _, _, time, -, -, -⟩ := h
      exact ⟨time, by simp⟩
    obtain ⟨time, hmem⟩ := hclock
    generalize log ++ more = said at hc hmem
    obtain ⟨⟨_, ⟨_⟩, -⟩ | ⟨_, hcleared, -⟩, -⟩ := hc
    · simp at hmem
    · cases hcleared with
      | absent h _ => cases h; simp at hmem
      | clean h _ _ => cases h; simp at hmem
      | removed h _ _ => cases h; simp at hmem
      | vanished h _ _ _ => cases h; simp at hmem

end Pass

namespace Job

/-! ### Settled clusters -/

/-- A pass has nothing to do, and what it reports. -/
inductive Settled (j : Job) (k : Cluster) : Report → Prop
  | absent (hq : k.remediation? j.inNamespace j.name = none) :
      Settled j k ⟨[.fetching, .done], .requestNotFound⟩
  | unlisted {q : Remediation} (hq : k.remediation? j.inNamespace j.name = some q)
      (hn : k.node? j.name = none) (hr : q.lifecycleAction ≠ .cleanup) :
      Settled j k ⟨[.fetching, .nodeValidating, .done], .nodeNotFound⟩
  | awaited {q : Remediation} (hq : k.remediation? j.inNamespace j.name = some q)
      (hn : (k.node? j.name).isSome = true) (hr : q.lifecycleAction = .awaitRemoval) :
      Settled j k (.handled .deletionComplete)
  | fenced {q : Remediation} {n : Node} (hq : k.remediation? j.inNamespace j.name = some q)
      (hn : k.node? j.name = some n) (ht : n.isTainted = true)
      (hr : q.lifecycleAction = .proceed) :
      Settled j k
        ⟨[.fetching, .nodeValidating, .lifecycleHandling, .tainting, .done], .alreadyRemediated⟩

/-- A live request with a node. -/
def Live (j : Job) (k : Cluster) : Prop :=
  ∃ q, k.remediation? j.inNamespace j.name = some q ∧ q.lifecycleAction = .proceed ∧
    (k.node? j.name).isSome = true

/-- A live request with a node that is tainted. -/
def Fenced (j : Job) (k : Cluster) : Prop :=
  ∃ q, k.remediation? j.inNamespace j.name = some q ∧ q.lifecycleAction = .proceed ∧
    k.carries j.name = true

variable {j : Job} {f : Course} {k : Cluster} {q : Remediation} {report : Report}

theorem Fenced.exists_settled (h : j.Fenced k) : ∃ report, j.Settled k report := by
  obtain ⟨q, hq, hr, hcarries⟩ := h
  obtain ⟨n, hn, ht⟩ := (Option.any_eq_true _ _).mp hcarries
  exact ⟨_, .fenced hq hn ht hr⟩

/-- When a request was cleaned up after there is nothing to do. -/
theorem CleanedUp.exists_settled (h : j.CleanedUp q k) (hd : q.isDeleted = true) :
    ∃ report, j.Settled k report := by
  obtain ⟨version, hq⟩ := h.released
  split at hq
  · exact ⟨_, .absent hq⟩
  · have hr : ((q.withFinalizers q.others).stamped version).lifecycleAction = .awaitRemoval := by
      have hfree : ((q.withFinalizers q.others).stamped version).hasFinalizer = false := by
        show q.others.contains Remediation.finalizer = false
        simp [Remediation.others]
      have hdeleted : ((q.withFinalizers q.others).stamped version).isDeleted = true := hd
      simp [Remediation.lifecycleAction, hfree, hdeleted]
    cases hn : k.node? j.name with
    | none => exact ⟨_, .unlisted hq hn (by simp [hr])⟩
    | some n => exact ⟨_, .awaited hq (by simp [hn]) hr⟩

/-- **A pass that has nothing to do only looks.** -/
theorem Settled.yields_program (h : j.Settled k report) (hcalm : f.IsCalm) :
    f.Yields j.program k fun log result k' =>
      result = .ok report ∧ k' = k ∧ ∀ x ∈ log, x.1.acts = false := by
  cases h with
  | absent hq =>
      refine .getRemediation ?_ hcalm.never
      rw [hq]
      exact .done ⟨rfl, rfl, by simp [Call.acts]⟩
  | @unlisted q hq hn hr =>
      have hshut : (k.nodeNames.contains j.name || (q.isDeleted && q.hasFinalizer)) = false := by
        rw [ne_eq, Remediation.lifecycleAction_eq_cleanup_iff, not_and] at hr
        rw [Cluster.contains_nodeNames, hn, Option.isSome_none, Bool.false_or]
        cases hf : q.hasFinalizer with
        | false => rw [Bool.and_false]
        | true => rw [eq_false_of_ne_true (hr hf), Bool.false_and]
      refine .getRemediation ?_ hcalm.never
      rw [hq]
      refine .listNodeNames ?_ hcalm.never
      simp only [hshut, Bool.false_eq_true, if_false]
      exact .done ⟨rfl, rfl, by simp [Call.acts]⟩
  | @awaited q hq hn hr =>
      refine Job.yields_program hq (.inl hn) (fun _ => hcalm.never) ?_
      unfold Lifecycle.handle
      simp only [hr]
      exact .done ⟨rfl, rfl, by simp [Call.acts]⟩
  | @fenced q n hq hn ht hr =>
      refine Job.yields_program hq (.inl (by simp [hn])) (fun _ => hcalm.never) ?_
      refine Job.yields_handle_of_proceed hr (.getNode ?_ hcalm.never)
      simp only [hn, ht, if_true]
      exact .done ⟨rfl, rfl, by simp [Call.acts]⟩

/-! ### The first two passes -/

/-- A call that replaces nothing leaves a fenced request fenced. -/
theorem keeps_fenced (j : Job) {c : Call} (hn : ∀ sent, c ≠ .replaceNode sent)
    (hr : ∀ sent, c ≠ .replaceRemediation sent) : c.Keeps j.Fenced := by
  rintro k w fate ⟨q, hq, haction, hcarries⟩
  have hnode : (k.answer w c fate).2.carries j.name = true := by
    rcases k.node?_answer w c fate j.name with heq | ⟨sent, _, hc, -⟩
    · rw [Cluster.carries, heq]
      exact hcarries
    · exact (hn sent hc).elim
  rcases k.remediation?_answer w c fate j.inNamespace j.name with
    heq | ⟨sent, _, hc, -⟩ | ⟨status, stored, -, hstored, heq⟩
  · exact ⟨q, heq.trans hq, haction, hnode⟩
  · exact (hr sent hc).elim
  · -- a status is neither a finalizer nor a deletion mark
    obtain rfl := Option.some.inj (hstored.symm.trans hq)
    exact ⟨_, heq, haction, hnode⟩

/-- What follows on the taint leaves it on. -/
theorem yields_tainted {log : List Exchange} (h : Pass.Marked j.inNamespace j.name log q)
    (hfenced : j.Fenced k) :
    f.Yields ((Pass.tainted j.settings j.inNamespace j.name q .tainting).map
      Pass.Ending.report) k fun _ _ k' => j.Fenced k' := by
  refine .invariant ((Pass.every_tainted h .tainting).imp ?_) hfenced
  intro more c next hheard
  obtain ⟨hn, hr⟩ := h.replaces_nothing hheard
  exact j.keeps_fenced hn hr

/-- A pass over a live request with a node that is not tainted puts the taint on. -/
theorem yields_program_of_clean (hk : k.Keyed) {n : Node}
    {Q : List Exchange → Except Error Report → Cluster → Prop}
    (hq : k.remediation? j.inNamespace j.name = some q) (hr : q.lifecycleAction = .proceed)
    (hn : k.node? j.name = some n) (hclean : n.isTainted = false) (hcalm : f.IsCalm)
    (h : ∀ time m, f.Yields ((Pass.tainted j.settings j.inNamespace j.name q .tainting).map
      Pass.Ending.report) (k.replaceNode (n.addTaint time)).2 fun log =>
        Q (⟨.getRemediation j.inNamespace j.name, .ok (some q)⟩ ::
          ⟨.listNodeNames, .ok k.nodeNames⟩ :: ⟨.getNode j.name, .ok (some n)⟩ ::
          ⟨.readClock, time⟩ :: ⟨.replaceNode (n.addTaint time), .ok m⟩ :: log)) :
    f.Yields j.program k Q := by
  refine Job.yields_program hq (.inl (by simp [hn])) (fun _ => hcalm.never) ?_
  refine Job.yields_handle_of_proceed hr (.getNode ?_ hcalm.never)
  rw [hn]
  simp only [hclean, Node.applyTaint?_of_not_isTainted hclean, Bool.false_eq_true, if_false]
  refine .readClock fun time => ?_
  exact .replaceNode hk hn (.inl ⟨hclean, time, rfl⟩) (h time) hcalm.never

/-- A pass over a live request leaves its node tainted, whatever becomes of the agent. -/
theorem Live.yields_program (h : j.Live k) (hk : k.Keyed) (hcalm : f.IsCalm) :
    f.Yields j.program k fun _ _ k' => j.Fenced k' := by
  obtain ⟨q, hq, hr, hsome⟩ := h
  obtain ⟨n, hn⟩ := Option.isSome_iff_exists.mp hsome
  by_cases ht : n.isTainted = true
  · have hsettled : j.Settled k _ := .fenced hq hn ht hr
    refine (hsettled.yields_program hcalm).mono ?_
    rintro _ _ _ ⟨-, rfl, -⟩
    exact ⟨q, hq, hr, by simp [Cluster.carries, hn, ht]⟩
  · have hclean := eq_false_of_ne_true ht
    refine yields_program_of_clean hk hq hr hn hclean hcalm ?_
    intro time m
    have hopen : Pass.Opened j.inNamespace j.name
        [⟨.getRemediation j.inNamespace j.name, .ok (some q)⟩, ⟨.listNodeNames, .ok k.nodeNames⟩]
        q :=
      .intro (by rw [Cluster.contains_nodeNames, hsome, Bool.true_or])
    have hmarked : Pass.Marked j.inNamespace j.name (_ ++ [⟨.getNode j.name, .ok (some n)⟩,
        ⟨.readClock, time⟩, ⟨.replaceNode (n.addTaint time), .ok m⟩]) q :=
      .intro hopen hr hclean
    have hsent : n.Edit (n.addTaint time) := .inl ⟨hclean, time, rfl⟩
    refine yields_tainted hmarked ⟨q, ?_, hr, ?_⟩
    · rw [hk.replaceNode_eq hn hsent]
      exact hq
    · rw [hk.replaceNode_eq hn hsent]
      simp [Cluster.carries, Cluster.node?, Node.isTainted_addTaint]

/-- A pass over a new request with a node puts the finalizer on. -/
theorem yields_program_of_addFinalizer (hk : k.Keyed)
    (hq : k.remediation? j.inNamespace j.name = some q) (hsome : (k.node? j.name).isSome = true)
    (hr : q.lifecycleAction = .addFinalizer) (hcalm : f.IsCalm) :
    f.Yields j.program k fun _ _ k' => j.Live k' := by
  obtain ⟨hf, hd⟩ := Remediation.lifecycleAction_eq_addFinalizer_iff.mp hr
  let sent := q.withFinalizers (q.finalizers ++ [Remediation.finalizer])
  have hadd : q.addFinalizer? Remediation.finalizer = some sent :=
    Remediation.addFinalizer?_eq_some hf
  have hsent : q.Edit sent := .inl ⟨hf, rfl⟩
  have hadded : sent.hasFinalizer = true := Remediation.hasFinalizer_of_addFinalizer? hadd
  have hheld : (sent.stamped (k.version + 1)).hasFinalizer = true := hadded
  refine Job.yields_program hq (.inl hsome) (fun _ => hcalm.never) ?_
  unfold Lifecycle.handle Lifecycle.attach
  simp only [hr, hadd]
  refine .replaceRemediation hk hq hsent ?_ hcalm.never
  intro m
  refine .publishEvent (.done ?_)
  rw [hk.replaceRemediation_eq hq hsent, Cluster.isReleased_eq_false hheld]
  refine ⟨sent.stamped (k.version + 1), by simp [Cluster.remediation?], ?_, hsome⟩
  exact Remediation.lifecycleAction_eq_proceed_iff.mpr ⟨hheld, hd⟩

/-- **A pass leaves a live request, or nothing to do.** -/
theorem yields_live_or_settled (j : Job) (hk : k.Keyed) (hcalm : f.IsCalm) :
    f.Yields j.program k fun _ _ k' => j.Live k' ∨ ∃ report, j.Settled k' report := by
  have hsettled : ∀ {report}, j.Settled k report →
      f.Yields j.program k fun _ _ k' => j.Live k' ∨ ∃ report, j.Settled k' report := by
    intro report h
    refine (h.yields_program hcalm).mono ?_
    rintro _ _ _ ⟨-, rfl, -⟩
    exact .inr ⟨report, h⟩
  cases hq : k.remediation? j.inNamespace j.name with
  | none => exact hsettled (.absent hq)
  | some q =>
      by_cases hclean : q.lifecycleAction = .cleanup
      · obtain ⟨hf, hd⟩ := Remediation.lifecycleAction_eq_cleanup_iff.mp hclean
        have hpending : j.Pending k q := ⟨hk, hq, hf, hd⟩
        refine (hpending.yields_program f).mono ?_
        rintro _ _ _ (⟨-, rfl⟩ | ⟨_, -, hnot, -⟩)
        · exact .inr (hpending.cleanedUp.exists_settled hd)
        · exact (hnot hcalm).elim
      · cases hn : k.node? j.name with
        | none => exact hsettled (.unlisted hq hn hclean)
        | some n =>
            have hsome : (k.node? j.name).isSome = true := by rw [hn]; rfl
            cases hr : q.lifecycleAction with
            | cleanup => exact (hclean hr).elim
            | awaitRemoval => exact hsettled (.awaited hq hsome hr)
            | addFinalizer =>
                refine (yields_program_of_addFinalizer hk hq hsome hr hcalm).mono ?_
                exact fun _ _ _ h => .inl h
            | proceed =>
                have hlive : j.Live k := ⟨q, hq, hr, hsome⟩
                refine (hlive.yields_program hk hcalm).mono ?_
                exact fun _ _ _ h => .inr h.exists_settled

/-! ### Pass after pass -/

variable {fs : Nat → Course}

theorem keyed_after (j : Job) (hk : k.Keyed) (fs : Nat → Course) (t : Nat) :
    (j.after fs k t).Keyed := by
  induction t with
  | zero => exact hk
  | succ t ih =>
      have hevery := Program.Every.of_forall (P := fun _ c _ => c.Keeps Cluster.Keyed) j.program []
        fun _ c _ k w fate h => h.answer w c fate
      exact alone_of_yields (Course.Yields.invariant hevery ih)

/-- What is settled stays so. -/
theorem Settled.after_eq {t u : Nat} (h : j.Settled (j.after fs k t) report)
    (hcalm : ∀ t, (fs t).IsCalm) (htu : t ≤ u) : j.after fs k u = j.after fs k t := by
  induction htu with
  | refl => rfl
  | @step u _ ih =>
      rw [← ih] at h
      have hkept := (alone_of_yields (h.yields_program (hcalm u))).2.1
      exact hkept.trans ih

/-- After two passes there is nothing left to do. -/
theorem exists_settled_after_two (j : Job) (hk : k.Keyed) (hcalm : ∀ t, (fs t).IsCalm) :
    ∃ report, j.Settled (j.after fs k 2) report := by
  have hfirst : j.Live (j.after fs k 1) ∨ ∃ report, j.Settled (j.after fs k 1) report :=
    alone_of_yields (j.yields_live_or_settled hk (hcalm 0))
  rcases hfirst with hlive | ⟨report, h⟩
  · have hfenced : j.Fenced (j.after fs k 2) :=
      alone_of_yields (hlive.yields_program (j.keyed_after hk fs 1) (hcalm 1))
    exact hfenced.exists_settled
  · rw [← h.after_eq hcalm (Nat.le_succ 1)] at h
    exact ⟨report, h⟩

/--
**Convergence.**  When passes over one name follow each other, nobody else acts and no call
fails, then from the third one on every pass ends well and with the same report, writes
nothing, tells of nothing and does not run the agent, and the cluster stays as it is.
-/
theorem converges (j : Job) (k : Cluster) (hk : k.Keyed) (fs : Nat → Course)
    (hcalm : ∀ t, (fs t).IsCalm) :
    ∃ report, ∀ t, 2 ≤ t →
      (j.alone (fs t) (j.after fs k t)).result = .ok report ∧
      (∀ x ∈ (j.alone (fs t) (j.after fs k t)).said, x.1.acts = false) ∧
      j.after fs k (t + 1) = j.after fs k t := by
  obtain ⟨report, h⟩ := exists_settled_after_two j hk hcalm
  refine ⟨report, ?_⟩
  intro t ht
  rw [← h.after_eq hcalm ht] at h
  obtain ⟨hresult, hkept, hquiet⟩ := alone_of_yields (h.yields_program (hcalm t))
  exact ⟨hresult, hquiet, hkept⟩

/-! ### A request that is new

The first pass puts the finalizer on and the second one has the node fenced.
-/

/-- A node and a request without the finalizer. -/
def beginning : Cluster :=
  .ofEdits (Run.setting ++ [.setFinalizers "default" "n1" none])

theorem converges_beginning :
    let j : Job := ⟨{}, "default", "n1"⟩
    let fs : Nat → Course := fun _ => .calm
    beginning.Keyed ∧
      (j.alone .calm beginning).result = .ok (.handled .finalizerAdded) ∧
      (∃ report, (j.alone .calm (j.after fs beginning 1)).result = .ok report ∧
        report.outcome = .fenceAgentExecuted) ∧
      ∃ report, ∀ t, 2 ≤ t →
        (j.alone (fs t) (j.after fs beginning t)).result = .ok report ∧
        (∀ x ∈ (j.alone (fs t) (j.after fs beginning t)).said, x.1.acts = false) ∧
        j.after fs beginning (t + 1) = j.after fs beginning t := by
  intro j fs
  have hsound : beginning.Sound := Cluster.sound_ofEdits _
  refine ⟨hsound.keyed, by decide +kernel, ⟨⟨[.fetching, .nodeValidating, .lifecycleHandling,
    .tainting, .parameterBuilding, .executing, .responseValidating, .done], _⟩,
    by decide +kernel, rfl⟩, ?_⟩
  exact converges j beginning hsound.keyed fs fun _ => Course.isCalm_calm

end Job

end NodeFencing
