/-
What becomes of a request whose agent could not be started.

A pass taints the node before it puts the command together and looks for a pod.  If there
is no command or no pod, it fails with that obstacle, and the node keeps the taint.  So the
next pass takes the node for fenced and ends well, and so does every one after it, whatever
others do about the obstacle.  Once somebody takes the taint off and there is no obstacle
left, a pass runs the agent, with the command of the request as it is then.
-/
import NodeFencing.Proofs.Alone.Convergence

namespace NodeFencing

theorem Call.isExecution_eq_false {c : Call} (h : c.acts = false) : c.isExecution = false := by
  cases c with
  | execute pod command => cases h
  | _ => rfl

theorem Course.Yields.served {α : Type} {f : Course} {k : Cluster} {c : Call}
    {next : c.Answer → Program α} {Q : List Exchange → α → Cluster → Prop} (hcalm : f.IsCalm)
    (h : ∀ w, f.Yields (next (k.serve w c).1) (k.serve w c).2 fun log =>
      Q (⟨c, (k.serve w c).1⟩ :: log)) :
    f.Yields (.call c next) k Q :=
  .call h fun _ _ _ hfails _ => (hfails hcalm).elim

namespace Job

/-! ### Obstacles -/

/-- The pods that the agent can run in. -/
def pods (j : Job) (k : Cluster) : List Pod :=
  k.selectPods j.settings.agentPodNamespace (.ofText j.settings.agentPodSelector)

/-- What keeps the agent from being started for a request. -/
def obstacle? (j : Job) (k : Cluster) (spec : Spec) : Option Error :=
  match Command.ofSpec spec j.name with
  | .error e => some e
  | .ok _ =>
    if j.pods k = [] then
      some (.agentPodNotFound j.settings.agentPodNamespace j.settings.agentPodSelector)
    else none

/-- The agent was run, or there was an obstacle and the pass failed with it. -/
inductive Attempted (j : Job) (k : Cluster) (spec : Spec) :
    List Exchange → Except Error Report → Prop
  | stopped {log : List Exchange} {e : Error} (he : j.obstacle? k spec = some e)
      (hlog : ∀ x ∈ log, x.1.isExecution = false) : Attempted j k spec log (.error e)
  | ran {log : List Exchange} {result : Except Error Report} {command : List String} {pod : Pod}
      {pods : List Pod} {a : Except Error Output} (hc : Command.ofSpec spec j.name = .ok command)
      (hp : j.pods k = pod :: pods) (hx : ⟨.execute pod command, a⟩ ∈ log) :
      Attempted j k spec log result

variable {j : Job} {f : Course} {k k' : Cluster} {q : Remediation} {spec : Spec}
  {log : List Exchange} {result : Except Error Report} {e : Error}

theorem Attempted.cons (h : j.Attempted k spec log result) {x : Exchange}
    (hx : x.1.isExecution = false) : j.Attempted k spec (x :: log) result := by
  cases h with
  | stopped he hlog => exact .stopped he (List.forall_mem_cons.mpr ⟨hx, hlog⟩)
  | ran hc hp hrun => exact .ran hc hp (List.mem_cons_of_mem x hrun)

theorem Attempted.of_pods_eq (h : j.Attempted k' spec log result) (hpods : k'.pods = k.pods) :
    j.Attempted k spec log result := by
  have hsame : j.pods k' = j.pods k := by
    unfold pods Cluster.selectPods
    rw [hpods]
  cases h with
  | stopped he hlog =>
      refine .stopped ?_ hlog
      unfold obstacle? at he ⊢
      rwa [hsame] at he
  | ran hc hp hrun => exact .ran hc (hsame.symm.trans hp) hrun

theorem Attempted.exists_of_obstacle (h : j.Attempted k spec log result)
    (hnone : j.obstacle? k spec = none) :
    ∃ command pod pods a, Command.ofSpec spec j.name = .ok command ∧ j.pods k = pod :: pods ∧
      ⟨.execute pod command, a⟩ ∈ log := by
  cases h with
  | stopped he _ => cases hnone.symm.trans he
  | ran hc hp hrun => exact ⟨_, _, _, _, hc, hp, hrun⟩

/-! ### A pass that taints the node -/

theorem yields_parameterBuilding (hcalm : f.IsCalm) (q : Remediation) :
    f.Yields ((Pass.parameterBuilding j.settings j.inNamespace j.name q
      (Tracker.tainting.push .parameterBuilding)).map Pass.Ending.report) k fun log result _ =>
        j.Attempted k q.spec log result := by
  unfold Pass.parameterBuilding
  cases hc : Command.ofSpec q.spec j.name with
  | error e =>
      refine .publishEvent (.done (.stopped ?_ ?_))
      · simp [obstacle?, hc]
      · simp [Call.isExecution]
  | ok command =>
      refine .served hcalm ?_
      intro w
      have hanswer : (k.serve w (.listPods j.settings.agentPodNamespace
          j.settings.agentPodSelector)).1 = .ok (j.pods k) := rfl
      rw [hanswer]
      cases hp : j.pods k with
      | nil =>
          refine .done (.stopped ?_ ?_)
          · simp [obstacle?, hc, hp]
          · simp [Call.isExecution]
      | cons pod pods =>
          refine .served hcalm ?_
          intro w i
          exact .ran hc hp (List.mem_cons_of_mem _ List.mem_cons_self)

theorem yields_tainted_attempted (hcalm : f.IsCalm) (q : Remediation) :
    f.Yields ((Pass.tainted j.settings j.inNamespace j.name q .tainting).map
      Pass.Ending.report) k fun log result _ => j.Attempted k q.spec log result := by
  -- the event, the clock and the status come first
  refine .publishEvent (.readClock fun time => .served hcalm ?_)
  intro w
  refine (yields_parameterBuilding hcalm q).mono ?_
  intro log result _ h
  refine (h.of_pods_eq ?_).cons rfl |>.cons rfl |>.cons rfl
  show (k.patchStatus q.namespaceName q.anyName (q.startedStatus time)).2.pods = k.pods
  rcases k.patchStatus_cases q.namespaceName q.anyName (q.startedStatus time) with
    ⟨-, heq⟩ | ⟨_, -, heq⟩
  · rw [heq]
  · rw [heq]
    rfl

/-- A pass over a live request with a node that is not tainted runs the agent, or fails with the
obstacle. -/
theorem yields_attempted (hk : k.Keyed) {n : Node}
    (hq : k.remediation? j.inNamespace j.name = some q) (hr : q.lifecycleAction = .proceed)
    (hn : k.node? j.name = some n) (hclean : n.isTainted = false) (hcalm : f.IsCalm) :
    f.Yields j.program k fun log result _ => j.Attempted k q.spec log result := by
  refine yields_program_of_clean hk hq hr hn hclean hcalm ?_
  intro time m
  refine (yields_tainted_attempted hcalm q).mono ?_
  intro log result _ h
  have hsent : n.Edit (n.addTaint time) := .inl ⟨hclean, time, rfl⟩
  have hpods : (k.replaceNode (n.addTaint time)).2.pods = k.pods := by
    rw [hk.replaceNode_eq hn hsent]
    rfl
  exact (h.of_pods_eq hpods).cons rfl |>.cons rfl |>.cons rfl |>.cons rfl |>.cons rfl

/-! ### Passes while others act -/

/-- The cluster before a pass, when passes follow each other and others edit it after each. -/
def amidst (j : Job) (fs : Nat → Course) (es : Nat → List Cluster.Edit) (k : Cluster) :
    Nat → Cluster
  | 0 => k
  | t + 1 => (es t).foldl Cluster.edit (j.alone (fs t) (j.amidst fs es k t)).cluster

/-- An edit leaves a request live and its node there and tainted. -/
def LeavesFenced (j : Job) (e : Cluster.Edit) : Prop :=
  ∀ k, j.Fenced k → j.Fenced (k.edit e)

theorem leavesFenced_addPod (j : Job) (pod : Pod) : j.LeavesFenced (.addPod pod) :=
  fun _ h => h

variable {fs : Nat → Course} {es : Nat → List Cluster.Edit}

theorem fenced_foldl_edit {edits : List Cluster.Edit} (he : ∀ e ∈ edits, j.LeavesFenced e)
    (h : j.Fenced k) : j.Fenced (edits.foldl Cluster.edit k) := by
  induction edits generalizing k with
  | nil => exact h
  | cons e edits ih =>
      exact ih (fun e' he' => he e' (List.mem_cons_of_mem e he')) (he e List.mem_cons_self k h)

theorem sound_amidst (j : Job) (fs : Nat → Course) (es : Nat → List Cluster.Edit)
    (hk : k.Sound) (t : Nat) : (j.amidst fs es k t).Sound := by
  induction t with
  | zero => exact hk
  | succ t ih =>
      have hevery := Program.Every.of_forall (P := fun _ c _ => c.Keeps Cluster.Sound) j.program []
        fun _ c _ k w fate h => h.later (h.later_answer w c fate)
      have hafter : (j.alone (fs t) (j.amidst fs es k t)).cluster.Sound :=
        alone_of_yields (Course.Yields.invariant hevery ih)
      exact hafter.foldl_edit (es t)

theorem Fenced.alone (h : j.Fenced k) (hcalm : f.IsCalm) :
    (∃ report, (j.alone f k).result = .ok report ∧ report.outcome = .alreadyRemediated) ∧
      (∀ x ∈ (j.alone f k).said, x.1.acts = false) ∧ (j.alone f k).cluster = k := by
  obtain ⟨q, hq, hr, hcarries⟩ := h
  obtain ⟨n, hn, ht⟩ := (Option.any_eq_true _ _).mp hcarries
  have hsettled : j.Settled k _ := .fenced hq hn ht hr
  obtain ⟨hresult, hkept, hquiet⟩ := alone_of_yields (hsettled.yields_program hcalm)
  exact ⟨⟨_, hresult, rfl⟩, hquiet, hkept⟩

/-- As long as nobody takes the taint off, a request that was once live stays fenced. -/
theorem fenced_amidst (hk : k.Sound) (hcalm : ∀ t, (fs t).IsCalm) (hlive : j.Live k) (t : Nat)
    (he : ∀ u ≤ t, ∀ e ∈ es u, j.LeavesFenced e) : j.Fenced (j.amidst fs es k (t + 1)) := by
  induction t with
  | zero =>
      have hfenced : j.Fenced (j.alone (fs 0) k).cluster :=
        alone_of_yields (hlive.yields_program hk.keyed (hcalm 0))
      exact fenced_foldl_edit (he 0 (Nat.le_refl 0)) hfenced
  | succ t ih =>
      have hfenced := ih fun u hu => he u (by omega)
      refine fenced_foldl_edit (he (t + 1) (Nat.le_refl _)) ?_
      rw [(hfenced.alone (hcalm (t + 1))).2.2]
      exact hfenced

/-- A pass that failed without running the agent over a live request failed with its obstacle. -/
theorem exists_obstacle (hk : k.Keyed) (hcalm : f.IsCalm) (hlive : j.Live k)
    (hfailed : (j.alone f k).result = .error e)
    (hidle : ∀ x ∈ (j.alone f k).said, x.1.isExecution = false) :
    ∃ q, k.remediation? j.inNamespace j.name = some q ∧ j.obstacle? k q.spec = some e := by
  obtain ⟨q, hq, hr, hsome⟩ := hlive
  obtain ⟨n, hn⟩ := Option.isSome_iff_exists.mp hsome
  refine ⟨q, hq, ?_⟩
  by_cases ht : n.isTainted = true
  · -- the pass would have ended well
    have hfenced : j.Fenced k := ⟨q, hq, hr, by simp [Cluster.carries, hn, ht]⟩
    obtain ⟨⟨report, hreport, -⟩, -⟩ := hfenced.alone hcalm
    cases hreport.symm.trans hfailed
  · have hclean := eq_false_of_ne_true ht
    have hattempted : j.Attempted k q.spec (j.alone f k).said (j.alone f k).result :=
      alone_of_yields (yields_attempted hk hq hr hn hclean hcalm)
    rw [hfailed] at hattempted
    cases hattempted with
    | stopped he _ => exact he
    | ran _ _ hx => cases hidle _ hx

/--
**What could not be started is not started later, until the taint is off.**  A pass over a
live request with a node failed without running the agent, and no call failed.  Then it
failed with the obstacle of the request and the pods as they were.  As long as others leave
the request live and the node tainted, every later pass ends well, takes the request for
remediated, and neither runs the agent nor writes anything, whether the obstacle is gone or
not.  A pass that meets the node without the taint and no obstacle runs the agent, with the
command of the request as it is then, in the first pod there is.
-/
theorem unrepaired_until_untainted (j : Job) (k : Cluster) (hk : k.Sound) (fs : Nat → Course)
    (hcalm : ∀ t, (fs t).IsCalm) (es : Nat → List Cluster.Edit) (hlive : j.Live k) (e : Error)
    (hfailed : (j.alone (fs 0) k).result = .error e)
    (hidle : ∀ x ∈ (j.alone (fs 0) k).said, x.1.isExecution = false) :
    (∃ q, k.remediation? j.inNamespace j.name = some q ∧ j.obstacle? k q.spec = some e) ∧
    (∀ t, (∀ u ≤ t, ∀ e ∈ es u, j.LeavesFenced e) →
      let now := j.amidst fs es k (t + 1)
      (∃ report, (j.alone (fs (t + 1)) now).result = .ok report ∧
        report.outcome = .alreadyRemediated) ∧
      (∀ x ∈ (j.alone (fs (t + 1)) now).said, x.1.acts = false) ∧
      (j.alone (fs (t + 1)) now).cluster = now) ∧
    ∀ t q n,
      let now := j.amidst fs es k t
      now.remediation? j.inNamespace j.name = some q → q.lifecycleAction = .proceed →
      now.node? j.name = some n → n.isTainted = false → j.obstacle? now q.spec = none →
      ∃ command pod pods a, Command.ofSpec q.spec j.name = .ok command ∧
        j.pods now = pod :: pods ∧ ⟨.execute pod command, a⟩ ∈ (j.alone (fs t) now).said := by
  refine ⟨exists_obstacle hk.keyed (hcalm 0) hlive hfailed hidle, ?_, ?_⟩
  · intro t he
    exact (fenced_amidst hk hcalm hlive t he).alone (hcalm (t + 1))
  · intro t q n now hq hr hn hclean hnone
    have hkeyed : now.Keyed := (j.sound_amidst fs es hk t).keyed
    have hattempted :
        j.Attempted now q.spec (j.alone (fs t) now).said (j.alone (fs t) now).result :=
      alone_of_yields (yields_attempted hkeyed hq hr hn hclean (hcalm t))
    exact hattempted.exists_of_obstacle hnone

/-! ### A pod that comes late

The first pass finds no pod to run the agent in.  Then there is one, but the node is tainted.
-/

/-- A node and a live request for it, and no pod. -/
def podless : Cluster := .ofEdits (Run.setting.take 2)

/-- The passes over that request. -/
def usual : Job := ⟨{}, "default", "n1"⟩

/-- Others add the pod after the first pass. -/
def late (t : Nat) : List Cluster.Edit := if t = 0 then Run.setting.drop 2 else []

/-- And they take the taint off after the second one. -/
def freed (t : Nat) : List Cluster.Edit := if t = 1 then [.setTaints "n1" none] else late t

theorem sound_podless : podless.Sound := Cluster.sound_ofEdits _

theorem live_podless : usual.Live podless := by
  have hcheck : (podless.remediation? "default" "n1").any (fun q =>
      q.hasFinalizer && !q.isDeleted) = true := by decide +kernel
  obtain ⟨q, hq, hchecks⟩ := (Option.any_eq_true _ _).mp hcheck
  simp only [Bool.and_eq_true, Bool.not_eq_true'] at hchecks
  exact ⟨q, hq, Remediation.lifecycleAction_eq_proceed_iff.mpr hchecks, by decide +kernel⟩

/-- The first pass fails, and is worth trying again. -/
theorem alone_podless :
    (usual.alone .calm podless).result =
        .error (.agentPodNotFound "default" "app=fence-agents-remediation-operator") ∧
      ∀ x ∈ (usual.alone .calm podless).said, x.1.isExecution = false := by
  decide +kernel

theorem leavesFenced_late (j : Job) (t : Nat) : ∀ e ∈ late t, j.LeavesFenced e := by
  intro e he
  unfold late at he
  split at he
  · obtain rfl : e = .addPod _ := by simpa [Run.setting] using he
    exact j.leavesFenced_addPod _
  · cases he

theorem fenced_late (t : Nat) :
    usual.Fenced (usual.amidst (fun _ => .calm) late podless (t + 1)) :=
  fenced_amidst sound_podless (fun _ => Course.isCalm_calm) live_podless t
    fun u _ => usual.leavesFenced_late u

/-- From the second pass on nothing changes any more. -/
theorem amidst_late (t : Nat) :
    usual.amidst (fun _ => .calm) late podless (t + 1) =
      usual.amidst (fun _ => .calm) late podless 1 := by
  induction t with
  | zero => rfl
  | succ t ih => exact ((fenced_late t).alone Course.isCalm_calm).2.2.trans ih

/-- From then on there is a pod to run the agent in. -/
theorem obstacle?_late (t : Nat)
    (hq : (usual.amidst (fun _ => .calm) late podless (t + 1)).remediation? usual.inNamespace
      usual.name = some q) :
    usual.obstacle? (usual.amidst (fun _ => .calm) late podless (t + 1)) q.spec = none := by
  have hcheck : ((usual.amidst (fun _ => .calm) late podless 1).remediation? usual.inNamespace
      usual.name).all (fun q => (usual.obstacle? (usual.amidst (fun _ => .calm) late podless 1)
        q.spec).isNone) = true := by
    decide +kernel
  rw [amidst_late] at hq ⊢
  rw [hq] at hcheck
  simpa using hcheck

/-- **A pod that comes late is of no use.**  The pass that finds no pod says that it is worth
trying again, and the pod comes, but no pass runs the agent. -/
theorem not_repaired :
    ¬ ∀ (j : Job) (k : Cluster) (fs : Nat → Course) (es : Nat → List Cluster.Edit) (e : Error),
      k.Sound → (∀ t, (fs t).IsCalm) → j.Live k → (j.alone (fs 0) k).result = .error e →
      (e = .missingParameters ∨ (∃ parameter, e = .missingNodeParameter parameter j.name) ∨
        e = .agentPodNotFound j.settings.agentPodNamespace j.settings.agentPodSelector) →
      (∀ x ∈ (j.alone (fs 0) k).said, x.1.isExecution = false) →
      (∀ t, ∀ e ∈ es t, j.LeavesFenced e) →
      (∀ t q, (j.amidst fs es k (t + 1)).remediation? j.inNamespace j.name = some q →
        j.obstacle? (j.amidst fs es k (t + 1)) q.spec = none) →
      ∃ t, ∃ x ∈ (j.alone (fs (t + 1)) (j.amidst fs es k (t + 1))).said,
        x.1.isExecution = true := by
  intro hrepaired
  obtain ⟨hfailed, hidle⟩ := alone_podless
  obtain ⟨t, x, hx, hrun⟩ := hrepaired usual podless (fun _ => .calm) late _ sound_podless
    (fun _ => Course.isCalm_calm) live_podless hfailed (.inr (.inr rfl)) hidle
    usual.leavesFenced_late fun t _ => obstacle?_late t
  have hquiet := ((fenced_late t).alone Course.isCalm_calm).2.1 x hx
  rw [Call.isExecution_eq_false hquiet] at hrun
  cases hrun

/-- The second pass takes the request for remediated, and the third one runs the agent. -/
theorem unrepaired_until_untainted_podless :
    let j := usual
    let fs : Nat → Course := fun _ => .calm
    (j.alone .calm podless).result =
        .error (.agentPodNotFound "default" "app=fence-agents-remediation-operator") ∧
      (∃ report, (j.alone .calm (j.amidst fs freed podless 1)).result = .ok report ∧
        report.outcome = .alreadyRemediated) ∧
      ∃ command pod a,
        ⟨.execute pod command, a⟩ ∈ (j.alone .calm (j.amidst fs freed podless 2)).said := by
  intro j fs
  obtain ⟨hfailed, hidle⟩ := alone_podless
  obtain ⟨-, hdone, hrun⟩ := unrepaired_until_untainted j podless sound_podless fs
    (fun _ => Course.isCalm_calm) freed live_podless _ hfailed hidle
  have hfirst : ∀ u ≤ 0, ∀ e ∈ freed u, j.LeavesFenced e := by
    intro u hu
    obtain rfl : u = 0 := by omega
    exact j.leavesFenced_late 0
  refine ⟨hfailed, (hdone 0 hfirst).1, ?_⟩
  have hcheck : ((j.amidst fs freed podless 2).remediation? "default" "n1").any (fun q =>
      q.hasFinalizer && !q.isDeleted &&
        (j.obstacle? (j.amidst fs freed podless 2) q.spec).isNone) = true ∧
      ((j.amidst fs freed podless 2).node? "n1").any (fun n => !n.isTainted) = true := by
    decide +kernel
  obtain ⟨q, hq, hlive⟩ := (Option.any_eq_true _ _).mp hcheck.1
  obtain ⟨n, hn, hclean⟩ := (Option.any_eq_true _ _).mp hcheck.2
  simp only [Bool.and_eq_true, Bool.not_eq_true', Option.isNone_iff_eq_none] at hlive
  have hr := Remediation.lifecycleAction_eq_proceed_iff.mpr hlive.1
  obtain ⟨command, pod, _, a, -, -, hx⟩ := hrun 2 q n hq hr hn (by simpa using hclean) hlive.2
  exact ⟨command, pod, a, hx⟩

end Job

end NodeFencing
