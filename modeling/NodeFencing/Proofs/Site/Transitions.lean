/-
Since when a condition is what it is.

Setting a condition keeps its time if the status is what it was, and a pass sets conditions
on those of the request that it read.  So the times in a status are right for the request
as the pass read it.  They are right for what is stored too, as long as nobody has written
the status since; but a pass writes the status twice.  First it says that remediation is
underway.  A success then says that it is over, on the conditions from before: if it was
said to be over then, it is over again, since the time when it was over first.
-/
import NodeFencing.Proofs.Site.Conditions
import NodeFencing.Proofs.Site.Sharing

namespace NodeFencing

/-! ### Times of conditions -/

/-- A condition in the place of another says since when it holds: since the other one did, if
the status is the same, and since the time when it is written, if not. -/
def Condition.IsDated (c : Condition) (before : Option Condition) (time : String) : Prop :=
  c.lastTransitionTime =
    match before with
    | some old => if old.status = c.status then old.lastTransitionTime else time
    | none => time

/-- What is dated is dated from anything of another status too, unless it kept its time. -/
theorem Condition.IsDated.of_status_ne {c now : Condition} {before : Option Condition}
    {time : String} (h : c.IsDated before time) (hne : now.status ≠ c.status) :
    c.IsDated (some now) time ∨
      ∃ old, before = some old ∧ old.status = c.status ∧
        c.lastTransitionTime = old.lastTransitionTime := by
  unfold IsDated at h ⊢
  cases before with
  | none =>
      left
      simpa [hne] using h
  | some old =>
      by_cases hold : old.status = c.status
      · right
        refine ⟨old, rfl, hold, ?_⟩
        simpa [hold] using h
      · left
        simpa [hne, hold] using h

namespace Remediation

variable {q : Remediation} {status : Status} {aspects : List Aspect} {a b : Aspect}

/-- A condition that is set is found, with its status, and dated. -/
theorem exists_find?_setCondition (q : Remediation) (a : Aspect) (holds : Bool)
    (reason message : String) (time : Instant) (cs : List Condition) :
    ∃ c, Condition.find? a (q.setCondition a holds reason message time cs) = some c ∧
      c.status = Condition.statusOf holds ∧ c.IsDated (Condition.find? a cs) time.stamp := by
  refine ⟨_, Condition.find?_set_self rfl cs, ?_⟩
  cases Condition.find? a cs with
  | none => exact ⟨rfl, rfl⟩
  | some old =>
      show (Condition.succeeding _ old).status = _ ∧ (Condition.succeeding _ old).IsDated _ _
      unfold Condition.succeeding Condition.IsDated
      by_cases h : old.status = Condition.statusOf holds
      · simp [Condition.make, h]
      · simp [Condition.make, h]

theorem find?_setCondition_of_ne (hab : a ≠ b) (holds : Bool) (reason message : String)
    (time : Instant) (cs : List Condition) :
    Condition.find? b (q.setCondition a holds reason message time cs) = Condition.find? b cs := by
  apply Condition.find?_set_of_ne
  intro hname
  exact hab (Aspect.name_inj hname)

@[simp] theorem holds_setCondition (q : Remediation) (a b : Aspect) (holds : Bool)
    (reason message : String) (time : Instant) (cs : List Condition) :
    Condition.holds b (q.setCondition a holds reason message time cs) =
      if a = b then holds else Condition.holds b cs := by
  by_cases hab : a = b
  · subst hab
    obtain ⟨c, hc, hstatus, -⟩ := q.exists_find?_setCondition a holds reason message time cs
    unfold Condition.holds
    rw [hc, if_pos rfl]
    show (c.status == "True") = holds
    rw [hstatus]
    cases holds <;> rfl
  · unfold Condition.holds
    rw [find?_setCondition_of_ne hab, if_neg hab]

theorem exists_isDated_setCondition {cs : List Condition}
    (hcs : Condition.find? a cs = Condition.find? a q.conditions) (holds : Bool)
    (reason message : String) (time : Instant) :
    ∃ c, Condition.find? a (q.setCondition a holds reason message time cs) = some c ∧
      c.IsDated (Condition.find? a q.conditions) time.stamp := by
  obtain ⟨c, hc, -, hdated⟩ := q.exists_find?_setCondition a holds reason message time cs
  rw [hcs] at hdated
  exact ⟨c, hc, hdated⟩

/-- What a status sets is dated from the request that it tells of. -/
theorem Tells.exists_isDated (h : q.Tells status aspects) {time : Instant}
    (htime : status.lastUpdateTime = some time.stamp) (ha : a ∈ aspects) :
    ∃ c, Condition.find? a status.conditions = some c ∧
      c.IsDated (Condition.find? a q.conditions) time.stamp := by
  cases h with
  | started time' =>
      obtain rfl : a = .processing := by simpa using ha
      rw [← Option.some.inj htime]
      exact exists_isDated_setCondition rfl _ _ _ _
  | agentFailed note time' =>
      obtain rfl : a = .agentSucceeded := by simpa using ha
      rw [← Option.some.inj htime]
      exact exists_isDated_setCondition rfl _ _ _ _
  | finished stdout time' =>
      rw [← Option.some.inj htime]
      unfold finishedStatus
      cases a with
      | processing =>
          simp only [Status.conditions_ofConditions]
          rw [find?_setCondition_of_ne (by decide), find?_setCondition_of_ne (by decide)]
          exact exists_isDated_setCondition rfl _ _ _ _
      | agentSucceeded =>
          simp only [Status.conditions_ofConditions]
          rw [find?_setCondition_of_ne (by decide)]
          apply exists_isDated_setCondition
          rw [find?_setCondition_of_ne (by decide)]
      | succeeded =>
          apply exists_isDated_setCondition
          rw [find?_setCondition_of_ne (by decide), find?_setCondition_of_ne (by decide)]

/-- A status that says that the agent succeeded says whether processing is underway, unless it
only tells that the agent failed. -/
theorem Tells.processing_of_holds (h : q.Tells status aspects)
    (hs : Condition.holds .agentSucceeded status.conditions = true) : .processing ∈ aspects := by
  cases h with
  | started time => simp
  | finished stdout time => simp
  | agentFailed note time =>
      simp [agentFailedStatus] at hs

/-- Only a success sets both whether processing is underway and whether the agent succeeded, and
it says that processing is over. -/
theorem Tells.finished_of_mem (h : q.Tells status aspects) (hp : .processing ∈ aspects)
    (ha : .agentSucceeded ∈ aspects) :
    aspects = [.processing, .agentSucceeded, .succeeded] ∧
      ∃ c, Condition.find? .processing status.conditions = some c ∧
        c.status = Condition.statusOf false := by
  cases h with
  | started time => simp at ha
  | agentFailed note time => simp at hp
  | finished stdout time =>
      refine ⟨rfl, ?_⟩
      simp only [finishedStatus, Status.conditions_ofConditions]
      rw [find?_setCondition_of_ne (by decide), find?_setCondition_of_ne (by decide)]
      obtain ⟨c, hc, hstatus, -⟩ := q.exists_find?_setCondition .processing false
        "RemediationFinished" "Fence agent executed" time q.conditions
      exact ⟨c, hc, hstatus⟩

end Remediation

/-! ### The conditions that are stored -/

/-- The conditions that are stored of a request. -/
def Cluster.conditions (k : Cluster) (inNamespace name : String) : List Condition :=
  match k.remediation? inNamespace name with
  | some q => q.conditions
  | none => []

/-- Only a write of the status or of the whole request changes the conditions. -/
theorem Cluster.conditions_answer (k : Cluster) (w : Surroundings) (c : Call) (fate : Fate)
    (inNamespace name : String) (hc : ∀ sent, c ≠ .replaceRemediation sent) :
    (k.answer w c fate).2.conditions inNamespace name = k.conditions inNamespace name ∨
      ∃ status, c = .patchStatus inNamespace name status ∧
        (k.answer w c fate).2.conditions inNamespace name = status.conditions := by
  unfold conditions
  rcases k.remediation?_answer w c fate inNamespace name with
    heq | ⟨sent, _, hsent, -⟩ | ⟨status, _, hstatus, -, heq⟩
  · left
    rw [heq]
  · exact (hc sent hsent).elim
  · right
    refine ⟨status, hstatus, ?_⟩
    rw [heq]
    rfl

/-- What a pass has heard before it writes a status: the request that the status tells of, and
last of all the time that the status says. -/
theorem Pass.Reports.exists_read {s : Settings} {inNamespace name : String} {log : List Exchange}
    {ns n : String} {status : Status} (h : Reports s inNamespace name log ns n status) :
    ∃ q aspects said time, ⟨.getRemediation inNamespace name, .ok (some q)⟩ ∈ log ∧
      q.Tells status aspects ∧ log = said ++ [⟨.readClock, time⟩] ∧
      status.lastUpdateTime = some time.stamp ∧
      (∀ ns' n' status' a, ⟨.patchStatus ns' n' status', a⟩ ∈ log →
        .agentSucceeded ∈ aspects ∧ ∃ time', status' = q.startedStatus time') ∧
      ∀ sent a, ⟨.replaceRemediation sent, a⟩ ∉ log := by
  cases h with
  | @started log q time h =>
      refine ⟨q, _, log ++ [⟨.publishEvent q (.taintAdded name), ()⟩], time, by simp [h.mem],
        .started time, by simp, rfl, ?_⟩
      obtain ⟨⟨_⟩, -, -⟩ := h
      simp
  | @finished log q o stdout time h ho =>
      refine ⟨q, _, log ++ [⟨.observe (.execution .success), ()⟩,
        ⟨.publishEvent q (.agentExecuted q.spec.agent name), ()⟩], time, by simp [h.mem],
        .finished stdout time, by simp, rfl, ?_, ?_⟩
      · intro ns' n' status' a hmem
        exact ⟨by simp, h.eq_startedStatus (by simpa using hmem)⟩
      · obtain ⟨⟨⟨⟨⟨_⟩, -, -⟩⟩, -⟩⟩ := h
        simp
  | @agentFailed log q o e time h ho =>
      refine ⟨q, _, log ++ [⟨.observe (.execution .unexpectedResponse), ()⟩,
        ⟨.publishEvent q (.agentFailed e.message), ()⟩], time, by simp [h.mem],
        .agentFailed e.message time, by simp, rfl, ?_, ?_⟩
      · intro ns' n' status' a hmem
        exact ⟨by simp, h.eq_startedStatus (by simpa using hmem)⟩
      · obtain ⟨⟨⟨⟨⟨_⟩, -, -⟩⟩, -⟩⟩ := h
        simp

namespace Run

/-- From one time to another only one pass has changed the conditions that are stored of a
request. -/
def Undisturbed (r : Run) (i : Nat) (inNamespace name : String) (g t : Nat) : Prop :=
  ∀ v, g ≤ v → v < t →
    (r.cluster (v + 1)).conditions inNamespace name ≠ (r.cluster v).conditions inNamespace name →
    ∃ x, r.made v = some (i, x)

/-- Others leave the conditions of requests alone. -/
def SparesConditions (r : Run) : Prop :=
  ∀ t e, r.moves t = .edit e → ∀ inNamespace name,
    ((r.cluster t).edit e).conditions inNamespace name =
      (r.cluster t).conditions inNamespace name

/-- What a status is made from that a pass writes at a time: the request as the pass read it, and
the clock. -/
structure MakesStatus (r : Run) (i t : Nat) (status : Status) (g : Nat) (q : Remediation)
    (aspects : List Aspect) (time : Instant) : Prop where
  lt : g < t
  read : r.made g =
    some (i, ⟨.getRemediation (r.jobs i).inNamespace (r.jobs i).name, .ok (some q)⟩)
  tells : q.Tells status aspects
  /-- The clock is the last that the pass has heard. -/
  clock : ∃ said rest, (r.site t).workers i = .working (said ++ [⟨.readClock, time⟩]) rest
  dated : status.lastUpdateTime = some time.stamp
  /-- Before that the pass has written a status at most when it started. -/
  started : ∀ v ns name status' a, v < t →
    r.made v = some (i, ⟨.patchStatus ns name status', a⟩) →
    .agentSucceeded ∈ aspects ∧ ∃ time', status' = q.startedStatus time'
  replaces : ∀ v sent a, v < t → r.made v ≠ some (i, ⟨.replaceRemediation sent, a⟩)

variable {r : Run} {t u g i : Nat} {ns name : String} {status : Status} {q : Remediation}
  {aspects : List Aspect} {time : Instant}

theorem exists_makesStatus {a : Except Error Unit}
    (h : r.made t = some (i, ⟨.patchStatus ns name status, a⟩)) :
    (ns, name) = (r.jobs i).key ∧
      ∃ g q aspects time, r.MakesStatus i t status g q aspects time := by
  obtain ⟨_, _, said, next, -, hw, -, -⟩ := r.answer_of_made h
  have hreports : Pass.Reports (r.jobs i).settings (r.jobs i).inNamespace (r.jobs i).name said
      ns name status := r.heard hw
  obtain ⟨q, aspects, before, time, hmem, htells, rfl, htime, hstarted, hreplaces⟩ :=
    hreports.exists_read
  obtain ⟨g, hgt, hread⟩ := r.exists_made_of_mem hw hmem
  refine ⟨(exists_tells_of_made h).1, g, q, aspects, time, hgt, hread, htells, ⟨_, _, hw⟩, htime,
    ?_, ?_⟩
  · intro v ns' name' status' a' hvt hmade
    exact hstarted ns' name' status' a' (r.mem_said hmade hvt hw)
  · intro v sent a' hvt hmade
    exact hreplaces sent a' (r.mem_said hmade hvt hw)

theorem conditions_succ_of_made (h : r.made t = some (i, ⟨.patchStatus ns name status, .ok ()⟩)) :
    (r.cluster (t + 1)).conditions ns name = status.conditions := by
  obtain ⟨q, hq, hs⟩ := Option.bind_eq_some_iff.mp (status?_succ_of_made h)
  unfold Cluster.conditions
  rw [hq]
  exact Remediation.conditions_eq hs

/-- As long as only the pass changes the conditions, they are those that it read, or those that
it wrote when it started. -/
theorem MakesStatus.conditions_eq (h : r.MakesStatus i t status g q aspects time)
    (hkey : (ns, name) = (r.jobs i).key) (halone : r.Undisturbed i ns name g t) (hgu : g ≤ u)
    (hut : u ≤ t) :
    (r.cluster u).conditions ns name = q.conditions ∨
      .agentSucceeded ∈ aspects ∧
        ∃ time', (r.cluster u).conditions ns name = (q.startedStatus time').conditions := by
  obtain ⟨rfl, rfl⟩ := Prod.mk.inj hkey
  -- by induction on the time since the read; a step that changes the conditions is a call of
  -- the pass, and of its calls only the write at the start comes before this one
  induction hgu with
  | refl =>
      left
      unfold Cluster.conditions
      rw [r.remediation?_of_made h.read]
  | @step u hgu ih =>
      have hbefore := ih (by omega)
      by_cases hsame : (r.cluster (u + 1)).conditions (r.jobs i).inNamespace (r.jobs i).name =
          (r.cluster u).conditions (r.jobs i).inNamespace (r.jobs i).name
      · rwa [← hsame] at hbefore
      · obtain ⟨⟨c, a⟩, hmade⟩ := halone u hgu (by omega) hsame
        obtain ⟨w, fate, _, _, -, -, -, ha⟩ := r.answer_of_made hmade
        have hcluster : ((r.cluster u).answer w c fate).2 = r.cluster (u + 1) :=
          congrArg Prod.snd ha
        have hcall : ∀ sent, c ≠ .replaceRemediation sent := by
          rintro sent rfl
          exact h.replaces u sent a (by omega) hmade
        have hcases := (r.cluster u).conditions_answer w c fate (r.jobs i).inNamespace
          (r.jobs i).name hcall
        rw [hcluster] at hcases
        rcases hcases with heq | ⟨status', rfl, heq⟩
        · exact (hsame heq).elim
        · obtain ⟨hmem, time', rfl⟩ := h.started u _ _ status' a (by omega) hmade
          exact .inr ⟨hmem, time', heq⟩

theorem undisturbed_of_isSequential (hseq : r.IsSequential) (hspares : r.SparesConditions)
    {x y : Exchange} (hx : r.made g = some (i, x)) (hy : r.made t = some (i, y)) :
    r.Undisturbed i ns name g t := by
  intro v hgv hvt hchanged
  obtain ⟨_, hi⟩ := amid_of_made hy
  obtain ⟨_, hi⟩ := exists_amid_of_made hx hgv (Nat.le_of_lt hvt) hi
  rcases r.cluster_succ v with heq | ⟨e, hm, heq⟩ | ⟨j, w, fate, said, c, next, -, hw, hmade, -⟩
  · rw [heq] at hchanged
    exact (hchanged rfl).elim
  · rw [heq, hspares v e hm] at hchanged
    exact (hchanged rfl).elim
  · obtain rfl := hseq.eq_of_amid hi ⟨c, next, hw⟩
    exact ⟨_, hmade⟩

/--
**Since when a condition holds.**  What a write of the status sets is dated from the request
as the pass read it, with the time that the clock showed last.  If only the pass has changed
the conditions since it read the request, it is dated from what was stored right before the
write as well, but for one case: a success says that processing is over, which the request
said already when it was read, and keeps the time of that, although the pass has said in
between that processing is underway.
-/
theorem isDated_of_made (r : Run) (t i : Nat) (ns name : String) (status : Status)
    (h : r.made t = some (i, ⟨.patchStatus ns name status, .ok ()⟩)) :
    (ns, name) = (r.jobs i).key ∧
    ∃ g q aspects time, r.MakesStatus i t status g q aspects time ∧
      ∀ a ∈ aspects, ∃ c, Condition.find? a ((r.cluster (t + 1)).conditions ns name) = some c ∧
        c.IsDated (Condition.find? a q.conditions) time.stamp ∧
        (r.Undisturbed i ns name g t →
          c.IsDated (Condition.find? a ((r.cluster t).conditions ns name)) time.stamp ∨
            a = .processing ∧ aspects = [.processing, .agentSucceeded, .succeeded] ∧
              (∃ old, Condition.find? a q.conditions = some old ∧ old.status = c.status ∧
                c.lastTransitionTime = old.lastTransitionTime) ∧
              ∃ now, Condition.find? a ((r.cluster t).conditions ns name) = some now ∧
                now.status ≠ c.status) := by
  obtain ⟨hkey, g, q, aspects, time, hmakes⟩ := exists_makesStatus h
  refine ⟨hkey, g, q, aspects, time, hmakes, ?_⟩
  intro a ha
  obtain ⟨c, hc, hdated⟩ := hmakes.tells.exists_isDated hmakes.dated ha
  refine ⟨c, by rw [conditions_succ_of_made h, hc], hdated, ?_⟩
  intro halone
  rcases hmakes.conditions_eq hkey halone (Nat.le_of_lt hmakes.lt) (Nat.le_refl t) with
    heq | ⟨hmem, time', heq⟩
  · left
    rwa [heq]
  · rw [heq]
    have hstored : (q.startedStatus time').conditions = q.setCondition .processing true _ _ time'
        q.conditions := rfl
    by_cases hp : .processing = a
    · subst hp
      obtain ⟨haspects, c', hc', hover⟩ := hmakes.tells.finished_of_mem ha hmem
      obtain rfl := Option.some.inj (hc'.symm.trans hc)
      obtain ⟨now, hnow, hunderway, -⟩ := q.exists_find?_setCondition .processing true
        "RemediationStarted" "The node was tainted and the fence agent is about to run" time'
        q.conditions
      have hne : now.status ≠ c'.status := by
        rw [hunderway, hover]
        decide
      rw [hstored, hnow]
      rcases hdated.of_status_ne hne with hdated | hkept
      · exact .inl hdated
      · exact .inr ⟨rfl, haspects, hkept, now, rfl, hne⟩
    · left
      rwa [hstored, Remediation.find?_setCondition_of_ne hp]

/-! ### A node that is fenced again

The agent succeeds, others take the taint off the node, and the next pass fences the node
once more.
-/

/-- Two passes, one after the other, and what the second one meets; in between others take the
taint off the node. -/
def twice (w : Surroundings) : Run :=
  .ofMoves (fun _ => ⟨{}, "default", "n1"⟩) setting
    (.start 0 :: List.replicate 14 (calls 0) ++ [.edit (.setTaints "n1" none)] ++
      .start 1 :: List.replicate 14 (.call 1 w .served))

theorem restsFrom_twice (w : Surroundings) : (twice w).RestsFrom 31 := restsFrom_ofMoves _ _ _

theorem edit_twice {w : Surroundings} {t : Nat} {e : Cluster.Edit}
    (h : (twice w).moves t = .edit e) : e = .setTaints "n1" none := by
  rcases mem_or_eq_rest h with hmem | hrest
  · simpa [calls] using hmem
  · cases hrest

/-- The second pass succeeds too, years later. -/
def refenced : Run := twice ⟨⟨2025, 1, 1, 0, 0, 0, 0, by decide⟩, .ok ⟨Output.rebooted, ""⟩⟩

theorem exists_made_refenced :
    ∃ status, refenced.made 30 = some (1, ⟨.patchStatus "default" "n1" status, .ok ()⟩) := by
  apply exists_made_of_isStatusWrite
  decide +kernel

theorem isSequential_refenced : refenced.IsSequential := by
  apply (restsFrom_twice _).isSequential 2
  decide +kernel

theorem sparesConditions_refenced : refenced.SparesConditions := by
  intro t e hm ns name
  obtain rfl := edit_twice hm
  show ((refenced.cluster t).changeNode "n1" _).conditions ns name = _
  unfold Cluster.changeNode
  dsimp only
  split <;> rfl

/-- Remediation is over, and not since now, although it was underway right before. -/
theorem processing_refenced :
    (Condition.find? .processing ((refenced.cluster 30).conditions "default" "n1")).map
        Condition.status = some "True" ∧
      (Condition.find? .processing ((refenced.cluster 31).conditions "default" "n1")).map
        (fun c => (c.status, c.lastTransitionTime)) = some ("False", "1970-01-01T00:00:00Z") ∧
      ((refenced.cluster 31).status? "default" "n1").bind Status.lastUpdateTime =
        some "2025-01-01T00:00:00Z" ∧
      Condition.holds .agentSucceeded ((refenced.cluster 31).conditions "default" "n1") = true := by
  decide +kernel

variable {g : Nat} {q : Remediation} {aspects : List Aspect} {time : Instant}

theorem exists_undated_refenced
    (hmade : refenced.made 30 = some (1, ⟨.patchStatus "default" "n1" status, .ok ()⟩))
    (h : refenced.MakesStatus 1 30 status g q aspects time) :
    .processing ∈ aspects ∧
      ∃ c, Condition.find? .processing ((refenced.cluster 31).conditions "default" "n1") = some c ∧
        ¬ c.IsDated (Condition.find? .processing
          ((refenced.cluster 30).conditions "default" "n1")) time.stamp := by
  obtain ⟨hbefore, hafter, htime, hsucceeded⟩ := processing_refenced
  obtain ⟨now, hnow, hunderway⟩ := Option.map_eq_some_iff.mp hbefore
  obtain ⟨c, hc, hover⟩ := Option.map_eq_some_iff.mp hafter
  obtain ⟨hstatus, hsince⟩ := Prod.mk.inj hover
  rw [status?_succ_of_made hmade, Option.bind_some, h.dated] at htime
  rw [conditions_succ_of_made hmade] at hsucceeded
  refine ⟨h.tells.processing_of_holds hsucceeded, c, hc, ?_⟩
  rw [hnow]
  unfold Condition.IsDated
  rw [Option.some.inj htime]
  simp [hunderway, hstatus, hsince]

/-- **A status can say that remediation is over since a time when it was not.**  Passes do not
overlap, and others leave the conditions alone. -/
theorem not_isDated_stored :
    ¬ ∀ (r : Run) (t i g : Nat) (ns name : String) (status : Status) (q : Remediation)
      (aspects : List Aspect) (time : Instant), r.IsSequential → r.SparesConditions →
      r.made t = some (i, ⟨.patchStatus ns name status, .ok ()⟩) →
      r.MakesStatus i t status g q aspects time →
      ∀ a ∈ aspects, ∀ c, Condition.find? a ((r.cluster (t + 1)).conditions ns name) = some c →
        c.IsDated (Condition.find? a ((r.cluster t).conditions ns name)) time.stamp := by
  intro hdated
  obtain ⟨status, hmade⟩ := exists_made_refenced
  obtain ⟨-, g, q, aspects, time, hmakes⟩ := exists_makesStatus hmade
  obtain ⟨hset, c, hc, hundated⟩ := exists_undated_refenced hmade hmakes
  exact hundated (hdated refenced 30 1 g "default" "n1" status q aspects time
    isSequential_refenced sparesConditions_refenced hmade hmakes .processing hset c hc)

/-- It keeps the time from when remediation was over first. -/
theorem isDated_of_made_refenced :
    ∃ status g q aspects time,
      refenced.made 30 = some (1, ⟨.patchStatus "default" "n1" status, .ok ()⟩) ∧
      refenced.MakesStatus 1 30 status g q aspects time ∧
      refenced.Undisturbed 1 "default" "n1" g 30 ∧
      ∃ c old, Condition.find? .processing
          ((refenced.cluster 31).conditions "default" "n1") = some c ∧
        Condition.find? .processing q.conditions = some old ∧ old.status = c.status ∧
        c.lastTransitionTime = old.lastTransitionTime := by
  obtain ⟨status, hmade⟩ := exists_made_refenced
  obtain ⟨-, g, q, aspects, time, hmakes, hdated⟩ :=
    isDated_of_made refenced 30 1 "default" "n1" status hmade
  have halone : refenced.Undisturbed 1 "default" "n1" g 30 :=
    undisturbed_of_isSequential isSequential_refenced sparesConditions_refenced hmakes.read hmade
  obtain ⟨hset, c, hc, hundated⟩ := exists_undated_refenced hmade hmakes
  obtain ⟨c', hc', -, hcases⟩ := hdated .processing hset
  obtain rfl := Option.some.inj (hc'.symm.trans hc)
  rcases hcases halone with hstored | ⟨-, -, ⟨old, hold, hstatus, hsince⟩, -⟩
  · exact (hundated hstored).elim
  · exact ⟨status, g, q, aspects, time, hmade, hmakes, halone, c', old, hc, hold, hstatus, hsince⟩

end Run

end NodeFencing
