/-
One run of the agent per taint.

A pass runs the agent only after it put the remediation taint on its node, and the
cluster takes that write only of the node as the pass read it: without the taint.  So
every execution has a write of its own by which its node became tainted, however passes
overlap, fail or are given up in between.  Two such writes to one node need the taint to
have been off in between.
-/
import NodeFencing.Proofs.Pass.Gate
import NodeFencing.Proofs.Site.Run

namespace NodeFencing

/-- Whether a node was replaced. -/
def Exchange.isNodeWrite : Exchange → Bool
  | ⟨.replaceNode _, .ok _⟩ => true
  | _ => false

theorem Exchange.exists_of_isNodeWrite {x : Exchange} (h : Exchange.isNodeWrite x = true) :
    ∃ sent m, x = ⟨.replaceNode sent, .ok m⟩ := by
  obtain ⟨c, a⟩ := x
  cases c with
  | replaceNode sent =>
      cases a with
      | error e => cases h
      | ok m => exact ⟨sent, m, rfl⟩
  | _ => cases h

theorem Exchange.exists_of_isExecution {x : Exchange} (h : x.1.isExecution = true) :
    ∃ pod command a, x = ⟨.execute pod command, a⟩ := by
  obtain ⟨c, a⟩ := x
  cases c with
  | execute pod command => exact ⟨pod, command, a, rfl⟩
  | _ => cases h

namespace Pass

variable {s : Settings} {inNamespace name : String} {log : List Exchange} {q : Remediation}

theorem Armed.exists_marked {pod : Pod} {command : List String}
    (h : Armed s inNamespace name log q pod command) :
    ∃ before after, log = before ++ after ∧ Marked inNamespace name before q := by
  obtain ⟨⟨hmarked⟩, -⟩ := h
  exact ⟨_, _, List.append_assoc _ _ _, hmarked⟩

/-- Before the agent runs, the pass saw its node without the taint, and then put it on. -/
theorem Armed.exists_taint {pod : Pod} {command : List String}
    (h : Armed s inNamespace name log q pod command) :
    ∃ before n time m after, n.isTainted = false ∧
      log = (before ++ ⟨.getNode name, .ok (some n)⟩ :: [⟨.readClock, time⟩]) ++
        ⟨.replaceNode (n.addTaint time), .ok m⟩ :: after := by
  obtain ⟨_, after, rfl, @⟨before, _, n, m, time, -, -, hn⟩⟩ := h.exists_marked
  exact ⟨before, n, time, m, after, hn, by simp⟩

/-- A pass writes no node after it wrote one. -/
theorem Heard.isNodeWrite_eq_false {sent : Node}
    {next : Except Error Node → Program (Except Error Report)}
    (h : Heard s inNamespace name log (.replaceNode sent) next) :
    ∀ x ∈ log, Exchange.isNodeWrite x = false := by
  obtain ⟨⟨_, _, _, ⟨_⟩, -, rfl, -⟩ | ⟨_, _, _, _, ⟨_⟩, -, -, rfl, -⟩, -⟩ := h
  · simp [Exchange.isNodeWrite]
  · simp [Exchange.isNodeWrite]

end Pass

namespace Run

variable (r : Run)

/-- Whether a pass runs the agent at a time. -/
def executesAt (t i : Nat) : Bool := r.makesAt (fun x => x.1.isExecution) t i

/-- Whether a pass takes its node at a time from not carrying the taint to carrying it. -/
def taintsAt (t i : Nat) : Bool :=
  r.makesAt Exchange.isNodeWrite t i &&
    (!(r.cluster t).carries (r.jobs i).name && (r.cluster (t + 1)).carries (r.jobs i).name)

/-- Whether a node carries the taint at a time and then does not, or is gone. -/
def freesAt (t : Nat) (node : String) : Bool :=
  (r.cluster t).carries node && !(r.cluster (t + 1)).carries node

variable {r} {t u i j : Nat}

theorem exists_of_executesAt (h : r.executesAt t i = true) :
    ∃ pod command a, r.made t = some (i, ⟨.execute pod command, a⟩) := by
  obtain ⟨x, hmade, hx⟩ := exists_of_makesAt h
  obtain ⟨pod, command, a, rfl⟩ := Exchange.exists_of_isExecution hx
  exact ⟨pod, command, a, hmade⟩

theorem exists_of_taintsAt (h : r.taintsAt t i = true) :
    (∃ sent m, r.made t = some (i, ⟨.replaceNode sent, .ok m⟩)) ∧
      (r.cluster t).carries (r.jobs i).name = false ∧
      (r.cluster (t + 1)).carries (r.jobs i).name = true := by
  unfold taintsAt at h
  simp only [Bool.and_eq_true, Bool.not_eq_true'] at h
  obtain ⟨hwrite, hcarries⟩ := h
  refine ⟨?_, hcarries⟩
  obtain ⟨x, hmade, hx⟩ := exists_of_makesAt hwrite
  obtain ⟨sent, m, rfl⟩ := Exchange.exists_of_isNodeWrite hx
  exact ⟨sent, m, hmade⟩

/-- **Every execution comes after a write of its own pass by which the node became tainted.** -/
theorem exists_taintsAt (h : r.executesAt t i = true) : ∃ u < t, r.taintsAt u i = true := by
  obtain ⟨pod, command, a, hmade⟩ := exists_of_executesAt h
  obtain ⟨w, fate, said, next, -, hw, -, -⟩ := r.answer_of_made hmade
  obtain ⟨q, harmed⟩ := r.heard hw
  obtain ⟨before, n, time, m, after, hn, rfl⟩ := harmed.exists_taint
  obtain ⟨u, nextu, hu, hwrite, hwu⟩ := r.exists_made hw
  obtain ⟨g, nextg, hg, hread, -⟩ := r.exists_made hwu
  have hnamed : n.anyName = (r.jobs i).name := r.anyName_eq hwu (by simp)
  -- the write was accepted, so what was stored was what had been read
  obtain ⟨w', fate', said', next', -, -, -, ha⟩ := r.answer_of_made hwrite
  have hok : ((r.cluster u).answer w' (.replaceNode (n.addTaint time)) fate').1 = .ok m :=
    congrArg Prod.fst ha
  obtain ⟨stored, hstored, hver, -, -⟩ := Cluster.replaceNode_of_answer_eq_ok hok
  have hafter := Cluster.carries_of_answer_eq_ok hok
  have hcluster : _ = r.cluster (u + 1) := congrArg Prod.snd ha
  have hname : (n.addTaint time).anyName = (r.jobs i).name := hnamed
  rw [hcluster, hname, Node.isTainted_addTaint] at hafter
  rw [hname] at hstored
  obtain ⟨rfl, -⟩ := r.node?_eq_of_version_eq (Nat.le_refl g) (Nat.le_of_lt hg)
    (r.node?_of_made hread) hstored hver.symm
  have hbefore : (r.cluster u).carries (r.jobs i).name = false := by
    simp [Cluster.carries, hstored, hn]
  have hkind : r.makesAt Exchange.isNodeWrite u i = true := makesAt_of_made hwrite rfl
  exact ⟨u, hu, by simp [taintsAt, hkind, hbefore, hafter]⟩

/-- A pass runs the agent at most once. -/
theorem executesAt_unique (h : r.executesAt t i = true) (h' : r.executesAt u i = true) :
    t = u := by
  refine r.makesAt_unique ?_ h h'
  intro t said c next a hw hx
  obtain ⟨pod, command, _, hc⟩ := Exchange.exists_of_isExecution hx
  cases hc
  obtain ⟨q, harmed⟩ := r.heard hw
  exact harmed.isExecution_eq_false

/-- A pass taints its node at most once. -/
theorem taintsAt_unique (h : r.taintsAt t i = true) (h' : r.taintsAt u i = true) : t = u := by
  unfold taintsAt at h h'
  rw [Bool.and_eq_true] at h h'
  refine r.makesAt_unique ?_ h.1 h'.1
  intro t said c next a hw hx
  obtain ⟨sent, m, hc⟩ := Exchange.exists_of_isNodeWrite hx
  cases hc
  exact (r.heard hw).isNodeWrite_eq_false

/-- A write belongs to one pass. -/
theorem eq_of_taintsAt (h : r.taintsAt t i = true) (h' : r.taintsAt t j = true) : i = j := by
  obtain ⟨⟨_, _, hmade⟩, -⟩ := exists_of_taintsAt h
  obtain ⟨⟨_, _, hmade'⟩, -⟩ := exists_of_taintsAt h'
  have hsame := hmade.symm.trans hmade'
  simp only [Option.some.injEq, Prod.mk.injEq] at hsame
  exact hsame.1

/-- A node that carries the taint and later does not is freed in between. -/
theorem exists_freesAt {node : String} (htu : t ≤ u) (h : (r.cluster t).carries node = true)
    (h' : (r.cluster u).carries node = false) : ∃ v, t ≤ v ∧ v < u ∧ r.freesAt v node = true := by
  induction htu with
  | refl =>
      rw [h] at h'
      cases h'
  | @step u htu ih =>
      by_cases hu : (r.cluster u).carries node = true
      · exact ⟨u, htu, Nat.lt_succ_self u, by simp [freesAt, hu, h']⟩
      · obtain ⟨v, htv, hvu, hv⟩ := ih (by simpa using hu)
        exact ⟨v, htv, by omega, hv⟩

/-- Between two writes that taint a node the node is freed. -/
theorem exists_freesAt_of_taintsAt (hname : (r.jobs i).name = (r.jobs j).name)
    (h : r.taintsAt t i = true) (h' : r.taintsAt u j = true) (htu : t < u) :
    ∃ v, t < v ∧ v < u ∧ r.freesAt v (r.jobs i).name = true := by
  obtain ⟨-, -, hafter⟩ := exists_of_taintsAt h
  obtain ⟨-, hbefore, -⟩ := exists_of_taintsAt h'
  rw [← hname] at hbefore
  obtain ⟨v, htv, hvu, hv⟩ := exists_freesAt htu hafter hbefore
  exact ⟨v, htv, hvu, hv⟩

/--
**At most one execution per taint.**  In every run, each execution comes after one write
of its own pass that took its node from not carrying the taint to carrying it, and that is
the only such write of the pass; no two executions have that write in common; and of two
executions on one node, between the write that came first and the other one the node lost
the taint or was removed.
-/
theorem one_execution_per_taint (r : Run) :
    (∀ e i, r.executesAt e i = true →
      ∃ u < e, r.taintsAt u i = true ∧ ∀ u', r.taintsAt u' i = true → u' = u) ∧
    (∀ e e' i j u, r.executesAt e i = true → r.executesAt e' j = true →
      r.taintsAt u i = true → r.taintsAt u j = true → e = e') ∧
    (∀ e e' i j u u', r.executesAt e i = true → r.executesAt e' j = true → e ≠ e' →
      (r.jobs i).name = (r.jobs j).name → r.taintsAt u i = true → r.taintsAt u' j = true →
      ∃ v, min u u' < v ∧ v < max u u' ∧ r.freesAt v (r.jobs i).name = true) := by
  refine ⟨?_, ?_, ?_⟩
  · intro e i he
    obtain ⟨u, hue, hu⟩ := exists_taintsAt he
    refine ⟨u, hue, hu, ?_⟩
    intro u' hu'
    exact taintsAt_unique hu' hu
  · intro e e' i j u he he' hu hu'
    obtain rfl := eq_of_taintsAt hu hu'
    exact executesAt_unique he he'
  · intro e e' i j u u' he he' hne hname hu hu'
    have huu' : u ≠ u' := by
      rintro rfl
      obtain rfl := eq_of_taintsAt hu hu'
      exact hne (executesAt_unique he he')
    rcases Nat.lt_or_gt_of_ne huu' with hlt | hgt
    · obtain ⟨v, huv, hvu', hv⟩ := exists_freesAt_of_taintsAt hname hu hu' hlt
      exact ⟨v, by omega, by omega, hv⟩
    · obtain ⟨v, hu'v, hvu, hv⟩ := exists_freesAt_of_taintsAt hname.symm hu' hu hgt
      rw [← hname] at hv
      exact ⟨v, by omega, by omega, hv⟩

/-! ### Two passes that overlap

The first pass taints the node and finds a pod, and others take the taint off; the second
pass taints the node again and finds a pod; then both run the agent.
-/

/-- Two passes over the same request. -/
def overlapping : Run :=
  .ofMoves (fun _ => ⟨{}, "default", "n1"⟩) setting
    (.start 0 :: List.replicate 9 (calls 0) ++ [.edit (.setTaints "n1" none)] ++
      .start 1 :: List.replicate 9 (calls 1) ++ [calls 0, calls 1])

/-- The two executions have two taints, and the node was free in between. -/
theorem exists_freesAt_overlapping :
    overlapping.executesAt 21 0 = true ∧ overlapping.executesAt 22 1 = true ∧
      overlapping.taintsAt 5 0 = true ∧ overlapping.taintsAt 16 1 = true ∧
      ∃ v, 5 < v ∧ v < 16 ∧ overlapping.freesAt v "n1" = true := by
  have he : overlapping.executesAt 21 0 = true := by decide +kernel
  have he' : overlapping.executesAt 22 1 = true := by decide +kernel
  have hu : overlapping.taintsAt 5 0 = true := by decide +kernel
  have hu' : overlapping.taintsAt 16 1 = true := by decide +kernel
  exact ⟨he, he', hu, hu',
    (one_execution_per_taint overlapping).2.2 21 22 0 1 5 16 he he' (by decide) rfl hu hu'⟩

end Run

end NodeFencing
