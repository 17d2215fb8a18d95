/-
A taint that requests share.

The remediation taint belongs to a node and not to a request, and requests of one name in
different namespaces are over one node.  So it is the taint that allows one execution: the
cleanup of one request takes off what kept the agent of another from running again, and
that other one runs it again.

Nothing else does that, if passes do not overlap and others leave the taints of nodes
alone.  Of two executions on a node the second one has a taint of its own, so the node
lost the first one in between; it was not the pass that had put it on, and nobody else was
running before that pass was over; so a later pass took it off, and a pass only does that
for a request that it has read as deleted.
-/
import NodeFencing.Proofs.Site.Footprint
import NodeFencing.Proofs.Site.Guardian

namespace NodeFencing

/-- Whether a pass has a call to make. -/
def Worker.isBusy : Worker → Bool
  | .working _ (.call _ _) => true
  | _ => false

theorem Site.Amid.isBusy_eq_true {s : Site} {i : Nat} {said : List Exchange}
    (h : s.Amid i said) : (s.workers i).isBusy = true := by
  obtain ⟨c, next, h⟩ := h
  rw [h]
  rfl

namespace Run

/-- Passes do not overlap: a pass starts when no other one has a call to make. -/
def IsSequential (r : Run) : Prop :=
  ∀ t i, r.moves t = .start i → ∀ j, ((r.site t).workers j).isBusy = false

/-- Others take the taint off a node only by removing the node for good. -/
def SparesTaints (r : Run) : Prop :=
  ∀ t e node, r.moves t = .edit e → r.freesAt t node = true →
    ∀ u, t < u → (r.cluster u).node? node = none

/-- The request of a name is never marked deleted. -/
def StaysLive (r : Run) (inNamespace name : String) : Prop :=
  ∀ t q, (r.cluster t).remediation? inNamespace name = some q → q.isDeleted = false

/-- A pass cleans up after its request, which it has read as deleted, and takes the taint off the
node. -/
structure UnfencesAt (r : Run) (t i : Nat) : Prop where
  made : ∃ sent a, r.made t = some (i, ⟨.replaceNode sent, a⟩)
  freed : r.freesAt t (r.jobs i).name = true
  deleted : ∃ g q, g < t ∧
    (r.cluster g).remediation? (r.jobs i).inNamespace (r.jobs i).name = some q ∧
    q.isDeleted = true

variable {r : Run} {t u v i j : Nat} {said said' : List Exchange}

/-! ### One pass at a time -/

theorem IsSequential.eq_of_amid (h : r.IsSequential) (hi : (r.site t).Amid i said)
    (hj : (r.site t).Amid j said') : i = j := by
  induction t generalizing said said' with
  | zero =>
      obtain ⟨_, _, hi⟩ := hi
      cases hi
  | succ t ih =>
      have hidle : ∀ {i j before}, r.moves t = .start i → ¬ (r.site t).Amid j before := by
        intro i j before hm hj
        have hfalse := h t i hm j
        rw [hj.isBusy_eq_true] at hfalse
        cases hfalse
      rcases exists_amid_or_start hi with ⟨_, hi⟩ | hm <;>
        rcases exists_amid_or_start hj with ⟨_, hj⟩ | hm'
      · exact ih hi hj
      · exact (hidle hm' hi).elim
      · exact (hidle hm hj).elim
      · exact Move.start.inj (hm.symm.trans hm')

/-- A pass has a call to make from each exchange of it on for as long as it lasts. -/
theorem exists_amid_of_made {x : Exchange} (hx : r.made u = some (i, x)) (huv : u ≤ v)
    (hvt : v ≤ t) (h : (r.site t).Amid i said) : ∃ before, (r.site v).Amid i before := by
  induction hvt generalizing said with
  | refl => exact ⟨said, h⟩
  | @step t hvt ih =>
      obtain ⟨c, next, hw⟩ := h
      cases r.turn t i with
      | idle hmade heq => exact ih ⟨c, next, heq.symm.trans hw⟩
      | started hm hmade hwaiting heq =>
          rcases Nat.lt_or_ge u t with hlt | hge
          · exact (r.made_ne_of_waiting hwaiting hlt x hx).elim
          · have hvt : v ≤ t := hvt
            obtain rfl : u = t := by omega
            exact (hmade x hx).elim
      | called before c' a next' hmade hcall heq => exact ih ⟨c', next', hcall⟩
      | abandoned hmade heq => cases heq.symm.trans hw

/-- A pass that makes an exchange has a call to make. -/
theorem amid_of_made {x : Exchange} (h : r.made t = some (i, x)) :
    ∃ said, (r.site t).Amid i said := by
  obtain ⟨c, a⟩ := x
  obtain ⟨_, _, said, next, -, hw, -, -⟩ := r.answer_of_made h
  exact ⟨said, c, next, hw⟩

/-! ### Who takes the taint off -/

/-- If the node is there later, it was a cleanup that took the taint off. -/
theorem exists_unfencesAt_of_freesAt (hspares : r.SparesTaints) {node : String}
    (h : r.freesAt t node = true) (htu : t < u) (hnode : (r.cluster u).node? node ≠ none) :
    ∃ k, r.UnfencesAt t k ∧ (r.jobs k).name = node := by
  have hfreed := h
  unfold freesAt at h
  rw [Bool.and_eq_true, Bool.not_eq_true'] at h
  obtain ⟨hbefore, hafter⟩ := h
  rcases r.cluster_succ t with heq | ⟨e, hm, -⟩ | ⟨k, w, fate, said, c, next, -, hw, hmade, heq⟩
  · rw [heq, hbefore] at hafter
    cases hafter
  · exact (hnode (hspares t e node hm hfreed u htu)).elim
  · unfold Cluster.carries at hbefore hafter
    rw [heq] at hafter
    rcases (r.cluster t).node?_answer w c fate node with
      hsame | ⟨sent, _, rfl, hname, -, -, hstored⟩
    · rw [hsame, hbefore] at hafter
      cases hafter
    · have hclean : sent.isTainted = false := by
        rw [hstored] at hafter
        exact hafter
      obtain ⟨-, -, hjob, -⟩ := exists_getNode_of_working hw
      obtain rfl : (r.jobs k).name = node := hjob.symm.trans hname
      refine ⟨k, ⟨⟨sent, _, hmade⟩, hfreed, ?_⟩, rfl⟩
      obtain ⟨⟨before, q, n, hopen, hq, rfl, -⟩ | ⟨_, _, _, _, -, -, -, -, rfl, -⟩, -⟩ := r.heard hw
      · obtain ⟨g, hg, hread⟩ := r.exists_made_of_mem hw (List.mem_append_left _ hopen.mem)
        have hdeleted := (Remediation.lifecycleAction_eq_cleanup_iff.mp hq).2
        exact ⟨g, q, hg, r.remediation?_of_made hread, hdeleted⟩
      · -- a write that puts the taint on does not take it off
        rw [Node.isTainted_addTaint] at hclean
        cases hclean

/-- A pass does not write its node again before it runs the agent. -/
theorem not_replaceNode_of_taintsAt {sent : Node} {a : Except Error Node}
    (h : r.taintsAt t i = true) (htu : t < u) : r.made u ≠ some (i, ⟨.replaceNode sent, a⟩) := by
  intro hmade
  obtain ⟨⟨first, m, hfirst⟩, -⟩ := exists_of_taintsAt h
  obtain ⟨_, _, _, _, -, hw, -, -⟩ := r.answer_of_made hmade
  have hwrite := (r.heard hw).isNodeWrite_eq_false _ (r.mem_said hfirst htu hw)
  cases hwrite

/-- **Between two executions on a node the taint was taken off for a deleted request.** -/
theorem exists_unfencesAt_between (hseq : r.IsSequential) (hspares : r.SparesTaints)
    (hname : (r.jobs i).name = (r.jobs j).name) (he : r.executesAt t i = true)
    (he' : r.executesAt u j = true) (htu : t < u) :
    ∃ v k, t < v ∧ v < u ∧ r.UnfencesAt v k ∧ (r.jobs k).name = (r.jobs i).name := by
  obtain ⟨w, hwt, hw⟩ := exists_taintsAt he
  obtain ⟨w', hw'u, hw'⟩ := exists_taintsAt he'
  obtain ⟨_, _, _, hexecution⟩ := exists_of_executesAt he
  obtain ⟨_, _, _, hexecution'⟩ := exists_of_executesAt he'
  obtain ⟨⟨_, _, hwrite⟩, -, -⟩ := exists_of_taintsAt hw
  obtain ⟨⟨_, _, hwrite'⟩, -, hcarries⟩ := exists_of_taintsAt hw'
  obtain ⟨_, hi⟩ := amid_of_made hexecution
  obtain ⟨_, hj⟩ := amid_of_made hexecution'
  have htw' : t < w' := by
    -- otherwise both passes have a call to make when the first one runs the agent
    by_contra hle
    obtain ⟨_, hj⟩ := exists_amid_of_made hwrite' (Nat.le_of_not_lt hle) (Nat.le_of_lt htu) hj
    obtain rfl := hseq.eq_of_amid hi hj
    have hsame := executesAt_unique he he'
    omega
  obtain ⟨v, hwv, hvw', hv⟩ := exists_freesAt_of_taintsAt hname hw hw' (by omega)
  have hthere : (r.cluster (w' + 1)).node? (r.jobs i).name ≠ none := by
    intro hnone
    rw [← hname, Cluster.carries, hnone] at hcarries
    cases hcarries
  obtain ⟨k, hunfences, hk⟩ := exists_unfencesAt_of_freesAt hspares hv (by omega) hthere
  obtain ⟨sent, a, hmade⟩ := hunfences.made
  have htv : t < v := by
    -- until then only the first pass has a call to make, and it has tainted its node
    by_contra hle
    obtain ⟨_, hi⟩ := exists_amid_of_made hwrite (Nat.le_of_lt hwv) (Nat.le_of_not_lt hle) hi
    obtain ⟨_, hcall⟩ := amid_of_made hmade
    obtain rfl := hseq.eq_of_amid hi hcall
    exact not_replaceNode_of_taintsAt hw hwv hmade
  exact ⟨v, k, htv, by omega, hunfences, hk⟩

/--
**A live request is fenced once per taint that nobody shares.**  If passes do not overlap
and others leave the taints of nodes alone, then between two executions for a request that
is never marked deleted, the cleanup of a request of the same name in another namespace
took the taint off the node.  So where no such cleanup takes the taint off, the agent is
run for the request at most once.
-/
theorem execution_unique_or_unfencesAt (r : Run) (hseq : r.IsSequential)
    (hspares : r.SparesTaints) (inNamespace name : String) (hlive : r.StaysLive inNamespace name) :
    (∀ e e' i i', (r.jobs i).key = (inNamespace, name) → (r.jobs i').key = (inNamespace, name) →
      r.executesAt e i = true → r.executesAt e' i' = true → e < e' →
      ∃ v k, e < v ∧ v < e' ∧ r.UnfencesAt v k ∧ (r.jobs k).name = name ∧
        (r.jobs k).inNamespace ≠ inNamespace) ∧
    ((∀ v k, r.UnfencesAt v k → (r.jobs k).name = name → (r.jobs k).inNamespace = inNamespace) →
      ∀ e e' i i', (r.jobs i).key = (inNamespace, name) →
        (r.jobs i').key = (inNamespace, name) →
        r.executesAt e i = true → r.executesAt e' i' = true → e = e') := by
  have hbetween : ∀ e e' i i', (r.jobs i).key = (inNamespace, name) →
      (r.jobs i').key = (inNamespace, name) →
      r.executesAt e i = true → r.executesAt e' i' = true → e < e' →
      ∃ v k, e < v ∧ v < e' ∧ r.UnfencesAt v k ∧ (r.jobs k).name = name ∧
        (r.jobs k).inNamespace ≠ inNamespace := by
    intro e e' i i' hkey hkey' he he' hlt
    have hname : (r.jobs i).name = name := congrArg Prod.snd hkey
    have hname' : (r.jobs i').name = name := congrArg Prod.snd hkey'
    obtain ⟨v, k, hev, hve', hunfences, hk⟩ :=
      exists_unfencesAt_between hseq hspares (hname.trans hname'.symm) he he' hlt
    refine ⟨v, k, hev, hve', hunfences, hk.trans hname, ?_⟩
    -- the request that was read as deleted is another one
    intro hns
    obtain ⟨g, q, -, hq, hdeleted⟩ := hunfences.deleted
    rw [hns, hk, hname] at hq
    rw [hlive g q hq] at hdeleted
    cases hdeleted
  refine ⟨hbetween, ?_⟩
  intro hnone e e' i i' hkey hkey' he he'
  by_contra hne
  rcases Nat.lt_or_gt_of_ne hne with hlt | hgt
  · obtain ⟨v, k, -, -, hunfences, hk, hns⟩ := hbetween e e' i i' hkey hkey' he he' hlt
    exact hns (hnone v k hunfences hk)
  · obtain ⟨v, k, -, -, hunfences, hk, hns⟩ := hbetween e' e i' i hkey' hkey he' he hgt
    exact hns (hnone v k hunfences hk)

/-! ### Two requests of one name

A request is fenced; then the one in the other namespace is marked deleted and cleaned up
after; then the first one is looked at again.
-/

/-- Three passes, one after the other, over two requests of one name. -/
def sharing : Run :=
  let request : Remediation := {
    metadata := {
      name := some "n1", inNamespace := some "other"
      finalizers := some [Remediation.finalizer] }
    spec := {
      agent := "fence_ipmilan", sharedParameters := some .empty
      nodeParameters := some .empty } }
  .ofMoves (fun i => ⟨{}, if i = 1 then "other" else "default", "n1"⟩)
    (setting ++ [.addRemediation request])
    (.start 0 :: List.replicate 14 (calls 0) ++ [.edit (.markDeleted "other" "n1" default)] ++
      .start 1 :: List.replicate 6 (calls 1) ++ .start 2 :: List.replicate 14 (calls 2))

/-- Whether a pass that starts at a time is one of the first `n`, and none of them has a call to
make. -/
def startsApart (r : Run) (n t : Nat) : Bool :=
  match r.moves t with
  | .start i => decide (i < n) && (List.range n).all fun j => !((r.site t).workers j).isBusy
  | _ => true

theorem isSequential_of_startsApart (n : Nat) (h : ∀ t, r.startsApart n t = true) :
    r.IsSequential := by
  have hstart : ∀ t i, r.moves t = .start i →
      i < n ∧ ∀ j < n, ((r.site t).workers j).isBusy = false := by
    intro t i hm
    have hcheck := h t
    unfold startsApart at hcheck
    rw [hm] at hcheck
    simpa using hcheck
  intro t i hm j
  rcases Nat.lt_or_ge j n with hj | hj
  · exact (hstart t i hm).2 j hj
  · have hwaiting : (r.site t).workers j = .waiting := by
      apply r.workers_eq_waiting
      intro u hu hm'
      have hlt := (hstart u j hm').1
      omega
    rw [hwaiting]
    rfl

/-- It is enough to look at the starts until nothing happens any more. -/
theorem RestsFrom.isSequential {m : Nat} (hrest : r.RestsFrom m) (n : Nat)
    (h : ∀ t < m, r.startsApart n t = true) : r.IsSequential := by
  refine isSequential_of_startsApart n fun t => ?_
  rcases Nat.lt_or_ge t m with hlt | hge
  · exact h t hlt
  · unfold startsApart
    rw [hrest t hge]

theorem restsFrom_sharing : sharing.RestsFrom 38 := restsFrom_ofMoves _ _ _

theorem isSequential_sharing : sharing.IsSequential := by
  apply restsFrom_sharing.isSequential 3
  decide +kernel

theorem staysLive_sharing : sharing.StaysLive "default" "n1" := by
  have hcheck : ∀ t < 38 + 1, ((sharing.cluster t).remediation? "default" "n1").all
      (fun q => !q.isDeleted) = true := by decide +kernel
  intro t q hq
  have hall := restsFrom_sharing.forall_cluster
    (P := fun k => (k.remediation? "default" "n1").all (fun q => !q.isDeleted) = true) hcheck t
  rw [hq] at hall
  simpa using hall

theorem executesAt_sharing :
    sharing.executesAt 10 0 = true ∧ sharing.executesAt 33 2 = true := by
  decide +kernel

/-- Others only mark a request deleted. -/
theorem nodes_edit_sharing (t : Nat) (e : Cluster.Edit) (hm : sharing.moves t = .edit e) :
    ((sharing.cluster t).edit e).nodes = (sharing.cluster t).nodes := by
  obtain rfl : e = .markDeleted "other" "n1" default := by
    rcases mem_or_eq_rest hm with hmem | hrest
    · simpa [calls] using hmem
    · cases hrest
  unfold Cluster.edit Cluster.changeRemediation
  dsimp only
  split <;> rfl

/-- **A live request can be fenced twice**: passes do not overlap and others change no node, and
yet the agent is run for it again after another request was cleaned up after. -/
theorem not_execution_unique :
    ¬ ∀ (r : Run) (inNamespace name : String), r.IsSequential →
      (∀ t e, r.moves t = .edit e → ((r.cluster t).edit e).nodes = (r.cluster t).nodes) →
      r.StaysLive inNamespace name →
      ∀ e e' i i', (r.jobs i).key = (inNamespace, name) →
        (r.jobs i').key = (inNamespace, name) →
        r.executesAt e i = true → r.executesAt e' i' = true → e = e' := by
  intro hunique
  obtain ⟨he, he'⟩ := executesAt_sharing
  have heq : 10 = 33 := hunique sharing "default" "n1" isSequential_sharing nodes_edit_sharing
    staysLive_sharing 10 33 0 2 rfl rfl he he'
  cases heq

/-- If others change no node, they take no taint off. -/
theorem sparesTaints_of_nodes_edit
    (h : ∀ t e, r.moves t = .edit e → ((r.cluster t).edit e).nodes = (r.cluster t).nodes) :
    r.SparesTaints := by
  intro t e node hm hfreed
  have hafter : r.cluster (t + 1) = (r.cluster t).edit e := by
    show ((r.site t).next r.jobs (r.moves t)).cluster = _
    rw [hm]
    rfl
  have hcarries : (r.cluster (t + 1)).carries node = (r.cluster t).carries node := by
    unfold Cluster.carries Cluster.node?
    rw [hafter, h t e hm]
  unfold freesAt at hfreed
  rw [hcarries, Bool.and_not_self] at hfreed
  cases hfreed

/-- The cleanup between the two executions is that of the request in the other namespace. -/
theorem exists_unfencesAt_sharing :
    sharing.executesAt 10 0 = true ∧ sharing.executesAt 33 2 = true ∧
      ∃ v k, 10 < v ∧ v < 33 ∧ sharing.UnfencesAt v k ∧ (sharing.jobs k).name = "n1" ∧
        (sharing.jobs k).inNamespace ≠ "default" := by
  obtain ⟨he, he'⟩ := executesAt_sharing
  have hspares := sparesTaints_of_nodes_edit nodes_edit_sharing
  exact ⟨he, he', (execution_unique_or_unfencesAt sharing isSequential_sharing hspares
    "default" "n1" staysLive_sharing).1 10 33 0 2 rfl rfl he he' (by decide)⟩

end Run

end NodeFencing
