/-
What a pass leaves of what others wrote.

A pass reads an object whole, edits it, and puts it back whole; so it would undo whatever
others did to the object in between.  The version keeps it from that: a replacement is
accepted only of the very object that was read, and then `Edit` says all that is
different.  Otherwise it is refused, the object stays as others made it, and the pass ends
without running the agent.

What is left of an object without the part that is the controller's is its `foreign` part.
No call of a pass changes it, and no call changes any object of another name.
-/
import NodeFencing.Proofs.Revision.Finalizers
import NodeFencing.Proofs.Site.Fencing

namespace NodeFencing

/-! ### The edits of a pass -/

namespace Node

/-- The one edit of a node: the remediation taint comes last, or goes. -/
def Edit (n sent : Node) : Prop :=
  (n.isTainted = false ∧ ∃ time, sent = n.withTaints (n.taints ++ [Taint.remediation time])) ∨
    n.isTainted = true ∧ sent = n.withTaints (n.taints.filter (!·.isRemediation))

/-- The node without its version and the remediation taint; one without a spec counts as one with
an empty spec. -/
def foreign (n : Node) : Node :=
  { n.withTaints (n.taints.filter (!·.isRemediation)) with
    metadata := { n.metadata with resourceVersion := none } }

variable {n sent : Node}

theorem edit_of_removeTaint? (h : n.removeTaint? = some sent) : n.Edit sent :=
  .inr (removeTaint?_eq_some_iff.mp h)

theorem Edit.metadata_eq (h : n.Edit sent) : sent.metadata = n.metadata := by
  rcases h with ⟨-, time, rfl⟩ | ⟨-, rfl⟩ <;> rfl

theorem Edit.anyName_eq (h : n.Edit sent) : sent.anyName = n.anyName :=
  congrArg Metadata.anyName h.metadata_eq

theorem Edit.foreign_eq (h : n.Edit sent) : sent.foreign = n.foreign := by
  rcases h with ⟨-, time, rfl⟩ | ⟨-, rfl⟩
  · simp [foreign, withTaints, taints, Taint.isRemediation, Taint.agrees, Taint.remediation]
  · simp [foreign, withTaints, taints]

theorem foreign_stamped (n : Node) (version : Nat) : (n.stamped version).foreign = n.foreign := rfl

end Node

namespace Remediation

/-- The one edit of a request: the finalizer comes last, or goes. -/
def Edit (q sent : Remediation) : Prop :=
  (q.hasFinalizer = false ∧ sent = q.withFinalizers (q.finalizers ++ [finalizer])) ∨
    q.hasFinalizer = true ∧ sent = q.withFinalizers (q.finalizers.filter (· != finalizer))

/-- The request without its version, the finalizer and its status. -/
def foreign (q : Remediation) : Remediation :=
  { metadata := {
      q.metadata with
      finalizers := some (q.finalizers.filter (· != finalizer)), resourceVersion := none }
    spec := q.spec }

variable {q sent : Remediation}

theorem edit_of_addFinalizer? (h : q.addFinalizer? finalizer = some sent) : q.Edit sent := by
  obtain ⟨hnot, hsent⟩ := addFinalizer?_eq_some_iff.mp h
  rw [← hasFinalizer_iff, Bool.not_eq_true] at hnot
  exact .inl ⟨hnot, hsent⟩

theorem edit_of_removeFinalizer? (h : q.removeFinalizer? finalizer = some sent) : q.Edit sent := by
  obtain ⟨hmem, hsent⟩ := removeFinalizer?_eq_some_iff.mp h
  exact .inr ⟨q.hasFinalizer_iff.mpr hmem, hsent⟩

theorem Edit.version_eq (h : q.Edit sent) :
    sent.metadata.resourceVersion = q.metadata.resourceVersion := by
  rcases h with ⟨-, rfl⟩ | ⟨-, rfl⟩ <;> rfl

theorem Edit.key_eq (h : q.Edit sent) : sent.key = q.key := by
  rcases h with ⟨-, rfl⟩ | ⟨-, rfl⟩ <;> rfl

theorem Edit.foreign_eq (h : q.Edit sent) : sent.foreign = q.foreign := by
  rcases h with ⟨-, rfl⟩ | ⟨-, rfl⟩ <;> simp [foreign, withFinalizers, finalizers]

/-- Nothing of an edited request is taken from what is stored but what it was read with. -/
theorem Edit.successor_eq (h : q.Edit sent) (version : Nat) :
    Cluster.successor q sent version = sent.stamped version := by
  rcases h with ⟨-, rfl⟩ | ⟨-, rfl⟩ <;> rfl

/-- An edited request that is gone was marked deleted and had no finalizer of others. -/
theorem Edit.isReleased_foreign (h : q.Edit sent) {version : Nat}
    (hgone : Cluster.isReleased (sent.stamped version) = true) :
    Cluster.isReleased q.foreign = true := by
  rcases h with ⟨-, rfl⟩ | ⟨-, rfl⟩
  · simp [Cluster.isReleased, stamped, Cluster.stamp, withFinalizers] at hgone
  · exact hgone

end Remediation

namespace Pass

variable {s : Settings} {inNamespace name : String} {log : List Exchange}

/-- Before a pass lets its request go it did not run the agent. -/
theorem Cleared.isExecution_eq_false {q : Remediation} (h : Cleared inNamespace name log q) :
    ∀ x ∈ log, x.1.isExecution = false := by
  cases h with
  | absent h _ => cases h; simp [Call.isExecution]
  | clean h _ _ => cases h; simp [Call.isExecution]
  | removed h _ _ => cases h; simp [Call.isExecution]
  | vanished h _ _ _ => cases h; simp [Call.isExecution]

/-- What a pass puts in the place of a node is an edit of the one node that it read. -/
theorem Heard.exists_node {sent : Node} {next : Except Error Node → Program (Except Error Report)}
    (h : Heard s inNamespace name log (.replaceNode sent) next) :
    ∃ q n node, ⟨.getRemediation inNamespace name, .ok (some q)⟩ ∈ log ∧
      (node = q.anyName ∨ node = name) ∧ ⟨.getNode node, .ok (some n)⟩ ∈ log ∧
      (∀ node' x, ⟨.getNode node', x⟩ ∈ log → x = .ok (some n)) ∧ n.Edit sent := by
  obtain ⟨⟨_, q, n, ⟨_⟩, -, rfl, hn⟩ | ⟨_, q, n, time, ⟨_⟩, -, hn, rfl, rfl, -⟩, -⟩ := h
  · exact ⟨q, n, q.anyName, by simp, .inl rfl, by simp, by simp, Node.edit_of_removeTaint? hn⟩
  · exact ⟨q, n, name, by simp, .inr rfl, by simp, by simp, .inl ⟨hn, time, rfl⟩⟩

theorem Heard.isExecution_eq_false_of_replaceNode {sent : Node}
    {next : Except Error Node → Program (Except Error Report)}
    (h : Heard s inNamespace name log (.replaceNode sent) next) :
    ∀ x ∈ log, x.1.isExecution = false := by
  obtain ⟨⟨_, _, _, ⟨_⟩, -, rfl, -⟩ | ⟨_, _, _, _, ⟨_⟩, -, -, rfl, -⟩, -⟩ := h
  · simp [Call.isExecution]
  · simp [Call.isExecution]

/-- What a pass puts in the place of its request is an edit of the request as it read it. -/
theorem Heard.exists_request {sent : Remediation}
    {next : Except Error Remediation → Program (Except Error Report)}
    (h : Heard s inNamespace name log (.replaceRemediation sent) next) :
    ∃ q, ⟨.getRemediation inNamespace name, .ok (some q)⟩ ∈ log ∧ q.Edit sent := by
  obtain ⟨⟨q, hopen, -, hsent⟩ | ⟨q, hcleared, hsent⟩, -⟩ := h
  · exact ⟨q, hopen.mem, Remediation.edit_of_addFinalizer? hsent⟩
  · exact ⟨q, hcleared.mem, Remediation.edit_of_removeFinalizer? hsent⟩

theorem Heard.isExecution_eq_false_of_replaceRemediation {sent : Remediation}
    {next : Except Error Remediation → Program (Except Error Report)}
    (h : Heard s inNamespace name log (.replaceRemediation sent) next) :
    ∀ x ∈ log, x.1.isExecution = false := by
  obtain ⟨⟨_, ⟨_⟩, -⟩ | ⟨_, hcleared, -⟩, -⟩ := h
  · simp [Call.isExecution]
  · exact hcleared.isExecution_eq_false

end Pass

namespace Run

variable {r : Run} {i t u : Nat} {said : List Exchange}

/-! ### What was read before a write -/

/-- The node that a pass puts back is an edit of the node as the pass read it. -/
theorem exists_getNode_of_working {sent : Node}
    {next : Except Error Node → Program (Except Error Report)}
    (h : (r.site t).workers i = .working said (.call (.replaceNode sent) next)) :
    ∃ n, n.Edit sent ∧ sent.anyName = (r.jobs i).name ∧
      ⟨.getNode (r.jobs i).name, .ok (some n)⟩ ∈ said ∧
      ∀ x, ⟨.getNode (r.jobs i).name, x⟩ ∈ said → x = .ok (some n) := by
  obtain ⟨q, n, node, hq, hnode, hread, honly, hedit⟩ := (r.heard h).exists_node
  have hqname : q.anyName = (r.jobs i).name := congrArg Prod.snd (r.key_eq h hq)
  obtain rfl : node = (r.jobs i).name := by
    rcases hnode with rfl | rfl
    · exact hqname
    · rfl
  exact ⟨n, hedit, hedit.anyName_eq.trans (r.anyName_eq h hread), hread, honly _⟩

/-- The request that a pass puts back is an edit of the request as the pass read it. -/
theorem exists_getRemediation_of_working {sent : Remediation}
    {next : Except Error Remediation → Program (Except Error Report)}
    (h : (r.site t).workers i = .working said (.call (.replaceRemediation sent) next)) :
    ∃ q, q.Edit sent ∧ sent.key = (r.jobs i).key ∧
      ⟨.getRemediation (r.jobs i).inNamespace (r.jobs i).name, .ok (some q)⟩ ∈ said := by
  obtain ⟨q, hread, hedit⟩ := (r.heard h).exists_request
  exact ⟨q, hedit, hedit.key_eq.trans (r.key_eq h hread), hread⟩

/-- If the stored node has the version of the node that a pass is about to put back, it is the
node that the pass read, and was there since. -/
theorem node?_eq_of_working {sent stored : Node}
    {next : Except Error Node → Program (Except Error Report)}
    (h : (r.site t).workers i = .working said (.call (.replaceNode sent) next))
    (hstored : (r.cluster t).node? (r.jobs i).name = some stored)
    (hver : stored.metadata.resourceVersion = sent.metadata.resourceVersion) :
    stored.Edit sent ∧ ∀ g v x, r.made g = some (i, ⟨.getNode (r.jobs i).name, .ok x⟩) →
      g ≤ v → v ≤ t → (r.cluster v).node? (r.jobs i).name = x := by
  obtain ⟨n, hedit, -, hread, honly⟩ := exists_getNode_of_working h
  have hver' : n.metadata.resourceVersion = stored.metadata.resourceVersion := by
    rw [hver, hedit.metadata_eq]
  obtain ⟨g, hgt, hmade⟩ := r.exists_made_of_mem h hread
  obtain ⟨rfl, -⟩ := r.node?_eq_of_version_eq (Nat.le_refl g) (Nat.le_of_lt hgt)
    (r.node?_of_made hmade) hstored hver'
  refine ⟨hedit, ?_⟩
  intro g' v x hmade' hg'v hvt
  have hg't : g' < t := r.lt_of_made h hmade' (by simp) (Nat.le_trans hg'v hvt)
  obtain rfl : x = some stored := Except.ok.inj (honly _ (r.mem_said hmade' hg't h))
  exact (r.node?_eq_of_version_eq hg'v hvt (r.node?_of_made hmade') hstored rfl).2

/-- The same of requests. -/
theorem remediation?_eq_of_working {sent stored : Remediation}
    {next : Except Error Remediation → Program (Except Error Report)}
    (h : (r.site t).workers i = .working said (.call (.replaceRemediation sent) next))
    (hstored : (r.cluster t).remediation? (r.jobs i).inNamespace (r.jobs i).name = some stored)
    (hver : stored.metadata.resourceVersion = sent.metadata.resourceVersion) :
    stored.Edit sent ∧ ∀ g v x,
      r.made g = some (i, ⟨.getRemediation (r.jobs i).inNamespace (r.jobs i).name, .ok x⟩) →
      g ≤ v → v ≤ t →
      (r.cluster v).remediation? (r.jobs i).inNamespace (r.jobs i).name = x := by
  obtain ⟨q, hedit, -, hread⟩ := exists_getRemediation_of_working h
  have hver' : q.metadata.resourceVersion = stored.metadata.resourceVersion := by
    rw [hver, hedit.version_eq]
  have hreaches := r.reaches h
  obtain ⟨g, hgt, hmade⟩ := r.exists_made_of_mem h hread
  obtain ⟨rfl, -⟩ := r.remediation?_eq_of_version_eq (Nat.le_refl g) (Nat.le_of_lt hgt)
    (r.remediation?_of_made hmade) hstored hver'
  refine ⟨hedit, ?_⟩
  intro g' v x hmade' hg'v hvt
  have hg't : g' < t := r.lt_of_made h hmade' (by simp) (Nat.le_trans hg'v hvt)
  obtain rfl : x = some stored :=
    Except.ok.inj (Pass.request_unique hreaches (r.mem_said hmade' hg't h) hread)
  exact (r.remediation?_eq_of_version_eq hg'v hvt (r.remediation?_of_made hmade') hstored rfl).2

/-! ### Refused writes -/

/-- A pass that is done makes no call any more. -/
theorem made_ne_of_done {a : Except Error Report}
    (h : (r.site t).workers i = .working said (.done a)) (hu : t ≤ u) (x : Exchange) :
    r.made u ≠ some (i, x) := by
  have hover : (r.site u).workers i = .working said (.done a) ∨ (r.site u).workers i = .gone := by
    induction hu with
    | refl => exact .inl h
    | @step u _ ih =>
        cases r.turn u i with
        | idle hmade heq => rwa [heq]
        | started hm hmade hw heq =>
            rw [hw] at ih
            rcases ih with h | h <;> cases h
        | called before c a next hmade hw heq =>
            rw [hw] at ih
            rcases ih with h | h <;> cases h
        | abandoned hmade heq => exact .inr heq
  intro hmade
  obtain ⟨c, a⟩ := x
  obtain ⟨_, _, _, _, -, hw, -⟩ := r.answer_of_made hmade
  rw [hw] at hover
  rcases hover with h | h <;> cases h

/-- A call of a pass changed nothing, and the pass ended with the conflict and never runs the
agent. -/
structure Rejected (r : Run) (i t : Nat) : Prop where
  kept : r.cluster (t + 1) = r.cluster t
  ended : ∃ said, (r.site (t + 1)).workers i = .working said (.done (.error Cluster.conflict))
  unexecuted : ∀ e, r.executesAt e i = false

theorem rejected_of_working {c : Call} {a : c.Answer}
    {next : c.Answer → Program (Except Error Report)} (hmade : r.made t = some (i, ⟨c, a⟩))
    (hw : (r.site t).workers i = .working said (.call c next))
    (hnext : next a = .done (.error Cluster.conflict))
    (hc : c.isExecution = false) (hquiet : ∀ x ∈ said, x.1.isExecution = false)
    (hkept : r.cluster (t + 1) = r.cluster t) : r.Rejected i t := by
  obtain ⟨_, _, _, _, -, hw', hafter, -⟩ := r.answer_of_made hmade
  obtain ⟨rfl, hrest⟩ := Worker.working.inj (hw.symm.trans hw')
  cases hrest
  rw [hnext] at hafter
  refine ⟨hkept, ⟨_, hafter⟩, ?_⟩
  intro e
  by_contra he
  obtain ⟨pod, command, answer, hmade'⟩ := exists_of_executesAt (eq_true_of_ne_false he)
  by_cases het : e < t + 1
  · rcases List.mem_append.mp (r.mem_said hmade' het hafter) with hmem | hmem
    · have hfalse := hquiet _ hmem
      cases hfalse
    · cases List.mem_singleton.mp hmem
      cases hc
  · exact made_ne_of_done hafter (Nat.le_of_not_lt het) _ hmade'

/-- **A node that was changed since it was read is not replaced.** -/
theorem rejected_of_node?_ne {sent : Node} {a : Except Error Node} {w : Surroundings} {g v : Nat}
    {x : Option Node} (hm : r.moves t = .call i w .served)
    (hmade : r.made t = some (i, ⟨.replaceNode sent, a⟩))
    (hread : r.made g = some (i, ⟨.getNode (r.jobs i).name, .ok x⟩)) (hgv : g ≤ v) (hvt : v ≤ t)
    (hchanged : (r.cluster v).node? (r.jobs i).name ≠ x)
    (hthere : (r.cluster t).node? (r.jobs i).name ≠ none) :
    a = .error Cluster.conflict ∧ r.Rejected i t := by
  obtain ⟨w', fate, said, next, hm', hw, -, ha⟩ := r.answer_of_made hmade
  cases hm.symm.trans hm'
  obtain ⟨-, -, hname, -⟩ := exists_getNode_of_working hw
  change (r.cluster t).replaceNode sent = _ at ha
  have hcases := (r.cluster t).replaceNode_cases sent
  rw [hname] at hcases
  rcases hcases with ⟨hnone, -⟩ | ⟨stored, hstored, ⟨-, heq⟩ | ⟨hver, -⟩⟩
  · exact (hthere hnone).elim
  · rw [heq] at ha
    obtain ⟨rfl, hkept⟩ := Prod.mk.inj ha
    have hquiet := (r.heard hw).isExecution_eq_false_of_replaceNode
    exact ⟨rfl, rejected_of_working hmade hw ((r.heard hw).2 _ rfl) rfl hquiet hkept.symm⟩
  · exact (hchanged ((node?_eq_of_working hw hstored hver).2 g v x hread hgv hvt)).elim

/-- **A request that was changed since it was read is not replaced.** -/
theorem rejected_of_remediation?_ne {sent : Remediation} {a : Except Error Remediation}
    {w : Surroundings} {g v : Nat} {x : Option Remediation} (hm : r.moves t = .call i w .served)
    (hmade : r.made t = some (i, ⟨.replaceRemediation sent, a⟩))
    (hread : r.made g =
      some (i, ⟨.getRemediation (r.jobs i).inNamespace (r.jobs i).name, .ok x⟩))
    (hgv : g ≤ v) (hvt : v ≤ t)
    (hchanged : (r.cluster v).remediation? (r.jobs i).inNamespace (r.jobs i).name ≠ x)
    (hthere : (r.cluster t).remediation? (r.jobs i).inNamespace (r.jobs i).name ≠ none) :
    a = .error Cluster.conflict ∧ r.Rejected i t := by
  obtain ⟨w', fate, said, next, hm', hw, -, ha⟩ := r.answer_of_made hmade
  cases hm.symm.trans hm'
  obtain ⟨-, -, hkey, -⟩ := exists_getRemediation_of_working hw
  change (r.cluster t).replaceRemediation sent = _ at ha
  have hcases := (r.cluster t).replaceRemediation_cases sent
  rw [hkey] at hcases
  rcases hcases with ⟨hnone, -⟩ | ⟨stored, hstored, ⟨-, heq⟩ | ⟨hver, -⟩⟩
  · exact (hthere hnone).elim
  · rw [heq] at ha
    obtain ⟨rfl, hkept⟩ := Prod.mk.inj ha
    have hquiet := (r.heard hw).isExecution_eq_false_of_replaceRemediation
    exact ⟨rfl, rejected_of_working hmade hw ((r.heard hw).2 _ rfl) rfl hquiet hkept.symm⟩
  · exact (hchanged ((remediation?_eq_of_working hw hstored hver).2 g v x hread hgv hvt)).elim

/-! ### Accepted writes -/

/-- **A replacement that is accepted is of the node as it is stored, with one edit.** -/
theorem edit_of_replaceNode {sent m : Node}
    (hmade : r.made t = some (i, ⟨.replaceNode sent, .ok m⟩)) :
    ∃ n, (r.cluster t).node? (r.jobs i).name = some n ∧ n.Edit sent ∧
      m = sent.stamped ((r.cluster t).version + 1) ∧
      (r.cluster (t + 1)).node? (r.jobs i).name = some m := by
  obtain ⟨w, fate, said, next, -, hw, -, ha⟩ := r.answer_of_made hmade
  obtain ⟨-, -, hname, -⟩ := exists_getNode_of_working hw
  obtain ⟨stored, hstored, hver, hm, hafter⟩ :=
    Cluster.replaceNode_of_answer_eq_ok (congrArg Prod.fst ha)
  rw [hname] at hstored
  have hcluster : _ = r.cluster (t + 1) := congrArg Prod.snd ha
  rw [hafter, hname, ← hm] at hcluster
  refine ⟨stored, hstored, (node?_eq_of_working hw hstored hver).1, hm, ?_⟩
  rw [← hcluster]
  simp [Cluster.node?]

/-- **A replacement that is accepted is of the request as it is stored, with one edit**, and the
request goes if it was marked deleted and has no finalizer left. -/
theorem edit_of_replaceRemediation {sent m : Remediation}
    (hmade : r.made t = some (i, ⟨.replaceRemediation sent, .ok m⟩)) :
    ∃ q, (r.cluster t).remediation? (r.jobs i).inNamespace (r.jobs i).name = some q ∧
      q.Edit sent ∧ m = sent.stamped ((r.cluster t).version + 1) ∧
      (r.cluster (t + 1)).remediation? (r.jobs i).inNamespace (r.jobs i).name =
        if Cluster.isReleased m then none else some m := by
  obtain ⟨w, fate, said, next, -, hw, -, ha⟩ := r.answer_of_made hmade
  obtain ⟨-, -, hkey, -⟩ := exists_getRemediation_of_working hw
  obtain ⟨stored, hstored, hver, hm, hafter⟩ :=
    Cluster.replaceRemediation_of_answer_eq_ok (congrArg Prod.fst ha)
  rw [hkey] at hstored
  have hcluster : _ = r.cluster (t + 1) := congrArg Prod.snd ha
  rw [hafter, hkey] at hcluster
  have hedit := (remediation?_eq_of_working hw hstored hver).1
  refine ⟨stored, hstored, hedit, hm.trans (hedit.successor_eq _), ?_⟩
  rw [← hcluster]
  split
  · simp [Cluster.remediation?, Job.key]
  · simp [Cluster.remediation?, Job.key]

/-! ### What is spared -/

/-- A call changes no object of another name, and nothing that is foreign of its own ones, but that
a request that was marked deleted goes with its last finalizer. -/
structure Spares (r : Run) (i t : Nat) : Prop where
  nodes : ∀ node, node ≠ (r.jobs i).name →
    (r.cluster (t + 1)).node? node = (r.cluster t).node? node
  requests : ∀ ns n, (ns, n) ≠ (r.jobs i).key →
    (r.cluster (t + 1)).remediation? ns n = (r.cluster t).remediation? ns n
  node : ((r.cluster (t + 1)).node? (r.jobs i).name).map Node.foreign =
    ((r.cluster t).node? (r.jobs i).name).map Node.foreign
  request :
    ((r.cluster (t + 1)).remediation? (r.jobs i).inNamespace (r.jobs i).name).map
        Remediation.foreign =
      ((r.cluster t).remediation? (r.jobs i).inNamespace (r.jobs i).name).map
        Remediation.foreign ∨
    ∃ q, (r.cluster t).remediation? (r.jobs i).inNamespace (r.jobs i).name = some q ∧
      Cluster.isReleased q.foreign = true ∧
      (r.cluster (t + 1)).remediation? (r.jobs i).inNamespace (r.jobs i).name = none

/-- A node that a call changes is the node of the pass, and nothing foreign of it changes. -/
theorem node?_of_made_of_ne {x : Exchange} (hmade : r.made t = some (i, x)) {node : String}
    (hne : (r.cluster (t + 1)).node? node ≠ (r.cluster t).node? node) :
    node = (r.jobs i).name ∧
      ((r.cluster (t + 1)).node? node).map Node.foreign =
        ((r.cluster t).node? node).map Node.foreign := by
  obtain ⟨c, a⟩ := x
  obtain ⟨w, fate, said, next, -, hw, -, ha⟩ := r.answer_of_made hmade
  have hcluster : ((r.cluster t).answer w c fate).2 = r.cluster (t + 1) := congrArg Prod.snd ha
  have hcases := (r.cluster t).node?_answer w c fate node
  rw [hcluster] at hcases
  rcases hcases with h | ⟨sent, stored, rfl, hname, hstored, hver, hafter⟩
  · exact (hne h).elim
  · obtain ⟨-, -, hown, -⟩ := exists_getNode_of_working hw
    obtain rfl : node = (r.jobs i).name := hname.symm.trans hown
    have hedit := (node?_eq_of_working hw hstored hver).1
    refine ⟨rfl, ?_⟩
    rw [hafter, hstored, Option.map_some, Option.map_some, Node.foreign_stamped, hedit.foreign_eq]

/-- A request that a call changes is the request of the pass, and nothing foreign of it changes. -/
theorem remediation?_of_made_of_ne {x : Exchange} (hmade : r.made t = some (i, x))
    {ns n : String}
    (hne : (r.cluster (t + 1)).remediation? ns n ≠ (r.cluster t).remediation? ns n) :
    (ns, n) = (r.jobs i).key ∧
      (((r.cluster (t + 1)).remediation? ns n).map Remediation.foreign =
          ((r.cluster t).remediation? ns n).map Remediation.foreign ∨
        ∃ q, (r.cluster t).remediation? ns n = some q ∧
          Cluster.isReleased q.foreign = true ∧ (r.cluster (t + 1)).remediation? ns n = none) := by
  obtain ⟨c, a⟩ := x
  obtain ⟨w, fate, said, next, -, hw, -, ha⟩ := r.answer_of_made hmade
  have hcluster : ((r.cluster t).answer w c fate).2 = r.cluster (t + 1) := congrArg Prod.snd ha
  have hcases := (r.cluster t).remediation?_answer w c fate ns n
  rw [hcluster] at hcases
  rcases hcases with h | ⟨sent, stored, rfl, hkey, hstored, hver, hafter⟩ |
    ⟨st, stored, rfl, hstored, hafter⟩
  · exact (hne h).elim
  · obtain ⟨-, -, hown, -⟩ := exists_getRemediation_of_working hw
    have hsame : (ns, n) = (r.jobs i).key := hkey.symm.trans hown
    obtain ⟨rfl, rfl⟩ := Prod.mk.inj hsame
    have hedit := (remediation?_eq_of_working hw hstored hver).1
    refine ⟨rfl, ?_⟩
    rw [hedit.successor_eq] at hafter
    split at hafter
    · next hgone => exact .inr ⟨stored, hstored, hedit.isReleased_foreign hgone, hafter⟩
    · left
      rw [hafter, hstored, Option.map_some, Option.map_some]
      exact congrArg some hedit.foreign_eq
  · refine ⟨?_, .inl ?_⟩
    · rcases (r.heard hw).key_eq with hkey | ⟨q, hq, hkey⟩
      · exact hkey
      · exact hkey.trans (r.key_eq hw hq)
    · rw [hafter, hstored]
      rfl

/-- **A pass writes nothing but its own node and request, and of these only what is the
controller's.** -/
theorem spares_of_made {x : Exchange} (hmade : r.made t = some (i, x)) : r.Spares i t where
  nodes node hnode := by
    by_contra hne
    exact hnode (node?_of_made_of_ne hmade hne).1
  requests ns n hkey := by
    by_contra hne
    exact hkey (remediation?_of_made_of_ne hmade hne).1
  node := by
    by_cases hne : (r.cluster (t + 1)).node? (r.jobs i).name = (r.cluster t).node? (r.jobs i).name
    · rw [hne]
    · exact (node?_of_made_of_ne hmade hne).2
  request := by
    by_cases hne : (r.cluster (t + 1)).remediation? (r.jobs i).inNamespace (r.jobs i).name =
        (r.cluster t).remediation? (r.jobs i).inNamespace (r.jobs i).name
    · exact .inl (by rw [hne])
    · exact (remediation?_of_made_of_ne hmade hne).2

/--
**No lost update, and an exact footprint.**  If the node or the request of a pass was
changed at any time after the pass read it, and is still stored, the replacement that the
pass makes of it is refused with a conflict, changes nothing, and ends the pass with that
conflict, without an execution.  A replacement that is accepted stores what was stored
before, with a new version and one edit.  And no call of a pass changes any other node or
request, or what is foreign of its own ones.
-/
theorem write_footprint (r : Run) (i t : Nat) :
    (∀ w sent a g v x, r.moves t = .call i w .served →
      r.made t = some (i, ⟨.replaceNode sent, a⟩) →
      r.made g = some (i, ⟨.getNode (r.jobs i).name, .ok x⟩) → g ≤ v → v ≤ t →
      (r.cluster v).node? (r.jobs i).name ≠ x → (r.cluster t).node? (r.jobs i).name ≠ none →
      a = .error Cluster.conflict ∧ r.Rejected i t) ∧
    (∀ w sent a g v x, r.moves t = .call i w .served →
      r.made t = some (i, ⟨.replaceRemediation sent, a⟩) →
      r.made g = some (i, ⟨.getRemediation (r.jobs i).inNamespace (r.jobs i).name, .ok x⟩) →
      g ≤ v → v ≤ t →
      (r.cluster v).remediation? (r.jobs i).inNamespace (r.jobs i).name ≠ x →
      (r.cluster t).remediation? (r.jobs i).inNamespace (r.jobs i).name ≠ none →
      a = .error Cluster.conflict ∧ r.Rejected i t) ∧
    (∀ sent m, r.made t = some (i, ⟨.replaceNode sent, .ok m⟩) →
      ∃ n, (r.cluster t).node? (r.jobs i).name = some n ∧ n.Edit sent ∧
        m = sent.stamped ((r.cluster t).version + 1) ∧
        (r.cluster (t + 1)).node? (r.jobs i).name = some m) ∧
    (∀ sent m, r.made t = some (i, ⟨.replaceRemediation sent, .ok m⟩) →
      ∃ q, (r.cluster t).remediation? (r.jobs i).inNamespace (r.jobs i).name = some q ∧
        q.Edit sent ∧ m = sent.stamped ((r.cluster t).version + 1) ∧
        (r.cluster (t + 1)).remediation? (r.jobs i).inNamespace (r.jobs i).name =
          if Cluster.isReleased m then none else some m) ∧
    ∀ x, r.made t = some (i, x) → r.Spares i t := by
  refine ⟨?_, ?_, ?_, ?_, ?_⟩
  · intro w sent a g v x hm hmade hread hgv hvt hchanged hthere
    exact rejected_of_node?_ne hm hmade hread hgv hvt hchanged hthere
  · intro w sent a g v x hm hmade hread hgv hvt hchanged hthere
    exact rejected_of_remediation?_ne hm hmade hread hgv hvt hchanged hthere
  · intro sent m hmade
    exact edit_of_replaceNode hmade
  · intro sent m hmade
    exact edit_of_replaceRemediation hmade
  · intro x hmade
    exact spares_of_made hmade

/-! ### A write that comes too late, and one that does not

The first pass looks at the node, others give it a taint of their own, and the pass writes
it in vain; the second pass looks at it after that.
-/

/-- Two passes, with an edit in the middle of the first one. -/
def stale : Run :=
  .ofMoves (fun _ => ⟨{}, "default", "n1"⟩) setting
    (.start 0 :: List.replicate 4 (calls 0) ++
      [.edit (.setTaints "n1" (some [⟨"maintenance", "NoSchedule", none, none⟩])), calls 0] ++
      .start 1 :: List.replicate 5 (calls 1))

/-- Whether the node of both passes was read. -/
def isNodeRead : Exchange → Bool
  | ⟨.getNode n, .ok _⟩ => n == "n1"
  | _ => false

theorem exists_of_isNodeRead {x : Exchange} (h : isNodeRead x = true) :
    ∃ n, x = ⟨.getNode "n1", .ok n⟩ := by
  obtain ⟨c, a⟩ := x
  cases c with
  | getNode n =>
      cases a with
      | error e => cases h
      | ok m =>
          obtain rfl := eq_of_beq h
          exact ⟨m, rfl⟩
  | _ => cases h

/-- Whether a node was sent, be it accepted or not. -/
def sendsNode : Exchange → Bool
  | ⟨.replaceNode _, _⟩ => true
  | _ => false

theorem exists_of_sendsNode {x : Exchange} (h : sendsNode x = true) :
    ∃ sent a, x = ⟨.replaceNode sent, a⟩ := by
  obtain ⟨c, a⟩ := x
  cases c with
  | replaceNode sent => exact ⟨sent, a, rfl⟩
  | _ => cases h

/-- The first write is refused, and the second one is accepted. -/
theorem write_footprint_stale :
    stale.Rejected 0 6 ∧ ∃ n sent, (stale.cluster 12).node? "n1" = some n ∧ n.Edit sent ∧
      (stale.cluster 13).node? "n1" = some (sent.stamped ((stale.cluster 12).version + 1)) := by
  refine ⟨?_, ?_⟩
  · have hreads : stale.makesAt isNodeRead 3 0 = true := by decide +kernel
    have hsends : stale.makesAt sendsNode 6 0 = true := by decide +kernel
    obtain ⟨_, hread, hx⟩ := exists_of_makesAt hreads
    obtain ⟨n, rfl⟩ := exists_of_isNodeRead hx
    obtain ⟨_, hmade, hx⟩ := exists_of_makesAt hsends
    obtain ⟨sent, a, rfl⟩ := exists_of_sendsNode hx
    obtain rfl := stale.node?_of_made hread
    exact ((write_footprint stale 0 6).1 _ sent a 3 6 _ rfl hmade hread (by decide) (by decide)
      (by decide +kernel) (by decide +kernel)).2
  · have hwrite : stale.makesAt Exchange.isNodeWrite 12 1 = true := by decide +kernel
    obtain ⟨_, hmade, hx⟩ := exists_of_makesAt hwrite
    obtain ⟨sent, m, rfl⟩ := Exchange.exists_of_isNodeWrite hx
    obtain ⟨n, hn, hedit, rfl, hafter⟩ := (write_footprint stale 1 12).2.2.1 sent m hmade
    exact ⟨n, sent, hn, hedit, hafter⟩

end Run

end NodeFencing
