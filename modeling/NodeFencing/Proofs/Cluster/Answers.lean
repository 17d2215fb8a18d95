/-
Calls answered by a cluster.

A call may be answered, or fail without effect, or have its effect and lose its answer.
What a call says, it says of the cluster as it was; and what it changes is one object:
`node?_answer` and `remediation?_answer` list all that can happen to a node and to a
request, and what is kept is read off them.
-/
import NodeFencing.Rehearsal
import NodeFencing.Proofs.Cluster.Versions

namespace NodeFencing

/-- What answers calls beside the cluster: the clock and the agent. -/
structure Surroundings where
  now : Instant
  output : Except Error Output

/-- How a call fares. -/
inductive Fate where
  | served
  /-- It fails and has no effect. -/
  | failed (e : Error)
  /-- It has its effect, but fails for the caller. -/
  | lost (e : Error)

/-- The node with a version. -/
def Node.stamped (n : Node) (version : Nat) : Node :=
  { n with metadata := Cluster.stamp n.metadata version }

/-- The request with a version. -/
def Remediation.stamped (r : Remediation) (version : Nat) : Remediation :=
  { r with metadata := Cluster.stamp r.metadata version }

@[simp] theorem Node.isTainted_stamped (n : Node) (version : Nat) :
    (n.stamped version).isTainted = n.isTainted := rfl

namespace Cluster

/-- The answer to a call that is served, and the cluster after it. -/
def serve (k : Cluster) (w : Surroundings) (c : Call) : c.Answer × Cluster :=
  let r := World.serve c { cluster := k, answers := [w.output], now := w.now }
  (r.1, r.2.cluster)

/-- The answer to a call, and the cluster after it; a call that cannot fail is served. -/
def answer (k : Cluster) (w : Surroundings) (c : Call) : Fate → c.Answer × Cluster
  | .served => k.serve w c
  | .failed e =>
    match c.failed? e with
    | some a => (a, k)
    | none => k.serve w c
  | .lost e => ((c.failed? e).getD (k.serve w c).1, (k.serve w c).2)

/-- Whether the remediation taint is on the node of a name. -/
def carries (k : Cluster) (node : String) : Bool := (k.node? node).any Node.isTainted

/-- Whether the finalizer is on the request of a name. -/
def holds (k : Cluster) (inNamespace name : String) : Bool :=
  (k.remediation? inNamespace name).any Remediation.hasFinalizer

variable {k : Cluster} {w : Surroundings} {c : Call} {fate : Fate}

/-- A call has its effect or has none. -/
theorem answer_cluster (k : Cluster) (w : Surroundings) (c : Call) (fate : Fate) :
    (k.answer w c fate).2 = k ∨ (k.answer w c fate).2 = (k.serve w c).2 := by
  cases fate with
  | served => exact .inr rfl
  | failed e =>
      cases h : c.failed? e with
      | some a =>
          left
          simp only [answer, h]
      | none =>
          right
          simp only [answer, h]
  | lost e => exact .inr rfl

/-! ### What answers say -/

theorem node?_of_answer_eq_ok {name : String} {x : Option Node}
    (h : (k.answer w (.getNode name) fate).1 = .ok x) : k.node? name = x := by
  cases fate with
  | served => exact Except.ok.inj h
  | failed e => cases h
  | lost e => cases h

theorem remediation?_of_answer_eq_ok {inNamespace name : String} {x : Option Remediation}
    (h : (k.answer w (.getRemediation inNamespace name) fate).1 = .ok x) :
    k.remediation? inNamespace name = x := by
  cases fate with
  | served => exact Except.ok.inj h
  | failed e => cases h
  | lost e => cases h

/-! ### What writes do -/

/-- What is stored of a replaced node. -/
theorem replaceNode_cases (k : Cluster) (sent : Node) :
    (k.node? sent.anyName = none ∧ k.replaceNode sent = (.error notFound, k)) ∨
      ∃ stored, k.node? sent.anyName = some stored ∧
        (stored.metadata.resourceVersion ≠ sent.metadata.resourceVersion ∧
            k.replaceNode sent = (.error conflict, k) ∨
          stored.metadata.resourceVersion = sent.metadata.resourceVersion ∧
            k.replaceNode sent = (.ok (sent.stamped (k.version + 1)),
              { k.bump with
                nodes := k.nodes.insert sent.anyName (sent.stamped (k.version + 1)) })) := by
  unfold replaceNode
  cases h : k.node? sent.anyName with
  | none => exact .inl ⟨rfl, rfl⟩
  | some stored =>
      refine .inr ⟨stored, rfl, ?_⟩
      by_cases hver : stored.metadata.resourceVersion = sent.metadata.resourceVersion
      · exact .inr ⟨hver, if_pos hver⟩
      · exact .inl ⟨hver, if_neg hver⟩

/-- What is stored of a replaced request. -/
theorem replaceRemediation_cases (k : Cluster) (sent : Remediation) :
    (k.remediations.get? sent.key = none ∧ k.replaceRemediation sent = (.error notFound, k)) ∨
      ∃ stored, k.remediations.get? sent.key = some stored ∧
        (stored.metadata.resourceVersion ≠ sent.metadata.resourceVersion ∧
            k.replaceRemediation sent = (.error conflict, k) ∨
          stored.metadata.resourceVersion = sent.metadata.resourceVersion ∧
            k.replaceRemediation sent = (.ok (successor stored sent (k.version + 1)),
              { k.bump with
                remediations :=
                  if isReleased (successor stored sent (k.version + 1)) then
                    k.remediations.erase sent.key
                  else k.remediations.insert sent.key
                    (successor stored sent (k.version + 1)) })) := by
  unfold replaceRemediation
  cases h : k.remediations.get? sent.key with
  | none => exact .inl ⟨rfl, rfl⟩
  | some stored =>
      refine .inr ⟨stored, rfl, ?_⟩
      by_cases hver : stored.metadata.resourceVersion = sent.metadata.resourceVersion
      · exact .inr ⟨hver, if_pos hver⟩
      · exact .inl ⟨hver, if_neg hver⟩

/-- What a status patch does. -/
theorem patchStatus_cases (k : Cluster) (inNamespace name : String) (s : Status) :
    (k.remediation? inNamespace name = none ∧
        k.patchStatus inNamespace name s = (.error notFound, k)) ∨
      ∃ stored, k.remediation? inNamespace name = some stored ∧
        k.patchStatus inNamespace name s = (.ok (),
          { k.bump with
            remediations := k.remediations.insert (inNamespace, name)
              { stored.stamped (k.version + 1) with status := some s } }) := by
  unfold patchStatus
  cases h : k.remediation? inNamespace name with
  | none => exact .inl ⟨rfl, rfl⟩
  | some stored => exact .inr ⟨stored, rfl, rfl⟩

/-- A replacement of a node that works was served, on the node of that version. -/
theorem replaceNode_of_answer_eq_ok {sent m : Node}
    (h : (k.answer w (.replaceNode sent) fate).1 = .ok m) :
    ∃ stored, k.node? sent.anyName = some stored ∧
      stored.metadata.resourceVersion = sent.metadata.resourceVersion ∧
      m = sent.stamped (k.version + 1) ∧
      (k.answer w (.replaceNode sent) fate).2 = { k.bump with
        nodes := k.nodes.insert sent.anyName (sent.stamped (k.version + 1)) } := by
  have hserved : fate = .served := by
    cases fate with
    | served => rfl
    | failed e => cases h
    | lost e => cases h
  subst hserved
  change (k.replaceNode sent).1 = .ok m at h
  show ∃ stored, _ ∧ _ ∧ _ ∧ (k.replaceNode sent).2 = _
  rcases k.replaceNode_cases sent with ⟨-, heq⟩ | ⟨stored, hs, ⟨-, heq⟩ | ⟨hver, heq⟩⟩
  · rw [heq] at h
    cases h
  · rw [heq] at h
    cases h
  · rw [heq] at h
    exact ⟨stored, hs, hver, (Except.ok.inj h).symm, by rw [heq]⟩

/-- A replacement of a request that works was served, on the request of that version. -/
theorem replaceRemediation_of_answer_eq_ok {sent m : Remediation}
    (h : (k.answer w (.replaceRemediation sent) fate).1 = .ok m) :
    ∃ stored, k.remediations.get? sent.key = some stored ∧
      stored.metadata.resourceVersion = sent.metadata.resourceVersion ∧
      m = successor stored sent (k.version + 1) ∧
      (k.answer w (.replaceRemediation sent) fate).2 = { k.bump with
        remediations :=
          if isReleased m then k.remediations.erase sent.key
          else k.remediations.insert sent.key m } := by
  have hserved : fate = .served := by
    cases fate with
    | served => rfl
    | failed e => cases h
    | lost e => cases h
  subst hserved
  change (k.replaceRemediation sent).1 = .ok m at h
  show ∃ stored, _ ∧ _ ∧ _ ∧ (k.replaceRemediation sent).2 = _
  rcases k.replaceRemediation_cases sent with ⟨-, heq⟩ | ⟨stored, hs, ⟨-, heq⟩ | ⟨hver, heq⟩⟩
  · rw [heq] at h
    cases h
  · rw [heq] at h
    cases h
  · rw [heq] at h
    obtain rfl := Except.ok.inj h
    exact ⟨stored, hs, hver, rfl, by rw [heq]⟩

/-- A status that is written is the one that is stored. -/
theorem patchStatus_of_answer_eq_ok {inNamespace name : String} {s : Status}
    (h : (k.answer w (.patchStatus inNamespace name s) fate).1 = .ok ()) :
    ∃ stored, k.remediation? inNamespace name = some stored ∧
      (k.answer w (.patchStatus inNamespace name s) fate).2.remediation? inNamespace name =
        some { stored.stamped (k.version + 1) with status := some s } := by
  have hserved : fate = .served := by
    cases fate with
    | served => rfl
    | failed e => cases h
    | lost e => cases h
  subst hserved
  change (k.patchStatus inNamespace name s).1 = .ok () at h
  show ∃ stored, _ ∧ (k.patchStatus inNamespace name s).2.remediation? inNamespace name = _
  rcases k.patchStatus_cases inNamespace name s with ⟨-, heq⟩ | ⟨stored, hs, heq⟩
  · rw [heq] at h
    cases h
  · exact ⟨stored, hs, by simp [heq, remediation?]⟩

@[simp] theorem isNotFound_conflict : conflict.isNotFound = false := rfl

/-- A replacement that is served misses only a node that is not there. -/
theorem node?_eq_none_of_serve_eq_error {sent : Node} {e : Error}
    (h : (k.serve w (.replaceNode sent)).1 = .error e) (he : e.isNotFound = true) :
    k.node? sent.anyName = none := by
  change (k.replaceNode sent).1 = .error e at h
  rcases k.replaceNode_cases sent with ⟨hnone, -⟩ | ⟨stored, -, ⟨-, heq⟩ | ⟨-, heq⟩⟩
  · exact hnone
  · rw [heq] at h
    obtain rfl := Except.error.inj h
    rw [isNotFound_conflict] at he
    cases he
  · rw [heq] at h
    cases h

/-! ### What a call changes -/

/-- What can happen to a node in a call: it is replaced by one that was sent. -/
theorem node?_answer (k : Cluster) (w : Surroundings) (c : Call) (fate : Fate) (name : String) :
    (k.answer w c fate).2.node? name = k.node? name ∨
      ∃ sent stored, c = .replaceNode sent ∧ sent.anyName = name ∧ k.node? name = some stored ∧
        stored.metadata.resourceVersion = sent.metadata.resourceVersion ∧
        (k.answer w c fate).2.node? name = some (sent.stamped (k.version + 1)) := by
  rcases k.answer_cluster w c fate with h | h
  · rw [h]
    exact .inl rfl
  rw [h]
  cases c with
  | replaceNode sent =>
      show (k.replaceNode sent).2.node? name = _ ∨
        ∃ sent' stored, _ ∧ _ ∧ _ ∧ _ ∧ (k.replaceNode sent).2.node? name = _
      rcases k.replaceNode_cases sent with ⟨-, heq⟩ | ⟨stored, hs, ⟨-, heq⟩ | ⟨hver, heq⟩⟩
      · exact .inl (by rw [heq])
      · exact .inl (by rw [heq])
      · rw [heq]
        by_cases hname : sent.anyName = name
        · subst hname
          exact .inr ⟨sent, stored, rfl, rfl, hs, hver, by simp [node?]⟩
        · exact .inl (by simp [node?, hname])
  | replaceRemediation sent =>
      left
      show (k.replaceRemediation sent).2.node? name = _
      rcases k.replaceRemediation_cases sent with ⟨-, heq⟩ | ⟨_, -, ⟨-, heq⟩ | ⟨-, heq⟩⟩
      · rw [heq]
      · rw [heq]
      · rw [heq]
        rfl
  | patchStatus inNamespace n s =>
      left
      show (k.patchStatus inNamespace n s).2.node? name = _
      rcases k.patchStatus_cases inNamespace n s with ⟨-, heq⟩ | ⟨_, -, heq⟩
      · rw [heq]
      · rw [heq]
        rfl
  | _ => exact .inl rfl

/-- What can happen to a request in a call: it is replaced by one that was sent, or is given
a status. -/
theorem remediation?_answer (k : Cluster) (w : Surroundings) (c : Call) (fate : Fate)
    (inNamespace name : String) :
    (k.answer w c fate).2.remediation? inNamespace name = k.remediation? inNamespace name ∨
      (∃ sent stored, c = .replaceRemediation sent ∧ sent.key = (inNamespace, name) ∧
        k.remediation? inNamespace name = some stored ∧
        stored.metadata.resourceVersion = sent.metadata.resourceVersion ∧
        (k.answer w c fate).2.remediation? inNamespace name =
          if isReleased (successor stored sent (k.version + 1)) then none
          else some (successor stored sent (k.version + 1))) ∨
      ∃ s stored, c = .patchStatus inNamespace name s ∧
        k.remediation? inNamespace name = some stored ∧
        (k.answer w c fate).2.remediation? inNamespace name =
          some { stored.stamped (k.version + 1) with status := some s } := by
  rcases k.answer_cluster w c fate with h | h
  · rw [h]
    exact .inl rfl
  rw [h]
  cases c with
  | replaceNode sent =>
      left
      show (k.replaceNode sent).2.remediation? inNamespace name = _
      rcases k.replaceNode_cases sent with ⟨-, heq⟩ | ⟨_, -, ⟨-, heq⟩ | ⟨-, heq⟩⟩
      · rw [heq]
      · rw [heq]
      · rw [heq]
        rfl
  | replaceRemediation sent =>
      show (k.replaceRemediation sent).2.remediation? inNamespace name = _ ∨
        (∃ sent' stored, _ ∧ _ ∧ _ ∧ _ ∧
          (k.replaceRemediation sent).2.remediation? inNamespace name = _) ∨ _
      rcases k.replaceRemediation_cases sent with
        ⟨-, heq⟩ | ⟨stored, hs, ⟨-, heq⟩ | ⟨hver, heq⟩⟩
      · exact .inl (by rw [heq])
      · exact .inl (by rw [heq])
      · rw [heq]
        by_cases hkey : sent.key = (inNamespace, name)
        · rw [hkey] at hs
          refine .inr (.inl ⟨sent, stored, rfl, hkey, hs, hver, ?_⟩)
          split
          · simp [remediation?, hkey]
          · simp [remediation?, hkey]
        · left
          split
          · simp [remediation?, hkey]
          · simp [remediation?, hkey]
  | patchStatus ns n s =>
      show (k.patchStatus ns n s).2.remediation? inNamespace name = _ ∨ _ ∨
        ∃ s' stored, _ ∧ _ ∧ (k.patchStatus ns n s).2.remediation? inNamespace name = _
      rcases k.patchStatus_cases ns n s with ⟨-, heq⟩ | ⟨stored, hs, heq⟩
      · exact .inl (by rw [heq])
      · rw [heq]
        by_cases hkey : (ns, n) = (inNamespace, name)
        · obtain ⟨rfl, rfl⟩ := Prod.mk.inj hkey
          exact .inr (.inr ⟨s, stored, rfl, hs, by simp [remediation?]⟩)
        · exact .inl (by simp [remediation?, hkey])
  | _ => exact .inl rfl

/-- Whatever is called, versions and objects grow. -/
theorem Sound.later_answer (h : Sound k) (w : Surroundings) (c : Call) (fate : Fate) :
    Later k (k.answer w c fate).2 := by
  rcases k.answer_cluster w c fate with heq | heq
  · rw [heq]
    exact .refl k
  · rw [heq]
    cases c with
    | replaceNode sent => exact later_replaceNode k sent
    | replaceRemediation sent => exact later_replaceRemediation k sent
    | patchStatus inNamespace name s => exact h.later_patchStatus inNamespace name s
    | _ => exact .refl k

/-! ### The taint and the finalizer -/

/-- A request with the finalizer is not gone. -/
theorem isReleased_eq_false {r : Remediation} (h : r.hasFinalizer = true) :
    isReleased r = false := by
  have hmem : Remediation.finalizer ∈ r.metadata.finalizers.getD [] := by
    simpa [Remediation.hasFinalizer, Metadata.hasFinalizer] using h
  have hne : r.metadata.finalizers.getD [] ≠ [] := List.ne_nil_of_mem hmem
  simp [isReleased, hne]

/-- A node that was replaced carries the taint if it was sent with it. -/
theorem carries_of_answer_eq_ok {sent m : Node}
    (h : (k.answer w (.replaceNode sent) fate).1 = .ok m) :
    (k.answer w (.replaceNode sent) fate).2.carries sent.anyName = sent.isTainted := by
  obtain ⟨_, -, -, -, heq⟩ := replaceNode_of_answer_eq_ok h
  simp [heq, carries, node?]

/-- Only a write of a tainted node taints it. -/
theorem exists_replaceNode_of_carries {node : String} (hbefore : k.carries node = false)
    (hafter : (k.answer w c fate).2.carries node = true) :
    ∃ sent, c = .replaceNode sent ∧ sent.anyName = node ∧ sent.isTainted = true := by
  unfold carries at hbefore hafter
  rcases k.node?_answer w c fate node with h | ⟨sent, _, hc, hname, -, -, h⟩
  · rw [h, hbefore] at hafter
    cases hafter
  · rw [h] at hafter
    exact ⟨sent, hc, hname, hafter⟩

/-- Only a write of a request without the finalizer takes it off. -/
theorem exists_replaceRemediation_of_holds {inNamespace name : String}
    (hbefore : k.holds inNamespace name = true)
    (hafter : (k.answer w c fate).2.holds inNamespace name = false) :
    ∃ sent, c = .replaceRemediation sent ∧ sent.key = (inNamespace, name) ∧
      sent.hasFinalizer = false := by
  unfold holds at hbefore hafter
  rcases k.remediation?_answer w c fate inNamespace name with
    h | ⟨sent, stored, hc, hkey, -, -, h⟩ | ⟨s, stored, -, hs, h⟩
  · rw [h, hbefore] at hafter
    cases hafter
  · refine ⟨sent, hc, hkey, ?_⟩
    cases hf : sent.hasFinalizer with
    | false => rfl
    | true =>
        have hf' : (successor stored sent (k.version + 1)).hasFinalizer = true := hf
        rw [h, if_neg (by simp [isReleased_eq_false hf']), Option.any_some, hf'] at hafter
        cases hafter
  · rw [h] at hafter
    rw [hs] at hbefore
    have : stored.hasFinalizer = false := hafter
    rw [Option.any_some, this] at hbefore
    cases hbefore

end Cluster

end NodeFencing
