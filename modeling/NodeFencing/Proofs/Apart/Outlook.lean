/-
What a pass can tell of a cluster.

A pass for one node can tell its own request, its own node, which nodes there are, and the
pods: its `Outlook`.  The calls that it makes fit it: they ask for the pass's own objects, and
what they put back is an edit of what the outlook shows.  A call that fits leaves everything
alone that is not the pass's own, so a pass for another node can tell nothing of it; and it is
answered alike by any two clusters that look alike, whatever their versions and times.
-/
import NodeFencing.Proofs.Alone.Course
import NodeFencing.Proofs.Apart.Alike

namespace NodeFencing

/-! ### What calls leave alone -/

namespace Ordered

variable {κ α : Type} [DecidableEq κ]

theorem keys_insert_of_get? {m : Ordered κ α} {k : κ} {v v' : α} (h : m.get? k = some v) :
    (m.insert k v').keys = m.keys := by
  have hmem : k ∈ m.entries.map Prod.fst := (mem_keys_iff m k).mpr (by simp [h])
  show (place k v' m.entries).map Prod.fst = m.entries.map Prod.fst
  rw [keys_place, if_pos hmem]

end Ordered

namespace Cluster

variable {k k' : Cluster}

/-- A call that is served changes nothing, or a node that is there, or the requests. -/
theorem serve_cluster_cases (k : Cluster) (w : Surroundings) (c : Call) :
    (k.serve w c).2 = k ∨
      (∃ name stored n, k.node? name = some stored ∧
        (k.serve w c).2 = { k.bump with nodes := k.nodes.insert name n }) ∨
      ∃ requests, (k.serve w c).2 = { k.bump with remediations := requests } := by
  cases c with
  | replaceNode sent =>
      rcases k.replaceNode_cases sent with ⟨-, heq⟩ | ⟨stored, hs, ⟨-, heq⟩ | ⟨-, heq⟩⟩
      · exact .inl (congrArg Prod.snd heq)
      · exact .inl (congrArg Prod.snd heq)
      · exact .inr (.inl ⟨_, stored, _, hs, congrArg Prod.snd heq⟩)
  | replaceRemediation sent =>
      rcases k.replaceRemediation_cases sent with ⟨-, heq⟩ | ⟨_, -, ⟨-, heq⟩ | ⟨-, heq⟩⟩
      · exact .inl (congrArg Prod.snd heq)
      · exact .inl (congrArg Prod.snd heq)
      · exact .inr (.inr ⟨_, congrArg Prod.snd heq⟩)
  | patchStatus inNamespace name s =>
      rcases k.patchStatus_cases inNamespace name s with ⟨-, heq⟩ | ⟨_, -, heq⟩
      · exact .inl (congrArg Prod.snd heq)
      · exact .inr (.inr ⟨_, congrArg Prod.snd heq⟩)
  | _ => exact .inl rfl

/-- No call adds a node or takes one away. -/
theorem nodeNames_serve (k : Cluster) (w : Surroundings) (c : Call) :
    (k.serve w c).2.nodeNames = k.nodeNames := by
  rcases k.serve_cluster_cases w c with heq | ⟨name, stored, n, hs, heq⟩ | ⟨_, heq⟩
  · rw [heq]
  · have hkeys : (k.nodes.insert name n).keys = k.nodes.keys := Ordered.keys_insert_of_get? hs
    rw [heq]
    unfold nodeNames
    rw [hkeys]
  · rw [heq]
    rfl

/-- No call changes a pod. -/
theorem pods_serve (k : Cluster) (w : Surroundings) (c : Call) : (k.serve w c).2.pods = k.pods := by
  rcases k.serve_cluster_cases w c with heq | ⟨_, _, _, -, heq⟩ | ⟨_, heq⟩
  · rw [heq]
  · rw [heq]
    rfl
  · rw [heq]
    rfl

end Cluster

/-! ### Outlooks -/

/-- What a pass can tell of a cluster. -/
structure Outlook where
  request : Option Remediation
  node : Option Node
  names : List String
  pods : List Pod

/-- The outlook without versions and times. -/
def Outlook.undated (o : Outlook) : Outlook :=
  { o with request := o.request.map Remediation.undated, node := o.node.map Node.undated }

theorem Outlook.undated_eq_iff {o o' : Outlook} :
    o.undated = o'.undated ↔
      o.request.map Remediation.undated = o'.request.map Remediation.undated ∧
        o.node.map Node.undated = o'.node.map Node.undated ∧ o.names = o'.names ∧
        o.pods = o'.pods := by
  cases o
  cases o'
  simp [undated]

namespace Job

variable {i j : Job} {k k' : Cluster} {c c' : Call} {w w' : Surroundings}

/-- What a pass can tell of a cluster. -/
def outlook (j : Job) (k : Cluster) : Outlook :=
  ⟨k.remediation? j.inNamespace j.name, k.node? j.name, k.nodeNames, k.pods⟩

/-- A call asks for objects of the pass, or puts back an edit of one that is there. -/
def Fits (j : Job) (o : Outlook) : Call → Prop
  | .getRemediation inNamespace name => (inNamespace, name) = j.key
  | .replaceRemediation sent => ∃ q, o.request = some q ∧ q.Edit sent
  | .patchStatus inNamespace name _ => (inNamespace, name) = j.key
  | .getNode name => name = j.name
  | .replaceNode sent => ∃ n, o.node = some n ∧ n.Edit sent
  | _ => True

/-- Nothing is different that is not the pass's own. -/
structure Spares (j : Job) (k k' : Cluster) : Prop where
  node : ∀ name, name ≠ j.name → k'.node? name = k.node? name
  request : ∀ inNamespace name, (inNamespace, name) ≠ j.key →
    k'.remediation? inNamespace name = k.remediation? inNamespace name
  names : k'.nodeNames = k.nodeNames
  pods : k'.pods = k.pods

theorem Spares.refl (j : Job) (k : Cluster) : j.Spares k k :=
  ⟨fun _ _ => rfl, fun _ _ _ => rfl, rfl, rfl⟩

theorem Spares.trans {k'' : Cluster} (h : j.Spares k k') (h' : j.Spares k' k'') : j.Spares k k'' :=
  ⟨fun name hne => (h'.node name hne).trans (h.node name hne),
    fun ns name hne => (h'.request ns name hne).trans (h.request ns name hne),
    h'.names.trans h.names, h'.pods.trans h.pods⟩

/-- A pass for another node can tell nothing of it. -/
theorem Spares.outlook_eq (h : j.Spares k k') (hne : i.name ≠ j.name) :
    i.outlook k' = i.outlook k := by
  have hkey : i.key ≠ j.key := fun heq => hne (congrArg Prod.snd heq)
  unfold outlook
  rw [h.node _ hne, h.request _ _ hkey, h.names, h.pods]

theorem spares_serve (hk : k.Keyed) (hc : j.Fits (j.outlook k) c) (w : Surroundings) :
    j.Spares k (k.serve w c).2 where
  node name hne := by
    rcases k.node?_answer w c .served name with heq | ⟨sent, _, rfl, hname, -⟩
    · exact heq
    · obtain ⟨n, hn, hedit⟩ := hc
      exact absurd (hname.symm.trans (hedit.anyName_eq.trans (hk.node _ n hn))) hne
  request inNamespace name hne := by
    rcases k.remediation?_answer w c .served inNamespace name with
      heq | ⟨sent, _, rfl, hkey, -⟩ | ⟨s, _, rfl, -⟩
    · exact heq
    · obtain ⟨q, hq, hedit⟩ := hc
      exact absurd (hkey.symm.trans (hedit.key_eq.trans (hk.request _ _ q hq))) hne
    · exact absurd hc hne
  names := k.nodeNames_serve w c
  pods := k.pods_serve w c

/-! ### Calls of clusters that look alike -/

/-- A replaced node is what the outlook shows next. -/
theorem outlook_replaceNode (hk : k.Keyed) {sent n : Node} (hn : k.node? j.name = some n)
    (hedit : n.Edit sent) (w : Surroundings) :
    (k.serve w (.replaceNode sent)).1 = .ok (sent.stamped (k.version + 1)) ∧
      j.outlook (k.serve w (.replaceNode sent)).2 =
        { j.outlook k with node := some (sent.stamped (k.version + 1)) } := by
  have heq : k.serve w (.replaceNode sent) = _ := hk.replaceNode_eq hn hedit
  have hnames := k.nodeNames_serve w (.replaceNode sent)
  unfold outlook
  rw [hnames, heq]
  exact ⟨rfl, by simp [Cluster.node?, Cluster.remediation?, Cluster.bump]⟩

/-- A replaced request is what the outlook shows next, unless it is gone. -/
theorem outlook_replaceRemediation (hk : k.Keyed) {sent q : Remediation}
    (hq : k.remediation? j.inNamespace j.name = some q) (hedit : q.Edit sent) (w : Surroundings) :
    (k.serve w (.replaceRemediation sent)).1 = .ok (sent.stamped (k.version + 1)) ∧
      j.outlook (k.serve w (.replaceRemediation sent)).2 =
        { j.outlook k with
          request := if Cluster.isReleased (sent.stamped (k.version + 1)) then none
            else some (sent.stamped (k.version + 1)) } := by
  have heq : k.serve w (.replaceRemediation sent) = _ := hk.replaceRemediation_eq hq hedit
  have hnames := k.nodeNames_serve w (.replaceRemediation sent)
  unfold outlook
  rw [hnames, heq]
  refine ⟨rfl, ?_⟩
  split <;> simp [Cluster.node?, Cluster.remediation?, Cluster.bump]

/-- A status is written into the request that the outlook shows. -/
theorem outlook_patchStatus (j : Job) (k : Cluster) (w : Surroundings) (s : Status) :
    (k.serve w (.patchStatus j.inNamespace j.name s)).1 =
        (if (j.outlook k).request.isSome then .ok () else .error Cluster.notFound) ∧
      j.outlook (k.serve w (.patchStatus j.inNamespace j.name s)).2 =
        { j.outlook k with
          request := (j.outlook k).request.map fun q =>
            { q.stamped (k.version + 1) with status := some s } } := by
  have hnames := k.nodeNames_serve w (.patchStatus j.inNamespace j.name s)
  unfold outlook
  rw [hnames]
  rcases k.patchStatus_cases j.inNamespace j.name s with ⟨hnone, heq⟩ | ⟨q, hq, heq⟩
  · rw [show k.serve w (.patchStatus j.inNamespace j.name s) = _ from heq]
    simp [hnone]
  · rw [show k.serve w (.patchStatus j.inNamespace j.name s) = _ from heq]
    rw [hq]
    exact ⟨rfl, by simp [Cluster.node?, Cluster.remediation?, Cluster.bump]⟩

/-- What a call reads is alike in clusters that look alike. -/
theorem serve_alike_of_read (ho : (j.outlook k).undated = (j.outlook k').undated)
    (hread : c.isWrite = false) (hfits : j.Fits (j.outlook k) c)
    (hexecute : ∀ pod command, c = .execute pod command → w.output = w'.output) :
    Exchange.undated ⟨c, (k.serve w c).1⟩ = Exchange.undated ⟨c, (k'.serve w' c).1⟩ ∧
      (j.outlook (k.serve w c).2).undated = (j.outlook (k'.serve w' c).2).undated := by
  cases c with
  | getRemediation inNamespace name =>
      obtain ⟨rfl, rfl⟩ := Prod.mk.inj hfits
      refine ⟨?_, ho⟩
      have h : (k.remediation? j.inNamespace j.name).map Remediation.undated =
          (k'.remediation? j.inNamespace j.name).map Remediation.undated :=
        congrArg Outlook.request ho
      exact congrArg (fun x => (⟨.getRemediation j.inNamespace j.name, .ok x⟩ : Exchange)) h
  | getNode name =>
      obtain rfl : name = j.name := hfits
      refine ⟨?_, ho⟩
      have h : (k.node? j.name).map Node.undated = (k'.node? j.name).map Node.undated :=
        congrArg Outlook.node ho
      exact congrArg (fun x => (⟨.getNode j.name, .ok x⟩ : Exchange)) h
  | listNodeNames =>
      refine ⟨?_, ho⟩
      have h : k.nodeNames = k'.nodeNames := congrArg Outlook.names ho
      exact congrArg (fun x => (⟨.listNodeNames, .ok x⟩ : Exchange)) h
  | listPods inNamespace selector =>
      refine ⟨?_, ho⟩
      have h : k.pods = k'.pods := congrArg Outlook.pods ho
      show Exchange.undated ⟨.listPods inNamespace selector, .ok (k.pods.filter _)⟩ =
        Exchange.undated ⟨.listPods inNamespace selector, .ok (k'.pods.filter _)⟩
      rw [h]
  | execute pod command =>
      refine ⟨?_, ho⟩
      exact congrArg (fun x => (⟨.execute pod command, x⟩ : Exchange)) (hexecute pod command rfl)
  | publishEvent about e => exact ⟨rfl, ho⟩
  | readClock => exact ⟨rfl, ho⟩
  | observe seen => exact ⟨rfl, ho⟩
  | replaceRemediation r => cases hread
  | patchStatus inNamespace name s => cases hread
  | replaceNode n => cases hread

/-- A call is answered alike by clusters that look alike, and they look alike after it. -/
theorem serve_alike (hk : k.Keyed) (hk' : k'.Keyed)
    (ho : (j.outlook k).undated = (j.outlook k').undated) (hc : c.undated = c'.undated)
    (hfits : j.Fits (j.outlook k) c) (hfits' : j.Fits (j.outlook k') c')
    (hexecute : ∀ pod command, c = .execute pod command → w.output = w'.output) :
    Exchange.undated ⟨c, (k.serve w c).1⟩ = Exchange.undated ⟨c', (k'.serve w' c').1⟩ ∧
      (j.outlook (k.serve w c).2).undated = (j.outlook (k'.serve w' c').2).undated := by
  obtain ⟨hrequest, hnode, hnames, hpods⟩ := Outlook.undated_eq_iff.mp ho
  rcases Call.undated_cases hc with ⟨rfl, hread⟩ | ⟨r, r', rfl, rfl, h⟩ |
    ⟨ns, n, s, s', rfl, rfl, h⟩ | ⟨n, n', rfl, rfl, h⟩ | ⟨r, r', e, rfl, rfl, h⟩
  · exact serve_alike_of_read ho hread hfits hexecute
  · obtain ⟨q, hq, hedit⟩ := hfits
    obtain ⟨q', hq', hedit'⟩ := hfits'
    obtain ⟨ha, hafter⟩ := outlook_replaceRemediation hk hq hedit w
    obtain ⟨ha', hafter'⟩ := outlook_replaceRemediation hk' hq' hedit' w'
    have hstamped : (r.stamped (k.version + 1)).undated = (r'.stamped (k'.version + 1)).undated := h
    have hreleased : Cluster.isReleased (r.stamped (k.version + 1)) =
        Cluster.isReleased (r'.stamped (k'.version + 1)) :=
      Remediation.eq_of_undated _ (fun _ => rfl) hstamped
    rw [ha, ha', hafter, hafter', hreleased]
    refine ⟨by simp [Exchange.undated, Except.map, h, hstamped], ?_⟩
    refine Outlook.undated_eq_iff.mpr ⟨?_, hnode, hnames, hpods⟩
    dsimp only
    split
    · rfl
    · exact congrArg some hstamped
  · obtain ⟨rfl, rfl⟩ := Prod.mk.inj hfits
    obtain ⟨ha, hafter⟩ := j.outlook_patchStatus k w s
    obtain ⟨ha', hafter'⟩ := j.outlook_patchStatus k' w' s'
    rw [ha, ha', hafter, hafter']
    obtain ⟨hq, hq'⟩ | ⟨q, q', hq, hq', hqq⟩ := option_map_eq_map hrequest
    · rw [hq, hq']
      refine ⟨by simp [Exchange.undated, h], ?_⟩
      exact Outlook.undated_eq_iff.mpr ⟨rfl, hnode, hnames, hpods⟩
    · rw [hq, hq']
      refine ⟨by simp [Exchange.undated, h], ?_⟩
      refine Outlook.undated_eq_iff.mpr ⟨?_, hnode, hnames, hpods⟩
      have hmetadata : q.metadata.undated = q'.metadata.undated := congrArg Remediation.metadata hqq
      have hspec := Remediation.spec_eq hqq
      simp only [Option.map_some, Remediation.undated, Option.some.injEq, Remediation.mk.injEq, h,
        Remediation.stamped, hspec, and_true]
      exact hmetadata
  · obtain ⟨q, hq, hedit⟩ := hfits
    obtain ⟨q', hq', hedit'⟩ := hfits'
    obtain ⟨ha, hafter⟩ := outlook_replaceNode hk hq hedit w
    obtain ⟨ha', hafter'⟩ := outlook_replaceNode hk' hq' hedit' w'
    have hstamped : (n.stamped (k.version + 1)).undated = (n'.stamped (k'.version + 1)).undated := h
    rw [ha, ha', hafter, hafter']
    refine ⟨by simp [Exchange.undated, Except.map, h, hstamped], ?_⟩
    exact Outlook.undated_eq_iff.mpr ⟨hrequest, congrArg some hstamped, hnames, hpods⟩
  · refine ⟨?_, ho⟩
    simp [Exchange.undated, h]

end Job

end NodeFencing
