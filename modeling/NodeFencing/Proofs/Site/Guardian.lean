/-
No taint without a finalizer.

If no two passes over one request run at a time, calls that fail have no effect, and
nobody else puts the remediation taint on or takes the finalizer off, then a node that
carries the taint always has a request of its name that holds the finalizer.

`Guarded` says more, so that every move preserves it: a pass that may taint its node
holds its request, and the guardian of a tainted node is not being let go.  A pass lets
its request go after it saw the node clean; whoever taints the node after that does so for
another request, which is then the guardian.
-/
import NodeFencing.Proofs.Pass.Gate
import NodeFencing.Proofs.Revision.Finalizers
import NodeFencing.Proofs.Site.Run

namespace NodeFencing

theorem Remediation.key_of_removeFinalizer? {q sent : Remediation} {f : String}
    (h : q.removeFinalizer? f = some sent) : sent.key = q.key := by
  obtain ⟨-, rfl⟩ := removeFinalizer?_eq_some_iff.mp h
  rfl

theorem Node.anyName_of_removeTaint? {n m : Node} (h : n.removeTaint? = some m) :
    m.anyName = n.anyName := by
  obtain ⟨-, rfl⟩ := removeTaint?_eq_some_iff.mp h
  rfl

namespace Pass

variable {inNamespace name : String} {log : List Exchange} {q : Remediation}

/-- What a pass heard last before it lets its request go. -/
theorem Cleared.last {x : Exchange} (h : Cleared inNamespace name (log ++ [x]) q) :
    x = ⟨.getNode q.anyName, .ok none⟩ ∨
      (∃ n, x = ⟨.getNode q.anyName, .ok (some n)⟩ ∧ n.isTainted = false) ∨
      ∃ n m, ⟨.getNode q.anyName, .ok (some n)⟩ ∈ log ∧ n.removeTaint? = some m ∧
        ((∃ m', x = ⟨.replaceNode m, .ok m'⟩) ∨
          ∃ e, x = ⟨.replaceNode m, .error e⟩ ∧ e.isNotFound = true) := by
  generalize hlog : log ++ [x] = more at h
  cases h with
  | absent h hq =>
      obtain ⟨rfl, hx⟩ := List.append_inj' hlog rfl
      exact .inl (by simpa using hx)
  | @clean _ _ n h hq hn =>
      obtain ⟨rfl, hx⟩ := List.append_inj' hlog rfl
      refine .inr (.inl ⟨n, by simpa using hx, ?_⟩)
      simpa [Node.removeTaint?] using hn
  | @removed _ _ n m m' h hq hn =>
      obtain ⟨rfl, hx⟩ := List.append_inj' hlog rfl
      exact .inr (.inr ⟨n, m, by simp, hn, .inl ⟨m', by simpa using hx⟩⟩)
  | @vanished _ _ n m e h hq hn he =>
      obtain ⟨rfl, hx⟩ := List.append_inj' hlog rfl
      exact .inr (.inr ⟨n, m, by simp, hn, .inr ⟨e, by simpa using hx, he⟩⟩)

theorem Cleared.mem_init {x : Exchange} (h : Cleared inNamespace name (log ++ [x]) q) :
    ⟨.getRemediation inNamespace name, .ok (some q)⟩ ∈ log := by
  rcases List.mem_append.mp h.mem with hmem | hmem
  · exact hmem
  · obtain rfl := List.mem_singleton.mp hmem
    rcases h.last with hx | ⟨_, hx, -⟩ | ⟨_, _, -, -, ⟨_, hx⟩ | ⟨_, hx, -⟩⟩ <;> cases hx

theorem Cleared.ne_nil (h : Cleared inNamespace name log q) : log ≠ [] :=
  List.ne_nil_of_mem h.mem

end Pass

/-- The object that a call asks for is not stored. -/
def Call.Misses (k : Cluster) : Call → Prop
  | .getRemediation inNamespace name => k.remediation? inNamespace name = none
  | .replaceRemediation sent => k.remediations.get? sent.key = none
  | .patchStatus inNamespace name _ => k.remediation? inNamespace name = none
  | .getNode name => k.node? name = none
  | .replaceNode sent => k.node? sent.anyName = none
  | _ => True

namespace Site

/-- A pass has a call to make, and has said and heard something before it. -/
def Amid (s : Site) (i : Nat) (said : List Exchange) : Prop :=
  ∃ c next, s.workers i = .working said (.call c next)

theorem Amid.unique {s : Site} {i : Nat} {said said' : List Exchange} (h : s.Amid i said)
    (h' : s.Amid i said') : said = said' := by
  obtain ⟨_, _, h⟩ := h
  obtain ⟨_, _, h'⟩ := h'
  exact (Worker.working.inj (h.symm.trans h')).1

/-- What the moves keep to: passes over one request do not overlap, a call that fails has no
effect and only misses what is not there, and others neither put the taint on nor take the
finalizer off. -/
def Allows (jobs : Nat → Job) (s : Site) : Move → Prop
  | .start i => ∀ j said, s.Amid j said → (jobs j).key ≠ (jobs i).key
  | .call i _ (.failed e) =>
    e.isNotFound = true → ∀ said c next, s.workers i = .working said (.call c next) →
      c.Misses s.cluster
  | .call _ _ (.lost _) => False
  | .edit e =>
    (∀ node, (s.cluster.edit e).carries node = true → s.cluster.carries node = true) ∧
      ∀ inNamespace name, s.cluster.holds inNamespace name = true →
        (s.cluster.edit e).holds inNamespace name = true
  | .call _ _ .served | .abandon _ | .rest => True

end Site

namespace Run

/-- Every move keeps to the rules. -/
def IsOrderly (r : Run) : Prop := ∀ t, (r.site t).Allows r.jobs (r.moves t)

variable {r : Run} {t i : Nat} {said : List Exchange} {q : Remediation}

/-- All that a pass that has a call to make can have done. -/
theorem amid_succ (h : (r.site (t + 1)).Amid i said) :
    ((r.site t).Amid i said ∧ ∀ x, r.made t ≠ some (i, x)) ∨
      (said = [] ∧ r.moves t = .start i) ∨
      ∃ before x, said = before ++ [x] ∧ (r.site t).Amid i before ∧ r.made t = some (i, x) := by
  obtain ⟨c, next, h⟩ := h
  cases r.turn t i with
  | idle hmade heq => exact .inl ⟨⟨c, next, heq.symm.trans h⟩, hmade⟩
  | started hm hmade hw heq =>
      have hsaid := heq.symm.trans h
      simp only [Worker.working.injEq] at hsaid
      exact .inr (.inl ⟨hsaid.1.symm, hm⟩)
  | called before c' a next' hmade hw heq =>
      have hsaid := heq.symm.trans h
      simp only [Worker.working.injEq] at hsaid
      exact .inr (.inr ⟨before, ⟨c', a⟩, hsaid.1.symm, ⟨c', next', hw⟩, hmade⟩)
  | abandoned hmade heq => cases heq.symm.trans h

/-- A pass that has a call to make had one before, or has just started. -/
theorem exists_amid_or_start (h : (r.site (t + 1)).Amid i said) :
    (∃ before, (r.site t).Amid i before) ∨ r.moves t = .start i := by
  rcases amid_succ h with ⟨h, -⟩ | ⟨-, hm⟩ | ⟨before, _, -, h, -⟩
  · exact .inl ⟨said, h⟩
  · exact .inr hm
  · exact .inl ⟨before, h⟩

/-- A request of a pass has the key of the pass. -/
theorem key_eq_of_amid (h : (r.site t).Amid i said)
    (hq : ⟨.getRemediation (r.jobs i).inNamespace (r.jobs i).name, .ok (some q)⟩ ∈ said) :
    q.key = (r.jobs i).key := by
  obtain ⟨c, next, h⟩ := h
  exact r.key_eq h hq

/-- The finalizer goes only if a pass lets its request go. -/
theorem exists_cleared_of_holds (ho : r.IsOrderly) {ns n : String}
    (h : (r.cluster t).holds ns n = true) (h' : (r.cluster (t + 1)).holds ns n = false) :
    ∃ j sent a said q, r.made t = some (j, ⟨.replaceRemediation sent, a⟩) ∧
      (r.site t).Amid j said ∧ (r.jobs j).key = (ns, n) ∧
      Pass.Cleared (r.jobs j).inNamespace (r.jobs j).name said q := by
  rcases r.cluster_succ t with heq | ⟨e, hm, heq⟩ | ⟨j, w, fate, said, c, next, -, hw, hmade, heq⟩
  · rw [heq, h] at h'
    cases h'
  · have hrule := ho t
    rw [hm] at hrule
    have hkept : ((r.cluster t).edit e).holds ns n = true := hrule.2 ns n h
    rw [heq, hkept] at h'
    cases h'
  · rw [heq] at h'
    obtain ⟨sent, rfl, hkey, hf⟩ := Cluster.exists_replaceRemediation_of_holds h h'
    obtain ⟨⟨q, hopen, -, hadd⟩ | ⟨q, hcleared, hremove⟩, -⟩ := r.heard hw
    · rw [Remediation.hasFinalizer_of_addFinalizer? hadd] at hf
      cases hf
    · refine ⟨j, sent, _, said, q, hmade, ⟨_, next, hw⟩, ?_, hcleared⟩
      rw [← hkey, Remediation.key_of_removeFinalizer? hremove]
      exact (r.key_eq hw hcleared.mem).symm

/-- A node becomes tainted only if a pass that saw its request alive taints it. -/
theorem exists_proceed_of_carries (ho : r.IsOrderly) {node : String}
    (h : (r.cluster t).carries node = false) (h' : (r.cluster (t + 1)).carries node = true) :
    ∃ i sent a said q, r.made t = some (i, ⟨.replaceNode sent, a⟩) ∧ (r.site t).Amid i said ∧
      (r.jobs i).name = node ∧ q.lifecycleAction = .proceed ∧
      ⟨.getRemediation (r.jobs i).inNamespace (r.jobs i).name, .ok (some q)⟩ ∈ said := by
  rcases r.cluster_succ t with heq | ⟨e, hm, heq⟩ | ⟨i, w, fate, said, c, next, -, hw, hmade, heq⟩
  · rw [heq, h] at h'
    cases h'
  · have hrule := ho t
    rw [hm] at hrule
    rw [heq] at h'
    have hbefore : (r.cluster t).carries node = true := hrule.1 node h'
    rw [h] at hbefore
    cases hbefore
  · rw [heq] at h'
    obtain ⟨sent, rfl, hname, hsent⟩ := Cluster.exists_replaceNode_of_carries h h'
    obtain ⟨⟨_, _, n, -, -, -, hn⟩ | ⟨before, q, n, time, hopen, hq, -, rfl, rfl, -⟩, -⟩ :=
      r.heard hw
    · rw [Node.isTainted_of_removeTaint? hn] at hsent
      cases hsent
    · refine ⟨i, _, _, _, q, hmade, ⟨_, next, hw⟩, ?_, hq, by simp [hopen.mem]⟩
      rw [← hname]
      exact (r.anyName_eq hw (n := n) (by simp)).symm

/-- A pass is told that its node is gone only if it is. -/
theorem node?_eq_none_of_made (ho : r.IsOrderly) {sent : Node} {e : Error}
    (hmade : r.made t = some (i, ⟨.replaceNode sent, .error e⟩)) (he : e.isNotFound = true) :
    (r.cluster t).node? sent.anyName = none := by
  obtain ⟨w, fate, said, next, hm, hw, -, ha⟩ := r.answer_of_made hmade
  have hrule := ho t
  rw [hm] at hrule
  have hfst := congrArg Prod.fst ha
  cases fate with
  | served => exact Cluster.node?_eq_none_of_serve_eq_error hfst he
  | failed e' =>
      obtain rfl : e' = e := Except.error.inj hfst
      exact hrule he said _ next hw
  | lost e' => exact hrule.elim

/-- A node without the taint stays so in a call that does not write a tainted node. -/
theorem carries_succ_eq_false {c : Call} {a : c.Answer} {node : String}
    (hmade : r.made t = some (i, ⟨c, a⟩)) (hbefore : (r.cluster t).carries node = false)
    (hc : ∀ sent, c = .replaceNode sent → sent.isTainted = false) :
    (r.cluster (t + 1)).carries node = false := by
  by_contra hafter
  obtain ⟨w, fate, _, _, -, -, -, ha⟩ := r.answer_of_made hmade
  have hcluster : ((r.cluster t).answer w c fate).2 = r.cluster (t + 1) := congrArg Prod.snd ha
  rw [← hcluster, Bool.not_eq_false] at hafter
  obtain ⟨sent, hsent, -, htainted⟩ := Cluster.exists_replaceNode_of_carries hbefore hafter
  rw [hc sent hsent] at htainted
  cases htainted

/-- When a pass comes to let its request go, its node does not carry the taint. -/
theorem carries_eq_false_of_cleared (ho : r.IsOrderly) {x : Exchange}
    (hw : (r.site t).Amid i said) (hmade : r.made t = some (i, x))
    (h : Pass.Cleared (r.jobs i).inNamespace (r.jobs i).name (said ++ [x]) q) :
    (r.cluster (t + 1)).carries (r.jobs i).name = false := by
  have hname : q.anyName = (r.jobs i).name := congrArg Prod.snd (key_eq_of_amid hw h.mem_init)
  obtain ⟨_, _, hw⟩ := hw
  rcases h.last with rfl | ⟨n, rfl, hn⟩ | ⟨n, m, hread, hm, ⟨m', rfl⟩ | ⟨e, rfl, he⟩⟩
  · have hnone := r.node?_of_made hmade
    rw [hname] at hnone
    refine carries_succ_eq_false hmade (by simp [Cluster.carries, hnone]) ?_
    intro sent h
    cases h
  · have hsome := r.node?_of_made hmade
    rw [hname] at hsome
    refine carries_succ_eq_false hmade (by simp [Cluster.carries, hsome, hn]) ?_
    intro sent h
    cases h
  · -- the taint was taken off
    have hm' : m.anyName = (r.jobs i).name := by
      rw [Node.anyName_of_removeTaint? hm, r.anyName_eq hw hread, hname]
    obtain ⟨w, fate, _, _, -, -, -, ha⟩ := r.answer_of_made hmade
    have hafter := Cluster.carries_of_answer_eq_ok (congrArg Prod.fst ha)
    have hcluster : _ = r.cluster (t + 1) := congrArg Prod.snd ha
    rw [hcluster, hm', Node.isTainted_of_removeTaint? hm] at hafter
    exact hafter
  · -- the node is gone
    have hnone := node?_eq_none_of_made ho hmade he
    rw [Node.anyName_of_removeTaint? hm, r.anyName_eq hw hread, hname] at hnone
    refine carries_succ_eq_false hmade (by simp [Cluster.carries, hnone]) ?_
    intro sent h
    cases h
    exact Node.isTainted_of_removeTaint? hm

/-! ### The invariant -/

/-- What every move preserves: passes over one request do not overlap; a pass that may taint its
node holds its request; and every tainted node has a request that holds the finalizer and is not
being let go. -/
structure Guarded (r : Run) (t : Nat) : Prop where
  apart : ∀ i j said said', (r.site t).Amid i said → (r.site t).Amid j said' →
    (r.jobs i).key = (r.jobs j).key → i = j
  held : ∀ i said q, (r.site t).Amid i said → q.lifecycleAction = .proceed →
    ⟨.getRemediation (r.jobs i).inNamespace (r.jobs i).name, .ok (some q)⟩ ∈ said →
    (r.cluster t).holds (r.jobs i).inNamespace (r.jobs i).name = true
  guarded : ∀ node, (r.cluster t).carries node = true →
    ∃ ns, (r.cluster t).holds ns node = true ∧
      ∀ i said q, (r.site t).Amid i said → (r.jobs i).key = (ns, node) →
        ¬ Pass.Cleared (r.jobs i).inNamespace (r.jobs i).name said q

theorem Guarded.apart_succ (ho : r.IsOrderly) (h : r.Guarded t) {i j : Nat}
    {said said' : List Exchange} (hi : (r.site (t + 1)).Amid i said)
    (hj : (r.site (t + 1)).Amid j said') (hkey : (r.jobs i).key = (r.jobs j).key) : i = j := by
  have hrule := ho t
  rcases exists_amid_or_start hi with ⟨_, hi⟩ | hm <;>
    rcases exists_amid_or_start hj with ⟨_, hj⟩ | hm'
  · exact h.apart i j _ _ hi hj hkey
  · rw [hm'] at hrule
    exact (hrule i _ hi hkey).elim
  · rw [hm] at hrule
    exact (hrule j _ hj hkey.symm).elim
  · rw [hm] at hm'
    exact Move.start.inj hm'

/-- The request of a pass is let go by this pass only. -/
theorem Guarded.holds_succ (ho : r.IsOrderly) (h : r.Guarded t) (hi : (r.site t).Amid i said)
    (hholds : (r.cluster t).holds (r.jobs i).inNamespace (r.jobs i).name = true)
    (hnot : ∀ sent a q, r.made t = some (i, ⟨.replaceRemediation sent, a⟩) →
      ¬ Pass.Cleared (r.jobs i).inNamespace (r.jobs i).name said q) :
    (r.cluster (t + 1)).holds (r.jobs i).inNamespace (r.jobs i).name = true := by
  by_contra hlost
  obtain ⟨j, sent, a, said', q, hmade, hj, hkey, hcleared⟩ :=
    exists_cleared_of_holds ho hholds (eq_false_of_ne_true hlost)
  obtain rfl := h.apart i j _ _ hi hj hkey.symm
  obtain rfl := hi.unique hj
  exact hnot sent a q hmade hcleared

theorem Guarded.held_succ (ho : r.IsOrderly) (h : r.Guarded t)
    (hi : (r.site (t + 1)).Amid i said) (hq : q.lifecycleAction = .proceed)
    (hmem : ⟨.getRemediation (r.jobs i).inNamespace (r.jobs i).name, .ok (some q)⟩ ∈ said) :
    (r.cluster (t + 1)).holds (r.jobs i).inNamespace (r.jobs i).name = true := by
  rcases amid_succ hi with ⟨hi', hidle⟩ | ⟨rfl, -⟩ | ⟨before, x, rfl, hi', hmade⟩
  · refine h.holds_succ ho hi' (h.held i said q hi' hq hmem) ?_
    intro sent a _ hmade
    exact (hidle _ hmade).elim
  · cases hmem
  · rcases List.mem_append.mp hmem with hmem | hmem
    · refine h.holds_succ ho hi' (h.held i before q hi' hq hmem) ?_
      -- a pass that lets its request go has read it as deleted
      intro sent a q' _ hcleared
      obtain ⟨_, _, hw⟩ := hi'
      have hsame := Pass.request_unique (r.reaches hw) hmem hcleared.mem
      obtain rfl : q = q' := by simpa using hsame
      rw [hcleared.lifecycleAction_eq] at hq
      cases hq
    · -- the request has just been read
      have hx := List.mem_singleton.mp hmem
      rw [← hx] at hmade
      have hsome := r.remediation?_of_made hmade
      have hf := (Remediation.lifecycleAction_eq_proceed_iff.mp hq).1
      refine h.holds_succ ho hi' (by simp [Cluster.holds, hsome, hf]) ?_
      intro sent a _ hmade'
      rw [hmade] at hmade'
      cases hmade'

/-- A pass that lets its request go while its node carries the taint came to that before. -/
theorem amid_of_cleared (ho : r.IsOrderly) (hi : (r.site (t + 1)).Amid i said)
    (hcleared : Pass.Cleared (r.jobs i).inNamespace (r.jobs i).name said q)
    (hnode : (r.cluster (t + 1)).carries (r.jobs i).name = true) :
    (r.site t).Amid i said ∧ ∀ x, r.made t ≠ some (i, x) := by
  rcases amid_succ hi with hidle | ⟨rfl, -⟩ | ⟨before, x, rfl, hi, hmade⟩
  · exact hidle
  · exact (hcleared.ne_nil rfl).elim
  · rw [carries_eq_false_of_cleared ho hi hmade hcleared] at hnode
    cases hnode

theorem Guarded.guarded_succ (ho : r.IsOrderly) (h : r.Guarded t) {node : String}
    (hnode : (r.cluster (t + 1)).carries node = true) :
    ∃ ns, (r.cluster (t + 1)).holds ns node = true ∧
      ∀ i said q, (r.site (t + 1)).Amid i said → (r.jobs i).key = (ns, node) →
        ¬ Pass.Cleared (r.jobs i).inNamespace (r.jobs i).name said q := by
  by_cases hbefore : (r.cluster t).carries node = true
  · -- the guardian stays
    obtain ⟨ns, hholds, hnot⟩ := h.guarded node hbefore
    refine ⟨ns, ?_, ?_⟩
    · by_contra hlost
      obtain ⟨j, _, _, said, q, -, hj, hkey, hcleared⟩ :=
        exists_cleared_of_holds ho hholds (eq_false_of_ne_true hlost)
      exact hnot j said q hj hkey hcleared
    · intro i said q hi hkey hcleared
      have hname : (r.jobs i).name = node := congrArg Prod.snd hkey
      obtain ⟨hi, -⟩ := amid_of_cleared ho hi hcleared (hname.symm ▸ hnode)
      exact hnot i said q hi hkey hcleared
  · -- the request of the pass that tainted the node is the guardian
    obtain ⟨i, sent, a, said, q, hmade, hi, rfl, hq, hmem⟩ :=
      exists_proceed_of_carries ho (eq_false_of_ne_true hbefore) hnode
    refine ⟨(r.jobs i).inNamespace, ?_, ?_⟩
    · by_contra hlost
      obtain ⟨j, _, _, _, _, hmade', -⟩ := exists_cleared_of_holds ho
        (h.held i said q hi hq hmem) (eq_false_of_ne_true hlost)
      rw [hmade] at hmade'
      cases hmade'
    · intro j said' q' hj hkey hcleared
      have hname : (r.jobs j).name = (r.jobs i).name := congrArg Prod.snd hkey
      obtain ⟨hj, hidle⟩ := amid_of_cleared ho hj hcleared (hname.symm ▸ hnode)
      obtain rfl := h.apart i j _ _ hi hj hkey.symm
      exact hidle _ hmade

/-- The invariant holds at the start, if no node is tainted, and at all times after. -/
theorem guarded_of_isOrderly (ho : r.IsOrderly)
    (hstart : ∀ node, r.start.carries node = false) (t : Nat) : r.Guarded t := by
  induction t with
  | zero =>
      refine ⟨?_, ?_, ?_⟩
      · rintro i j said said' ⟨_, _, h⟩
        cases h
      · rintro i said q ⟨_, _, h⟩
        cases h
      · intro node h
        rw [show r.cluster 0 = r.start from rfl, hstart node] at h
        cases h
  | succ t ih =>
      refine ⟨?_, ?_, ?_⟩
      · intro i j said said' hi hj hkey
        exact ih.apart_succ ho hi hj hkey
      · intro i said q hi hq hmem
        exact ih.held_succ ho hi hq hmem
      · intro node hnode
        exact ih.guarded_succ ho hnode

/--
**No orphaned taint.**  In a run that keeps to the rules, and begins without tainted nodes,
every node that carries the taint at any time has a request of its name that holds the
finalizer at that time.
-/
theorem exists_holds_of_carries (r : Run) (ho : r.IsOrderly)
    (hstart : ∀ node, r.start.carries node = false) (t : Nat) (node : String)
    (h : (r.cluster t).carries node = true) : ∃ ns, (r.cluster t).holds ns node = true := by
  obtain ⟨ns, hholds, -⟩ := (guarded_of_isOrderly ho hstart t).guarded node h
  exact ⟨ns, hholds⟩

/-! ### A pass that is given up when it has tainted its node -/

/-- The pass gets to the taint and no further. -/
def abandoned : Run :=
  .ofMoves (fun _ => ⟨{}, "default", "n1"⟩) setting
    (.start 0 :: List.replicate 5 (calls 0) ++ [.abandon 0])

theorem isOrderly_abandoned : abandoned.IsOrderly := by
  intro t
  match t with
  | 0 =>
      rintro j said ⟨c, next, h⟩
      cases h
  | 1 | 2 | 3 | 4 | 5 | 6 => exact trivial
  | t + 7 => exact trivial

theorem carries_start_abandoned (node : String) : abandoned.start.carries node = false := by
  by_cases h : "n1" = node
  · subst h
    decide +kernel
  · have hnodes : abandoned.start.nodes = Ordered.insert .empty "n1" _ := rfl
    have hnone : abandoned.start.node? node = none := by
      unfold Cluster.node?
      rw [hnodes, Ordered.get?_insert, if_neg h, Ordered.get?_empty]
    simp [Cluster.carries, hnone]

/-- The node is left with the taint, and the request with the finalizer. -/
theorem exists_holds_abandoned :
    (abandoned.cluster 7).carries "n1" = true ∧
      ∃ ns, (abandoned.cluster 7).holds ns "n1" = true := by
  have h : (abandoned.cluster 7).carries "n1" = true := by decide +kernel
  exact ⟨h, exists_holds_of_carries abandoned isOrderly_abandoned carries_start_abandoned 7 "n1" h⟩

end Run

end NodeFencing
