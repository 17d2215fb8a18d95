/-
A pass alone with the cluster.

While it runs no other pass does and nobody edits the cluster, but its calls may fail.  A
`Course` says how they fare, one after the other: what the clock shows and the agent
answers, and which calls fail.  A call that fails has no effect, and a pass is told that an
object is not there only if it is not; both are part of what a course is.  On a calm course
no call fails.

`Yields` is what a program comes to on a course: what was said and heard, the result, and
the cluster that is left.  Its rules follow the program, so that what is proved of a part
is used by name where the part is used.
-/
import NodeFencing.Proofs.Site.Footprint
import NodeFencing.Proofs.Site.Guardian

namespace NodeFencing

/-! ### Objects under their own keys -/

namespace Cluster

/-- Every object is stored under its own key. -/
structure Keyed (k : Cluster) : Prop where
  node : ∀ name n, k.node? name = some n → n.anyName = name
  request : ∀ inNamespace name q, k.remediation? inNamespace name = some q →
    q.key = (inNamespace, name)

variable {k : Cluster}

theorem Sound.keyed (h : Sound k) : k.Keyed :=
  ⟨fun _ _ hn => h.anyName_eq hn, fun _ _ _ hq => h.key_eq hq⟩

/-- Whatever is called, objects stay under their own keys. -/
theorem Keyed.answer (h : k.Keyed) (w : Surroundings) (c : Call) (fate : Fate) :
    (k.answer w c fate).2.Keyed where
  node name n hn := by
    rcases k.node?_answer w c fate name with heq | ⟨sent, _, -, hname, -, -, heq⟩
    · exact h.node name n (heq.symm.trans hn)
    · obtain rfl := Option.some.inj (heq.symm.trans hn)
      exact hname
  request inNamespace name q hq := by
    rcases k.remediation?_answer w c fate inNamespace name with
      heq | ⟨sent, stored, -, hkey, -, -, heq⟩ | ⟨_, stored, -, hstored, heq⟩
    · exact h.request inNamespace name q (heq.symm.trans hq)
    · rw [heq] at hq
      split at hq
      · cases hq
      · obtain rfl := Option.some.inj hq
        exact hkey
    · obtain rfl := Option.some.inj (heq.symm.trans hq)
      exact h.request inNamespace name stored hstored

/-- An edit of a stored node is accepted. -/
theorem Keyed.replaceNode_eq (h : k.Keyed) {name : String} {n sent : Node}
    (hn : k.node? name = some n) (hsent : n.Edit sent) :
    k.replaceNode sent = (.ok (sent.stamped (k.version + 1)),
      { k.bump with nodes := k.nodes.insert name (sent.stamped (k.version + 1)) }) := by
  have hname : sent.anyName = name := hsent.anyName_eq.trans (h.node name n hn)
  have hcases := k.replaceNode_cases sent
  rw [hname] at hcases
  rcases hcases with ⟨hnone, -⟩ | ⟨stored, hstored, ⟨hne, -⟩ | ⟨-, heq⟩⟩
  · cases hnone.symm.trans hn
  · obtain rfl := Option.some.inj (hn.symm.trans hstored)
    rw [hsent.metadata_eq] at hne
    exact (hne rfl).elim
  · exact heq

/-- An edit of a stored request is accepted. -/
theorem Keyed.replaceRemediation_eq (h : k.Keyed) {inNamespace name : String}
    {q sent : Remediation} (hq : k.remediation? inNamespace name = some q) (hsent : q.Edit sent) :
    k.replaceRemediation sent = (.ok (sent.stamped (k.version + 1)),
      { k.bump with
        remediations :=
          if isReleased (sent.stamped (k.version + 1)) then
            k.remediations.erase (inNamespace, name)
          else k.remediations.insert (inNamespace, name) (sent.stamped (k.version + 1)) }) := by
  have hkey : sent.key = (inNamespace, name) :=
    hsent.key_eq.trans (h.request inNamespace name q hq)
  have hcases := k.replaceRemediation_cases sent
  rw [hkey] at hcases
  rcases hcases with ⟨hnone, -⟩ | ⟨stored, hstored, ⟨hne, -⟩ | ⟨-, heq⟩⟩
  · cases hnone.symm.trans hq
  · obtain rfl := Option.some.inj (Eq.trans (Eq.symm hq) hstored)
    exact (hne hsent.version_eq.symm).elim
  · obtain rfl := Option.some.inj (Eq.trans (Eq.symm hq) hstored)
    rw [hsent.successor_eq] at heq
    exact heq

/-- The nodes that are listed are those that are stored. -/
theorem contains_nodeNames (k : Cluster) (name : String) :
    k.nodeNames.contains name = (k.node? name).isSome := by
  rw [Bool.eq_iff_iff, List.contains_iff_mem, nodeNames, List.mem_mergeSort,
    Ordered.mem_keys_iff]
  rfl

end Cluster

/-- A property of the cluster that a call keeps, however it fares. -/
def Call.Keeps (I : Cluster → Prop) (c : Call) : Prop :=
  ∀ k w fate, I k → I (k.answer w c fate).2

/-! ### Courses -/

/-- How the calls of a pass that is alone fare. -/
structure Course where
  /-- What answers a call beside the cluster. -/
  around : Nat → Surroundings
  /-- Whether a call fails. -/
  fault : Nat → Cluster → Call → Option Error
  honest : ∀ i k c e, fault i k c = some e → e.isNotFound = true → c.Misses k

/-- A cluster, and how many calls were made of it. -/
structure Attended where
  cluster : Cluster
  calls : Nat

namespace Course

/-- How a call fares. -/
def fate (f : Course) (c : Call) (a : Attended) : Fate :=
  match f.fault a.calls a.cluster c with
  | none => .served
  | some e => .failed e

/-- The answer to a call on a course. -/
def serve (f : Course) (c : Call) (a : Attended) : c.Answer × Attended :=
  let r := a.cluster.answer (f.around a.calls) c (f.fate c a)
  (r.1, ⟨r.2, a.calls + 1⟩)

/-- No call fails. -/
def IsCalm (f : Course) : Prop := ∀ i k c, f.fault i k c = none

/-- The calm course on which the clock stands still and the agent reboots. -/
def calm : Course where
  around _ := ⟨default, .ok ⟨Output.rebooted, ""⟩⟩
  fault _ _ _ := none
  honest _ _ _ _ h := by cases h

/-- The course on which one call fails. -/
def failing (i : Nat) : Course where
  around := calm.around
  fault n _ _ := if n = i then some Cluster.conflict else none
  honest n k c e h he := by
    split at h
    · obtain rfl := Option.some.inj h
      rw [Cluster.isNotFound_conflict] at he
      cases he
    · cases h

theorem isCalm_calm : calm.IsCalm := fun _ _ _ => rfl

/-- What follows on a call that fails does not matter on a calm course. -/
theorem IsCalm.never {f : Course} {P : Error → Prop} (h : f.IsCalm) (e : Error)
    (hfails : ¬ f.IsCalm) : P e :=
  (hfails h).elim

/-- What a program comes to, whatever was called before. -/
def Yields {α : Type} (f : Course) (p : Program α) (k : Cluster)
    (Q : List Exchange → α → Cluster → Prop) : Prop :=
  ∀ i, Q (p.conversation f.serve ⟨k, i⟩) (p.run f.serve ⟨k, i⟩).1 (p.run f.serve ⟨k, i⟩).2.cluster

variable {f : Course} {k : Cluster} {α β : Type} {p : Program α}
  {Q Q' : List Exchange → α → Cluster → Prop}

/-- A call is served, or fails without effect. -/
theorem serve_cases (f : Course) (c : Call) (k : Cluster) (i : Nat) :
    (∃ w, f.serve c ⟨k, i⟩ = ((k.serve w c).1, ⟨(k.serve w c).2, i + 1⟩)) ∨
      ∃ e a, c.failed? e = some a ∧ ¬ f.IsCalm ∧ (e.isNotFound = true → c.Misses k) ∧
        f.serve c ⟨k, i⟩ = (a, ⟨k, i + 1⟩) := by
  cases hfault : f.fault i k c with
  | none => exact .inl ⟨f.around i, by simp [serve, fate, hfault, Cluster.answer]⟩
  | some e =>
      cases hfailed : c.failed? e with
      | none => exact .inl ⟨f.around i, by simp [serve, fate, hfault, Cluster.answer, hfailed]⟩
      | some a =>
          refine .inr ⟨e, a, hfailed, ?_, f.honest i k c e hfault, ?_⟩
          · intro hcalm
            rw [hcalm i k c] at hfault
            cases hfault
          · simp [serve, fate, hfault, Cluster.answer, hfailed]

namespace Yields

theorem mono (h : f.Yields p k Q) (hQ : ∀ log a k', Q log a k' → Q' log a k') :
    f.Yields p k Q' :=
  fun i => hQ _ _ _ (h i)

theorem done {a : α} (h : Q [] a k) : f.Yields (.done a) k Q := fun _ => h

/-- A call that may fail. -/
theorem call {c : Call} {next : c.Answer → Program α}
    (hserved : ∀ w, f.Yields (next (k.serve w c).1) (k.serve w c).2 fun log =>
      Q (⟨c, (k.serve w c).1⟩ :: log))
    (hfailed : ∀ e a, c.failed? e = some a → ¬ f.IsCalm → (e.isNotFound = true → c.Misses k) →
      f.Yields (next a) k fun log => Q (⟨c, a⟩ :: log)) :
    f.Yields (.call c next) k Q := by
  intro i
  rcases f.serve_cases c k i with ⟨w, heq⟩ | ⟨e, a, ha, hcalm, he, heq⟩
  · simp only [Program.conversation, Program.run, heq]
    exact hserved w (i + 1)
  · simp only [Program.conversation, Program.run, heq]
    exact hfailed e a ha hcalm he (i + 1)

theorem getRemediation {inNamespace name : String}
    {next : Except Error (Option Remediation) → Program α}
    (hserved : f.Yields (next (.ok (k.remediation? inNamespace name))) k fun log =>
      Q (⟨.getRemediation inNamespace name, .ok (k.remediation? inNamespace name)⟩ :: log))
    (hfailed : ∀ e, ¬ f.IsCalm → f.Yields (next (.error e)) k fun log =>
      Q (⟨.getRemediation inNamespace name, .error e⟩ :: log)) :
    f.Yields (.call (.getRemediation inNamespace name) next) k Q := by
  refine .call (fun _ => hserved) ?_
  intro e a ha hcalm _
  obtain rfl := Option.some.inj ha
  exact hfailed e hcalm

theorem listNodeNames {next : Except Error (List String) → Program α}
    (hserved : f.Yields (next (.ok k.nodeNames)) k fun log =>
      Q (⟨.listNodeNames, .ok k.nodeNames⟩ :: log))
    (hfailed : ∀ e, ¬ f.IsCalm → f.Yields (next (.error e)) k fun log =>
      Q (⟨.listNodeNames, .error e⟩ :: log)) :
    f.Yields (.call .listNodeNames next) k Q := by
  refine .call (fun _ => hserved) ?_
  intro e a ha hcalm _
  obtain rfl := Option.some.inj ha
  exact hfailed e hcalm

theorem getNode {name : String} {next : Except Error (Option Node) → Program α}
    (hserved : f.Yields (next (.ok (k.node? name))) k fun log =>
      Q (⟨.getNode name, .ok (k.node? name)⟩ :: log))
    (hfailed : ∀ e, ¬ f.IsCalm → f.Yields (next (.error e)) k fun log =>
      Q (⟨.getNode name, .error e⟩ :: log)) :
    f.Yields (.call (.getNode name) next) k Q := by
  refine .call (fun _ => hserved) ?_
  intro e a ha hcalm _
  obtain rfl := Option.some.inj ha
  exact hfailed e hcalm

/-- An edit of a stored node is put in its place; or the call fails, and not because the node is
not there. -/
theorem replaceNode (hk : k.Keyed) {name : String} {n sent : Node}
    {next : Except Error Node → Program α} (hn : k.node? name = some n) (hsent : n.Edit sent)
    (hserved : ∀ m, f.Yields (next (.ok m)) (k.replaceNode sent).2 fun log =>
      Q (⟨.replaceNode sent, .ok m⟩ :: log))
    (hfailed : ∀ e, ¬ f.IsCalm → e.isNotFound = false → f.Yields (next (.error e)) k fun log =>
      Q (⟨.replaceNode sent, .error e⟩ :: log)) :
    f.Yields (.call (.replaceNode sent) next) k Q := by
  refine .call (fun w => ?_) ?_
  · show f.Yields (next (k.replaceNode sent).1) (k.replaceNode sent).2 fun log =>
      Q (⟨.replaceNode sent, (k.replaceNode sent).1⟩ :: log)
    have hok := congrArg Prod.fst (hk.replaceNode_eq hn hsent)
    rw [hok]
    exact hserved _
  · intro e a ha hcalm he
    obtain rfl := Option.some.inj ha
    refine hfailed e hcalm (eq_false_of_ne_true fun hnotFound => ?_)
    have hnone : k.node? sent.anyName = none := he hnotFound
    rw [hsent.anyName_eq, hk.node name n hn, hn] at hnone
    cases hnone

/-- The same of requests. -/
theorem replaceRemediation (hk : k.Keyed) {inNamespace name : String} {q sent : Remediation}
    {next : Except Error Remediation → Program α}
    (hq : k.remediation? inNamespace name = some q) (hsent : q.Edit sent)
    (hserved : ∀ m, f.Yields (next (.ok m)) (k.replaceRemediation sent).2 fun log =>
      Q (⟨.replaceRemediation sent, .ok m⟩ :: log))
    (hfailed : ∀ e, ¬ f.IsCalm → e.isNotFound = false → f.Yields (next (.error e)) k fun log =>
      Q (⟨.replaceRemediation sent, .error e⟩ :: log)) :
    f.Yields (.call (.replaceRemediation sent) next) k Q := by
  refine .call (fun w => ?_) ?_
  · show f.Yields (next (k.replaceRemediation sent).1) (k.replaceRemediation sent).2 fun log =>
      Q (⟨.replaceRemediation sent, (k.replaceRemediation sent).1⟩ :: log)
    have hok := congrArg Prod.fst (hk.replaceRemediation_eq hq hsent)
    rw [hok]
    exact hserved _
  · intro e a ha hcalm he
    obtain rfl := Option.some.inj ha
    refine hfailed e hcalm (eq_false_of_ne_true fun hnotFound => ?_)
    have hnone : k.remediations.get? sent.key = none := he hnotFound
    rw [hsent.key_eq, hk.request inNamespace name q hq] at hnone
    cases hnone.symm.trans hq

theorem publishEvent {q : Remediation} {e : Event} {next : Unit → Program α}
    (hserved : f.Yields (next ()) k fun log => Q (⟨.publishEvent q e, ()⟩ :: log)) :
    f.Yields (.call (.publishEvent q e) next) k Q := by
  refine .call (fun _ => hserved) ?_
  intro _ _ ha
  cases ha

theorem readClock {next : Instant → Program α}
    (hserved : ∀ time, f.Yields (next time) k fun log => Q (⟨.readClock, time⟩ :: log)) :
    f.Yields (.call .readClock next) k Q := by
  refine .call (fun w => hserved w.now) ?_
  intro _ _ ha
  cases ha

/-- One program after another. -/
theorem bind {g : α → Program β} {R : List Exchange → β → Cluster → Prop}
    (h : f.Yields p k fun log a k' => f.Yields (g a) k' fun more => R (log ++ more)) :
    f.Yields (p.bind g) k R := by
  intro i
  rw [Program.run_bind, Program.conversation_bind]
  exact h i (p.run f.serve ⟨k, i⟩).2.calls

/-- What every call keeps, the program keeps. -/
theorem invariant {I : Cluster → Prop} {log : List Exchange}
    (h : p.Every (fun _ c _ => c.Keeps I) log) (hk : I k) : f.Yields p k fun _ _ k' => I k' := by
  induction p generalizing log k with
  | done a => exact .done hk
  | call c next ih =>
      refine .call (fun w => ih _ (h.2 _) (h.1 k w .served hk)) ?_
      intro _ a _ _ _
      exact ih a (h.2 a) hk

end Yields

end Course

/-! ### A pass -/

/-- The report of a pass that ended with the life of its request. -/
def Report.handled (o : Outcome) : Report :=
  ⟨[.fetching, .nodeValidating, .lifecycleHandling, .done], o⟩

/-- What a pass came to. -/
structure Solo where
  said : List Exchange
  result : Except Error Report
  cluster : Cluster

namespace Job

/-- A pass alone with a cluster. -/
def alone (j : Job) (f : Course) (k : Cluster) : Solo :=
  let r := j.program.run f.serve ⟨k, 0⟩
  ⟨j.program.conversation f.serve ⟨k, 0⟩, r.1, r.2.cluster⟩

/-- The cluster after so many passes, one after the other. -/
def after (j : Job) (fs : Nat → Course) (k : Cluster) : Nat → Cluster
  | 0 => k
  | t + 1 => (j.alone (fs t) (j.after fs k t)).cluster

/-- What a pass comes to when it handled the life of its request. -/
def Handled (j : Job) (f : Course) (q : Remediation)
    (Q : List Exchange → Except Error Report → Cluster → Prop) (log : List Exchange) :
    Except Error LifecycleOutcome → Cluster → Prop
  | .error e, k => Q log (.error e) k
  | .ok .finalizerAdded, k => Q log (.ok (.handled .finalizerAdded)) k
  | .ok .deletionComplete, k => Q log (.ok (.handled .deletionComplete)) k
  | .ok .proceed, k =>
    f.Yields ((Pass.tainting j.settings j.inNamespace j.name q .tainting).map
      Pass.Ending.report) k fun more => Q (log ++ more)

variable {j : Job} {f : Course} {k : Cluster} {q : Remediation}
  {Q : List Exchange → Except Error Report → Cluster → Prop}

/-- What a pass says and hears alone is a conversation of it. -/
theorem reaches_alone (j : Job) (f : Course) (k : Cluster) :
    j.program.Reaches (j.alone f k).said (.done (j.alone f k).result) :=
  Program.reaches_conversation f.serve j.program ⟨k, 0⟩

theorem alone_of_yields (h : f.Yields j.program k Q) :
    Q (j.alone f k).said (j.alone f k).result (j.alone f k).cluster :=
  h 0

theorem yields_lifecycleHandling (h : f.Yields (Lifecycle.handle q) k (j.Handled f q Q)) :
    f.Yields ((Pass.lifecycleHandling j.settings j.inNamespace j.name q
      ⟨[.fetching, .nodeValidating], .lifecycleHandling⟩).map Pass.Ending.report) k Q := by
  unfold Pass.lifecycleHandling Program.map
  rw [Program.bind_assoc]
  refine .bind (h.mono ?_)
  intro log a k' ha
  have hdone : ∀ {result}, Q log result k' →
      f.Yields (.done result) k' fun more => Q (log ++ more) := fun hresult =>
    .done (by rwa [List.append_nil])
  match a with
  | .error e => exact hdone ha
  | .ok .finalizerAdded => exact hdone ha
  | .ok .deletionComplete => exact hdone ha
  | .ok .proceed => exact ha

/-- A live request leaves the pass to its node. -/
theorem yields_handle_of_proceed (hr : q.lifecycleAction = .proceed)
    (h : f.Yields ((Pass.tainting j.settings j.inNamespace j.name q .tainting).map
      Pass.Ending.report) k Q) :
    f.Yields (Lifecycle.handle q) k (j.Handled f q Q) := by
  unfold Lifecycle.handle
  simp only [hr]
  exact .done h

/-- The request that a pass was answered is the one that is stored. -/
theorem remediation?_of_mem {x : Option Remediation}
    (h : ⟨.getRemediation j.inNamespace j.name, .ok x⟩ ∈ (j.alone f k).said) :
    k.remediation? j.inNamespace j.name = x := by
  have hfirst : ⟨.getRemediation j.inNamespace j.name,
      (f.serve (.getRemediation j.inNamespace j.name) ⟨k, 0⟩).1⟩ ∈ (j.alone f k).said :=
    List.mem_cons_self
  have hsame := Pass.request_unique (j.reaches_alone f k) hfirst h
  rcases f.serve_cases (.getRemediation j.inNamespace j.name) k 0 with
    ⟨w, heq⟩ | ⟨e, a, ha, -, -, heq⟩
  · rw [heq] at hsame
    exact Except.ok.inj hsame
  · obtain rfl := Option.some.inj ha
    rw [heq] at hsame
    cases hsame

/-- A pass over a request that is stored, and has a node or is to be cleaned up after, comes to the
life of the request; or a call fails before that. -/
theorem yields_program (hq : k.remediation? j.inNamespace j.name = some q)
    (hopen : (k.node? j.name).isSome = true ∨ q.lifecycleAction = .cleanup)
    (hfail : ∀ log e, ¬ f.IsCalm → Q log (.error e) k)
    (h : f.Yields (Lifecycle.handle q) k (j.Handled f q fun log =>
      Q (⟨.getRemediation j.inNamespace j.name, .ok (some q)⟩ ::
        ⟨.listNodeNames, .ok k.nodeNames⟩ :: log))) :
    f.Yields j.program k Q := by
  have hnode : (k.nodeNames.contains j.name || (q.isDeleted && q.hasFinalizer)) = true := by
    rw [Cluster.contains_nodeNames, Bool.or_eq_true]
    refine hopen.imp_right fun hcleanup => ?_
    obtain ⟨hf, hd⟩ := Remediation.lifecycleAction_eq_cleanup_iff.mp hcleanup
    rw [hd, hf]
    rfl
  refine .getRemediation ?_ fun e hcalm => .done (hfail _ e hcalm)
  rw [hq]
  refine .listNodeNames ?_ fun e hcalm => .done (hfail _ e hcalm)
  simp only [hnode, if_true]
  exact yields_lifecycleHandling h

end Job

end NodeFencing
