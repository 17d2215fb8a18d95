/-
When a pass runs the agent.

`Gate` names what has to have been heard for the agent to run: a live request with the
finalizer, its node among the names and seen without the remediation taint, the write of
that node with the taint, a command, and a pod.  `execution_gate` says that the agent runs
if and only if all of it was heard, whoever answers the calls, and that it runs once.

One way is `heard` at the call that runs the agent.  The other way starts from the answer
about the pods: the pass is at the milestone before it, and goes on with the agent.

That alone would also hold of a pass that gives up before it asks for anything, so
`AsksOn` says that a pass asks for all of it as far as the answers let it.  The request,
the names and the node each are asked for at a place of their own, which is why an answer
that was heard is the one that the pass went on with.
-/
import NodeFencing.Proofs.Pass.Calls

namespace NodeFencing

/-- The node has the remediation taint after it was added. -/
theorem Node.isTainted_addTaint (n : Node) (time : Instant) :
    (n.addTaint time).isTainted = true := by
  simp [isTainted_eq_any, addTaint, Taint.isRemediation, Taint.agrees, Taint.remediation]

namespace Pass

variable (s : Settings) (inNamespace name : String)

/-- All that lets the agent run, but for a pod to run it in. -/
def Primed (log : List Exchange) (command : List String) : Prop :=
  ∃ r names n time m,
    ⟨.getRemediation inNamespace name, .ok (some r)⟩ ∈ log ∧
    r.hasFinalizer = true ∧ r.isDeleted = false ∧
    ⟨.listNodeNames, .ok names⟩ ∈ log ∧ name ∈ names ∧
    ⟨.getNode name, .ok (some n)⟩ ∈ log ∧ n.isTainted = false ∧
    ⟨.replaceNode (n.addTaint time), .ok m⟩ ∈ log ∧
    Command.ofSpec r.spec name = .ok command

/-- All that lets the agent run a command in a pod: the first one that was listed. -/
def Gate (log : List Exchange) (pod : Pod) (command : List String) : Prop :=
  Primed inNamespace name log command ∧
    ∃ pods, ⟨.listPods s.agentPodNamespace s.agentPodSelector, .ok (pod :: pods)⟩ ∈ log

variable {s : Settings} {inNamespace name : String} {log : List Exchange} {r : Remediation}

theorem Gate.mono {more : List Exchange} {pod : Pod} {command : List String}
    (h : Gate s inNamespace name log pod command) (hsub : log ⊆ more) :
    Gate s inNamespace name more pod command := by
  obtain ⟨⟨r, names, n, time, m, hr, hf, hd, hl, hn, hg, ht, hw, hc⟩, pods, hp⟩ := h
  exact ⟨⟨r, names, n, time, m, hsub hr, hf, hd, hsub hl, hn, hsub hg, ht, hsub hw, hc⟩,
    pods, hsub hp⟩

/-- Before the agent runs the gate is open. -/
theorem Armed.gate {pod : Pod} {command : List String}
    (h : Armed s inNamespace name log r pod command) : Gate s inNamespace name log pod command := by
  obtain @⟨_, r, pod, pods, command, @⟨_, _, _, _, @⟨_, _, n, m, time, ⟨hopen⟩, hr, hn⟩⟩, hc⟩ := h
  obtain ⟨hf, hd⟩ := Remediation.lifecycleAction_eq_proceed_iff.mp hr
  simp only [hd, Bool.false_and, Bool.or_false, List.contains_iff_mem] at hopen
  refine ⟨⟨r, _, n, time, m, ?_, hf, hd, ?_, hopen, ?_, hn, ?_, hc⟩, pods, ?_⟩ <;> simp

/-- Before the agent runs it did not run. -/
theorem Armed.isExecution_eq_false {pod : Pod} {command : List String}
    (h : Armed s inNamespace name log r pod command) :
    ∀ x ∈ log, x.1.isExecution = false := by
  obtain ⟨⟨⟨⟨hopen⟩, hr, hn⟩⟩, hc⟩ := h
  simp [Call.isExecution]

/-! ### Conversations with a whole pass -/

/-- The place in a pass of what comes up at one place only. -/
def place? : Call → Option Nat
  | .getRemediation _ _ => some 0
  | .listNodeNames => some 1
  | .getNode _ => some 2
  | _ => none

/-- What comes up at one place only is found there. -/
theorem getElem?_of_mem {q : Program (Except Error Report)} {c : Call} {a : c.Answer} {k : Nat}
    (h : (pass s inNamespace name).Reaches log q) (hx : ⟨c, a⟩ ∈ log) (hk : place? c = some k) :
    log[k]? = some ⟨c, a⟩ := by
  obtain ⟨before, after, rfl⟩ := List.append_of_mem hx
  obtain ⟨next, hcall, -⟩ := h.at_exchange
  have hheard := heard hcall
  suffices before.length = k by simp [← this]
  cases c with
  | getRemediation ns n =>
      obtain ⟨rfl, -, -⟩ := hheard
      simpa [place?] using hk
  | listNodeNames =>
      obtain ⟨r, rfl⟩ := hheard
      simpa [place?] using hk
  | getNode n =>
      obtain ⟨r, ⟨-⟩, -⟩ := hheard
      simpa [place?] using hk
  | _ => simp [place?] at hk

/-- The request is asked for once. -/
theorem request_unique {q : Program (Except Error Report)} {a b : Except Error (Option Remediation)}
    (h : (pass s inNamespace name).Reaches log q)
    (ha : ⟨.getRemediation inNamespace name, a⟩ ∈ log)
    (hb : ⟨.getRemediation inNamespace name, b⟩ ∈ log) : a = b := by
  have := (getElem?_of_mem h ha rfl).symm.trans (getElem?_of_mem h hb rfl)
  simpa using this

/-- In a list where nothing before an element with a property has it, one element has it. -/
theorem countP_le_one {α : Type} {p : α → Bool} (l : List α)
    (h : ∀ before x after, l = before ++ x :: after → p x = true → ∀ y ∈ before, p y = false) :
    l.countP p ≤ 1 := by
  induction l with
  | nil => simp
  | cons x l ih =>
      by_cases hx : p x = true
      · have hrest : l.countP p = 0 := by
          rw [List.countP_eq_zero]
          intro y hy hpy
          obtain ⟨before, after, rfl⟩ := List.append_of_mem hy
          have := h (x :: before) y after rfl hpy x (by simp)
          rw [hx] at this
          cases this
        simp [List.countP_cons_of_pos hx, hrest]
      · rw [List.countP_cons_of_neg hx]
        apply ih
        intro before y after hl hy z hz
        exact h (x :: before) y after (by rw [hl]; rfl) hy z (List.mem_cons_of_mem x hz)

/-- The agent runs at most once in a pass. -/
theorem countP_isExecution_le_one {q : Program (Except Error Report)}
    (h : (pass s inNamespace name).Reaches log q) :
    log.countP (fun x => x.1.isExecution) ≤ 1 := by
  apply countP_le_one log
  intro before x after hlog hx y hy
  rw [hlog] at h
  obtain ⟨next, hcall, -⟩ := h.at_exchange
  obtain ⟨c, a⟩ := x
  cases c with
  | execute pod command =>
      obtain ⟨r, harmed⟩ := heard hcall
      exact harmed.isExecution_eq_false y hy
  | _ => simp [Call.isExecution] at hx

/-- When the agent runs, all that it takes was heard before. -/
theorem gate_of_execution {q : Program (Except Error Report)} {pod : Pod} {command : List String}
    {a : Except Error Output} {before after : List Exchange}
    (h : (pass s inNamespace name).Reaches (before ++ ⟨.execute pod command, a⟩ :: after) q) :
    Gate s inNamespace name before pod command := by
  obtain ⟨next, hcall, -⟩ := h.at_exchange
  obtain ⟨r, harmed⟩ := heard hcall
  exact harmed.gate

/-- When pods were found, the agent runs in the first one, with the command of the request. -/
theorem execution_of_pods {a : Except Error Report} {ns selector : String} {pod : Pod}
    {pods : List Pod} (h : (pass s inNamespace name).Reaches log (.done a))
    (hr : ⟨.getRemediation inNamespace name, .ok (some r)⟩ ∈ log)
    (hp : ⟨.listPods ns selector, .ok (pod :: pods)⟩ ∈ log) :
    ∃ command answer, Command.ofSpec r.spec name = .ok command ∧
      ⟨.execute pod command, answer⟩ ∈ log := by
  obtain ⟨before, after, rfl⟩ := List.append_of_mem hp
  obtain ⟨next, hcall, hafter⟩ := h.at_exchange
  obtain ⟨r', command, hann, hc, -, -, hnext⟩ := heard hcall
  obtain ⟨next', heq⟩ := hnext pod pods
  have hmem : ⟨.getRemediation inNamespace name, .ok (some r')⟩ ∈
      before ++ ⟨.listPods ns selector, .ok (pod :: pods)⟩ :: after :=
    List.mem_append_left _ hann.mem
  have hsame := request_unique h hr hmem
  obtain rfl : r = r' := by simpa using hsame
  rw [heq] at hafter
  obtain ⟨answer, rest, rfl, -⟩ := hafter.exists_answer
  exact ⟨command, answer, hc, by simp⟩

/-- What follows on the taint, if there is a command, gets to the pods. -/
theorem pods_of_tainted {a : Except Error Report} {command : List String}
    (hc : Command.ofSpec r.spec name = .ok command)
    (h : ((tainted s inNamespace name r .tainting).map Ending.report).Reaches log (.done a)) :
    ∃ answer, ⟨.listPods s.agentPodNamespace s.agentPodSelector, answer⟩ ∈ log := by
  -- the event, the clock and the status come first
  obtain ⟨_, _, rfl, h₁⟩ := Program.Reaches.exists_answer h
  obtain ⟨_, _, rfl, h₂⟩ := Program.Reaches.exists_answer h₁
  obtain ⟨_, rest, rfl, h₃⟩ := Program.Reaches.exists_answer h₂
  have hbuild : ((parameterBuilding s inNamespace name r
      (Tracker.tainting.push .parameterBuilding)).map Ending.report).Reaches rest (.done a) := h₃
  unfold parameterBuilding at hbuild
  rw [hc] at hbuild
  obtain ⟨answer, _, rfl, -⟩ := Program.Reaches.exists_answer hbuild
  exact ⟨answer, by simp⟩

/-- After the node was given the taint, and if there is a command, pods are looked for. -/
theorem pods_of_primed {a : Except Error Report} {command : List String}
    (h : (pass s inNamespace name).Reaches log (.done a))
    (hp : Primed inNamespace name log command) :
    ∃ answer, ⟨.listPods s.agentPodNamespace s.agentPodSelector, answer⟩ ∈ log := by
  obtain ⟨r, names, n, time, m, hr, -, -, -, -, -, -, hw, hc⟩ := hp
  obtain ⟨before, after, rfl⟩ := List.append_of_mem hw
  obtain ⟨next, hcall, hafter⟩ := h.at_exchange
  obtain ⟨hwrite, -⟩ := heard hcall
  rcases hwrite with ⟨before', r', n', hopen, -, rfl, hn⟩ |
    ⟨before', r', n', time', hopen, -, -, rfl, -, hnext⟩
  · -- a node that the taint was taken off is not one that it was put on
    have := Node.isTainted_of_removeTaint? hn
    rw [Node.isTainted_addTaint] at this
    cases this
  · have hmem : ⟨.getRemediation inNamespace name, .ok (some r')⟩ ∈ before' := by
      obtain ⟨-⟩ := hopen
      simp
    have hsame := request_unique h hr (List.mem_append_left _ (List.mem_append_left _ hmem))
    obtain rfl : r = r' := by simpa using hsame
    rw [hnext m] at hafter
    obtain ⟨answer, ha⟩ := pods_of_tainted hc hafter
    exact ⟨answer, by simp [ha]⟩

/-! ### How far a pass asks -/

variable (inNamespace name) in
/-- A pass asks for its request, for the names of the nodes, for the node of a live request, and
puts the taint on a node that has it not, each as soon as the answers before let it. -/
structure AsksOn (log : List Exchange) : Prop where
  request : ∃ a, ⟨.getRemediation inNamespace name, a⟩ ∈ log
  names : ∀ r, ⟨.getRemediation inNamespace name, .ok (some r)⟩ ∈ log →
    ∃ a, ⟨.listNodeNames, a⟩ ∈ log
  node : ∀ r names, ⟨.getRemediation inNamespace name, .ok (some r)⟩ ∈ log →
    r.hasFinalizer = true → r.isDeleted = false →
    ⟨.listNodeNames, .ok names⟩ ∈ log → name ∈ names →
    ∃ a, ⟨.getNode name, a⟩ ∈ log
  taint : ∀ r n, ⟨.getRemediation inNamespace name, .ok (some r)⟩ ∈ log →
    r.hasFinalizer = true → r.isDeleted = false →
    ⟨.getNode name, .ok (some n)⟩ ∈ log → n.isTainted = false →
    ∃ time a, ⟨.replaceNode (n.addTaint time), a⟩ ∈ log

/-- When the request was read, the pass goes on to the nodes. -/
theorem nodeValidating_of_request {a : Except Error Report}
    (h : (pass s inNamespace name).Reaches log (.done a))
    (hr : ⟨.getRemediation inNamespace name, .ok (some r)⟩ ∈ log) :
    ∃ rest, log = ⟨.getRemediation inNamespace name, .ok (some r)⟩ :: rest ∧
      ((nodeValidating s inNamespace name r ⟨[.fetching], .nodeValidating⟩).map
        Ending.report).Reaches rest (.done a) := by
  have hplace := getElem?_of_mem h hr rfl
  obtain ⟨answer, rest, rfl, hrest⟩ := Program.Reaches.exists_answer h
  obtain rfl : answer = .ok (some r) := by simpa using hplace
  exact ⟨rest, rfl, hrest⟩

/-- When the node of a live request has a name, the pass goes on to the taint. -/
theorem tainting_of_names {a : Except Error Report} {names : List String}
    (h : (pass s inNamespace name).Reaches log (.done a))
    (hr : ⟨.getRemediation inNamespace name, .ok (some r)⟩ ∈ log)
    (hlive : r.lifecycleAction = .proceed)
    (hl : ⟨.listNodeNames, .ok names⟩ ∈ log) (hname : name ∈ names) :
    ∃ rest, log = ⟨.getRemediation inNamespace name, .ok (some r)⟩ ::
        ⟨.listNodeNames, .ok names⟩ :: rest ∧
      ((tainting s inNamespace name r .tainting).map Ending.report).Reaches rest (.done a) := by
  have hplace := getElem?_of_mem h hl rfl
  obtain ⟨_, rfl, hvalidate⟩ := nodeValidating_of_request h hr
  obtain ⟨answer, rest, rfl, hrest⟩ := Program.Reaches.exists_answer hvalidate
  obtain rfl : answer = .ok names := by simpa using hplace
  refine ⟨rest, rfl, ?_⟩
  have hopen : (names.contains name || (r.isDeleted && r.hasFinalizer)) = true := by
    simp [hname]
  simp only [hopen, if_true] at hrest
  have hhandle : ((lifecycleHandling s inNamespace name r
      ⟨[.fetching, .nodeValidating], .lifecycleHandling⟩).map Ending.report).Reaches
        rest (.done a) := hrest
  unfold lifecycleHandling Lifecycle.handle at hhandle
  rw [hlive] at hhandle
  exact hhandle

/-- When the node was seen without the taint, the taint is put on it. -/
theorem replaceNode_of_tainting {a : Except Error Report} {n : Node}
    (h : ((tainting s inNamespace name r .tainting).map Ending.report).Reaches log (.done a))
    (hg : log[0]? = some ⟨.getNode name, .ok (some n)⟩) (hn : n.isTainted = false) :
    ∃ time a, ⟨.replaceNode (n.addTaint time), a⟩ ∈ log := by
  obtain ⟨answer, _, rfl, h₁⟩ := Program.Reaches.exists_answer h
  obtain rfl : answer = .ok (some n) := by simpa using hg
  simp only [hn, Node.applyTaint?_of_not_isTainted hn, Bool.false_eq_true, if_false] at h₁
  obtain ⟨time, _, rfl, h₂⟩ := Program.Reaches.exists_answer h₁
  obtain ⟨put, _, rfl, -⟩ := Program.Reaches.exists_answer h₂
  exact ⟨time, put, by simp⟩

/-- A node that is asked for was named, if its request is live. -/
theorem names_of_node {q : Program (Except Error Report)} {a : Except Error (Option Node)}
    (h : (pass s inNamespace name).Reaches log q)
    (hr : ⟨.getRemediation inNamespace name, .ok (some r)⟩ ∈ log) (hd : r.isDeleted = false)
    (hg : ⟨.getNode name, a⟩ ∈ log) :
    ∃ names, ⟨.listNodeNames, .ok names⟩ ∈ log ∧ name ∈ names := by
  obtain ⟨before, after, rfl⟩ := List.append_of_mem hg
  obtain ⟨next, hcall, -⟩ := h.at_exchange
  obtain ⟨r', ⟨hopen⟩, -⟩ := heard hcall
  have hplace := getElem?_of_mem h hr rfl
  obtain rfl : r' = r := by simpa using hplace
  simp only [hd, Bool.false_and, Bool.or_false, List.contains_iff_mem] at hopen
  exact ⟨_, by simp, hopen⟩

/-- A pass asks for what it needs as far as the answers let it. -/
theorem asksOn {a : Except Error Report} (h : (pass s inNamespace name).Reaches log (.done a)) :
    AsksOn inNamespace name log where
  request := by
    obtain ⟨answer, rest, rfl, -⟩ := Program.Reaches.exists_answer h
    exact ⟨answer, by simp⟩
  names r hr := by
    obtain ⟨rest, rfl, hvalidate⟩ := nodeValidating_of_request h hr
    obtain ⟨answer, _, rfl, -⟩ := Program.Reaches.exists_answer hvalidate
    exact ⟨answer, by simp⟩
  node r names hr hf hd hl hname := by
    have hlive := Remediation.lifecycleAction_eq_proceed_iff.mpr ⟨hf, hd⟩
    obtain ⟨rest, rfl, htaint⟩ := tainting_of_names h hr hlive hl hname
    obtain ⟨answer, _, rfl, -⟩ := Program.Reaches.exists_answer htaint
    exact ⟨answer, by simp⟩
  taint r n hr hf hd hg hn := by
    have hlive := Remediation.lifecycleAction_eq_proceed_iff.mpr ⟨hf, hd⟩
    have hplace := getElem?_of_mem h hg rfl
    obtain ⟨names, hl, hname⟩ := names_of_node h hr hd hg
    obtain ⟨rest, rfl, htaint⟩ := tainting_of_names h hr hlive hl hname
    obtain ⟨time, put, hput⟩ := replaceNode_of_tainting htaint (by simpa using hplace) hn
    exact ⟨time, put, by simp [hput]⟩

/--
**The gate of the agent.**  Whoever answers the calls of a pass, the agent runs at most
once; it runs a command in a pod if and only if the gate is open for them, all that opens
it being heard before; once the node has its taint and there is a command, the pods are
asked for, so that only they still decide; and everything before them is asked for too,
as far as the answers let it.
-/
theorem execution_gate {σ : Type} (serve : (c : Call) → σ → c.Answer × σ) (state : σ)
    (s : Settings) (inNamespace name : String) :
    let log := (pass s inNamespace name).conversation serve state
    log.countP (fun x => x.1.isExecution) ≤ 1 ∧
    (∀ pod command, (∃ a, ⟨.execute pod command, a⟩ ∈ log) ↔
      Gate s inNamespace name log pod command) ∧
    (∀ before after pod command a, log = before ++ ⟨.execute pod command, a⟩ :: after →
      Gate s inNamespace name before pod command) ∧
    ((∃ command, Primed inNamespace name log command) →
      ∃ a, ⟨.listPods s.agentPodNamespace s.agentPodSelector, a⟩ ∈ log) ∧
    AsksOn inNamespace name log := by
  intro log
  have hrun : (pass s inNamespace name).Reaches log _ :=
    Program.reaches_conversation serve (pass s inNamespace name) state
  refine ⟨countP_isExecution_le_one hrun, ?_, ?_, ?_, asksOn hrun⟩
  · intro pod command
    constructor
    · rintro ⟨a, ha⟩
      obtain ⟨before, after, hlog⟩ := List.append_of_mem ha
      have hgate : Gate s inNamespace name before pod command := gate_of_execution (hlog ▸ hrun)
      apply hgate.mono
      intro x hx
      rw [hlog]
      exact List.mem_append_left _ hx
    · rintro ⟨⟨r, names, n, time, m, hr, -, -, -, -, -, -, -, hc⟩, pods, hp⟩
      obtain ⟨command', a, hc', ha⟩ := execution_of_pods hrun hr hp
      rw [hc] at hc'
      cases hc'
      exact ⟨a, ha⟩
  · intro before after pod command a hlog
    exact gate_of_execution (hlog ▸ hrun)
  · rintro ⟨command, hp⟩
    exact pods_of_primed hrun hp

end Pass

end NodeFencing
