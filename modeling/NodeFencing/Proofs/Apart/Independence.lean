/-
Passes for different nodes are independent.

Two passes share a cluster, call by call.  A pass can tell of the cluster only what its outlook
shows, and no call of the other one shows in it.  So each of them has a dialogue of its own
from the cluster at the start, whoever is next, and the dialogue is decided by the outlook.

`Apart` says so of a site on which two passes are underway; a move of either keeps it.  Two
passes one after the other are no different: what the first one leaves looks to the second
one like the cluster at the start.  So whether they share the cluster or take turns, all
that comes of it is the same, up to versions and times.
-/
import NodeFencing.Proofs.Apart.Dialogue
import NodeFencing.Proofs.Tally

namespace NodeFencing

/-! ### What comes of two passes -/

/-- What comes of two passes. -/
structure Duo where
  /-- What the first one says and hears. -/
  firstSaid : List Exchange
  firstResult : Option (Except Error Report)
  secondSaid : List Exchange
  secondResult : Option (Except Error Report)
  /-- What both say and hear, in its order. -/
  trace : List Exchange
  /-- The cluster that is left. -/
  cluster : Cluster

/-- The command that an exchange runs, and in which pod. -/
def Exchange.command? : Exchange → Option (Pod × List String)
  | ⟨.execute pod command, _⟩ => some (pod, command)
  | _ => none

/-- Clusters that are the same up to versions and times. -/
structure Cluster.Alike (k k' : Cluster) : Prop where
  node : ∀ name, (k.node? name).map Node.undated = (k'.node? name).map Node.undated
  request : ∀ inNamespace name, (k.remediation? inNamespace name).map Remediation.undated =
    (k'.remediation? inNamespace name).map Remediation.undated
  names : k.nodeNames = k'.nodeNames
  pods : k.pods = k'.pods

namespace Duo

/-- The two passes in the other order. -/
def swap (d : Duo) : Duo :=
  ⟨d.secondSaid, d.secondResult, d.firstSaid, d.firstResult, d.trace, d.cluster⟩

/-- The same comes of two passes, up to versions and times: each has the same result, says and
hears the same and so runs the same commands in the same pods, the same cluster is left, and
the metrics count the same. -/
structure Same (d d' : Duo) : Prop where
  firstResult : d.firstResult = d'.firstResult
  secondResult : d.secondResult = d'.secondResult
  firstSaid : d.firstSaid.map Exchange.undated = d'.firstSaid.map Exchange.undated
  secondSaid : d.secondSaid.map Exchange.undated = d'.secondSaid.map Exchange.undated
  firstCommands : d.firstSaid.filterMap Exchange.command? = d'.firstSaid.filterMap Exchange.command?
  secondCommands :
    d.secondSaid.filterMap Exchange.command? = d'.secondSaid.filterMap Exchange.command?
  cluster : d.cluster.Alike d'.cluster
  tally : ∀ (h : Health) (time : Instant) (o : Observation),
    (h.told time d.trace).metrics.tally o = (h.told time d'.trace).metrics.tally o

end Duo

/-! ### Passes with a dialogue each -/

/-- Each of two passes came from a cluster to its end by a dialogue of its own, and nothing was
changed that is neither's. -/
structure Parted (i j : Job) (k : Cluster) (a b : Except Error Report) (d : Duo) : Prop where
  first : Dialogue i (i.outlook k) i.program d.firstSaid (i.outlook d.cluster) (.done a)
  second : Dialogue j (j.outlook k) j.program d.secondSaid (j.outlook d.cluster) (.done b)
  firstResult : d.firstResult = some a
  secondResult : d.secondResult = some b
  trace : d.trace.Perm (d.firstSaid ++ d.secondSaid)
  node : ∀ name, name ≠ i.name → name ≠ j.name → d.cluster.node? name = k.node? name
  request : ∀ inNamespace name, (inNamespace, name) ≠ i.key → (inNamespace, name) ≠ j.key →
    d.cluster.remediation? inNamespace name = k.remediation? inNamespace name

/-- Commands and pods are the same without versions and times. -/
theorem Exchange.command?_undated (x : Exchange) : command? (undated x) = command? x := by
  obtain ⟨c, a⟩ := x
  cases c <;> rfl

theorem Exchange.observes_undated (o : Observation) (x : Exchange) :
    observes o (undated x) = observes o x := by
  obtain ⟨c, a⟩ := x
  cases c <;> rfl

namespace Dialogue

variable {j : Job} {k k' : Cluster} {log log' : List Exchange}

theorem command?_eq (h : log.map Exchange.undated = log'.map Exchange.undated) :
    log.filterMap Exchange.command? = log'.filterMap Exchange.command? := by
  have hundated : ∀ log : List Exchange,
      log.filterMap Exchange.command? = (log.map Exchange.undated).filterMap Exchange.command? := by
    intro log
    rw [List.filterMap_map]
    exact congrArg (log.filterMap ·) (funext fun x => (x.command?_undated).symm)
  rw [hundated, h, ← hundated]

theorem countP_observes_eq (h : log.map Exchange.undated = log'.map Exchange.undated)
    (o : Observation) : log.countP (Exchange.observes o) = log'.countP (Exchange.observes o) := by
  have hundated : ∀ log : List Exchange,
      log.countP (Exchange.observes o) =
        (log.map Exchange.undated).countP (Exchange.observes o) := by
    intro log
    rw [List.countP_map]
    exact List.countP_congr fun x _ => by simp [Exchange.observes_undated]
  rw [hundated, h, ← hundated]

/-- A pass alone with a cluster on a calm course has a dialogue with it, and spares all else. -/
theorem yields {f : Course} (hf : f.IsCalm) {o : Outlook} {said : List Exchange}
    {p : Program (Except Error Report)} (h : Dialogue j o j.program said (j.outlook k) p)
    (hk : k.Keyed) :
    f.Yields p k fun log a k' =>
      Dialogue j (j.outlook k) p log (j.outlook k') (.done a) ∧ j.Spares k k' ∧ k'.Keyed := by
  induction p generalizing said k with
  | done a => exact .done ⟨.refl _ _, .refl j k, hk⟩
  | call c next ih =>
      refine .call (fun w => ?_) fun _ _ _ hfails => (hfails hf).elim
      refine (ih _ (h.snoc hk rfl w) (hk.answer w c .served)).mono ?_
      rintro log a k' ⟨hlog, hspares, hk'⟩
      exact ⟨.call hk rfl hlog, (Job.spares_serve hk h.fits w).trans hspares, hk'⟩

end Dialogue

namespace Parted

variable {i j : Job} {k : Cluster} {a b a' b' : Except Error Report} {d d' : Duo}

theorem swap (h : Parted i j k a b d) : Parted j i k b a d.swap where
  first := h.second
  second := h.first
  firstResult := h.secondResult
  secondResult := h.firstResult
  trace := h.trace.trans List.perm_append_comm
  node name hj hi := h.node name hi hj
  request inNamespace name hj hi := h.request inNamespace name hi hj

/-- A dialogue with the cluster as it was at the start leaves no choice. -/
theorem same {agent : Pod → List String → Except Error Output} (h : Parted i j k a b d)
    (h' : Parted i j k a' b' d') (hagent : Dialogue.Obeys agent d.trace)
    (hagent' : Dialogue.Obeys agent d'.trace) : d.Same d' := by
  have hobeys : ∀ {d : Duo} {a b}, Parted i j k a b d → Dialogue.Obeys agent d.trace →
      Dialogue.Obeys agent d.firstSaid ∧ Dialogue.Obeys agent d.secondSaid := by
    intro d a b h hagent
    refine ⟨fun x hx => ?_, fun x hx => ?_⟩
    · exact hagent x (h.trace.mem_iff.mpr (List.mem_append_left _ hx))
    · exact hagent x (h.trace.mem_iff.mpr (List.mem_append_right _ hx))
  obtain ⟨hfirst, hsecond⟩ := hobeys h hagent
  obtain ⟨hfirst', hsecond'⟩ := hobeys h' hagent'
  obtain ⟨ha, hsaid, hi⟩ := Dialogue.determined (Pass.alike_pass _ _ _) (.refl _ _) (.refl _ _) rfl
    h.first h'.first hfirst hfirst'
  obtain ⟨hb, hsaid', hj⟩ := Dialogue.determined (Pass.alike_pass _ _ _) (.refl _ _) (.refl _ _) rfl
    h.second h'.second hsecond hsecond'
  obtain ⟨hrequest, hnode, hnames, hpods⟩ := Outlook.undated_eq_iff.mp hi
  obtain ⟨hrequest', hnode', -, -⟩ := Outlook.undated_eq_iff.mp hj
  refine ⟨?_, ?_, hsaid, hsaid', Dialogue.command?_eq hsaid, Dialogue.command?_eq hsaid', ?_, ?_⟩
  · rw [h.firstResult, h'.firstResult, ha]
  · rw [h.secondResult, h'.secondResult, hb]
  · refine ⟨fun name => ?_, fun inNamespace name => ?_, hnames, hpods⟩
    · by_cases hni : name = i.name
      · rw [hni]
        exact hnode
      · by_cases hnj : name = j.name
        · rw [hnj]
          exact hnode'
        · rw [h.node name hni hnj, h'.node name hni hnj]
    · by_cases hki : (inNamespace, name) = i.key
      · obtain ⟨rfl, rfl⟩ := Prod.mk.inj hki
        exact hrequest
      · by_cases hkj : (inNamespace, name) = j.key
        · obtain ⟨rfl, rfl⟩ := Prod.mk.inj hkj
          exact hrequest'
        · rw [h.request _ _ hki hkj, h'.request _ _ hki hkj]
  · intro health time o
    rw [Health.tally_told, Health.tally_told, h.trace.countP_eq, h'.trace.countP_eq,
      List.countP_append, List.countP_append, Dialogue.countP_observes_eq hsaid,
      Dialogue.countP_observes_eq hsaid']

end Parted

/-! ### Two passes one after the other -/

namespace Job

variable {i j : Job} {k : Cluster} {f g : Course}

/-- What comes of two passes, each alone with the cluster, one after the other. -/
def inTurn (i j : Job) (f g : Course) (k : Cluster) : Duo :=
  let a := i.alone f k
  let b := j.alone g a.cluster
  ⟨a.said, some a.result, b.said, some b.result, a.said ++ b.said, b.cluster⟩

theorem parted_inTurn (hne : i.name ≠ j.name) (hk : k.Keyed) (hf : f.IsCalm) (hg : g.IsCalm) :
    ∃ a b, Parted i j k a b (i.inTurn j f g k) := by
  obtain ⟨hfirst, hspares, hk'⟩ :=
    alone_of_yields (Dialogue.yields hf (.refl (i.outlook k) i.program) hk)
  obtain ⟨hsecond, hspares', -⟩ := alone_of_yields
    (Dialogue.yields hg (.refl (j.outlook (i.alone f k).cluster) j.program) hk')
  rw [hspares.outlook_eq hne.symm] at hsecond
  rw [← hspares'.outlook_eq hne] at hfirst
  refine ⟨_, _, hfirst, hsecond, rfl, rfl, .refl _, ?_, ?_⟩
  · intro name hi hj
    exact (hspares'.node name hj).trans (hspares.node name hi)
  · intro inNamespace name hi hj
    exact (hspares'.request _ _ hj).trans (hspares.request _ _ hi)

end Job

/-! ### Two passes side by side -/

namespace Worker

/-- What a pass has said and heard. -/
def said : Worker → List Exchange
  | .working said _ => said
  | _ => []

/-- The result of a pass that came to its end. -/
def result? : Worker → Option (Except Error Report)
  | .working _ (.done a) => some a
  | _ => none

end Worker

/-- One of two passes starts, or a pass makes its next call, which is served. -/
inductive Move.IsTurn : Move → Prop
  | start {n : Nat} (h : n < 2) : IsTurn (.start n)
  | call (n : Nat) (w : Surroundings) : IsTurn (.call n w .served)

namespace Site

/-- The site after moves. -/
def play (jobs : Nat → Job) (s : Site) (moves : List Move) : Site := moves.foldl (next jobs) s

/-- What is said and heard in moves. -/
def trace (jobs : Nat → Job) : Site → List Move → List Exchange
  | _, [] => []
  | s, m :: moves => ((s.made m).map Prod.snd).toList ++ trace jobs (s.next jobs m) moves

/-- What two passes have said and heard, the first one first. -/
def saidByTwo (s : Site) : List Exchange := (s.workers 0).said ++ (s.workers 1).said

theorem perm_saidByTwo_place (s : Site) {n : Nat} (hn : n < 2) {w : Worker} {more : List Exchange}
    (hw : w.said = (s.workers n).said ++ more) :
    (more ++ s.saidByTwo).Perm (s.place n w).saidByTwo := by
  unfold saidByTwo
  obtain rfl | rfl : n = 0 ∨ n = 1 := by omega
  · rw [workers_place_self, workers_place_of_ne _ _ (by omega), hw, ← List.append_assoc]
    exact List.perm_append_comm.append_right _
  · rw [workers_place_self, workers_place_of_ne _ _ (by omega), hw]
    have hcomm : (more ++ ((s.workers 0).said ++ (s.workers 1).said)).Perm
        (((s.workers 0).said ++ (s.workers 1).said) ++ more) := List.perm_append_comm
    rwa [List.append_assoc] at hcomm

end Site

namespace Job

/-- How far a pass is that began with one cluster and has come to another. -/
def Underway (j : Job) (k k' : Cluster) : Worker → Prop
  | .waiting => j.outlook k' = j.outlook k
  | .working said rest => Dialogue j (j.outlook k) j.program said (j.outlook k') rest
  | .gone => False

end Job

/-- A pass that came to its end did so by a dialogue. -/
theorem Worker.dialogue_of_result?_eq_some {j : Job} {k k' : Cluster} {w : Worker}
    {a : Except Error Report} (h : j.Underway k k' w) (ha : w.result? = some a) :
    Dialogue j (j.outlook k) j.program w.said (j.outlook k') (.done a) := by
  cases w with
  | waiting => cases ha
  | gone => cases ha
  | working said rest =>
      cases rest with
      | call c next => cases ha
      | done b =>
          obtain rfl := Option.some.inj ha
          exact h

/-- Two passes for different nodes are underway from a cluster. -/
structure Apart (jobs : Nat → Job) (k : Cluster) (s : Site) : Prop where
  keyed : s.cluster.Keyed
  underway : ∀ n < 2, (jobs n).Underway k s.cluster (s.workers n)
  idle : ∀ n, 2 ≤ n → s.workers n = .waiting
  node : ∀ name, (∀ n < 2, name ≠ (jobs n).name) → s.cluster.node? name = k.node? name
  request : ∀ inNamespace name, (∀ n < 2, (inNamespace, name) ≠ (jobs n).key) →
    s.cluster.remediation? inNamespace name = k.remediation? inNamespace name

namespace Apart

variable {jobs : Nat → Job} {k : Cluster} {s : Site} {m : Move}

/-- A call of one pass keeps the other underway. -/
theorem called (hne : ∀ n < 2, ∀ m < 2, n ≠ m → (jobs n).name ≠ (jobs m).name)
    (h : Apart jobs k s) {n : Nat} (hn : n < 2) {said : List Exchange} {c : Call}
    {next : c.Answer → Program (Except Error Report)}
    (hw : s.workers n = .working said (.call c next)) (w : Surroundings) :
    Apart jobs k (s.called n said c next (s.cluster.serve w c)) := by
  have hdialogue : Dialogue (jobs n) ((jobs n).outlook k) (jobs n).program said
      ((jobs n).outlook s.cluster) (.call c next) := by
    have hunderway := h.underway n hn
    rwa [hw] at hunderway
  have hspares := Job.spares_serve h.keyed hdialogue.fits w
  refine ⟨h.keyed.answer w c .served, ?_, ?_, ?_, ?_⟩
  · intro m hm
    by_cases hmn : m = n
    · subst hmn
      show (jobs m).Underway k (s.cluster.serve w c).2 (Function.update s.workers m _ m)
      rw [Function.update_self]
      exact hdialogue.snoc h.keyed rfl w
    · show (jobs m).Underway k (s.cluster.serve w c).2 (Function.update s.workers n _ m)
      rw [Function.update_of_ne hmn]
      have hunderway := h.underway m hm
      have hsame := hspares.outlook_eq (hne m hm n hn hmn)
      cases hworker : s.workers m with
      | waiting =>
          rw [hworker] at hunderway
          exact hsame.trans hunderway
      | working said' rest =>
          rw [hworker] at hunderway
          show Dialogue _ _ _ _ ((jobs m).outlook (s.cluster.serve w c).2) _
          rw [hsame]
          exact hunderway
      | gone =>
          rw [hworker] at hunderway
          exact hunderway
  · intro m hm
    show Function.update s.workers n _ m = .waiting
    rw [Function.update_of_ne (by omega)]
    exact h.idle m hm
  · intro name hname
    exact (hspares.node name (hname n hn)).trans (h.node name hname)
  · intro inNamespace name hkey
    exact (hspares.request _ _ (hkey n hn)).trans (h.request _ _ hkey)

theorem started (h : Apart jobs k s) {n : Nat} (hn : n < 2) (hw : s.workers n = .waiting) :
    Apart jobs k (s.place n (.working [] (jobs n).program)) := by
  refine ⟨h.keyed, ?_, ?_, h.node, h.request⟩
  · intro m hm
    by_cases hmn : m = n
    · subst hmn
      rw [Site.workers_place_self]
      have hunderway := h.underway m hm
      rw [hw] at hunderway
      show Dialogue _ _ _ _ ((jobs m).outlook s.cluster) _
      rw [show (jobs m).outlook s.cluster = (jobs m).outlook k from hunderway]
      exact .refl _ _
    · rw [Site.workers_place_of_ne _ _ hmn]
      exact h.underway m hm
  · intro m hm
    rw [Site.workers_place_of_ne _ _ (by omega)]
    exact h.idle m hm

/-- A turn keeps both passes underway, and what is said in it is said by one of them. -/
theorem next (hne : ∀ n < 2, ∀ m < 2, n ≠ m → (jobs n).name ≠ (jobs m).name)
    (h : Apart jobs k s) (hm : m.IsTurn) :
    Apart jobs k (s.next jobs m) ∧
      (((s.made m).map Prod.snd).toList ++ s.saidByTwo).Perm (s.next jobs m).saidByTwo := by
  cases s.effect jobs m with
  | none hmade heq =>
      rw [heq, hmade]
      exact ⟨h, .refl _⟩
  | started n hn hw hmade heq =>
      subst hn
      cases hm with
      | start htwo =>
          rw [heq, hmade]
          refine ⟨h.started htwo hw, ?_⟩
          exact s.perm_saidByTwo_place htwo (by rw [hw]; rfl)
  | called n w fate said c next hn hw hmade heq =>
      subst hn
      cases hm with
      | call =>
          have htwo : n < 2 := by
            by_contra hn
            rw [h.idle n (by omega)] at hw
            cases hw
          rw [heq, hmade]
          refine ⟨h.called hne htwo hw w, ?_⟩
          exact Site.perm_saidByTwo_place ⟨_, s.workers⟩ htwo (by simp only [hw]; rfl)
  | abandoned n said rest hn hw hmade heq =>
      subst hn
      cases hm
  | edited e hn hmade heq =>
      subst hn
      cases hm

/-- What one turn keeps, all of them keep. -/
theorem play (hne : ∀ n < 2, ∀ m < 2, n ≠ m → (jobs n).name ≠ (jobs m).name) {moves : List Move}
    (h : Apart jobs k s) (hmoves : ∀ m ∈ moves, m.IsTurn) :
    Apart jobs k (s.play jobs moves) ∧
      (s.trace jobs moves ++ s.saidByTwo).Perm (s.play jobs moves).saidByTwo := by
  induction moves generalizing s with
  | nil => exact ⟨h, .refl _⟩
  | cons m moves ih =>
      obtain ⟨hturn, hrest⟩ := List.forall_mem_cons.mp hmoves
      obtain ⟨hnext, hsaid⟩ := h.next hne hturn
      obtain ⟨hplay, htrace⟩ := ih hnext hrest
      refine ⟨hplay, ?_⟩
      show ((((s.made m).map Prod.snd).toList ++ (s.next jobs m).trace jobs moves) ++
        s.saidByTwo).Perm _
      refine .trans ?_ htrace
      refine .trans ?_ (hsaid.append_left _)
      rw [← List.append_assoc]
      exact List.perm_append_comm.append_right _

end Apart

namespace Job

variable {i j : Job} {k : Cluster} {f g : Course}

/-- What comes of two passes that share the cluster, as the moves have it. -/
def together (i j : Job) (k : Cluster) (moves : List Move) : Duo :=
  let jobs : Nat → Job := fun n => if n = 0 then i else j
  let start : Site := ⟨k, fun _ => .waiting⟩
  let s := start.play jobs moves
  ⟨(s.workers 0).said, (s.workers 0).result?, (s.workers 1).said, (s.workers 1).result?,
    start.trace jobs moves, s.cluster⟩

theorem parted_together (hne : i.name ≠ j.name) (hk : k.Keyed) {moves : List Move}
    (hmoves : ∀ m ∈ moves, m.IsTurn) {a b : Except Error Report}
    (ha : (i.together j k moves).firstResult = some a)
    (hb : (i.together j k moves).secondResult = some b) :
    Parted i j k a b (i.together j k moves) := by
  let jobs : Nat → Job := fun n => if n = 0 then i else j
  let start : Site := ⟨k, fun _ => .waiting⟩
  have hnames : ∀ n < 2, ∀ m < 2, n ≠ m → (jobs n).name ≠ (jobs m).name := by
    intro n hn m hm hnm
    obtain rfl | rfl : n = 0 ∨ n = 1 := by omega
    · obtain rfl : m = 1 := by omega
      exact hne
    · obtain rfl : m = 0 := by omega
      exact hne.symm
  have hstart : Apart jobs k start :=
    ⟨hk, fun _ _ => rfl, fun _ _ => rfl, fun _ _ => rfl, fun _ _ _ => rfl⟩
  obtain ⟨hplay, htrace⟩ := hstart.play hnames hmoves
  refine ⟨?_, ?_, ha, hb, ?_, ?_, ?_⟩
  · exact Worker.dialogue_of_result?_eq_some (hplay.underway 0 (by omega)) ha
  · exact Worker.dialogue_of_result?_eq_some (hplay.underway 1 (by omega)) hb
  · rwa [show start.saidByTwo = [] from rfl, List.append_nil] at htrace
  · intro name hi hj
    refine hplay.node name fun n hn => ?_
    obtain rfl | rfl : n = 0 ∨ n = 1 := by omega
    · exact hi
    · exact hj
  · intro inNamespace name hi hj
    refine hplay.request _ _ fun n hn => ?_
    obtain rfl | rfl : n = 0 ∨ n = 1 := by omega
    · exact hi
    · exact hj

/--
**Passes for different nodes are independent.**  Two passes whose requests have different names
share a cluster, call by call, while no call fails, nobody else acts, and the agent answers
by pod and command alone.  However their calls fall, once both are at their end the same has
come of them, up to versions and times, as if one pass had gone after the other, in either
order: their results, their commands and pods, the nodes and requests, and what the
metrics count.
-/
theorem same_inTurn (i j : Job) (hne : i.name ≠ j.name) (k : Cluster) (hk : k.Keyed)
    (agent : Pod → List String → Except Error Output) (moves : List Move)
    (hmoves : ∀ m ∈ moves, m.IsTurn) (hfirst : (i.together j k moves).firstResult.isSome)
    (hsecond : (i.together j k moves).secondResult.isSome)
    (hagent : Dialogue.Obeys agent (i.together j k moves).trace) (f g : Course) (hf : f.IsCalm)
    (hg : g.IsCalm) :
    (Dialogue.Obeys agent (i.inTurn j f g k).trace →
      (i.together j k moves).Same (i.inTurn j f g k)) ∧
    (Dialogue.Obeys agent (j.inTurn i f g k).trace →
      (i.together j k moves).Same (j.inTurn i f g k).swap) := by
  obtain ⟨a, ha⟩ := Option.isSome_iff_exists.mp hfirst
  obtain ⟨b, hb⟩ := Option.isSome_iff_exists.mp hsecond
  have htogether := parted_together hne hk hmoves ha hb
  obtain ⟨_, _, hturn⟩ := parted_inTurn hne hk hf hg
  obtain ⟨_, _, hturn'⟩ := parted_inTurn hne.symm hk hf hg
  exact ⟨fun hobeys => htogether.same hturn hagent hobeys,
    fun hobeys => htogether.same hturn'.swap hagent hobeys⟩

/-! ### Two passes that take turns -/

/-- The setting of a pass, and a request for another node, marked deleted, whose node is gone. -/
def neighbours : Cluster :=
  let request : Remediation := {
    metadata := {
      name := some "n2", inNamespace := some "spare", deletionTimestamp := some default
      finalizers := some [Remediation.finalizer] }
    spec := { agent := "fence_ipmilan" } }
  .ofEdits (Run.setting ++ [.addRemediation request])

/-- The pass that fences. -/
def resident : Job := ⟨{}, "default", "n1"⟩

/-- The pass that lets its request go. -/
def leaving : Job := ⟨{}, "spare", "n2"⟩

/-- Both passes start, and each makes one call after the other has made one. -/
def alternating : List Move :=
  [.start 0, .start 1] ++ (List.replicate 14 [Run.calls 0, Run.calls 1]).flatten

theorem isTurn_alternating : ∀ m ∈ alternating, m.IsTurn := by
  intro m hm
  simp only [alternating, List.mem_append, List.mem_flatten, List.mem_replicate] at hm
  rcases hm with hm | ⟨l, ⟨-, rfl⟩, hm⟩
  · simp only [List.mem_cons, List.not_mem_nil, or_false] at hm
    rcases hm with rfl | rfl
    · exact .start (by omega)
    · exact .start (by omega)
  · simp only [List.mem_cons, List.not_mem_nil, or_false] at hm
    rcases hm with rfl | rfl
    · exact .call 0 _
    · exact .call 1 _

/-- One pass runs the agent, the other lets its request go, and each is as if it were alone. -/
theorem same_inTurn_alternating :
    let d := resident.together leaving neighbours alternating
    (∃ report, d.firstResult = some (.ok report) ∧ report.outcome = .fenceAgentExecuted) ∧
      (∃ report, d.secondResult = some (.ok report) ∧ report.outcome = .deletionComplete) ∧
      d.Same (resident.inTurn leaving .calm .calm neighbours) ∧
      d.Same (leaving.inTurn resident .calm .calm neighbours).swap := by
  intro d
  have hfirst : d.firstResult = some (.ok ⟨[.fetching, .nodeValidating, .lifecycleHandling,
      .tainting, .parameterBuilding, .executing, .responseValidating, .done],
      .fenceAgentExecuted⟩) := by
    decide +kernel
  have hsecond : d.secondResult =
      some (.ok ⟨[.fetching, .nodeValidating, .lifecycleHandling, .done], .deletionComplete⟩) := by
    decide +kernel
  have hsame := same_inTurn resident leaving (by decide) neighbours (Cluster.sound_ofEdits _).keyed
    (fun _ _ => .ok ⟨Output.rebooted, ""⟩) alternating isTurn_alternating (by rw [hfirst]; rfl)
    (by rw [hsecond]; rfl) (by decide +kernel) .calm .calm Course.isCalm_calm Course.isCalm_calm
  exact ⟨⟨_, hfirst, rfl⟩, ⟨_, hsecond, rfl⟩, hsame.1 (by decide +kernel),
    hsame.2 (by decide +kernel)⟩

end Job

end NodeFencing
