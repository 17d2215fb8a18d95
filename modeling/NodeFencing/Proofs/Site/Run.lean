/-
Passes side by side.

Any number of passes share a cluster, call by call, with others who edit it.  Who is next
is a matter of `Move`s: a pass starts, makes its next call, or is given up; or somebody
edits the cluster.  How a call fares, what the clock shows and what the agent answers
come with the move, so a sequence of moves is all that a run is made of, and every
sequence makes one: a move that cannot be made changes nothing.

Two things hold in every run.  The cluster gets later and later, and what a pass has said
and heard is a conversation of it, every exchange of which was made at some time before.
-/
import Mathlib.Logic.Function.Basic
import NodeFencing.Proofs.Cluster.Answers
import NodeFencing.Proofs.Pass.Calls

namespace NodeFencing

/-- A pass to be made. -/
structure Job where
  settings : Settings
  inNamespace : String
  name : String

/-- The key of the request that a pass is over. -/
def Job.key (j : Job) : String × String := (j.inNamespace, j.name)

/-- What a pass does. -/
def Job.program (j : Job) : Program (Except Error Report) :=
  Pass.pass j.settings j.inNamespace j.name

/-- How far a pass is. -/
inductive Worker where
  | waiting
  /-- It has said and heard something, and has something left to do. -/
  | working (said : List Exchange) (rest : Program (Except Error Report))
  | gone

/-- A cluster and the passes that share it. -/
structure Site where
  cluster : Cluster
  workers : Nat → Worker

/-- What can happen next. -/
inductive Move where
  /-- A pass starts. -/
  | start (i : Nat)
  /-- A pass makes its next call. -/
  | call (i : Nat) (w : Surroundings) (fate : Fate)
  /-- A pass is given up. -/
  | abandon (i : Nat)
  /-- Others act. -/
  | edit (e : Cluster.Edit)
  | rest

namespace Site

/-- The site with a pass that is so far. -/
def place (s : Site) (i : Nat) (w : Worker) : Site :=
  { s with workers := Function.update s.workers i w }

/-- The site after a pass heard the answer to its call. -/
def called (s : Site) (i : Nat) (said : List Exchange) (c : Call)
    (next : c.Answer → Program (Except Error Report)) (r : c.Answer × Cluster) : Site :=
  place ⟨r.2, s.workers⟩ i (.working (said ++ [⟨c, r.1⟩]) (next r.1))

@[simp] theorem workers_place_self (s : Site) (i : Nat) (w : Worker) :
    (s.place i w).workers i = w := by
  simp [place]

@[simp] theorem workers_place_of_ne (s : Site) {i j : Nat} (w : Worker) (h : j ≠ i) :
    (s.place i w).workers j = s.workers j := by
  simp [place, h]

/-- The site after a move. -/
def next (jobs : Nat → Job) (s : Site) : Move → Site
  | .start i =>
    match s.workers i with
    | .waiting => s.place i (.working [] (jobs i).program)
    | _ => s
  | .call i w fate =>
    match s.workers i with
    | .working said (.call c next) => s.called i said c next (s.cluster.answer w c fate)
    | _ => s
  | .abandon i =>
    match s.workers i with
    | .working _ _ => s.place i .gone
    | _ => s
  | .edit e => { s with cluster := s.cluster.edit e }
  | .rest => s

/-- The exchange that a move makes, and which pass has it. -/
def made (s : Site) : Move → Option (Nat × Exchange)
  | .call i w fate =>
    match s.workers i with
    | .working _ (.call c _) => some (i, ⟨c, (s.cluster.answer w c fate).1⟩)
    | _ => none
  | _ => none

/-- All that can come of a move. -/
inductive Effect (jobs : Nat → Job) (s : Site) (m : Move) : Prop
  | none (hmade : s.made m = .none) (h : s.next jobs m = s)
  | started (i : Nat) (hm : m = .start i) (hw : s.workers i = .waiting) (hmade : s.made m = .none)
      (h : s.next jobs m = s.place i (.working [] (jobs i).program))
  | called (i : Nat) (w : Surroundings) (fate : Fate) (said : List Exchange) (c : Call)
      (next : c.Answer → Program (Except Error Report)) (hm : m = .call i w fate)
      (hw : s.workers i = .working said (.call c next))
      (hmade : s.made m = some (i, ⟨c, (s.cluster.answer w c fate).1⟩))
      (h : s.next jobs m = s.called i said c next (s.cluster.answer w c fate))
  | abandoned (i : Nat) (said : List Exchange) (rest : Program (Except Error Report))
      (hm : m = .abandon i) (hw : s.workers i = .working said rest) (hmade : s.made m = .none)
      (h : s.next jobs m = s.place i .gone)
  | edited (e : Cluster.Edit) (hm : m = .edit e) (hmade : s.made m = .none)
      (h : s.next jobs m = { s with cluster := s.cluster.edit e })

theorem effect (jobs : Nat → Job) (s : Site) (m : Move) : Effect jobs s m := by
  cases m with
  | start i =>
      cases hw : s.workers i with
      | waiting => exact .started i rfl hw rfl (by simp only [next, hw])
      | working said rest => exact .none rfl (by simp only [next, hw])
      | gone => exact .none rfl (by simp only [next, hw])
  | call i w fate =>
      cases hw : s.workers i with
      | waiting => exact .none (by simp only [made, hw]) (by simp only [next, hw])
      | gone => exact .none (by simp only [made, hw]) (by simp only [next, hw])
      | working said rest =>
          cases rest with
          | done a => exact .none (by simp only [made, hw]) (by simp only [next, hw])
          | call c next =>
              exact .called i w fate said c next rfl hw (by simp only [made, hw])
                (by simp only [Site.next, hw])
  | abandon i =>
      cases hw : s.workers i with
      | waiting => exact .none rfl (by simp only [next, hw])
      | working said rest => exact .abandoned i said rest rfl hw rfl (by simp only [next, hw])
      | gone => exact .none rfl (by simp only [next, hw])
  | edit e => exact .edited e rfl rfl rfl
  | rest => exact .none rfl rfl

end Site

/-! ### Runs -/

/-- A run: a sequence of moves from a sound cluster on which no pass has started. -/
structure Run where
  jobs : Nat → Job
  start : Cluster
  sound : start.Sound
  moves : Nat → Move

namespace Run

/-- The site after so many moves. -/
def site (r : Run) : Nat → Site
  | 0 => ⟨r.start, fun _ => .waiting⟩
  | t + 1 => (r.site t).next r.jobs (r.moves t)

/-- The cluster after so many moves. -/
def cluster (r : Run) (t : Nat) : Cluster := (r.site t).cluster

/-- The exchange that is made at a time, and which pass has it. -/
def made (r : Run) (t : Nat) : Option (Nat × Exchange) := (r.site t).made (r.moves t)

variable (r : Run) {i t u : Nat} {said : List Exchange} {rest : Program (Except Error Report)}

theorem effect (t : Nat) : Site.Effect r.jobs (r.site t) (r.moves t) := Site.effect _ _ _

/-- The cluster changes only by edits and calls. -/
theorem cluster_succ (t : Nat) :
    r.cluster (t + 1) = r.cluster t ∨
      (∃ e, r.moves t = .edit e ∧ r.cluster (t + 1) = (r.cluster t).edit e) ∨
      ∃ i w fate said c next, r.moves t = .call i w fate ∧
        (r.site t).workers i = .working said (.call c next) ∧
        r.made t = some (i, ⟨c, ((r.cluster t).answer w c fate).1⟩) ∧
        r.cluster (t + 1) = ((r.cluster t).answer w c fate).2 := by
  show ((r.site t).next r.jobs (r.moves t)).cluster = _ ∨
    (∃ e, _ ∧ ((r.site t).next r.jobs (r.moves t)).cluster = _) ∨
    ∃ i w fate said c next, _ ∧ _ ∧ _ ∧ ((r.site t).next r.jobs (r.moves t)).cluster = _
  cases r.effect t with
  | none hmade heq => exact .inl (by rw [heq]; rfl)
  | started i hm hw hmade heq => exact .inl (by rw [heq]; rfl)
  | abandoned i said rest hm hw hmade heq => exact .inl (by rw [heq]; rfl)
  | edited e hm hmade heq => exact .inr (.inl ⟨e, hm, by rw [heq]; rfl⟩)
  | called i w fate said c next hm hw hmade heq =>
      exact .inr (.inr ⟨i, w, fate, said, c, next, hm, hw, hmade, by rw [heq]; rfl⟩)

/-- Nothing of a run is lost: versions and objects grow. -/
theorem later_succ (t : Nat) (h : (r.cluster t).Sound) :
    Cluster.Later (r.cluster t) (r.cluster (t + 1)) := by
  rcases r.cluster_succ t with heq | ⟨e, -, heq⟩ | ⟨i, w, fate, said, c, next, -, -, -, heq⟩
  · rw [heq]
    exact .refl _
  · rw [heq]
    exact h.later_edit e
  · rw [heq]
    exact h.later_answer w c fate

theorem sound_cluster (t : Nat) : (r.cluster t).Sound := by
  induction t with
  | zero => exact r.sound
  | succ t ih => exact ih.later (r.later_succ t ih)

theorem later (h : t ≤ u) : Cluster.Later (r.cluster t) (r.cluster u) := by
  induction h with
  | refl => exact .refl _
  | step _ ih => exact ih.trans (r.later_succ _ (r.sound_cluster _))

/-! ### One pass among the others -/

/-- All that can happen to one pass at a time. -/
inductive Turn (t i : Nat) : Prop
  | idle (hmade : ∀ x, r.made t ≠ some (i, x))
      (h : (r.site (t + 1)).workers i = (r.site t).workers i)
  | started (hm : r.moves t = .start i) (hmade : ∀ x, r.made t ≠ some (i, x))
      (hw : (r.site t).workers i = .waiting)
      (h : (r.site (t + 1)).workers i = .working [] (r.jobs i).program)
  | called (said : List Exchange) (c : Call) (a : c.Answer)
      (next : c.Answer → Program (Except Error Report)) (hmade : r.made t = some (i, ⟨c, a⟩))
      (hw : (r.site t).workers i = .working said (.call c next))
      (h : (r.site (t + 1)).workers i = .working (said ++ [⟨c, a⟩]) (next a))
  | abandoned (hmade : ∀ x, r.made t ≠ some (i, x))
      (h : (r.site (t + 1)).workers i = .gone)

theorem turn (t i : Nat) : r.Turn t i := by
  have hnone : r.made t = none → ∀ x, r.made t ≠ some (i, x) := by
    intro h x
    simp [h]
  cases r.effect t with
  | none hmade heq => exact .idle (hnone hmade) (congrArg (Site.workers · i) heq)
  | edited e hm hmade heq =>
      have hworker := congrArg (Site.workers · i) heq
      exact .idle (hnone hmade) hworker
  | started j hm hw hmade heq =>
      have hworker := congrArg (Site.workers · i) heq
      by_cases hij : i = j
      · subst hij
        exact .started hm (hnone hmade) hw (hworker.trans (Site.workers_place_self _ _ _))
      · exact .idle (hnone hmade) (hworker.trans (Site.workers_place_of_ne _ _ hij))
  | abandoned j said rest hm hw hmade heq =>
      have hworker := congrArg (Site.workers · i) heq
      by_cases hij : i = j
      · subst hij
        exact .abandoned (hnone hmade) (hworker.trans (Site.workers_place_self _ _ _))
      · exact .idle (hnone hmade) (hworker.trans (Site.workers_place_of_ne _ _ hij))
  | called j w fate said c next hm hw hmade heq =>
      have hworker := congrArg (Site.workers · i) heq
      by_cases hij : i = j
      · subst hij
        exact .called said c _ next hmade hw (hworker.trans (Site.workers_place_self _ _ _))
      · refine .idle (fun x h => ?_) (hworker.trans (Site.workers_place_of_ne _ _ hij))
        have hmade' := hmade.symm.trans h
        simp only [Option.some.injEq, Prod.mk.injEq] at hmade'
        exact hij hmade'.1.symm

/-- What a pass has said and heard is a conversation of it. -/
theorem reaches (h : (r.site t).workers i = .working said rest) :
    (r.jobs i).program.Reaches said rest := by
  induction t generalizing said rest with
  | zero => cases h
  | succ t ih =>
      cases r.turn t i with
      | idle hmade heq => exact ih (heq.symm.trans h)
      | started hm hmade hw heq =>
          cases heq.symm.trans h
          exact .refl _
      | called before c a next hmade hw heq =>
          cases heq.symm.trans h
          exact (ih hw).trans (.call a (.refl _))
      | abandoned hmade heq => cases heq.symm.trans h

/-- Every exchange of a pass was made at some time, after all that it says before it. -/
theorem exists_made {before after : List Exchange} {x : Exchange}
    (h : (r.site t).workers i = .working (before ++ x :: after) rest) :
    ∃ u next, u < t ∧ r.made u = some (i, x) ∧
      (r.site u).workers i = .working before (.call x.1 next) := by
  induction t generalizing after rest with
  | zero => cases h
  | succ t ih =>
      cases r.turn t i with
      | idle hmade heq =>
          obtain ⟨u, next, hu, hx⟩ := ih (heq.symm.trans h)
          exact ⟨u, next, by omega, hx⟩
      | started hm hmade hw heq =>
          have hsaid := heq.symm.trans h
          simp at hsaid
      | called said c a next hmade hw heq =>
          have hsaid := heq.symm.trans h
          simp only [Worker.working.injEq] at hsaid
          rcases List.eq_nil_or_concat after with rfl | ⟨after, y, rfl⟩
          · obtain ⟨rfl, hlast⟩ := List.append_inj' hsaid.1 rfl
            obtain rfl : ⟨c, a⟩ = x := by simpa using hlast
            exact ⟨t, next, Nat.lt_succ_self t, hmade, hw⟩
          · have hsplit : said ++ [⟨c, a⟩] = (before ++ x :: after) ++ [y] := by
              simpa using hsaid.1
            obtain ⟨rfl, -⟩ := List.append_inj' hsplit rfl
            obtain ⟨u, next, hu, hx⟩ := ih hw
            exact ⟨u, next, by omega, hx⟩
      | abandoned hmade heq => cases heq.symm.trans h

/-- Whatever a pass has said was made earlier. -/
theorem exists_made_of_mem {x : Exchange} (h : (r.site t).workers i = .working said rest)
    (hx : x ∈ said) : ∃ u, u < t ∧ r.made u = some (i, x) := by
  obtain ⟨before, after, rfl⟩ := List.append_of_mem hx
  obtain ⟨u, next, hu, hmade, -⟩ := r.exists_made h
  exact ⟨u, hu, hmade⟩

theorem made_ne_of_waiting (h : (r.site t).workers i = .waiting) (hu : u < t) (x : Exchange) :
    r.made u ≠ some (i, x) := by
  induction t with
  | zero => omega
  | succ t ih =>
      cases r.turn t i with
      | idle hmade heq =>
          rcases Nat.lt_succ_iff_lt_or_eq.mp hu with hlt | rfl
          · exact ih (heq.symm.trans h) hlt
          · exact hmade x
      | started hm hmade hw heq => cases heq.symm.trans h
      | called said c a next hmade hw heq => cases heq.symm.trans h
      | abandoned hmade heq => cases heq.symm.trans h

/-- A pass that was not started waits. -/
theorem workers_eq_waiting (h : ∀ u < t, r.moves u ≠ .start i) :
    (r.site t).workers i = .waiting := by
  induction t with
  | zero => rfl
  | succ t ih =>
      have hwaiting := ih fun u hu => h u (by omega)
      have hother : ∀ {j w}, j ≠ i → r.site (t + 1) = (r.site t).place j w →
          (r.site (t + 1)).workers i = .waiting := by
        intro j w hne heq
        rw [heq, Site.workers_place_of_ne _ _ hne.symm, hwaiting]
      cases r.effect t with
      | none hmade heq => exact (congrArg (Site.workers · i) heq).trans hwaiting
      | edited e hm hmade heq => exact (congrArg (Site.workers · i) heq).trans hwaiting
      | started j hm hw hmade heq =>
          refine hother ?_ heq
          rintro rfl
          exact h t (by omega) hm
      | abandoned j said rest hm hw hmade heq =>
          refine hother ?_ heq
          rintro rfl
          cases hwaiting.symm.trans hw
      | called j w fate said c next hm hw hmade heq =>
          have hne : j ≠ i := by
            rintro rfl
            cases hwaiting.symm.trans hw
          have hworker := congrArg (Site.workers · i) heq
          exact (hworker.trans (Site.workers_place_of_ne _ _ hne.symm)).trans hwaiting

/-- A pass forgets no exchange. -/
theorem mem_said {x : Exchange} (hx : r.made u = some (i, x)) (hu : u < t)
    (h : (r.site t).workers i = .working said rest) : x ∈ said := by
  induction t generalizing said rest with
  | zero => omega
  | succ t ih =>
      cases r.turn t i with
      | idle hmade heq =>
          rcases Nat.lt_succ_iff_lt_or_eq.mp hu with hlt | rfl
          · exact ih hlt (heq.symm.trans h)
          · exact absurd hx (hmade x)
      | started hm hmade hw heq =>
          rcases Nat.lt_succ_iff_lt_or_eq.mp hu with hlt | rfl
          · exact absurd hx (r.made_ne_of_waiting hw hlt x)
          · exact absurd hx (hmade x)
      | called before c a next hmade hw heq =>
          cases heq.symm.trans h
          rcases Nat.lt_succ_iff_lt_or_eq.mp hu with hlt | rfl
          · exact List.mem_append_left _ (ih hlt hw)
          · have hsame := hmade.symm.trans hx
            simp only [Option.some.injEq, Prod.mk.injEq, true_and] at hsame
            simp [hsame]
      | abandoned hmade heq => cases heq.symm.trans h

/-! ### Exchanges and the cluster -/

/-- Whether a pass makes an exchange of some kind at a time. -/
def makesAt (kind : Exchange → Bool) (t i : Nat) : Bool :=
  (r.made t).any fun x => x.1 == i && kind x.2

variable {r} in
theorem exists_of_makesAt {kind : Exchange → Bool} (h : r.makesAt kind t i = true) :
    ∃ x, r.made t = some (i, x) ∧ kind x = true := by
  obtain ⟨⟨j, x⟩, hmade, hx⟩ := (Option.any_eq_true _ _).mp h
  simp only [Bool.and_eq_true, beq_iff_eq] at hx
  obtain ⟨rfl, hx⟩ := hx
  exact ⟨x, hmade, hx⟩

variable {r} in
theorem makesAt_of_made {kind : Exchange → Bool} {x : Exchange} (h : r.made t = some (i, x))
    (hx : kind x = true) : r.makesAt kind t i = true := by
  simp [makesAt, h, hx]

/-- An exchange is the next call of its pass, answered by the cluster of its time. -/
theorem answer_of_made {c : Call} {a : c.Answer} (h : r.made t = some (i, ⟨c, a⟩)) :
    ∃ w fate said next, r.moves t = .call i w fate ∧
      (r.site t).workers i = .working said (.call c next) ∧
      (r.site (t + 1)).workers i = .working (said ++ [⟨c, a⟩]) (next a) ∧
      (r.cluster t).answer w c fate = (a, r.cluster (t + 1)) := by
  cases r.effect t with
  | called j w fate said c' next hm hw hmade heq =>
      have hsame := hmade.symm.trans h
      simp only [Option.some.injEq, Prod.mk.injEq, Sigma.mk.injEq] at hsame
      obtain ⟨rfl, rfl, ha⟩ := hsame
      obtain rfl := eq_of_heq ha
      have hsite : r.site (t + 1) = _ := heq
      refine ⟨w, fate, said, next, hm, hw, ?_, ?_⟩
      · rw [hsite]
        exact Site.workers_place_self _ _ _
      · unfold cluster
        rw [hsite]
        rfl
  | none hmade heq => cases hmade.symm.trans h
  | started j hm hw hmade heq => cases hmade.symm.trans h
  | abandoned j said rest hm hw hmade heq => cases hmade.symm.trans h
  | edited e hm hmade heq => cases hmade.symm.trans h

/-- A pass that is at a call has made its other exchanges before. -/
theorem lt_of_made {c : Call} {next : c.Answer → Program (Except Error Report)} {x : Exchange}
    (h : (r.site t).workers i = .working said (.call c next)) (hx : r.made u = some (i, x))
    (hne : x.1 ≠ c) (hut : u ≤ t) : u < t := by
  refine Nat.lt_of_le_of_ne hut ?_
  rintro rfl
  obtain ⟨c', a⟩ := x
  obtain ⟨_, _, _, _, -, hw, -⟩ := r.answer_of_made hx
  have hrest := (Worker.working.inj (h.symm.trans hw)).2
  cases hrest
  exact hne rfl

/-- If a pass has made no exchange of a kind when it makes one, it makes only one. -/
theorem makesAt_unique {kind : Exchange → Bool}
    (hkind : ∀ {t said c next} (a : c.Answer), (r.site t).workers i = .working said (.call c next) →
      kind ⟨c, a⟩ = true → ∀ x ∈ said, kind x = false)
    (h : r.makesAt kind t i = true) (h' : r.makesAt kind u i = true) : t = u := by
  have hnot : ∀ {t u : Nat}, r.makesAt kind t i = true → r.makesAt kind u i = true → ¬ t < u := by
    intro t u h h' htu
    obtain ⟨x, hmade, hx⟩ := exists_of_makesAt h
    obtain ⟨⟨c, a⟩, hmade', hx'⟩ := exists_of_makesAt h'
    obtain ⟨_, _, _, _, -, hw, -⟩ := r.answer_of_made hmade'
    rw [hkind a hw hx' x (r.mem_said hmade htu hw)] at hx
    cases hx
  have htu := hnot h h'
  have hut := hnot h' h
  omega

theorem node?_of_made {node : String} {x : Option Node}
    (h : r.made t = some (i, ⟨.getNode node, .ok x⟩)) : (r.cluster t).node? node = x := by
  obtain ⟨w, fate, said, next, -, -, -, ha⟩ := r.answer_of_made h
  exact Cluster.node?_of_answer_eq_ok (congrArg Prod.fst ha)

theorem remediation?_of_made {ns n : String} {x : Option Remediation}
    (h : r.made t = some (i, ⟨.getRemediation ns n, .ok x⟩)) :
    (r.cluster t).remediation? ns n = x := by
  obtain ⟨w, fate, said, next, -, -, -, ha⟩ := r.answer_of_made h
  exact Cluster.remediation?_of_answer_eq_ok (congrArg Prod.fst ha)

/-- A node that was read has the name that it was asked for by. -/
theorem anyName_eq {node : String} {n : Node} (h : (r.site t).workers i = .working said rest)
    (hn : ⟨.getNode node, .ok (some n)⟩ ∈ said) : n.anyName = node := by
  obtain ⟨u, -, hmade⟩ := r.exists_made_of_mem h hn
  exact (r.sound_cluster u).anyName_eq (r.node?_of_made hmade)

/-- A request that was read has the key that it was asked for by. -/
theorem key_eq {ns n : String} {q : Remediation} (h : (r.site t).workers i = .working said rest)
    (hq : ⟨.getRemediation ns n, .ok (some q)⟩ ∈ said) : q.key = (ns, n) := by
  obtain ⟨u, -, hmade⟩ := r.exists_made_of_mem h hq
  exact (r.sound_cluster u).key_eq (r.remediation?_of_made hmade)

/-- What a pass has heard when it makes a call. -/
theorem heard {c : Call} {next : c.Answer → Program (Except Error Report)}
    (h : (r.site t).workers i = .working said (.call c next)) :
    Pass.Heard (r.jobs i).settings (r.jobs i).inNamespace (r.jobs i).name said c next :=
  Pass.heard (r.reaches h)

/-- A node that is stored with the version of one that was stored before was there all the
time. -/
theorem node?_eq_of_version_eq {g v u : Nat} {node : String} {n m : Node} (hgv : g ≤ v)
    (hvu : v ≤ u) (hn : (r.cluster g).node? node = some n) (hm : (r.cluster u).node? node = some m)
    (hver : n.metadata.resourceVersion = m.metadata.resourceVersion) :
    m = n ∧ (r.cluster v).node? node = some n :=
  (r.sound_cluster g).node?_eq_of_version_eq (r.later hgv) (r.later hvu) hn hm hver

theorem remediation?_eq_of_version_eq {g v u : Nat} {ns n : String} {p q : Remediation}
    (hgv : g ≤ v) (hvu : v ≤ u) (hp : (r.cluster g).remediation? ns n = some p)
    (hq : (r.cluster u).remediation? ns n = some q)
    (hver : p.metadata.resourceVersion = q.metadata.resourceVersion) :
    q = p ∧ (r.cluster v).remediation? ns n = some p :=
  (r.sound_cluster g).remediation?_eq_of_version_eq (r.later hgv) (r.later hvu) hp hq hver

/-! ### Runs that are written down -/

/-- The run over a cluster made by edits that comes to rest after some moves. -/
def ofMoves (jobs : Nat → Job) (edits : List Cluster.Edit) (moves : List Move) : Run where
  jobs := jobs
  start := .ofEdits edits
  sound := Cluster.sound_ofEdits edits
  moves t := moves.getD t .rest

/-- A move of a run that is written down is one of those, or the run has come to rest. -/
theorem mem_or_eq_rest {jobs : Nat → Job} {edits : List Cluster.Edit} {moves : List Move} {m : Move}
    (h : (ofMoves jobs edits moves).moves t = m) : m ∈ moves ∨ m = .rest := by
  rw [← h]
  show moves.getD t .rest ∈ moves ∨ moves.getD t .rest = .rest
  rw [List.getD_eq_getElem?_getD]
  cases hm : moves[t]? with
  | none => exact .inr rfl
  | some m => exact .inl (List.mem_of_getElem? hm)

/-- Nothing happens from a time on. -/
def RestsFrom (r : Run) (n : Nat) : Prop := ∀ t, n ≤ t → r.moves t = .rest

theorem restsFrom_ofMoves (jobs : Nat → Job) (edits : List Cluster.Edit) (moves : List Move) :
    (ofMoves jobs edits moves).RestsFrom moves.length := by
  intro t h
  show moves.getD t .rest = .rest
  rw [List.getD_eq_getElem?_getD, List.getElem?_eq_none h]
  rfl

variable {r} {n : Nat}

theorem RestsFrom.site_eq (h : r.RestsFrom n) (hnt : n ≤ t) : r.site t = r.site n := by
  induction hnt with
  | refl => rfl
  | @step t hnt ih =>
      show (r.site t).next r.jobs (r.moves t) = _
      rw [h t hnt]
      exact ih

/-- What holds of the clusters until then holds of all of them. -/
theorem RestsFrom.forall_cluster (h : r.RestsFrom n) {P : Cluster → Prop}
    (hP : ∀ t < n + 1, P (r.cluster t)) (t : Nat) : P (r.cluster t) := by
  rcases Nat.lt_or_ge t (n + 1) with hlt | hge
  · exact hP t hlt
  · have hlast := hP n (by omega)
    unfold cluster at hlast ⊢
    rwa [h.site_eq (by omega : n ≤ t)]

/-- A node, a live request for it, and a pod to run its agent in. -/
def setting : List Cluster.Edit :=
  let request : Remediation := {
    metadata := {
      name := some "n1", inNamespace := some "default"
      finalizers := some [Remediation.finalizer] }
    spec := {
      agent := "fence_ipmilan", sharedParameters := some .empty
      nodeParameters := some .empty } }
  let pod : Pod := {
    metadata := {
      name := some "agent", inNamespace := some "default"
      labels := some (.ofList [("app", "fence-agents-remediation-operator")]) } }
  [.addNode { metadata := { name := some "n1" } }, .addRemediation request, .addPod pod]

/-- A pass makes its next call, which is served. -/
def calls (i : Nat) : Move := .call i ⟨default, .ok ⟨Output.rebooted, ""⟩⟩ .served

end Run

end NodeFencing
