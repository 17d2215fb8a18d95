/-
What a status keeps of the conditions before it.

A status is written whole, and what a pass writes it puts together from the request as it
read it at its start.  So the types of conditions after a write are those that the pass
read and those that it sets; whatever came into the status in between is lost.

If nobody but the pass changes the status in between, that can only be the condition of
`Aspect.processing`, which the pass writes when it has tainted the node.  The status of a
success sets it again.  The status of an answer that is not a success does not, and so it
loses a condition that was stored a moment ago.
-/
import NodeFencing.Proofs.Pass.Gate
import NodeFencing.Proofs.Site.Run

namespace NodeFencing

/-! ### The types of conditions -/

/-- The types of the conditions of a status. -/
def Status.types (s : Status) : List String := s.conditions.map Condition.type

/-- The types of the conditions of a request. -/
def Remediation.types (q : Remediation) : List String := q.conditions.map Condition.type

/-- The types of the conditions that are stored of a request. -/
def Cluster.types (k : Cluster) (inNamespace name : String) : List String :=
  match k.remediation? inNamespace name with
  | some q => q.types
  | none => []

/-- The status that is stored of a request. -/
def Cluster.status? (k : Cluster) (inNamespace name : String) : Option Status :=
  (k.remediation? inNamespace name).bind Remediation.status

theorem Remediation.conditions_eq {q : Remediation} {status : Status} (h : q.status = some status) :
    q.conditions = status.conditions := by
  unfold conditions
  rw [h]

/-- Setting a condition keeps all types and adds its own. -/
theorem Condition.mem_types_set {c : Condition} {cs : List Condition} {type : String} :
    type ∈ (set c cs).map Condition.type ↔ type ∈ cs.map Condition.type ∨ type = c.type := by
  rw [map_type_set]
  split
  · next h =>
      refine ⟨.inl, ?_⟩
      rintro (hmem | rfl)
      · exact hmem
      · exact h
  · rw [List.mem_append, List.mem_singleton]

/-- What a status tells of a request, and the aspects that it sets. -/
inductive Remediation.Tells (q : Remediation) : Status → List Aspect → Prop
  | started (time : Instant) : Tells q (q.startedStatus time) [.processing]
  | finished (stdout : String) (time : Instant) :
      Tells q (q.finishedStatus stdout time) [.processing, .agentSucceeded, .succeeded]
  | agentFailed (note : String) (time : Instant) :
      Tells q (q.agentFailedStatus note time) [.agentSucceeded]

/-- A status has the types of its request and those that it sets. -/
theorem Remediation.Tells.mem_types {q : Remediation} {status : Status} {aspects : List Aspect}
    (h : q.Tells status aspects) (type : String) :
    type ∈ status.types ↔ type ∈ q.types ∨ ∃ a ∈ aspects, type = a.name := by
  have hset : ∀ (a : Aspect) holds reason message (time : Instant) (cs : List Condition),
      type ∈ (q.setCondition a holds reason message time cs).map Condition.type ↔
        type ∈ cs.map Condition.type ∨ type = a.name := by
    intro a holds reason message time cs
    exact Condition.mem_types_set
  cases h with
  | started time =>
      show type ∈ (q.setCondition _ _ _ _ _ _).map _ ↔ _
      rw [hset]
      simp [types]
  | agentFailed note time =>
      show type ∈ (q.setCondition _ _ _ _ _ _).map _ ↔ _
      rw [hset]
      simp [types]
  | finished stdout time =>
      show type ∈ (q.setCondition _ _ _ _ _ (q.setCondition _ _ _ _ _
        (q.setCondition _ _ _ _ _ _))).map _ ↔ _
      rw [hset, hset, hset]
      simp [types, or_assoc]

/-- Only a write of the status adds types. -/
theorem Cluster.types_answer (k : Cluster) (w : Surroundings) (c : Call) (fate : Fate)
    (inNamespace name : String) :
    (k.answer w c fate).2.types inNamespace name ⊆ k.types inNamespace name ∨
      ∃ status, c = .patchStatus inNamespace name status ∧
        (k.answer w c fate).2.types inNamespace name = status.types := by
  unfold types
  rcases k.remediation?_answer w c fate inNamespace name with
    heq | ⟨sent, stored, -, -, hstored, -, heq⟩ | ⟨status, stored, hc, -, heq⟩
  · left
    rw [heq]
    exact List.Subset.refl _
  · -- a request that is replaced keeps its status, unless it is gone
    left
    rw [heq, hstored]
    split
    · next hsome =>
        split at hsome
        · cases hsome
        · obtain rfl := Option.some.inj hsome
          exact List.Subset.refl _
    · exact List.nil_subset _
  · right
    refine ⟨status, hc, ?_⟩
    rw [heq]
    rfl

namespace Pass

variable {s : Settings} {inNamespace name : String} {log : List Exchange} {q : Remediation}

theorem Answered.mem {o : Output} (h : Answered s inNamespace name log q o) :
    ⟨.getRemediation inNamespace name, .ok (some q)⟩ ∈ log := by
  obtain ⟨⟨h, -⟩⟩ := h
  simp [h.mem]

/-- Until the agent answers only one status was written. -/
theorem Answered.eq_startedStatus {o : Output} {ns n : String} {status : Status}
    {a : Except Error Unit} (h : Answered s inNamespace name log q o)
    (hmem : ⟨.patchStatus ns n status, a⟩ ∈ log) : ∃ time, status = q.startedStatus time := by
  obtain ⟨⟨@⟨_, _, time, answer, ⟨⟨_⟩, -, -⟩⟩, -⟩⟩ := h
  have honly : (ns = q.namespaceName ∧ n = q.anyName ∧ status = q.startedStatus time) ∧
      a = answer := by simpa using hmem
  exact ⟨time, honly.1.2.2⟩

/-- A status is told of the request that was read, and no other status was written before it than
the one that the agent is about to run. -/
theorem Reports.exists_tells {ns n : String} {status : Status}
    (h : Reports s inNamespace name log ns n status) :
    ∃ q aspects, ⟨.getRemediation inNamespace name, .ok (some q)⟩ ∈ log ∧
      q.Tells status aspects ∧
      ∀ ns' n' status' a, ⟨.patchStatus ns' n' status', a⟩ ∈ log →
        ∃ time, status' = q.startedStatus time := by
  cases h with
  | @started _ q time h =>
      refine ⟨q, _, by simp [h.mem], .started time, ?_⟩
      obtain ⟨⟨_⟩, -, -⟩ := h
      simp
  | @finished _ q o stdout time h ho =>
      refine ⟨q, _, by simp [h.mem], .finished stdout time, ?_⟩
      intro ns' n' status' a hmem
      exact h.eq_startedStatus (by simpa using hmem)
  | @agentFailed _ q o e time h ho =>
      refine ⟨q, _, by simp [h.mem], .agentFailed e.message time, ?_⟩
      intro ns' n' status' a hmem
      exact h.eq_startedStatus (by simpa using hmem)

end Pass

/-- Whether the status of a request was written. -/
def Exchange.isStatusWrite (inNamespace name : String) : Exchange → Bool
  | ⟨.patchStatus ns n _, .ok _⟩ => ns == inNamespace && n == name
  | _ => false

theorem Exchange.exists_of_isStatusWrite {inNamespace name : String} {x : Exchange}
    (h : Exchange.isStatusWrite inNamespace name x = true) :
    ∃ status, x = ⟨.patchStatus inNamespace name status, .ok ()⟩ := by
  obtain ⟨c, a⟩ := x
  cases c with
  | patchStatus ns n status =>
      cases a with
      | error e => cases h
      | ok a =>
          simp only [isStatusWrite, Bool.and_eq_true, beq_iff_eq] at h
          obtain ⟨rfl, rfl⟩ := h
          exact ⟨status, rfl⟩
  | _ => cases h

namespace Run

variable {r : Run} {t i : Nat} {ns name : String} {status : Status}

theorem exists_made_of_isStatusWrite (h : r.makesAt (Exchange.isStatusWrite ns name) t i = true) :
    ∃ status, r.made t = some (i, ⟨.patchStatus ns name status, .ok ()⟩) := by
  obtain ⟨x, hmade, hx⟩ := exists_of_makesAt h
  obtain ⟨status, rfl⟩ := Exchange.exists_of_isStatusWrite hx
  exact ⟨status, hmade⟩

/-! ### What a write of a status is made from -/

/-- A status is told of the request as the pass read it, and goes to that request. -/
theorem exists_tells_of_made {a : Except Error Unit}
    (h : r.made t = some (i, ⟨.patchStatus ns name status, a⟩)) :
    (ns, name) = (r.jobs i).key ∧
    ∃ g q aspects, g < t ∧ r.made g = some (i, ⟨.getRemediation ns name, .ok (some q)⟩) ∧
      q.Tells status aspects ∧
      ∀ v ns' name' status' a', v < t →
        r.made v = some (i, ⟨.patchStatus ns' name' status', a'⟩) →
        ∃ time, status' = q.startedStatus time := by
  obtain ⟨_, _, said, next, -, hw, -, -⟩ := r.answer_of_made h
  have hreports : Pass.Reports (r.jobs i).settings (r.jobs i).inNamespace (r.jobs i).name said
      ns name status := r.heard hw
  have hkey : (ns, name) = (r.jobs i).key := by
    rcases hreports.key_eq with hkey | ⟨q, hmem, hkey⟩
    · exact hkey
    · exact hkey.trans (r.key_eq hw hmem)
  obtain ⟨rfl, rfl⟩ := Prod.mk.inj hkey
  obtain ⟨q, aspects, hmem, htells, honly⟩ := hreports.exists_tells
  refine ⟨hkey, ?_⟩
  have hearlier : ∀ v ns' name' status' a', v < t →
      r.made v = some (i, ⟨.patchStatus ns' name' status', a'⟩) →
      ∃ time, status' = q.startedStatus time := by
    intro v ns' name' status' a' hvt hmade
    exact honly ns' name' status' a' (r.mem_said hmade hvt hw)
  obtain ⟨g, hgt, hread⟩ := r.exists_made_of_mem hw hmem
  exact ⟨g, q, aspects, hgt, hread, htells, hearlier⟩

/-- A status that is written is stored. -/
theorem status?_succ_of_made (h : r.made t = some (i, ⟨.patchStatus ns name status, .ok ()⟩)) :
    (r.cluster (t + 1)).status? ns name = some status := by
  obtain ⟨w, fate, _, _, -, -, -, ha⟩ := r.answer_of_made h
  have hok : ((r.cluster t).answer w (.patchStatus ns name status) fate).1 = .ok () :=
    congrArg Prod.fst ha
  obtain ⟨stored, -, hstored⟩ := Cluster.patchStatus_of_answer_eq_ok hok
  have hcluster : _ = r.cluster (t + 1) := congrArg Prod.snd ha
  rw [hcluster] at hstored
  unfold Cluster.status?
  rw [hstored]
  rfl

theorem types_succ_of_made (h : r.made t = some (i, ⟨.patchStatus ns name status, .ok ()⟩)) :
    (r.cluster (t + 1)).types ns name = status.types := by
  obtain ⟨q, hq, hs⟩ := Option.bind_eq_some_iff.mp (status?_succ_of_made h)
  unfold Cluster.types
  rw [hq]
  show q.conditions.map Condition.type = _
  rw [Remediation.conditions_eq hs]
  rfl

/-- As long as only the pass changes the status, the types in it are those that the pass read and
that of the condition it wrote since. -/
theorem mem_types_of_made {g : Nat} {q : Remediation}
    (hread : r.made g = some (i, ⟨.getRemediation ns name, .ok (some q)⟩))
    (hearlier : ∀ v ns' name' status' a', v < t →
      r.made v = some (i, ⟨.patchStatus ns' name' status', a'⟩) →
      ∃ time, status' = q.startedStatus time)
    (halone : ∀ v, g ≤ v → v < t →
      (r.cluster (v + 1)).types ns name ≠ (r.cluster v).types ns name →
      ∃ x, r.made v = some (i, x))
    {u : Nat} (hgu : g ≤ u) (hut : u ≤ t) {type : String}
    (hmem : type ∈ (r.cluster u).types ns name) :
    type ∈ q.types ∨ type = Aspect.processing.name := by
  induction hgu with
  | refl =>
      unfold Cluster.types at hmem
      rw [r.remediation?_of_made hread] at hmem
      exact .inl hmem
  | @step u hgu ih =>
      by_cases hsame : (r.cluster (u + 1)).types ns name = (r.cluster u).types ns name
      · rw [hsame] at hmem
        exact ih (by omega) hmem
      · obtain ⟨⟨c, a⟩, hmade⟩ := halone u hgu (by omega) hsame
        obtain ⟨w, fate, _, _, -, -, -, ha⟩ := r.answer_of_made hmade
        have hcluster : ((r.cluster u).answer w c fate).2 = r.cluster (u + 1) :=
          congrArg Prod.snd ha
        have hcases := (r.cluster u).types_answer w c fate ns name
        rw [hcluster] at hcases
        rcases hcases with hsub | ⟨st, rfl, htypes⟩
        · exact ih (by omega) (hsub hmem)
        · obtain ⟨time, rfl⟩ := hearlier u ns name st a (by omega) hmade
          rw [htypes] at hmem
          have htold := ((Remediation.Tells.started time).mem_types type).mp hmem
          simpa using htold

/--
**What a status loses.**  When a status is written, the types of conditions in it are those
of the request as the pass read it and those that the status sets.  If only the pass has
changed the status since it read the request, nothing is lost but the condition of
`Aspect.processing`, and that only if the pass has not read it and writes that the agent
did not succeed.
-/
theorem lost_condition (r : Run) (t i : Nat) (ns name : String) (status : Status)
    (h : r.made t = some (i, ⟨.patchStatus ns name status, .ok ()⟩)) :
    (ns, name) = (r.jobs i).key ∧
    ∃ g q aspects, g < t ∧ r.made g = some (i, ⟨.getRemediation ns name, .ok (some q)⟩) ∧
      q.Tells status aspects ∧
      (∀ type, type ∈ (r.cluster (t + 1)).types ns name ↔
        type ∈ q.types ∨ ∃ a ∈ aspects, type = a.name) ∧
      ((∀ v, g ≤ v → v < t →
          (r.cluster (v + 1)).types ns name ≠ (r.cluster v).types ns name →
          ∃ x, r.made v = some (i, x)) →
        ∀ type ∈ (r.cluster t).types ns name, type ∉ (r.cluster (t + 1)).types ns name →
          type = Aspect.processing.name ∧ type ∉ q.types ∧ aspects = [.agentSucceeded]) := by
  obtain ⟨hkey, g, q, aspects, hgt, hread, htells, hearlier⟩ := exists_tells_of_made h
  have hafter : ∀ type, type ∈ (r.cluster (t + 1)).types ns name ↔
      type ∈ q.types ∨ ∃ a ∈ aspects, type = a.name := by
    intro type
    rw [types_succ_of_made h, htells.mem_types]
  refine ⟨hkey, g, q, aspects, hgt, hread, htells, hafter, ?_⟩
  intro halone type hbefore hlost
  rw [hafter, not_or] at hlost
  obtain ⟨hnew, hunset⟩ := hlost
  have hprocessing : type = Aspect.processing.name :=
    (mem_types_of_made hread hearlier halone (Nat.le_of_lt hgt) (Nat.le_refl t)
      hbefore).resolve_left hnew
  refine ⟨hprocessing, hnew, ?_⟩
  -- the other two statuses set that condition
  cases htells with
  | started time => exact (hunset ⟨.processing, by simp, hprocessing⟩).elim
  | finished stdout time => exact (hunset ⟨.processing, by simp, hprocessing⟩).elim
  | agentFailed note time => rfl

/-! ### An agent that answers nothing

The pass taints the node and says so in the status; then the agent answers nothing, and the
status that tells of that no longer says it.
-/

/-- A pass whose agent answers nothing. -/
def misanswered : Run :=
  .ofMoves (fun _ => ⟨{}, "default", "n1"⟩) setting
    (.start 0 :: List.replicate 14 (.call 0 ⟨default, .ok ⟨"", ""⟩⟩ .served))

theorem exists_made_misanswered :
    ∃ status, misanswered.made 14 = some (0, ⟨.patchStatus "default" "n1" status, .ok ()⟩) := by
  apply exists_made_of_isStatusWrite
  decide +kernel

theorem processing_misanswered :
    Aspect.processing.name ∈ (misanswered.cluster 14).types "default" "n1" ∧
      Aspect.processing.name ∉ (misanswered.cluster 15).types "default" "n1" := by
  decide +kernel

/-- **A status can lose a condition.** -/
theorem not_types_subset :
    ¬ ∀ (r : Run) (t i : Nat) (ns name : String) (status : Status),
      r.made t = some (i, ⟨.patchStatus ns name status, .ok ()⟩) →
      (r.cluster t).types ns name ⊆ (r.cluster (t + 1)).types ns name := by
  intro hkept
  obtain ⟨status, hmade⟩ := exists_made_misanswered
  obtain ⟨hbefore, hafter⟩ := processing_misanswered
  exact hafter (hkept misanswered 14 0 "default" "n1" status hmade hbefore)

/-- What is lost is what the pass wrote itself, and nobody else has changed the status. -/
theorem lost_condition_misanswered :
    ∃ status, misanswered.made 14 = some (0, ⟨.patchStatus "default" "n1" status, .ok ()⟩) ∧
      Aspect.processing.name ∈ (misanswered.cluster 14).types "default" "n1" ∧
      Aspect.processing.name ∉ (misanswered.cluster 15).types "default" "n1" ∧
      ∃ g q, misanswered.made g = some (0, ⟨.getRemediation "default" "n1", .ok (some q)⟩) ∧
        Aspect.processing.name ∉ q.types ∧ q.Tells status [.agentSucceeded] := by
  obtain ⟨hbefore, hafter⟩ := processing_misanswered
  have halone : ∀ v < 14,
      (misanswered.cluster (v + 1)).types "default" "n1" ≠
        (misanswered.cluster v).types "default" "n1" →
      misanswered.makesAt (fun _ => true) v 0 = true := by decide +kernel
  obtain ⟨status, hmade⟩ := exists_made_misanswered
  obtain ⟨-, g, q, aspects, -, hread, htells, -, hlost⟩ :=
    lost_condition misanswered 14 0 "default" "n1" status hmade
  have hchanges : ∀ v, g ≤ v → v < 14 →
      (misanswered.cluster (v + 1)).types "default" "n1" ≠
        (misanswered.cluster v).types "default" "n1" →
      ∃ x, misanswered.made v = some (0, x) := by
    intro v _ hv hchanged
    obtain ⟨x, hx, -⟩ := exists_of_makesAt (halone v hv hchanged)
    exact ⟨x, hx⟩
  obtain ⟨-, hnew, rfl⟩ := hlost hchanges _ hbefore hafter
  exact ⟨status, hmade, hbefore, hafter, g, q, hread, hnew, htells⟩

end Run

end NodeFencing
