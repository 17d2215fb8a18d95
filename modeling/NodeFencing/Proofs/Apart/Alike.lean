/-
Passes go on alike whatever the versions and times.

Two programs are `Alike` if they make the same calls up to versions and times, and are alike
again after answers that are the same up to versions and times.  That a pass is alike itself
says that nothing it does follows from a version or a time.  Some calls are made for their
effect alone: the programs are alike after any answers to them.

The walk is along the text of a pass, with two requests or nodes in the place of one.
-/
import NodeFencing.Proofs.Apart.Undated

namespace NodeFencing

/-- Programs that do the same up to versions and times. -/
inductive Program.Alike {α : Type} : Program α → Program α → Prop
  | done (a : α) : Alike (.done a) (.done a)
  /-- The programs go on alike after the same answers. -/
  | call {c c' : Call} {next : c.Answer → Program α} {next' : c'.Answer → Program α}
      (hc : c.undated = c'.undated)
      (h : ∀ a a', Exchange.undated ⟨c, a⟩ = Exchange.undated ⟨c', a'⟩ →
        Alike (next a) (next' a')) :
      Alike (.call c next) (.call c' next')
  /-- The programs go on alike whatever is answered. -/
  | unheard {c c' : Call} {next : c.Answer → Program α} {next' : c'.Answer → Program α}
      (hc : c.undated = c'.undated) (h : ∀ a a', Alike (next a) (next' a')) :
      Alike (.call c next) (.call c' next')

/-- Answers that are the same after a change are both errors, or both none. -/
theorem except_map_eq_map {ε α β : Type} {f : α → β} {a a' : Except ε α} (h : a.map f = a'.map f) :
    (∃ e, a = .error e ∧ a' = .error e) ∨ ∃ x x', a = .ok x ∧ a' = .ok x' ∧ f x = f x' := by
  cases a with
  | error e =>
      cases a' with
      | error e' =>
          obtain rfl := Except.error.inj h
          exact .inl ⟨e, rfl, rfl⟩
      | ok x' => cases h
  | ok x =>
      cases a' with
      | error e' => cases h
      | ok x' => exact .inr ⟨x, x', rfl, rfl, Except.ok.inj h⟩

/-- Objects that may be absent and are the same after a change are both absent, or both there. -/
theorem option_map_eq_map {α β : Type} {f : α → β} {x x' : Option α} (h : x.map f = x'.map f) :
    (x = none ∧ x' = none) ∨ ∃ y y', x = some y ∧ x' = some y' ∧ f y = f y' := by
  cases x with
  | none =>
      cases x' with
      | none => exact .inl ⟨rfl, rfl⟩
      | some y' => cases h
  | some y =>
      cases x' with
      | none => cases h
      | some y' => exact .inr ⟨y, y', rfl, rfl, Option.some.inj h⟩

namespace Program.Alike

variable {α β : Type} {p p' : Program α}

/-- What is alike a program that calls makes the same call, and goes on alike. -/
theorem exists_call {c : Call} {next : c.Answer → Program α} (h : Alike (.call c next) p') :
    ∃ (c' : Call) (next' : c'.Answer → Program α), p' = .call c' next' ∧ c.undated = c'.undated ∧
      ∀ a a', Exchange.undated ⟨c, a⟩ = Exchange.undated ⟨c', a'⟩ → (next a).Alike (next' a') := by
  cases h with
  | call hc h => exact ⟨_, _, rfl, hc, h⟩
  | unheard hc h => exact ⟨_, _, rfl, hc, fun a a' _ => h a a'⟩

/-! ### Calls -/

theorem getRemediation {inNamespace name : String}
    {next next' : Except Error (Option Remediation) → Program α}
    (herror : ∀ e, (next (.error e)).Alike (next' (.error e)))
    (hnone : (next (.ok none)).Alike (next' (.ok none)))
    (hsome : ∀ r r', r.undated = r'.undated →
      (next (.ok (some r))).Alike (next' (.ok (some r')))) :
    Alike (.call (.getRemediation inNamespace name) next)
      (.call (.getRemediation inNamespace name) next') := by
  refine .call rfl ?_
  intro a a' h
  obtain ⟨e, rfl, rfl⟩ | ⟨x, x', rfl, rfl, hx⟩ := except_map_eq_map (eq_of_heq (Sigma.mk.inj h).2)
  · exact herror e
  · obtain ⟨rfl, rfl⟩ | ⟨r, r', rfl, rfl, hr⟩ := option_map_eq_map hx
    · exact hnone
    · exact hsome r r' hr

theorem getNode {name : String} {next next' : Except Error (Option Node) → Program α}
    (herror : ∀ e, (next (.error e)).Alike (next' (.error e)))
    (hnone : (next (.ok none)).Alike (next' (.ok none)))
    (hsome : ∀ n n', n.undated = n'.undated →
      (next (.ok (some n))).Alike (next' (.ok (some n')))) :
    Alike (.call (.getNode name) next) (.call (.getNode name) next') := by
  refine .call rfl ?_
  intro a a' h
  obtain ⟨e, rfl, rfl⟩ | ⟨x, x', rfl, rfl, hx⟩ := except_map_eq_map (eq_of_heq (Sigma.mk.inj h).2)
  · exact herror e
  · obtain ⟨rfl, rfl⟩ | ⟨n, n', rfl, rfl, hn⟩ := option_map_eq_map hx
    · exact hnone
    · exact hsome n n' hn

theorem replaceRemediation {r r' : Remediation} (hr : r.undated = r'.undated)
    {next next' : Except Error Remediation → Program α}
    (herror : ∀ e, (next (.error e)).Alike (next' (.error e)))
    (hok : ∀ q q', (next (.ok q)).Alike (next' (.ok q'))) :
    Alike (.call (.replaceRemediation r) next) (.call (.replaceRemediation r') next') := by
  refine .call (congrArg Call.replaceRemediation hr) ?_
  intro a a' h
  simp only [Exchange.undated, hr, Sigma.mk.injEq, heq_eq_eq, true_and] at h
  obtain ⟨e, rfl, rfl⟩ | ⟨q, q', rfl, rfl, -⟩ := except_map_eq_map h
  · exact herror e
  · exact hok q q'

theorem replaceNode {n n' : Node} (hn : n.undated = n'.undated)
    {next next' : Except Error Node → Program α}
    (herror : ∀ e, (next (.error e)).Alike (next' (.error e)))
    (hok : ∀ m m', (next (.ok m)).Alike (next' (.ok m'))) :
    Alike (.call (.replaceNode n) next) (.call (.replaceNode n') next') := by
  refine .call (congrArg Call.replaceNode hn) ?_
  intro a a' h
  simp only [Exchange.undated, hn, Sigma.mk.injEq, heq_eq_eq, true_and] at h
  obtain ⟨e, rfl, rfl⟩ | ⟨m, m', rfl, rfl, -⟩ := except_map_eq_map h
  · exact herror e
  · exact hok m m'

/-- The answer to the writing of a status is heard. -/
theorem patchStatus {inNamespace name : String} {s s' : Status} (hs : s.undated = s'.undated)
    {next next' : Except Error Unit → Program α} (h : ∀ a, (next a).Alike (next' a)) :
    Alike (.call (.patchStatus inNamespace name s) next)
      (.call (.patchStatus inNamespace name s') next') := by
  refine .call (congrArg (Call.patchStatus inNamespace name) hs) ?_
  intro a a' ha
  simp only [Exchange.undated, hs, Sigma.mk.injEq, heq_eq_eq, true_and] at ha
  rw [ha]
  exact h a'

theorem listNodeNames {next next' : Except Error (List String) → Program α}
    (h : ∀ a, (next a).Alike (next' a)) :
    Alike (.call .listNodeNames next) (.call .listNodeNames next') := by
  refine .call rfl ?_
  intro a a' ha
  rw [eq_of_heq (Sigma.mk.inj ha).2]
  exact h a'

theorem listPods {inNamespace selector : String} {next next' : Except Error (List Pod) → Program α}
    (h : ∀ a, (next a).Alike (next' a)) :
    Alike (.call (.listPods inNamespace selector) next)
      (.call (.listPods inNamespace selector) next') := by
  refine .call rfl ?_
  intro a a' ha
  rw [eq_of_heq (Sigma.mk.inj ha).2]
  exact h a'

theorem execute {pod : Pod} {command : List String} {next next' : Except Error Output → Program α}
    (h : ∀ a, (next a).Alike (next' a)) :
    Alike (.call (.execute pod command) next) (.call (.execute pod command) next') := by
  refine .call rfl ?_
  intro a a' ha
  rw [eq_of_heq (Sigma.mk.inj ha).2]
  exact h a'

theorem readClock {next next' : Instant → Program α} (h : ∀ t t', (next t).Alike (next' t')) :
    Alike (.call .readClock next) (.call .readClock next') :=
  .unheard rfl h

theorem publishEvent {r r' : Remediation} (hr : r.undated = r'.undated) {e : Event}
    {next next' : Unit → Program α} (h : (next ()).Alike (next' ())) :
    Alike (.call (.publishEvent r e) next) (.call (.publishEvent r' e) next') :=
  .unheard (congrArg (Call.publishEvent · e) hr) fun _ _ => h

/-- Programs that are alike, one after the other. -/
theorem bind (h : p.Alike p') {k k' : α → Program β} (hk : ∀ a, (k a).Alike (k' a)) :
    (p.bind k).Alike (p'.bind k') := by
  induction h with
  | done a => exact hk a
  | call hc _ ih => exact .call hc ih
  | unheard hc _ ih => exact .unheard hc ih

end Program.Alike

/-! ### The life of a request -/

namespace Lifecycle

variable {r r' : Remediation}

theorem alike_putNode {n n' : Node} (h : n.undated = n'.undated) :
    (putNode n).Alike (putNode n') :=
  .replaceNode h (fun _ => .done _) (fun _ _ => .done _)

theorem alike_removeTaint (node : String) : (removeTaint node).Alike (removeTaint node) := by
  refine .getNode (fun _ => .done _) (.done _) ?_
  intro n n' h
  obtain ⟨hn, hn'⟩ | ⟨m, m', hn, hn', hm⟩ := option_map_eq_map (Node.undated_removeTaint? h)
  · simp only [hn, hn']
    exact .done _
  · simp only [hn, hn']
    exact alike_putNode hm

theorem alike_attach (h : r.undated = r'.undated) : (attach r).Alike (attach r') := by
  unfold attach
  obtain ⟨hr, hr'⟩ | ⟨q, q', hr, hr', hq⟩ :=
    option_map_eq_map (Remediation.undated_addFinalizer? h)
  · simp only [hr, hr']
    exact .publishEvent h (.done _)
  · simp only [hr, hr']
    exact .replaceRemediation hq (fun _ => .done _) (fun _ _ => .publishEvent h (.done _))

theorem alike_release (h : r.undated = r'.undated) : (release r).Alike (release r') := by
  unfold release
  obtain ⟨hr, hr'⟩ | ⟨q, q', hr, hr', hq⟩ :=
    option_map_eq_map (Remediation.undated_removeFinalizer? h)
  · simp only [hr, hr']
    exact .publishEvent h (.done _)
  · simp only [hr, hr']
    refine .replaceRemediation hq ?_ (fun _ _ => .publishEvent h (.done _))
    intro e
    dsimp only
    split
    · exact .publishEvent h (.done _)
    · exact .done _

theorem alike_cleanUp (h : r.undated = r'.undated) : (cleanUp r).Alike (cleanUp r') := by
  unfold cleanUp
  rw [Remediation.anyName_eq h]
  refine .bind (alike_removeTaint _) ?_
  intro a
  cases a with
  | error e => exact .done _
  | ok _ => exact alike_release h

theorem alike_handle (h : r.undated = r'.undated) : (handle r).Alike (handle r') := by
  unfold handle
  rw [Remediation.lifecycleAction_eq h]
  cases r'.lifecycleAction with
  | addFinalizer => exact alike_attach h
  | cleanup => exact alike_cleanUp h
  | awaitRemoval => exact .done _
  | proceed => exact .done _

end Lifecycle

/-! ### The phases of a pass -/

namespace Pass

variable {s : Settings} {inNamespace name : String} {r r' : Remediation} {t : Tracker}

theorem alike_enter {p : Phase} {next next' : Tracker → Program Ending}
    (h : ∀ t, (next t).Alike (next' t)) : (enter t p next).Alike (enter t p next') := by
  unfold enter
  split
  · exact h _
  · exact .done _

theorem alike_noteStatus (h : r.undated = r'.undated) {status status' : Instant → Status}
    (hs : ∀ time time', (status time).undated = (status' time').undated)
    {next next' : Program Ending} (hnext : next.Alike next') :
    (noteStatus r status next).Alike (noteStatus r' status' next') := by
  unfold noteStatus
  rw [Remediation.namespaceName_eq h, Remediation.anyName_eq h]
  refine .readClock ?_
  intro time time'
  exact .unheard (congrArg (Call.patchStatus _ _) (hs time time')) fun _ _ => hnext

theorem alike_succeeded (h : r.undated = r'.undated) (stdout : String) :
    (succeeded inNamespace name r stdout t).Alike (succeeded inNamespace name r' stdout t) := by
  unfold succeeded
  rw [Remediation.spec_eq h]
  refine .unheard rfl fun _ _ => .publishEvent h (.readClock ?_)
  intro time time'
  refine .patchStatus (Remediation.undated_finishedStatus h stdout time time') ?_
  intro a
  cases a with
  | error e => exact .done _
  | ok _ => exact .done _

theorem alike_answeredElse (h : r.undated = r'.undated) (e : Error) :
    (answeredElse r e t).Alike (answeredElse r' e t) := by
  refine .unheard rfl fun _ _ => .publishEvent h ?_
  exact alike_noteStatus h (Remediation.undated_agentFailedStatus h _) (.done _)

theorem alike_responseValidating (h : r.undated = r'.undated) (o : Output) :
    (responseValidating inNamespace name r o t).Alike
      (responseValidating inNamespace name r' o t) := by
  unfold responseValidating
  split
  · exact alike_succeeded h _
  · exact alike_answeredElse h _

theorem alike_runningIn (h : r.undated = r'.undated) (command : List String) (pod : Pod) :
    (runningIn inNamespace name r command t pod).Alike
      (runningIn inNamespace name r' command t pod) := by
  refine .execute ?_
  intro a
  cases a with
  | error e => exact .unheard rfl fun _ _ => .publishEvent h (.done _)
  | ok o => exact alike_enter fun _ => alike_responseValidating h o

theorem alike_executing (h : r.undated = r'.undated) (command : List String) :
    (executing s inNamespace name r command t).Alike
      (executing s inNamespace name r' command t) := by
  refine .listPods ?_
  intro a
  match a with
  | .error e => exact .done _
  | .ok [] => exact .done _
  | .ok (pod :: _) => exact alike_runningIn h command pod

theorem alike_parameterBuilding (h : r.undated = r'.undated) :
    (parameterBuilding s inNamespace name r t).Alike
      (parameterBuilding s inNamespace name r' t) := by
  unfold parameterBuilding
  rw [Remediation.spec_eq h]
  split
  · exact .publishEvent h (.done _)
  · exact alike_enter fun _ => alike_executing h _

theorem alike_tainted (h : r.undated = r'.undated) :
    (tainted s inNamespace name r t).Alike (tainted s inNamespace name r' t) := by
  refine .publishEvent h (alike_noteStatus h (Remediation.undated_startedStatus h) ?_)
  exact alike_enter fun _ => alike_parameterBuilding h

theorem alike_tainting (h : r.undated = r'.undated) :
    (tainting s inNamespace name r t).Alike (tainting s inNamespace name r' t) := by
  refine .getNode (fun _ => .done _) (.done _) ?_
  intro n n' hn
  simp only [Node.applyTaint?, Node.isTainted_eq hn]
  split
  · exact .done _
  · refine .readClock ?_
    intro time time'
    exact .replaceNode (Node.undated_addTaint hn time time') (fun _ => .done _) fun _ _ =>
      alike_tainted h

theorem alike_lifecycleHandling (h : r.undated = r'.undated) :
    (lifecycleHandling s inNamespace name r t).Alike
      (lifecycleHandling s inNamespace name r' t) := by
  refine .bind (Lifecycle.alike_handle h) ?_
  intro a
  match a with
  | .error e => exact .done _
  | .ok .finalizerAdded => exact .done _
  | .ok .deletionComplete => exact .done _
  | .ok .proceed => exact alike_enter fun _ => alike_tainting h

theorem alike_nodeValidating (h : r.undated = r'.undated) :
    (nodeValidating s inNamespace name r t).Alike (nodeValidating s inNamespace name r' t) := by
  refine .listNodeNames ?_
  intro a
  cases a with
  | error e => exact .done _
  | ok names =>
      simp only [Remediation.isDeleted_eq h, Remediation.hasFinalizer_eq h]
      split
      · exact alike_enter fun _ => alike_lifecycleHandling h
      · exact .done _

/-- **Nothing that a pass does follows from a version or a time.** -/
theorem alike_pass (s : Settings) (inNamespace name : String) :
    (pass s inNamespace name).Alike (pass s inNamespace name) := by
  refine .bind (p := fetching s inNamespace name .start) ?_ fun _ => .done _
  refine .getRemediation (fun _ => .done _) (.done _) ?_
  intro r r' h
  exact alike_enter fun _ => alike_nodeValidating h

end Pass

end NodeFencing
