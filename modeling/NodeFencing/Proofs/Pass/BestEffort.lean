/-
What a pass does not heed.

A status that is written before the agent succeeded is written with best effort: whether that
works makes no difference to the pass.  Nor does the time, but that it is written down, nor
whether the health of the controller is kept.  So two passes over one request that get the same
answers to everything else do the same: they go side by side, and are never apart but between
the clock and the write that its time goes into, where they are `Twin`.

`SameAnswers` compares what two passes hear only as long as they have asked the same.  That
they ask the same all the way is what `besides_best_effort` says.
-/
import NodeFencing.Proofs.Apart.Alike
import NodeFencing.Proofs.Pass.Gate
import NodeFencing.Proofs.Pass.Onward
import NodeFencing.Proofs.Watch

namespace NodeFencing

/-! ### Calls without times -/

/-- The node without the times of the remediation taint. -/
def Node.timeless (n : Node) : Node := { n.undated with metadata := n.metadata }

theorem Node.timeless_addTaint (n : Node) (time time' : Instant) :
    (n.addTaint time).timeless = (n.addTaint time').timeless := by
  have hundated : (n.addTaint time).undated = (n.addTaint time').undated :=
    undated_addTaint rfl time time'
  have hmetadata : (n.addTaint time).metadata = (n.addTaint time').metadata := rfl
  unfold timeless
  rw [hundated, hmetadata]

/-- The call without the times that a pass writes into it. -/
def Call.timeless : Call → Call
  | .patchStatus inNamespace name s => .patchStatus inNamespace name s.undated
  | .replaceNode n => .replaceNode n.timeless
  | c => c

/-- The call and its answer without the times that a pass writes, and without what a clock
shows. -/
def Exchange.timeless : Exchange → Exchange
  | ⟨.patchStatus inNamespace name s, a⟩ => ⟨.patchStatus inNamespace name s.undated, a⟩
  | ⟨.replaceNode n, a⟩ => ⟨.replaceNode n.timeless, a.map Node.timeless⟩
  | ⟨.readClock, _⟩ => ⟨.readClock, default⟩
  | x => x

/-- The calls of a conversation without times. -/
def callsOf (log : List Exchange) : List Call := log.map fun x => x.1.timeless

namespace Pass

/-! ### What is heeded -/

/-- Whether a pass heeds the answer to a call after what was said and heard: not what the clock
shows, and not whether a status was written unless the agent succeeded before. -/
def Heeds (before : List Exchange) : Call → Bool
  | .readClock => false
  | .patchStatus _ _ _ => before.any (Exchange.runsTo .success)
  | _ => true

/-- As long as the same was asked, what is heeded was answered the same in both conversations,
after what was said and heard before in the first one. -/
def SameAnswersAfter (before log log' : List Exchange) : Prop :=
  ∀ more more' x x' rest rest', log = more ++ x :: rest → log' = more' ++ x' :: rest' →
    callsOf more = callsOf more' → x.1.timeless = x'.1.timeless →
    Heeds (before ++ more) x.1 = true → Exchange.timeless x = Exchange.timeless x'

/-- Two conversations in which everything that is heeded is answered the same. -/
def SameAnswers (log log' : List Exchange) : Prop := SameAnswersAfter [] log log'

variable {before log log' : List Exchange} {x x' : Exchange}

theorem SameAnswersAfter.head (h : SameAnswersAfter before (x :: log) (x' :: log'))
    (hcall : x.1.timeless = x'.1.timeless) (hheeds : Heeds before x.1 = true) :
    Exchange.timeless x = Exchange.timeless x' :=
  h [] [] x x' log log' rfl rfl rfl hcall (by simpa using hheeds)

theorem SameAnswersAfter.tail (h : SameAnswersAfter before (x :: log) (x' :: log'))
    (hcall : x.1.timeless = x'.1.timeless) : SameAnswersAfter (before ++ [x]) log log' := by
  intro more more' y y' rest rest' hlog hlog' hmore hy hheeds
  refine h (x :: more) (x' :: more') y y' rest rest' ?_ ?_ ?_ hy ?_
  · rw [hlog]; rfl
  · rw [hlog']; rfl
  · exact List.cons_eq_cons.mpr ⟨hcall, hmore⟩
  · simpa using hheeds

/-! ### Side by side -/

/-- Of a node that was put back a pass hears no more than whether that failed. -/
theorem eq_after_replaceNode {n n' : Node}
    {k k' : Except Error Node → Program (Except Error Report)} {a a' : Except Error Node}
    (hn : n.timeless = n'.timeless) (hk : ∀ a, k a = k' a)
    (honward : ∀ m m', k (.ok m) = k (.ok m'))
    (ha : Exchange.timeless ⟨.replaceNode n, a⟩ = Exchange.timeless ⟨.replaceNode n', a'⟩) :
    k a = k' a' := by
  simp only [Exchange.timeless, hn, Sigma.mk.injEq, heq_eq_eq, true_and] at ha
  obtain ⟨e, rfl, rfl⟩ | ⟨m, m', rfl, rfl, -⟩ := except_map_eq_map ha
  · exact hk (.error e)
  · exact (honward m m').trans (hk (.ok m'))

/-- Of a status a pass hears nothing, unless the agent succeeded before. -/
theorem eq_after_patchStatus {ns n : String} {st st' : Status}
    {k k' : Except Error Unit → Program (Except Error Report)} {a a' : Except Error Unit}
    (hst : st.undated = st'.undated) (hk : ∀ a, k a = k' a)
    (honward : before.any (Exchange.runsTo .success) = false → ∀ a a', k a = k a')
    (ha : before.any (Exchange.runsTo .success) = true →
      Exchange.timeless ⟨.patchStatus ns n st, a⟩ = Exchange.timeless ⟨.patchStatus ns n st', a'⟩) :
    k a = k' a' := by
  cases hsuccess : before.any (Exchange.runsTo .success) with
  | false => exact (honward hsuccess a a').trans (hk a')
  | true =>
      have hanswer := ha hsuccess
      simp only [Exchange.timeless, hst, Sigma.mk.injEq, heq_eq_eq, true_and] at hanswer
      rw [hanswer]
      exact hk a'

/-- After a call that both passes are at they are at one program again, but for the time that
they have just heard. -/
theorem twin_next {c : Call} {next : c.Answer → Program (Except Error Report)} {a a' : c.Answer}
    (honward : Onward before c next)
    (ha : Heeds before c = true → Exchange.timeless ⟨c, a⟩ = Exchange.timeless ⟨c, a'⟩) :
    Twin (next a) (next a') := by
  suffices hsame : c ≠ .readClock → next a = next a' by
    cases c with
    | readClock => exact honward a a'
    | _ =>
        rw [hsame (by simp)]
        exact .same _
  intro hclock
  cases c with
  | readClock => exact absurd rfl hclock
  | replaceNode n => exact eq_after_replaceNode rfl (fun _ => rfl) honward (ha rfl)
  | patchStatus ns n st => exact eq_after_patchStatus rfl (fun _ => rfl) honward.2 ha
  | publishEvent _ _ | observe _ => rfl
  | _ => exact congrArg next (by simpa [Exchange.timeless] using ha rfl)

/-- The program beside one that makes a call makes the same call, and both go on alike. -/
theorem Twin.exists_step {c : Call} {next : c.Answer → Program (Except Error Report)}
    {p' : Program (Except Error Report)} {a : c.Answer} {result' : Except Error Report}
    (htwin : Twin (.call c next) p') (honward : Onward before c next)
    (hlog' : p'.Reaches log' (.done result'))
    (hsame : SameAnswersAfter before (⟨c, a⟩ :: log) log') :
    ∃ x' rest' q', log' = x' :: rest' ∧ c.timeless = x'.1.timeless ∧ Twin (next a) q' ∧
      q'.Reaches rest' (.done result') := by
  cases htwin with
  | same =>
      obtain ⟨a', rest', rfl, hrest'⟩ := hlog'.exists_answer
      exact ⟨⟨c, a'⟩, rest', _, rfl, rfl, twin_next honward (hsame.head rfl), hrest'⟩
  | taint n time time' hk =>
      obtain ⟨a', rest', rfl, hrest'⟩ := hlog'.exists_answer
      have hn := n.timeless_addTaint time time'
      have hcall := congrArg Call.replaceNode hn
      refine ⟨⟨_, a'⟩, rest', _, rfl, hcall, ?_, hrest'⟩
      rw [eq_after_replaceNode hn hk honward (hsame.head hcall rfl)]
      exact .same _
  | @status ns n _ _ _ _ hst hk =>
      obtain ⟨a', rest', rfl, hrest'⟩ := hlog'.exists_answer
      have hcall := congrArg (Call.patchStatus ns n) hst
      refine ⟨⟨_, a'⟩, rest', _, rfl, hcall, ?_, hrest'⟩
      rw [eq_after_patchStatus hst hk honward.2 (hsame.head hcall)]
      exact .same _

/-- **Two passes go side by side** as long as what they heed is answered the same. -/
theorem side_by_side {p p' : Program (Except Error Report)} {result result' : Except Error Report}
    (h : p.Every Onward before) (htwin : Twin p p') (hlog : p.Reaches log (.done result))
    (hlog' : p'.Reaches log' (.done result')) (hsame : SameAnswersAfter before log log') :
    callsOf log = callsOf log' ∧ result = result' := by
  induction p generalizing p' before log log' with
  | done b =>
      cases htwin
      cases hlog
      cases hlog'
      exact ⟨rfl, rfl⟩
  | call c next ih =>
      obtain ⟨a, rest, rfl, hrest⟩ := hlog.exists_answer
      obtain ⟨honward, hevery⟩ := h
      obtain ⟨x', rest', q', rfl, hcall, hnext, hrest'⟩ := htwin.exists_step honward hlog' hsame
      obtain ⟨hcalls, hresult⟩ := ih a (hevery a) hnext hrest hrest' (hsame.tail hcall)
      exact ⟨List.cons_eq_cons.mpr ⟨hcall, hcalls⟩, hresult⟩

variable {s : Settings} {inNamespace name : String} {result : Except Error Report}

/-- A status that could not be written after the agent succeeded is the end of the pass. -/
theorem result_of_patchStatus {after : List Exchange} {ns n : String} {st : Status} {e : Error}
    (h : (pass s inNamespace name).Reaches (before ++ ⟨.patchStatus ns n st, .error e⟩ :: after)
      (.done result))
    (hsuccess : before.any (Exchange.runsTo .success) = true) :
    result = .error e ∧ after = [] := by
  obtain ⟨next, hcall, hafter⟩ := h.at_exchange
  obtain ⟨honward, -⟩ := (every_pass s inNamespace name).of_reaches hcall
  rw [honward.1 hsuccess] at hafter
  cases hafter
  exact ⟨rfl, rfl⟩

/-- An agent that succeeded was run. -/
theorem countP_isExecution_pos (h : log.any (Exchange.runsTo .success) = true) :
    0 < log.countP fun x => x.1.isExecution := by
  obtain ⟨⟨c, a⟩, hx, hsuccess⟩ := List.any_eq_true.mp h
  rw [List.countP_pos_iff]
  cases c with
  | execute pod command => exact ⟨_, hx, rfl⟩
  | _ => cases hsuccess

/--
**Best effort, and free observation.**  Two passes over one request that get the same answers to
all that is heeded make the same calls, up to times, and end the same: whether a status was
written before the agent succeeded makes no difference, nor does the health that is kept beside
one of them and not the other.  If the status after a success cannot be written, the pass ends
there, with that error, and the agent was run once.
-/
theorem besides_best_effort {σ σ' : Type} (others : Others σ) (others' : Others σ') (s : Settings)
    (inNamespace name : String) (h h' : Option Health) (state : σ) (state' : σ') :
    let log := (pass s inNamespace name).conversation others.attend (h, state)
    let log' := (pass s inNamespace name).conversation others'.attend (h', state')
    let result := ((pass s inNamespace name).run others.attend (h, state)).1
    let result' := ((pass s inNamespace name).run others'.attend (h', state')).1
    (SameAnswers log log' → callsOf log = callsOf log' ∧ result = result') ∧
      ∀ before after ns n st e, log = before ++ ⟨.patchStatus ns n st, .error e⟩ :: after →
        before.any (Exchange.runsTo .success) = true →
        result = .error e ∧ after = [] ∧ log.countP (fun x => x.1.isExecution) = 1 := by
  intro log log' result result'
  have hrun : (pass s inNamespace name).Reaches log (.done result) :=
    Program.reaches_conversation others.attend _ (h, state)
  have hrun' : (pass s inNamespace name).Reaches log' (.done result') :=
    Program.reaches_conversation others'.attend _ (h', state')
  refine ⟨side_by_side (every_pass s inNamespace name) (.same _) hrun hrun', ?_⟩
  intro before after ns n st e hlog hsuccess
  obtain ⟨hresult, hafter⟩ := result_of_patchStatus (hlog ▸ hrun) hsuccess
  refine ⟨hresult, hafter, Nat.le_antisymm (countP_isExecution_le_one hrun) ?_⟩
  apply countP_isExecution_pos
  rw [hlog, List.any_append, hsuccess, Bool.true_or]

/-! ### Two passes whose agent answers something else -/

/-- Answers to a pass whose agent only complains, and whose statuses are written or not. -/
def complaint (patched : Except Error Unit) : (c : Call) → c.Answer
  | .getRemediation _ _ => .ok (some {
      metadata := { name := some "n1", finalizers := some [Remediation.finalizer] }
      spec := {
        agent := "fence_ipmilan", sharedParameters := some .empty
        nodeParameters := some .empty } })
  | .replaceRemediation r => .ok r
  | .patchStatus _ _ _ => patched
  | .listNodeNames => .ok ["n1"]
  | .getNode _ => .ok (some { metadata := { name := some "n1" } })
  | .replaceNode n => .ok n
  | .listPods _ _ => .ok [{ metadata := { name := some "agent" } }]
  | .publishEvent _ _ => ()
  | .execute _ _ => .ok ⟨"", "timed out"⟩
  | .readClock => default
  | .observe _ => ()

/-- Those who give these answers. -/
def complaining (patched : Except Error Unit) : Others Unit where
  serve c _ := (complaint patched c, ())
  time _ := default
  seconds _ := 0.0

theorem eq_complaint {patched : Except Error Unit} {h : Option Health} {x : Exchange}
    (hx : x ∈ (pass {} "default" "n1").conversation (complaining patched).attend (h, ())) :
    x.2 = complaint patched x.1 := by
  obtain ⟨_, -, hanswer⟩ :=
    Program.exists_state_of_mem (I := fun _ => True) (fun _ _ _ => trivial) trivial hx
  exact hanswer

/-- But for the statuses they give the same answers. -/
theorem timeless_complaint (patched patched' : Except Error Unit) {c c' : Call}
    (h : c.timeless = c'.timeless) (hstatus : ∀ ns n st, c ≠ .patchStatus ns n st) :
    Exchange.timeless ⟨c, complaint patched c⟩ = Exchange.timeless ⟨c', complaint patched' c'⟩ := by
  cases c with
  | patchStatus ns n st => exact absurd rfl (hstatus ns n st)
  | _ => cases c' <;> simp_all [Call.timeless, Exchange.timeless, complaint, Except.map]

theorem sameAnswers_complaining (patched patched' : Except Error Unit) (h h' : Option Health) :
    SameAnswers ((pass {} "default" "n1").conversation (complaining patched).attend (h, ()))
      ((pass {} "default" "n1").conversation (complaining patched').attend (h', ())) := by
  intro more more' x x' rest rest' hlog hlog' _ hcall hheeds
  obtain ⟨c, a⟩ := x
  obtain ⟨c', a'⟩ := x'
  obtain rfl : a = complaint patched c := eq_complaint (x := ⟨c, a⟩) (by rw [hlog]; simp)
  obtain rfl : a' = complaint patched' c' := eq_complaint (x := ⟨c', a'⟩) (by rw [hlog']; simp)
  refine timeless_complaint patched patched' hcall ?_
  rintro ns n st rfl
  -- a status is heeded after a success only, and the agent has none
  obtain ⟨⟨c, a⟩, hx, hsuccess⟩ := List.any_eq_true.mp hheeds
  obtain rfl : a = complaint patched c :=
    eq_complaint (by rw [hlog]; exact List.mem_append_left _ hx)
  cases c with
  | execute pod command =>
      have hnone : ExecutionOutcome.ofAnswer (complaint patched (.execute pod command)) =
          .unexpectedResponse := rfl
      simp [Exchange.runsTo, hnone] at hsuccess
  | _ => cases hsuccess

/-- Statuses that are refused, in a controller without health, are as good as none. -/
theorem besides_best_effort_complaining :
    let p := pass {} "default" "n1"
    let kept := complaining (.ok ())
    let bare := complaining (.error .missingParameters)
    callsOf (p.conversation kept.attend (some {}, ())) =
        callsOf (p.conversation bare.attend (none, ())) ∧
      (p.run kept.attend (some {}, ())).1 = .error (.unexpectedResponse "" "timed out") ∧
      (p.run bare.attend (none, ())).1 = .error (.unexpectedResponse "" "timed out") := by
  intro p kept bare
  obtain ⟨hcalls, hresult⟩ := (besides_best_effort kept bare {} "default" "n1" (some {}) none ()
    ()).1 (sameAnswers_complaining _ _ _ _)
  have hkept : (p.run kept.attend (some {}, ())).1 =
      .error (.unexpectedResponse "" "timed out") := by
    rfl
  exact ⟨hcalls, hkept, hresult.symm.trans hkept⟩

end Pass

end NodeFencing
