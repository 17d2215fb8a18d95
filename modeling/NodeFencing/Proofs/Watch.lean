/-
Runs that are watched by the metrics.

Whoever answers the calls of a program, the health of the controller may be kept beside it, or
not.  `Others.attend` lets the others answer and moves the health with every observation, if
there is one.  The others see nothing of it: what is said and heard, and what the program is
done with, is the same with the health and without.  What the health counts in the end is what
was observed on the way.
-/
import NodeFencing.Proofs.Tally

namespace NodeFencing

/-- Those who answer a program, and the clocks that the metrics read. -/
structure Others (σ : Type) where
  serve : (c : Call) → σ → c.Answer × σ
  /-- The time that a pass that ended well is noted with. -/
  time : σ → Instant
  /-- The seconds that the pass took. -/
  seconds : σ → Float

namespace Health

/-- The health after a call. -/
def hears (h : Health) (seconds : Float) (time : Instant) : Call → Health
  | .observe o => h.observe o seconds time
  | _ => h

/-- For how many passes over a request the metrics have the time that they took. -/
def timed (h : Health) (inNamespace name : String) : Nat :=
  ((h.metrics.durations.get? (inNamespace, name)).getD []).length

variable (h : Health) (seconds : Float) (time : Instant)

/-- Only a pass that ended well has its time noted. -/
theorem timed_observe (seen : Observation) (inNamespace name : String) :
    (h.observe seen seconds time).timed inNamespace name =
      h.timed inNamespace name + if seen = .reconciled inNamespace name then 1 else 0 := by
  cases seen with
  | reconciled ns n =>
      simp only [Observation.reconciled.injEq, ← Prod.mk.injEq]
      show ((((h.metrics.durations.alter (ns, n) _).get? (inNamespace, name)).getD []).length) = _
      unfold Ordered.alter
      rw [Ordered.get?_insert]
      split
      · next heq => simp [timed, heq]
      · rfl
  | execution _ => rfl
  | failed _ _ => rfl

end Health

namespace Others

variable {σ : Type} (others : Others σ)

/-- The others answer a call, and the health is moved by it if it is kept. -/
def attend (c : Call) (w : Option Health × σ) : c.Answer × (Option Health × σ) :=
  ((others.serve c w.2).1,
    (w.1.map fun h => h.hears (others.seconds w.2) (others.time w.2) c, (others.serve c w.2).2))

variable {α : Type} (p : Program α) (h : Option Health) (state : σ)

theorem run_attend :
    (p.run others.attend (h, state)).1 = (p.run others.serve state).1 ∧
      (p.run others.attend (h, state)).2.2 = (p.run others.serve state).2 := by
  induction p generalizing h state with
  | done a => exact ⟨rfl, rfl⟩
  | call c next ih => exact ih (others.serve c state).1 _ (others.serve c state).2

/-- The others are asked the same and answer the same, whether the health is kept or not. -/
theorem conversation_attend :
    p.conversation others.attend (h, state) = p.conversation others.serve state := by
  induction p generalizing h state with
  | done a => rfl
  | call c next ih =>
      exact congrArg (_ :: ·) (ih (others.serve c state).1 _ (others.serve c state).2)

/-- The health after a program was run. -/
def healthAfter : Program α → Health → σ → Health
  | .done _, h, _ => h
  | .call c next, h, state =>
    healthAfter (next (others.serve c state).1)
      (h.hears (others.seconds state) (others.time state) c) (others.serve c state).2

variable (h : Health)

/-- The health after two programs in a row. -/
theorem healthAfter_bind {β : Type} (k : α → Program β) :
    others.healthAfter (p.bind k) h state =
      others.healthAfter (k (p.run others.serve state).1) (others.healthAfter p h state)
        (p.run others.serve state).2 := by
  induction p generalizing h state with
  | done a => rfl
  | call c next ih => exact ih (others.serve c state).1 (others.serve c state).2 _

theorem run_attend_some :
    (p.run others.attend (some h, state)).2 =
      (some (others.healthAfter p h state), (p.run others.serve state).2) := by
  induction p generalizing h state with
  | done a => rfl
  | call c next ih => exact ih (others.serve c state).1 (others.serve c state).2 _

/-- A number that goes up with an observation has gone up by how often that was observed. -/
theorem count_healthAfter {f : Health → Nat} {o : Observation}
    (hf : ∀ h seen seconds time,
      f (h.observe seen seconds time) = f h + if seen = o then 1 else 0) :
    f (others.healthAfter p h state) =
      f h + (p.conversation others.serve state).countP (Exchange.observes o) := by
  induction p generalizing h state with
  | done a => rfl
  | call c next ih =>
      rw [healthAfter, ih, Program.conversation, List.countP_cons]
      cases c with
      | observe seen =>
          have := hf h seen (others.seconds state) (others.time state)
          simp only [Health.hears, Exchange.observes, beq_iff_eq]
          omega
      | _ => rfl

/-- The counters have gone up by how often each observation was made. -/
theorem tally_healthAfter (o : Observation) :
    (others.healthAfter p h state).metrics.tally o =
      h.metrics.tally o + (p.conversation others.serve state).countP (Exchange.observes o) :=
  others.count_healthAfter p state h (f := fun h => h.metrics.tally o)
    fun h seen seconds time => h.tally_observe time seen seconds o

theorem timed_healthAfter (inNamespace name : String) :
    (others.healthAfter p h state).timed inNamespace name =
      h.timed inNamespace name +
        (p.conversation others.serve state).countP
          (Exchange.observes (.reconciled inNamespace name)) :=
  others.count_healthAfter p state h (f := fun h => h.timed inNamespace name)
    fun h seen seconds time => h.timed_observe seconds time seen inNamespace name

/-- The time of the last pass that ended well stays if no other is observed. -/
theorem lastReconcile_healthAfter
    (hnone : ∀ ns n,
      (p.conversation others.serve state).countP (Exchange.observes (.reconciled ns n)) = 0) :
    (others.healthAfter p h state).lastReconcile = h.lastReconcile := by
  induction p generalizing h state with
  | done a => rfl
  | call c next ih =>
      rw [healthAfter, ih]
      · cases c with
        | observe seen =>
            cases seen with
            | reconciled ns n =>
                have := hnone ns n
                simp [Program.conversation, Exchange.observes] at this
            | execution _ => rfl
            | failed _ _ => rfl
        | _ => rfl
      · intro ns n
        have := hnone ns n
        rw [Program.conversation, List.countP_cons] at this
        omega

end Others

end NodeFencing
