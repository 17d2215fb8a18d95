/-
What the metrics count.

The metrics keep a counter for every kind of observation that was ever made.  Each
observation moves its own counter by one and no other, so what the counters show after a
conversation is how often each observation came up in it, in whatever order.
-/
import NodeFencing.Health
import NodeFencing.Proofs.Conversation

namespace NodeFencing

/-- How often something was observed, by the metrics. -/
def Metrics.tally (m : Metrics) : Observation → Nat
  | .execution o => (m.executions.get? o).getD 0
  | .reconciled inNamespace name => (m.reconciliations.get? (inNamespace, name)).getD 0
  | .failed inNamespace name => (m.errors.get? (inNamespace, name)).getD 0

theorem Metrics.getD_count {κ : Type} [DecidableEq κ] (m : Ordered κ Nat) (k k' : κ) :
    ((count m k).get? k').getD 0 = (m.get? k').getD 0 + if k = k' then 1 else 0 := by
  unfold count Ordered.alter
  rw [Ordered.get?_insert]
  split
  · next h => simp [h]
  · simp

/-- Whether an exchange tells the metrics of something. -/
def Exchange.observes (o : Observation) : Exchange → Bool
  | ⟨.observe seen, _⟩ => seen == o
  | _ => false

namespace Health

/-- The health after an exchange. -/
def heard (time : Instant) (h : Health) : Exchange → Health
  | ⟨.observe o, _⟩ => h.observe o 0.0 time
  | _ => h

/-- The health after what was said in a conversation. -/
def told (h : Health) (time : Instant) (log : List Exchange) : Health := log.foldl (heard time) h

variable (h : Health) (time : Instant)

/-- An observation moves its own counter. -/
theorem tally_observe (seen : Observation) (seconds : Float) (o : Observation) :
    (h.observe seen seconds time).metrics.tally o =
      h.metrics.tally o + if seen = o then 1 else 0 := by
  cases seen with
  | execution outcome =>
      cases o with
      | execution outcome' =>
          simp only [Observation.execution.injEq]
          exact Metrics.getD_count h.metrics.executions outcome outcome'
      | _ => rfl
  | reconciled inNamespace name =>
      cases o with
      | reconciled ns n =>
          simp only [Observation.reconciled.injEq, ← Prod.mk.injEq]
          exact Metrics.getD_count h.metrics.reconciliations (inNamespace, name) (ns, n)
      | _ => rfl
  | failed inNamespace name =>
      cases o with
      | failed ns n =>
          simp only [Observation.failed.injEq, ← Prod.mk.injEq]
          exact Metrics.getD_count h.metrics.errors (inNamespace, name) (ns, n)
      | _ => rfl

theorem tally_heard (x : Exchange) (o : Observation) :
    (heard time h x).metrics.tally o =
      h.metrics.tally o + if Exchange.observes o x = true then 1 else 0 := by
  obtain ⟨c, a⟩ := x
  cases c with
  | observe seen =>
      show (h.observe seen 0.0 time).metrics.tally o = _
      rw [tally_observe]
      simp [Exchange.observes]
  | _ => rfl

/-- The counters show how often each observation was made. -/
theorem tally_told (log : List Exchange) (o : Observation) :
    (h.told time log).metrics.tally o = h.metrics.tally o + log.countP (Exchange.observes o) := by
  induction log generalizing h with
  | nil => rfl
  | cons x log ih =>
      show ((heard time h x).told time log).metrics.tally o = _
      rw [ih, tally_heard, List.countP_cons]
      omega

end Health

end NodeFencing
