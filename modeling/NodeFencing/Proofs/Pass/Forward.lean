/-
A path of phases goes forward only.

Whatever it is asked for, a path stays `Charted`: it leads over the phases of work in their order
up to the one where it is, or it ended after one of them.  One move keeps that, since a move either
takes a step of the table or leaves the path alone; so every run of moves keeps it, and what holds
of the places that a path can come to is read off the charted paths, of which there are few.

A move that changes a path makes it longer by one phase.  So the phases on a path count the moves
that had an effect, and no path meets more than eight phases.
-/
import NodeFencing.Proofs.Pass.Path

namespace NodeFencing

/-- The phases in which a pass is at work, in their order. -/
def Phase.working : List Phase :=
  [.fetching, .nodeValidating, .lifecycleHandling, .tainting, .parameterBuilding, .executing,
    .responseValidating]

theorem Phase.allows_of_isTerminal {p : Phase} (h : p.isTerminal = true) (q : Phase) :
    p.allows q = false := by
  simp [allows, h]

namespace Tracker

/-! ### One move -/

theorem move_advance_of_allows {t : Tracker} {p : Phase} (h : t.current.allows p = true) :
    t.move (.advance p) = (.taken, t.push p) := by
  simp [move, advance?, h]

theorem move_advance_of_not_allows {t : Tracker} {p : Phase} (h : t.current.allows p = false) :
    t.move (.advance p) = (.rejected t.current p, t) := by
  simp [move, advance?, h]

theorem visited_fail (t : Tracker) :
    t.fail.visited = if t.current.isTerminal then t.visited else t.visited ++ [.failed] := by
  unfold fail
  split <;> rfl

/-- A move takes a step that the table has, or changes nothing. -/
theorem move_cases (t : Tracker) (m : Move) :
    (∃ p, t.current.allows p = true ∧ (t.move m).2 = t.push p) ∨ (t.move m).2 = t := by
  cases m with
  | advance p =>
      by_cases h : t.current.allows p = true
      · exact .inl ⟨p, h, by rw [move_advance_of_allows h]⟩
      · exact .inr (by rw [move_advance_of_not_allows (Bool.eq_false_iff.mpr h)])
  | fail =>
      show (∃ p, t.current.allows p = true ∧ t.fail = t.push p) ∨ t.fail = t
      by_cases h : t.current.isTerminal = true
      · exact .inr (if_pos h)
      · -- Short of its end a path may always fail.
        exact .inl ⟨.failed, by simp [Phase.allows, h], if_neg h⟩

theorem move_of_isTerminal {t : Tracker} (h : t.current.isTerminal = true) (m : Move) :
    (t.move m).2 = t := by
  rcases t.move_cases m with ⟨p, hp, -⟩ | hm
  · rw [Phase.allows_of_isTerminal h] at hp
    cases hp
  · exact hm

theorem follow_of_isTerminal {t : Tracker} (h : t.current.isTerminal = true)
    (moves : List Move) : t.follow moves = t := by
  induction moves with
  | nil => rfl
  | cons m moves ih => rw [follow, List.foldl_cons, move_of_isTerminal h, ← follow, ih]

/-! ### The paths there are -/

/-- Whether a path leads over the phases of work up to one of them, and perhaps on to an end. -/
inductive Charted : Tracker → Prop where
  | working {p : Phase} : p.isTerminal = false → Charted (.reaching p)
  | ended {p q : Phase} : p.isTerminal = false → q.isTerminal = true → p.allows q = true →
      Charted ((Tracker.reaching p).push q)

/-- From one phase of work the table leads only to the next one. -/
theorem push_reaching {p q : Phase} (hp : p.isTerminal = false) (hq : q.isTerminal = false)
    (h : p.allows q = true) : (reaching p).push q = reaching q := by
  cases p <;> cases q <;> first | rfl | contradiction

namespace Charted

theorem start : Charted Tracker.start := working (p := .fetching) rfl

theorem push {t : Tracker} {q : Phase} (ht : Charted t) (h : t.current.allows q = true) :
    Charted (t.push q) := by
  cases ht with
  | @working p hp =>
      cases hq : q.isTerminal with
      | true => exact ended hp hq h
      | false => exact push_reaching hp hq h ▸ working hq
  | @ended p last _ hlast _ =>
      have hstop : last.allows q = false := Phase.allows_of_isTerminal hlast q
      exact absurd (hstop.symm.trans h) Bool.false_ne_true

theorem move {t : Tracker} (ht : Charted t) (m : Move) : Charted (t.move m).2 := by
  rcases t.move_cases m with ⟨q, hq, hm⟩ | hm
  · exact hm ▸ ht.push hq
  · exact hm.symm ▸ ht

theorem follow {t : Tracker} (ht : Charted t) (moves : List Move) :
    Charted (t.follow moves) := by
  induction moves generalizing t with
  | nil => exact ht
  | cons m moves ih => exact ih (ht.move m)

/-- A charted path is the beginning of the phases of work, with at most one end after it. -/
theorem exists_take {t : Tracker} (ht : Charted t) :
    ∃ n, 0 < n ∧ n ≤ 7 ∧ (t.visited = Phase.working.take n ∨
      ∃ last, (last = .done ∨ last = .failed) ∧ t.visited = Phase.working.take n ++ [last]) := by
  cases ht with
  | @working p hp =>
      refine ⟨p.path.length, ?_⟩
      cases p <;> first | contradiction | exact ⟨by decide, by decide, .inl rfl⟩
  | @ended p q hp hq _ =>
      have hlast : q = .done ∨ q = .failed := by cases q <;> simp_all [Phase.isTerminal]
      refine ⟨p.path.length, ?_⟩
      cases p <;> first
        | contradiction
        | exact ⟨by decide, by decide, .inr ⟨q, hlast, rfl⟩⟩

/-- What a charted path does not do: pass from building or running a command to a good end, meet
a phase again, go on after an end, or meet more than eight phases. -/
theorem bounds {t : Tracker} (ht : Charted t) :
    ¬ [.parameterBuilding, .done] <:+: t.visited ∧ ¬ [.executing, .done] <:+: t.visited ∧
      t.visited.Nodup ∧ (∀ p ∈ t.visited.dropLast, p.isTerminal = false) ∧
      t.visited.length ≤ 8 := by
  cases ht with
  | @working p hp => cases p <;> first | contradiction | decide
  | @ended p q hp hq h => cases p <;> cases q <;> first | contradiction | decide

end Charted

/-! ### How many moves have an effect -/

/-- How many of the moves change the path. -/
def changes (t : Tracker) : List Move → Nat
  | [] => 0
  | m :: moves => (if (t.move m).2 = t then 0 else 1) + (t.move m).2.changes moves

theorem push_ne (t : Tracker) (p : Phase) : t.push p ≠ t := by
  intro h
  have hlength := congrArg (fun t => t.visited.length) h
  simp at hlength

/-- Every move that changes a path adds a phase to it. -/
theorem length_visited_follow (t : Tracker) (moves : List Move) :
    (t.follow moves).visited.length = t.visited.length + t.changes moves := by
  induction moves generalizing t with
  | nil => rfl
  | cons m moves ih =>
      rw [follow, List.foldl_cons, ← follow, ih, changes]
      rcases t.move_cases m with ⟨p, -, hm⟩ | hm
      · rw [hm, if_neg (t.push_ne p), visited_push, List.length_append, List.length_singleton]
        omega
      · rw [hm, if_pos rfl, Nat.zero_add]

/-- **A path goes forward and ends at most once, whatever it is asked for.**  After any moves it
has come over the first phases of work, in order and at least one of them, and perhaps to one
end, which is not a good one right after a command was built or run; no phase comes twice and
nothing after an end.  A step is taken just if the table has it, and else refused with where the
path is and where it was to go; a failure is noted just if the path has not ended, and tells where
it was.  An ended path stays as it is.  The moves that ever have an effect are one fewer than the
phases met, so there are at most seven of them. -/
theorem goes_forward (moves : List Move) :
    let t := start.follow moves
    (∃ n, 0 < n ∧ n ≤ 7 ∧ (t.visited = Phase.working.take n ∨
      ∃ last, (last = .done ∨ last = .failed) ∧ t.visited = Phase.working.take n ++ [last])) ∧
    ¬ [.parameterBuilding, .done] <:+: t.visited ∧ ¬ [.executing, .done] <:+: t.visited ∧
    t.visited.Nodup ∧ (∀ p ∈ t.visited.dropLast, p.isTerminal = false) ∧
    (∀ p, (t.move (.advance p)).1 = .taken ↔ t.current.allows p = true) ∧
    (∀ p, t.current.allows p = true →
      (t.move (.advance p)).2.visited = t.visited ++ [p]) ∧
    (∀ p, t.current.allows p = false →
      t.move (.advance p) = (.rejected t.current p, t)) ∧
    (t.move .fail).1 = .failedIn t.current ∧
    (t.move .fail).2.visited =
      (if t.current.isTerminal then t.visited else t.visited ++ [.failed]) ∧
    (t.current.isTerminal = true → ∀ more, t.follow more = t) ∧
    start.changes moves + 1 = t.visited.length ∧ start.changes moves ≤ 7 := by
  intro t
  have hcharted : Charted t := Charted.start.follow moves
  obtain ⟨hbuilding, hexecuting, hnodup, hlast, hlength⟩ := hcharted.bounds
  have hcount : t.visited.length = 1 + start.changes moves := start.length_visited_follow moves
  have htaken : ∀ p, (t.move (.advance p)).1 = .taken ↔ t.current.allows p = true := by
    intro p
    cases h : t.current.allows p with
    | true => simp [move_advance_of_allows h]
    | false => simp [move_advance_of_not_allows h]
  refine ⟨hcharted.exists_take, hbuilding, hexecuting, hnodup, hlast, htaken, ?_, ?_, rfl,
    t.visited_fail, fun h more => follow_of_isTerminal h more, by omega, by omega⟩
  · intro p h
    rw [move_advance_of_allows h, visited_push]
  · intro p h
    exact move_advance_of_not_allows h

/-- Refused steps and failures after the end leave no trace. -/
example : (start.follow [.advance .tainting, .advance .nodeValidating, .fail, .fail,
    .advance .done]).visited = [.fetching, .nodeValidating, .failed] := by decide

end Tracker

end NodeFencing
