/-
Conditions that are set again and again.

Setting a condition looks at the one that stands in its place and at nothing before it.  Still
the time that it carries in the end is that of a whole past: since when the status of its type
has been what it is.  The `history` of a type is the condition that was found first and then all
that were set, and the `streak` is how long, from its end backwards, the status was the same.
`told?_concat` has one more setting as one more item of the history, and carries the induction:
what is found of a type is the last of its history, with the time at which the streak began.

Only the first condition of a type is ever looked at.  A list that has two of a type keeps the
others as they are, and no setting adds a second one.
-/
import Mathlib.Data.List.DropRight
import Mathlib.Data.List.Nodup
import NodeFencing.Condition

namespace NodeFencing.Condition

/-- The conditions after some more were set, one after another. -/
def setAll (sets cs : List Condition) : List Condition := sets.foldl (fun cs c => set c cs) cs

theorem setAll_concat (sets cs : List Condition) (c : Condition) :
    setAll (sets ++ [c]) cs = set c (setAll sets cs) := by
  simp [setAll, List.foldl_append]

/-! ### Types and places -/

/-- The types are those that were there, and then the new ones in the order in which they were
first set, each once. -/
theorem map_type_setAll (sets cs : List Condition) :
    (setAll sets cs).map Condition.type = cs.map Condition.type ++
      ((sets.map Condition.type).filter (· ∉ cs.map Condition.type)).eraseDups := by
  induction sets using List.reverseRecOn with
  | nil => simp [setAll]
  | append_singleton sets c ih =>
      rw [setAll_concat, map_type_set, ih, List.map_append, List.map_singleton, List.filter_append]
      generalize cs.map Condition.type = types
      by_cases hold : c.type ∈ types
      · simp [hold]
      · have hnew : [c.type].filter (· ∉ types) = [c.type] := by simp [hold]
        rw [hnew, Ordered.eraseDups_concat]
        simp only [List.mem_append, List.mem_eraseDups, hold, false_or]
        split
        · rfl
        · exact List.append_assoc ..

/-- No setting brings a type in twice. -/
theorem nodup_map_type_setAll {sets cs : List Condition} (h : (cs.map Condition.type).Nodup) :
    ((setAll sets cs).map Condition.type).Nodup := by
  induction sets using List.reverseRecOn with
  | nil => exact h
  | append_singleton sets c ih =>
      rw [setAll_concat, map_type_set]
      split
      · exact ih
      · next hnew =>
          rw [← List.concat_eq_append]
          exact List.Nodup.concat hnew ih

/-- Setting leaves the types where they are. -/
theorem map_type_take_set (c : Condition) {cs : List Condition} {i : Nat} (h : i ≤ cs.length) :
    ((set c cs).take i).map Condition.type = (cs.take i).map Condition.type := by
  rw [List.map_take, List.map_take, map_type_set]
  split
  · rfl
  · exact List.take_append_of_le_length (by simpa using h)

/-- Setting leaves what has another type, or one of its own type before it. -/
theorem getElem?_set_of_passed {c old : Condition} {cs : List Condition} {i : Nat}
    (h : cs[i]? = some old)
    (hpassed : c.type ≠ old.type ∨ old.type ∈ (cs.take i).map Condition.type) :
    (set c cs)[i]? = some old := by
  induction cs generalizing i with
  | nil => simp at h
  | cons first rest ih =>
      by_cases hfirst : first.type = c.type
      · rw [set, if_pos hfirst]
        cases i with
        | zero =>
            obtain rfl : first = old := by simpa using h
            simp [hfirst] at hpassed
        | succ i => exact h
      · rw [set, if_neg hfirst]
        cases i with
        | zero => exact h
        | succ i =>
            refine ih h ?_
            rw [List.take_succ_cons, List.map_cons, List.mem_cons] at hpassed
            rcases hpassed with hne | heq | hmem
            · exact .inl hne
            · exact .inl fun e => hfirst (heq.symm.trans e.symm)
            · exact .inr hmem

theorem getElem?_setAll_of_passed {sets cs : List Condition} {old : Condition} {i : Nat}
    (h : cs[i]? = some old)
    (hpassed : (∀ c ∈ sets, c.type ≠ old.type) ∨ old.type ∈ (cs.take i).map Condition.type) :
    (setAll sets cs)[i]? = some old := by
  induction sets generalizing cs with
  | nil => exact h
  | cons c sets ih =>
      have hi : i ≤ cs.length := (List.getElem?_eq_some_iff.mp h).1.le
      refine ih (getElem?_set_of_passed h ?_) ?_
      · exact hpassed.imp (fun hall => hall c (by simp)) id
      · rw [map_type_take_set c hi]
        exact hpassed.imp (fun hall d hd => hall d (by simp [hd])) id

/-! ### Streaks -/

/-- What was said under a type: what was found there first, and then what was set. -/
def history (type : String) (sets cs : List Condition) : List Condition :=
  (cs.find? (·.type == type)).toList ++ sets.filter (·.type == type)

/-- The end of a history over which the status has been the same. -/
def streak (h : List Condition) : List Condition :=
  match h.getLast? with
  | none => []
  | some last => h.rtakeWhile (·.status == last.status)

/-- What a history tells in the end: the last that was said, with the time at which its streak
began. -/
def told? (h : List Condition) : Option Condition :=
  h.getLast?.bind fun last =>
    (streak h).head?.map fun first => { last with lastTransitionTime := first.lastTransitionTime }

theorem streak_concat (h : List Condition) (c : Condition) :
    streak (h ++ [c]) = h.rtakeWhile (·.status == c.status) ++ [c] := by
  unfold streak
  rw [List.getLast?_concat]
  exact List.rtakeWhile_concat_pos _ _ _ (beq_self_eq_true c.status)

/-- One more setting is one more item of the history. -/
theorem told?_concat (h : List Condition) (c : Condition) :
    told? (h ++ [c]) = some (((told? h).map c.succeeding).getD c) := by
  unfold told?
  rw [List.getLast?_concat, streak_concat]
  obtain rfl | ⟨h, last, rfl⟩ := List.eq_nil_or_concat h
  · rfl
  · rw [List.concat_eq_append, List.getLast?_concat, streak_concat]
    unfold succeeding
    by_cases hsame : last.status = c.status
    · rw [hsame, List.rtakeWhile_concat_pos _ _ _ (by simp [hsame])]
      cases (h.rtakeWhile (·.status == c.status)) <;> simp [hsame]
    · rw [List.rtakeWhile_concat_neg _ _ _ (by simp [hsame])]
      cases (h.rtakeWhile (·.status == last.status)) <;> simp [hsame]

/-- A history with a last item tells that item, with the time of the first of the streak. -/
theorem told?_of_getLast? {h : List Condition} {last : Condition} (hlast : h.getLast? = some last) :
    ∃ first, (streak h).head? = some first ∧
      told? h = some { last with lastTransitionTime := first.lastTransitionTime } := by
  obtain ⟨before, rfl⟩ := List.getLast?_eq_some_iff.mp hlast
  have hstreak : streak (before ++ [last]) ≠ [] := by
    rw [streak_concat]
    simp
  obtain ⟨first, later, hfirst⟩ := List.exists_cons_of_ne_nil hstreak
  refine ⟨first, by rw [hfirst]; rfl, ?_⟩
  rw [told?, hlast, hfirst]
  rfl

/-- What is found of a type is what its history tells. -/
theorem find?_setAll (type : String) (sets cs : List Condition) :
    (setAll sets cs).find? (·.type == type) = told? (history type sets cs) := by
  induction sets using List.reverseRecOn with
  | nil =>
      unfold history
      cases hfound : cs.find? (·.type == type) with
      | none => exact hfound
      | some old =>
          show cs.find? _ = told? [old]
          have hone : told? [old] = some old := told?_concat [] old
          rw [hfound, hone]
  | append_singleton sets c ih =>
      rw [setAll_concat, find?_type_set, ih]
      by_cases h : c.type = type
      · have hmore : history type (sets ++ [c]) cs = history type sets cs ++ [c] := by
          simp [history, h]
        rw [if_pos h, hmore, told?_concat]
      · have hsame : history type (sets ++ [c]) cs = history type sets cs := by
          simp [history, h]
        rw [if_neg h, hsame]

/-- For a type that was set, its history ends with what was set last. -/
theorem getLast?_history {type : String} {sets cs : List Condition} {last : Condition}
    (h : (sets.filter (·.type == type)).getLast? = some last) :
    (history type sets cs).getLast? = some last := by
  unfold history
  rw [List.getLast?_append, h]
  rfl

/-- The answers about an aspect are read off the end of its history. -/
theorem answers_setAll (aspect : Aspect) (sets cs : List Condition) :
    holds aspect (setAll sets cs) =
      (history aspect.name sets cs).getLast?.any (·.status == "True") ∧
    reason? aspect (setAll sets cs) =
      (history aspect.name sets cs).getLast?.map Condition.reason := by
  have hfound : find? aspect (setAll sets cs) = told? (history aspect.name sets cs) :=
    find?_setAll aspect.name sets cs
  unfold holds reason?
  rw [hfound]
  cases hlast : (history aspect.name sets cs).getLast? with
  | none =>
      rw [told?, hlast]
      exact ⟨rfl, rfl⟩
  | some last =>
      obtain ⟨first, -, htold⟩ := told?_of_getLast? hlast
      rw [htold]
      exact ⟨rfl, rfl⟩

/--
**What conditions tell after any settings.**  The types are those that were there and then the
new ones, in the order in which they were first set, so no setting brings a type in twice.  What
has a type that was never set stays in its place, and so does what has one of its own type before
it.  Of a type that was set, what is found is the last that was set, with the time of the
condition that began the streak its status is in: one that was set, or the one that was there if
the streak goes back to it.  The answers about an aspect are the status and the reason found.
-/
theorem told_by_setAll (sets cs : List Condition) :
    let result := setAll sets cs
    result.map Condition.type = cs.map Condition.type ++
      ((sets.map Condition.type).filter (· ∉ cs.map Condition.type)).eraseDups ∧
    ((cs.map Condition.type).Nodup → (result.map Condition.type).Nodup) ∧
    (∀ i old, cs[i]? = some old →
      (∀ c ∈ sets, c.type ≠ old.type) ∨ old.type ∈ (cs.take i).map Condition.type →
      result[i]? = some old) ∧
    (∀ type last, (sets.filter (·.type == type)).getLast? = some last →
      ∃ first, (streak (history type sets cs)).head? = some first ∧
        result.find? (·.type == type) =
          some { last with lastTransitionTime := first.lastTransitionTime }) ∧
    ∀ aspect,
      holds aspect result = (history aspect.name sets cs).getLast?.any (·.status == "True") ∧
      reason? aspect result = (history aspect.name sets cs).getLast?.map Condition.reason := by
  intro result
  refine ⟨map_type_setAll sets cs, nodup_map_type_setAll, ?_, ?_, ?_⟩
  · intro i old h hpassed
    exact getElem?_setAll_of_passed h hpassed
  · intro type last h
    have hlast : (history type sets cs).getLast? = some last := getLast?_history h
    obtain ⟨first, hfirst, htold⟩ := told?_of_getLast? hlast
    exact ⟨first, hfirst, (find?_setAll type sets cs).trans htold⟩
  · intro aspect
    exact answers_setAll aspect sets cs

/-- The time is neither that of the last setting nor that of the first, but that of the flip. -/
example :
    let said (status time : String) : Condition := ⟨"Ready", status, "", "", time, none⟩
    (setAll [said "True" "2", said "False" "3", ⟨"Idle", "True", "", "", "4", none⟩,
      said "False" "5"] [said "True" "1"]).map (·.lastTransitionTime) = ["3", "4"] := by
  decide

end NodeFencing.Condition
