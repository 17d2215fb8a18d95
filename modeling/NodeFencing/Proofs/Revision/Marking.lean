/-
Marks that are put into a list of an object and taken out of it.

A revision of an object gives back the object as it should be, or nothing if it is so already.
Steps that revise an object one after another each go on with what was given back last:
`revised` is the object that they leave, and `Revises` says that one of them gave something back.

The revisions here are of one kind.  The object has a list, every step is about some of the
items that a list may have, and the step either wants one of these there, at the end, or wants
none.  `Marking` says what such steps have to be told, and what is proved of them needs nothing
else: that a step gives nothing back exactly if its wish is met, that it is met after the step,
and that neither the items that no step is about nor the rest of the object ever change.
-/
import Mathlib.Data.List.Induction

namespace NodeFencing

/-! ### Revisions one after another -/

section

variable {σ α : Type} (revise? : σ → α → Option α) (a : α)

/-- The object after steps that revise it: what a step gives back takes its place. -/
def revised (steps : List σ) : α := steps.foldl (fun a s => (revise? s a).getD a) a

/-- Whether one of the steps gave an object back. -/
def Revises (steps : List σ) : Prop :=
  ∃ before s after, steps = before ++ s :: after ∧ revise? s (revised revise? a before) ≠ none

theorem revised_concat (steps : List σ) (s : σ) :
    revised revise? a (steps ++ [s]) =
      (revise? s (revised revise? a steps)).getD (revised revise? a steps) := by
  simp [revised, List.foldl_append]

theorem not_revises_nil : ¬ Revises revise? a [] := by
  rintro ⟨before, s, after, h, -⟩
  cases before <;> cases h

variable {revise? a}

theorem Revises.of_concat {steps : List σ} {s : σ} (h : Revises revise? a (steps ++ [s])) :
    Revises revise? a steps ∨ revise? s (revised revise? a steps) ≠ none := by
  obtain ⟨before, t, after, heq, ht⟩ := h
  obtain rfl | ⟨after, u, rfl⟩ := List.eq_nil_or_concat after
  · obtain ⟨rfl, hs⟩ := List.append_inj' heq rfl
    cases hs
    exact .inr ht
  · rw [List.concat_eq_append, ← List.cons_append, ← List.append_assoc] at heq
    obtain ⟨rfl, -⟩ := List.append_inj' heq rfl
    exact .inl ⟨before, t, after, rfl, ht⟩

/-- What every single step keeps, all of them keep. -/
theorem revised_invariant {P : α → Prop} {steps : List σ} (ha : P a)
    (hstep : ∀ s ∈ steps, ∀ b, P b → P ((revise? s b).getD b)) : P (revised revise? a steps) := by
  induction steps using List.reverseRecOn with
  | nil => exact ha
  | append_singleton steps s ih =>
      rw [revised_concat]
      refine hstep s (by simp) _ (ih ?_)
      intro t ht
      exact hstep t (by simp [ht])

end

/-! ### Marks -/

/-- What steps that put marks into a list of an object have to be told. -/
structure Marking (σ α β : Type) where
  /-- The list of an object. -/
  items : α → List β
  /-- The object with another list. -/
  withItems : α → List β → α
  /-- The items that a step is about. -/
  isAbout : σ → β → Bool
  /-- The item that a step wants there; none if it wants none. -/
  mark? : σ → Option β
  items_withItems (a : α) (l : List β) : items (withItems a l) = l
  withItems_withItems (a : α) (l l' : List β) : withItems (withItems a l) l' = withItems a l'
  isAbout_mark {s : σ} {b : β} (h : mark? s = some b) : isAbout s b = true

namespace Marking

variable {σ α β : Type} (M : Marking σ α β)

/-- Whether an object has an item that a step is about. -/
def has (s : σ) (a : α) : Bool := (M.items a).any (M.isAbout s)

/-- Whether a step wants an item there. -/
def wants (s : σ) : Bool := (M.mark? s).isSome

/-- The list as a step wants it: the items of others, and then its own. -/
def wanted (s : σ) (l : List β) : List β := l.filter (!M.isAbout s ·) ++ (M.mark? s).toList

/-- What a step gives back for an object. -/
def revise? (s : σ) (a : α) : Option α :=
  if M.has s a = M.wants s then none else some (M.withItems a (M.wanted s (M.items a)))

theorem any_wanted (s : σ) (l : List β) : (M.wanted s l).any (M.isAbout s) = M.wants s := by
  have hothers : (l.filter (!M.isAbout s ·)).any (M.isAbout s) = false := by simp
  unfold wanted wants
  rw [List.any_append, hothers, Bool.false_or]
  cases hmark : M.mark? s with
  | none => rfl
  | some b => simp [M.isAbout_mark hmark]

theorem filter_wanted {s : σ} {p : β → Bool} (hp : ∀ b, M.isAbout s b = true → p b = false)
    (l : List β) : (M.wanted s l).filter p = l.filter p := by
  have hmark : (M.mark? s).toList.filter p = [] := by
    cases hs : M.mark? s with
    | none => rfl
    | some b => simp [hp b (M.isAbout_mark hs)]
  unfold wanted
  rw [List.filter_append, hmark, List.append_nil, List.filter_filter]
  refine List.filter_congr ?_
  intro b _
  cases hb : M.isAbout s b with
  | false => simp
  | true => simp [hp b hb]

variable {M} {s : σ} {a : α}

theorem revise?_eq_none_iff : M.revise? s a = none ↔ M.has s a = M.wants s := by
  unfold revise?
  split
  · next h => exact iff_of_true rfl h
  · next h => exact iff_of_false (Option.some_ne_none _) h

theorem eq_of_revise?_eq_some {b : α} (h : M.revise? s a = some b) :
    b = M.withItems a (M.wanted s (M.items a)) := by
  unfold revise? at h
  split at h
  · cases h
  · exact (Option.some.inj h).symm

/-- After a step the object is as the step wants it. -/
theorem has_revise? : M.has s ((M.revise? s a).getD a) = M.wants s := by
  cases h : M.revise? s a with
  | none => exact revise?_eq_none_iff.mp h
  | some b =>
      obtain rfl := eq_of_revise?_eq_some h
      show (M.items (M.withItems a _)).any _ = _
      rw [M.items_withItems]
      exact M.any_wanted s _

/-- A step leaves the items that it is not about in order. -/
theorem filter_revise? {p : β → Bool} (hp : ∀ b, M.isAbout s b = true → p b = false) :
    (M.items ((M.revise? s a).getD a)).filter p = (M.items a).filter p := by
  cases h : M.revise? s a with
  | none => rfl
  | some b =>
      obtain rfl := eq_of_revise?_eq_some h
      show (M.items (M.withItems a _)).filter p = _
      rw [M.items_withItems, M.filter_wanted hp]

variable {steps : List σ}

/-- The items that no step is about stay, in order. -/
theorem filter_revised {p : β → Bool}
    (hp : ∀ s ∈ steps, ∀ b, M.isAbout s b = true → p b = false) :
    (M.items (revised M.revise? a steps)).filter p = (M.items a).filter p := by
  refine revised_invariant (P := fun b => (M.items b).filter p = (M.items a).filter p) rfl ?_
  intro s hs b hb
  rw [filter_revise? (hp s hs), hb]

/-- Nothing but the list changes. -/
theorem revised_eq_or : revised M.revise? a steps = a ∨
    revised M.revise? a steps = M.withItems a (M.items (revised M.revise? a steps)) := by
  refine revised_invariant (P := fun b => b = a ∨ b = M.withItems a (M.items b)) (.inl rfl) ?_
  intro s _ b hb
  cases h : M.revise? s b with
  | none => exact hb
  | some c =>
      obtain rfl := eq_of_revise?_eq_some h
      show _ ∨ M.withItems b _ = M.withItems a (M.items (M.withItems b _))
      rw [M.items_withItems]
      rcases hb with rfl | hb
      · exact .inr rfl
      · rw [hb, M.withItems_withItems]
        exact .inr rfl

/-- If all steps are about the same items, the list is as one of them wanted it. -/
theorem exists_items_revised {isOwn : β → Bool} (hown : ∀ s, M.isAbout s = isOwn)
    (h : Revises M.revise? a steps) :
    ∃ s ∈ steps, M.items (revised M.revise? a steps) =
      (M.items a).filter (!isOwn ·) ++ (M.mark? s).toList := by
  induction steps using List.reverseRecOn with
  | nil => exact absurd h (not_revises_nil _ _)
  | append_singleton steps s ih =>
      have hothers : (M.items (revised M.revise? a steps)).filter (!isOwn ·) =
          (M.items a).filter (!isOwn ·) := by
        refine filter_revised ?_
        intro t _ b hb
        rw [hown t] at hb
        simp [hb]
      rw [revised_concat]
      cases hs : M.revise? s (revised M.revise? a steps) with
      | none =>
          have hbefore : Revises M.revise? a steps :=
            h.of_concat.resolve_right fun hne => hne hs
          obtain ⟨t, ht, hitems⟩ := ih hbefore
          exact ⟨t, by simp [ht], hitems⟩
      | some b =>
          refine ⟨s, by simp, ?_⟩
          obtain rfl := eq_of_revise?_eq_some hs
          show M.items (M.withItems _ _) = _
          rw [M.items_withItems, wanted, hown s, hothers]

end Marking

end NodeFencing
