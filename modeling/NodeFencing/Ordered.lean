/-
Maps that keep the order of their keys.

A map here is its list of entries, every key once, in the order in which the keys
first came.  Putting a value under a key that is already there keeps the key's
place and takes the new value; a new key goes to the end.  That the keys are
distinct is part of the type, so no operation has to be told of it.
-/

namespace NodeFencing

/-- Entries with distinct keys, in the order of first insertion (`IndexMap`). -/
structure Ordered (κ α : Type) where
  entries : List (κ × α)
  distinct : (entries.map Prod.fst).Nodup

namespace Ordered

variable {κ α : Type}

@[ext] theorem ext {m n : Ordered κ α} (h : m.entries = n.entries) : m = n := by
  cases m; cases n; cases h; rfl

instance [DecidableEq κ] [DecidableEq α] : DecidableEq (Ordered κ α) := fun m n =>
  if h : m.entries = n.entries then isTrue (Ordered.ext h)
  else isFalse fun e => h (e ▸ rfl)

/-- The map without entries. -/
def empty : Ordered κ α := ⟨[], by simp⟩

instance : Inhabited (Ordered κ α) := ⟨empty⟩
instance : EmptyCollection (Ordered κ α) := ⟨empty⟩

/-- The keys in order. -/
def keys (m : Ordered κ α) : List κ := m.entries.map Prod.fst

/-- The values in the order of their keys. -/
def values (m : Ordered κ α) : List α := m.entries.map Prod.snd

/-- The number of entries. -/
def size (m : Ordered κ α) : Nat := m.entries.length

variable [DecidableEq κ]

/-- The value of the first entry with the key. -/
def lookup (k : κ) : List (κ × α) → Option α
  | [] => none
  | (k', v) :: rest => if k' = k then some v else lookup k rest

/-- The value under a key. -/
def get? (m : Ordered κ α) (k : κ) : Option α := lookup k m.entries

/-- Whether a key is there. -/
def contains (m : Ordered κ α) (k : κ) : Bool := (m.get? k).isSome

/-- The entries after a value was put under a key: in the key's place, or at the end. -/
def place (k : κ) (v : α) : List (κ × α) → List (κ × α)
  | [] => [(k, v)]
  | (k', v') :: rest => if k' = k then (k, v) :: rest else (k', v') :: place k v rest

/-! ### The keys after an insertion -/

/-- One key more, without repetitions: it comes last if it is new. -/
theorem eraseDups_concat (l : List κ) (k : κ) :
    (l ++ [k]).eraseDups = if k ∈ l then l.eraseDups else l.eraseDups ++ [k] := by
  rw [List.eraseDups_append]
  by_cases h : k ∈ l <;> simp [List.removeAll, List.eraseDups_cons, h]

theorem keys_place (k : κ) (v : α) (l : List (κ × α)) :
    (place k v l).map Prod.fst =
      if k ∈ l.map Prod.fst then l.map Prod.fst else l.map Prod.fst ++ [k] := by
  induction l with
  | nil => simp [place]
  | cons e rest ih =>
    obtain ⟨k', v'⟩ := e
    by_cases h : k' = k
    · subst h; simp [place]
    · have hne : ¬ k = k' := fun e => h e.symm
      by_cases hm : k ∈ rest.map Prod.fst
      · simp only [place, if_neg h, List.map_cons, ih,
          List.mem_cons, hm, or_true, if_true]
      · simp only [place, if_neg h, List.map_cons, ih,
          List.mem_cons, hne, hm, or_false, if_false, List.cons_append]

theorem nodup_place (k : κ) (v : α) {l : List (κ × α)} (h : (l.map Prod.fst).Nodup) :
    ((place k v l).map Prod.fst).Nodup := by
  rw [keys_place]
  split
  · exact h
  · next hk =>
    refine List.nodup_append.mpr ⟨h, by simp, ?_⟩
    intro a ha b hb
    simp only [List.mem_singleton] at hb
    intro e
    exact hk (hb ▸ e ▸ ha)

theorem mem_place {k : κ} {v : α} {e : κ × α} {l : List (κ × α)} (h : e ∈ place k v l) :
    e = (k, v) ∨ e ∈ l := by
  induction l with
  | nil => exact .inl (List.mem_singleton.mp h)
  | cons a rest ih =>
    simp only [place] at h
    split at h
    · exact (List.mem_cons.mp h).imp_right (List.mem_cons_of_mem a)
    · rcases List.mem_cons.mp h with rfl | h
      · exact .inr List.mem_cons_self
      · exact (ih h).imp_right (List.mem_cons_of_mem a)

/-- A new key goes to the end. -/
theorem place_of_not_mem {k : κ} {v : α} {l : List (κ × α)} (h : k ∉ l.map Prod.fst) :
    place k v l = l ++ [(k, v)] := by
  induction l with
  | nil => rfl
  | cons a rest ih =>
    rw [List.map_cons, List.mem_cons, not_or] at h
    rw [place, if_neg (Ne.symm h.1), ih h.2, List.cons_append]

/-- Puts a value under a key. -/
def insert (m : Ordered κ α) (k : κ) (v : α) : Ordered κ α :=
  ⟨place k v m.entries, nodup_place k v m.distinct⟩

/-- The map that reads the pairs from left to right. -/
def ofList (pairs : List (κ × α)) : Ordered κ α :=
  pairs.foldl (fun m p => m.insert p.1 p.2) empty

/-- The map without the key. -/
def erase (m : Ordered κ α) (k : κ) : Ordered κ α :=
  ⟨m.entries.filter (fun e => decide (e.1 ≠ k)),
    (List.filter_sublist.map Prod.fst).nodup m.distinct⟩

/-- Puts a value that may depend on the value that was there. -/
def alter (m : Ordered κ α) (k : κ) (f : Option α → α) : Ordered κ α :=
  m.insert k (f (m.get? k))

/-! ### Reading after an operation -/

theorem lookup_place (k k' : κ) (v : α) (l : List (κ × α)) :
    lookup k' (place k v l) = if k = k' then some v else lookup k' l := by
  induction l with
  | nil => by_cases h : k = k' <;> simp [place, lookup, h]
  | cons e rest ih =>
    obtain ⟨a, b⟩ := e
    by_cases ha : a = k
    · subst ha; by_cases h : a = k' <;> simp [place, lookup, h]
    · by_cases h : k = k'
      · subst h; simp [place, lookup, ha, ih]
      · simp only [place, if_neg ha, lookup, ih, if_neg h]

@[simp] theorem get?_empty (k : κ) : (empty : Ordered κ α).get? k = none := rfl

@[simp] theorem get?_insert (m : Ordered κ α) (k k' : κ) (v : α) :
    (m.insert k v).get? k' = if k = k' then some v else m.get? k' :=
  lookup_place k k' v m.entries

theorem lookup_filter_ne (k k' : κ) (l : List (κ × α)) :
    lookup k' (l.filter (fun e => decide (e.1 ≠ k))) =
      if k = k' then none else lookup k' l := by
  induction l with
  | nil => simp [lookup]
  | cons e rest ih =>
    obtain ⟨a, b⟩ := e
    by_cases ha : a = k
    · have hf : ((a, b) :: rest).filter (fun e => decide (e.1 ≠ k)) =
          rest.filter (fun e => decide (e.1 ≠ k)) := List.filter_cons_of_neg (by simp [ha])
      rw [hf, ih]
      by_cases h : k = k'
      · simp [h]
      · have hak : ¬ a = k' := fun e => h (ha ▸ e)
        simp only [if_neg h, lookup, if_neg hak]
    · have hf : ((a, b) :: rest).filter (fun e => decide (e.1 ≠ k)) =
          (a, b) :: rest.filter (fun e => decide (e.1 ≠ k)) :=
        List.filter_cons_of_pos (by simp [ha])
      rw [hf]
      simp only [lookup, ih]
      by_cases h : k = k'
      · have hak : ¬ a = k' := fun e => ha (e.trans h.symm)
        simp only [if_pos h, if_neg hak]
      · simp only [if_neg h]

@[simp] theorem get?_erase (m : Ordered κ α) (k k' : κ) :
    (m.erase k).get? k' = if k = k' then none else m.get? k' :=
  lookup_filter_ne k k' m.entries

theorem lookup_eq_none_iff (k : κ) (l : List (κ × α)) :
    lookup k l = none ↔ k ∉ l.map Prod.fst := by
  induction l with
  | nil => simp [lookup]
  | cons e rest ih =>
    obtain ⟨a, b⟩ := e
    by_cases h : a = k
    · subst h; simp [lookup]
    · simp only [lookup, if_neg h, ih, List.map_cons, List.mem_cons, not_or]
      exact ⟨fun hn => ⟨fun e => h e.symm, hn⟩, And.right⟩

/-- A key is among the keys exactly when a value is under it. -/
theorem mem_keys_iff (m : Ordered κ α) (k : κ) : k ∈ m.keys ↔ (m.get? k).isSome := by
  have hiff := lookup_eq_none_iff k m.entries
  cases h : m.get? k with
  | none => exact ⟨fun hk => absurd hk (hiff.mp h), fun hs => by cases hs⟩
  | some v =>
    simp only [Option.isSome_some, iff_true]
    refine Decidable.not_not.mp fun hk => ?_
    have hn : m.get? k = none := hiff.mpr hk
    rw [h] at hn
    cases hn

end Ordered

end NodeFencing
