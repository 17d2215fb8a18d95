/-
Labels: texts under names, in the order of the names.

The names are strictly increasing, which is part of the type, so two sets of labels
with the same values under the same names are equal, however they came about.
-/
import NodeFencing.Ordered

namespace NodeFencing

/-- Texts under names (`BTreeMap`); the names are strictly increasing. -/
structure Labels where
  entries : List (String × String)
  increasing : entries.Pairwise (fun a b => a.1 < b.1)

namespace Labels

@[ext] theorem ext {l m : Labels} (h : l.entries = m.entries) : l = m := by
  cases l; cases m; cases h; rfl

instance : DecidableEq Labels := fun l m =>
  if h : l.entries = m.entries then isTrue (Labels.ext h)
  else isFalse fun e => h (e ▸ rfl)

/-- No labels. -/
def empty : Labels := ⟨[], List.Pairwise.nil⟩

instance : Inhabited Labels := ⟨empty⟩
instance : EmptyCollection Labels := ⟨empty⟩

variable {α : Type}

/-- The entries after a value was put under a name. -/
def place (name : String) (value : α) : List (String × α) → List (String × α)
  | [] => [(name, value)]
  | (n, v) :: rest =>
    if name < n then (name, value) :: (n, v) :: rest
    else if n < name then (n, v) :: place name value rest
    else (name, value) :: rest

theorem mem_place {name : String} {value : α} {e : String × α} {l : List (String × α)}
    (h : e ∈ place name value l) : e = (name, value) ∨ e ∈ l := by
  induction l with
  | nil => simp only [place, List.mem_singleton] at h; exact .inl h
  | cons a rest ih =>
    obtain ⟨n, v⟩ := a
    simp only [place] at h
    split at h
    · rcases List.mem_cons.mp h with h | h
      · exact .inl h
      · exact .inr h
    · split at h
      · rcases List.mem_cons.mp h with h | h
        · exact .inr (h ▸ List.mem_cons_self)
        · exact (ih h).imp_right (List.mem_cons_of_mem _)
      · rcases List.mem_cons.mp h with h | h
        · exact .inl h
        · exact .inr (List.mem_cons_of_mem _ h)

theorem increasing_place (name : String) (value : α) {l : List (String × α)}
    (h : l.Pairwise (fun a b => a.1 < b.1)) :
    (place name value l).Pairwise (fun a b => a.1 < b.1) := by
  induction l with
  | nil => simp [place]
  | cons a rest ih =>
    obtain ⟨n, v⟩ := a
    have hp := List.pairwise_cons.mp h
    simp only [place]
    split
    · next hlt =>
      refine List.pairwise_cons.mpr ⟨fun b hb => ?_, h⟩
      rcases List.mem_cons.mp hb with hb | hb
      · exact hb ▸ hlt
      · exact String.lt_trans hlt (hp.1 b hb)
    · next hnlt =>
      split
      · next hlt =>
        refine List.pairwise_cons.mpr ⟨fun b hb => ?_, ih hp.2⟩
        rcases mem_place hb with hb | hb
        · exact hb ▸ hlt
        · exact hp.1 b hb
      · next hnlt' =>
        have he : name = n := String.le_antisymm hnlt' hnlt
        exact List.pairwise_cons.mpr ⟨fun b hb => he ▸ hp.1 b hb, hp.2⟩

/-- Names that increase are distinct. -/
theorem nodup_of_increasing {l : List (String × α)} (h : l.Pairwise (fun a b => a.1 < b.1)) :
    (l.map Prod.fst).Nodup := by
  rw [List.Nodup, List.pairwise_map]
  refine h.imp fun {a b} h he => ?_
  rw [he] at h
  exact String.lt_irrefl b.1 h

/-- Puts a value under a name. -/
def insert (l : Labels) (name value : String) : Labels :=
  ⟨place name value l.entries, increasing_place name value l.increasing⟩

/-- The labels that read the pairs from left to right. -/
def ofList (pairs : List (String × String)) : Labels :=
  pairs.foldl (fun l p => l.insert p.1 p.2) empty

/-- The value under a name. -/
def get? (l : Labels) (name : String) : Option String := Ordered.lookup name l.entries

/-- A name that is above all others goes to the end. -/
theorem place_of_forall_lt {name : String} {value : α} {l : List (String × α)}
    (h : ∀ e ∈ l, e.1 < name) : place name value l = l ++ [(name, value)] := by
  induction l with
  | nil => rfl
  | cons a rest ih =>
    obtain ⟨n, v⟩ := a
    have hn : n < name := h (n, v) List.mem_cons_self
    have hnot : ¬ name < n := String.lt_asymm hn
    simp only [place, if_neg hnot, if_pos hn, List.cons_append,
      ih fun e he => h e (List.mem_cons_of_mem _ he)]

theorem foldl_place_of_increasing (pairs l : List (String × α))
    (h : (l ++ pairs).Pairwise (fun a b => a.1 < b.1)) :
    pairs.foldl (fun l p => place p.1 p.2 l) l = l ++ pairs := by
  induction pairs generalizing l with
  | nil => simp
  | cons p rest ih =>
    have hlt : ∀ e ∈ l, e.1 < p.1 := fun e he =>
      (List.pairwise_append.mp h).2.2 e he p List.mem_cons_self
    rw [List.foldl_cons, place_of_forall_lt hlt, ih, List.append_assoc, List.singleton_append]
    rw [List.append_assoc, List.singleton_append]
    exact h

/-- Pairs in the order of their names, the last of those with one name. -/
def placeAll (pairs : List (String × α)) : List (String × α) :=
  pairs.foldl (fun l p => place p.1 p.2 l) []

/-- Pairs that stand in the order of their names stay as they are. -/
theorem placeAll_of_increasing {pairs : List (String × α)}
    (h : pairs.Pairwise (fun a b => a.1 < b.1)) : placeAll pairs = pairs :=
  foldl_place_of_increasing pairs [] h

theorem increasing_placeAll (pairs : List (String × α)) :
    (placeAll pairs).Pairwise (fun a b => a.1 < b.1) :=
  List.foldlRecOn pairs (fun l p => place p.1 p.2 l) List.Pairwise.nil
    fun _ h p _ => increasing_place p.1 p.2 h

/-- Under a name is the value that was put there. -/
theorem lookup_place (name name' : String) (value : α) (l : List (String × α)) :
    Ordered.lookup name' (place name value l) =
      if name = name' then some value else Ordered.lookup name' l := by
  induction l with
  | nil => rfl
  | cons e rest ih =>
    obtain ⟨n, v⟩ := e
    simp only [place]
    split
    · rfl
    · split
      · next hlt =>
        by_cases h : n = name'
        · have hne : ¬ name = name' := fun e => String.lt_irrefl n (e.trans h.symm ▸ hlt)
          simp only [Ordered.lookup, if_pos h, if_neg hne]
        · simp only [Ordered.lookup, if_neg h, ih]
      · next hnlt hnlt' =>
        have he : name = n := String.le_antisymm hnlt' hnlt
        by_cases h : name = name'
        · simp only [Ordered.lookup, if_pos h]
        · have hne : ¬ n = name' := fun e => h (he.trans e)
          simp only [Ordered.lookup, if_neg h, if_neg hne]

theorem mem_of_mem_placeAll {e : String × α} {pairs : List (String × α)}
    (h : e ∈ placeAll pairs) : e ∈ pairs := by
  suffices ∀ l, e ∈ pairs.foldl (fun l p => place p.1 p.2 l) l → e ∈ l ∨ e ∈ pairs from
    (this [] h).resolve_left List.not_mem_nil
  clear h
  induction pairs with
  | nil => exact fun l h => .inl h
  | cons p rest ih =>
    intro l h
    rcases ih _ h with h | h
    · rcases mem_place h with rfl | h
      · exact .inr List.mem_cons_self
      · exact .inl h
    · exact .inr (List.mem_cons_of_mem _ h)

theorem entries_ofList (pairs : List (String × String)) :
    (ofList pairs).entries = placeAll pairs := by
  suffices ∀ l : Labels, (pairs.foldl (fun l p => l.insert p.1 p.2) l).entries =
      pairs.foldl (fun l p => place p.1 p.2 l) l.entries from this empty
  induction pairs with
  | nil => exact fun _ => rfl
  | cons p rest ih => exact fun l => ih (l.insert p.1 p.2)

/-- Reading the entries of labels gives the labels. -/
@[simp] theorem ofList_entries (l : Labels) : ofList l.entries = l :=
  Labels.ext ((entries_ofList l.entries).trans (placeAll_of_increasing l.increasing))

end Labels

end NodeFencing
