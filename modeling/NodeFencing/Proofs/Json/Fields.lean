/-
The order of members.

The members of an object are read into a record field by field, and a member of one name does
nothing to the field of another.  So two members of different names may be read in either order,
and one of a name that is not known wherever it stands.  `members_perm` takes this from two
neighbours to any order: a member is brought to the front past the members before it, which have
other names, and the rest is in the other order by induction.

What is left are members that have the same known name.  Of these the order counts, if they are
accepted at all; a declared object refuses them.
-/
import Mathlib.Data.List.Pairwise
import NodeFencing.Proofs.Json.Faithful

namespace NodeFencing.Json

variable {P α : Type}

/-! ### Fields -/

/-- A field of a record that members are read into: what it is before it is given, what is made of
a member, given what was found for the field before, and where the record keeps it. -/
structure Field (P : Type) where
  name : String
  Value : Type
  absent : Value
  read : Value → Reader Value
  get : P → Value
  set : P → Value → P

namespace Field

/-- A field that is given at most once. -/
@[simp] def once (name : String) (read : Reader α) (get : P → Option α) (set : P → Option α → P) :
    Field P :=
  ⟨name, Option α, none, Reader.once read, get, set⟩

/-- A field that keeps the last of the values that are given for it, or has a default. -/
@[simp] def kept (name : String) (default : α) (read : Reader α) (get : P → α) (set : P → α → P) :
    Field P :=
  ⟨name, α, default, fun _ => read, get, set⟩

/-- A field that keeps the last of the values that are given for it, if there are any. -/
@[simp] def last (name : String) (read : Reader α) (get : P → Option α) (set : P → Option α → P) :
    Field P :=
  kept name none (Reader.last read) get set

/-- A text that is empty where none is given. -/
@[simp] def textOrEmpty (name : String) (get : P → String) (set : P → String → P) : Field P :=
  kept name "" (fun d => (·.getD "") <$> Reader.last Reader.text d) get set

/-- Two fields of different names that do nothing to each other. -/
@[mk_iff apart_iff]
structure Apart (s t : Field P) : Prop where
  name_ne : s.name ≠ t.name
  get_set : ∀ f v, t.get (s.set f v) = t.get f
  get_set' : ∀ f v, s.get (t.set f v) = s.get f
  set_comm : ∀ f v w, t.set (s.set f v) w = s.set (t.set f w) v

instance : Std.Symm (Field.Apart (P := P)) where
  symm _ _ h := ⟨h.name_ne.symm, h.get_set', h.get_set, fun f v w => (h.set_comm f w v).symm⟩

/-- Reads a member into the field of its name, and steps over it if there is none. -/
def put (fields : List (Field P)) (f : P) (name : String) (d : Document) : Except Fault P :=
  match fields.find? (·.name == name) with
  | some s => s.set f <$> s.read (s.get f) d
  | none => do d.skip; return f

theorem put_of_not_mem {fields : List (Field P)} {name : String}
    (h : name ∉ fields.map Field.name) (f : P) (d : Document) :
    put fields f name d = do d.skip; return f := by
  have hfind : fields.find? (·.name == name) = none :=
    List.find?_eq_none.mpr fun s hs hname => h (beq_iff_eq.mp hname ▸ List.mem_map_of_mem hs)
  rw [put, hfind]

/-- Whether a field accepts only values in which nothing breaks off. -/
def WantsWhole (s : Field P) : Prop := ∀ found d v, s.read found d = .ok v → d.IsWhole

end Field

/-- Members are read field by field. -/
structure Reads (put : P → String → Document → Except Fault P) (fields : List (Field P)) :
    Prop where
  put_eq : ∀ f name d, put f name d = Field.put fields f name d
  apart : fields.Pairwise Field.Apart
  get_set : ∀ s ∈ fields, ∀ f v, s.get (s.set f v) = v
  wantsWhole : ∀ s ∈ fields, s.WantsWhole

namespace Reads

variable {put : P → String → Document → Except Fault P} {fields : List (Field P)}
  {f g k : P} {name name' : String} {d d' : Document}

theorem apart_of_mem (h : Reads put fields) {s t : Field P} (hs : s ∈ fields) (ht : t ∈ fields)
    (hne : s.name ≠ t.name) : s.Apart t :=
  h.apart.forall hs ht fun hst => hne (congrArg Field.name hst)

theorem eq_of_mem (h : Reads put fields) {s t : Field P} (hs : s ∈ fields) (ht : t ∈ fields)
    (hname : s.name = t.name) : s = t := by
  by_contra hne
  exact (h.apart.forall hs ht hne).name_ne hname

/-- A member is read into the field of its name, or there is none and it is stepped over. -/
theorem put_eq_ok_iff (h : Reads put fields) :
    put f name d = .ok g ↔
      (∃ s ∈ fields, s.name = name ∧ ∃ v, s.read (s.get f) d = .ok v ∧ s.set f v = g) ∨
        name ∉ fields.map Field.name ∧ d.IsWhole ∧ f = g := by
  rw [h.put_eq, Field.put]
  cases hfind : fields.find? (·.name == name) with
  | some s =>
      have hs : s ∈ fields := List.mem_of_find?_eq_some hfind
      have hname : s.name = name := by simpa using List.find?_some hfind
      constructor
      · intro hput
        obtain ⟨v, hv, hg⟩ := map_eq_ok.mp hput
        exact .inl ⟨s, hs, hname, v, hv, hg⟩
      · rintro (⟨t, ht, htname, v, hv, hg⟩ | ⟨hnot, -, -⟩)
        · obtain rfl : s = t := h.eq_of_mem hs ht (hname.trans htname.symm)
          exact map_eq_ok.mpr ⟨v, hv, hg⟩
        · exact absurd (hname ▸ List.mem_map_of_mem hs) hnot
  | none =>
      have hnot : name ∉ fields.map Field.name := by
        intro hmem
        obtain ⟨s, hs, rfl⟩ := List.mem_map.mp hmem
        simpa using List.find?_eq_none.mp hfind s hs
      constructor
      · intro hput
        obtain ⟨_, hskip, hg⟩ := bind_eq_ok.mp hput
        cases hg
        exact .inr ⟨hnot, hskip, rfl⟩
      · rintro (⟨s, hs, rfl, -⟩ | ⟨-, hwhole, rfl⟩)
        · exact absurd (List.mem_map_of_mem hs) hnot
        · exact bind_eq_ok.mpr ⟨(), hwhole, rfl⟩

theorem put_of_mem (h : Reads put fields) {s : Field P} (hs : s ∈ fields) {v : s.Value}
    (hv : s.read (s.get f) d = .ok v) : put f s.name d = .ok (s.set f v) :=
  h.put_eq_ok_iff.mpr (.inl ⟨s, hs, rfl, v, hv, rfl⟩)

theorem exists_of_put (h : Reads put fields) {s : Field P} (hs : s ∈ fields)
    (hput : put f s.name d = .ok g) : ∃ v, s.read (s.get f) d = .ok v ∧ s.set f v = g := by
  rcases h.put_eq_ok_iff.mp hput with ⟨t, ht, hname, hv⟩ | ⟨hnot, -, -⟩
  · obtain rfl : t = s := h.eq_of_mem ht hs hname
    exact hv
  · exact absurd (List.mem_map_of_mem hs) hnot

theorem put_of_not_mem (h : Reads put fields) (hname : name ∉ fields.map Field.name)
    (hd : d.IsWhole) : put f name d = .ok f :=
  h.put_eq_ok_iff.mpr (.inr ⟨hname, hd, rfl⟩)

theorem of_put_of_not_mem (h : Reads put fields) (hname : name ∉ fields.map Field.name)
    (hput : put f name d = .ok g) : d.IsWhole ∧ f = g := by
  rcases h.put_eq_ok_iff.mp hput with ⟨s, hs, rfl, -⟩ | ⟨-, hwhole⟩
  · exact absurd (List.mem_map_of_mem hs) hname
  · exact hwhole

theorem isWhole_of_put (h : Reads put fields) (hput : put f name d = .ok g) : d.IsWhole := by
  rcases h.put_eq_ok_iff.mp hput with ⟨s, hs, -, v, hv, -⟩ | ⟨-, hwhole, -⟩
  · exact h.wantsWhole s hs _ d v hv
  · exact hwhole

/-- Members of other names leave a field as it is. -/
theorem get_of_put (h : Reads put fields) {s : Field P} (hs : s ∈ fields) (hne : s.name ≠ name)
    (hput : put f name d = .ok g) : s.get g = s.get f := by
  rcases h.put_eq_ok_iff.mp hput with ⟨t, ht, rfl, v, -, rfl⟩ | ⟨-, -, rfl⟩
  · exact (h.apart_of_mem hs ht hne).get_set' f v
  · rfl

/-- Two members of different names, or one of a name that is not known, are read in any order. -/
theorem put_comm (h : Reads put fields) (hne : name ≠ name' ∨ name ∉ fields.map Field.name)
    (hput : put f name d = .ok g) (hput' : put g name' d' = .ok k) :
    ∃ g', put f name' d' = .ok g' ∧ put g' name d = .ok k := by
  by_cases hname : name ∈ fields.map Field.name
  · obtain ⟨s, hs, rfl⟩ := List.mem_map.mp hname
    obtain ⟨v, hv, rfl⟩ := h.exists_of_put hs hput
    have hne : s.name ≠ name' := hne.resolve_right fun hnot => hnot hname
    by_cases hname' : name' ∈ fields.map Field.name
    · obtain ⟨t, ht, rfl⟩ := List.mem_map.mp hname'
      obtain ⟨w, hw, rfl⟩ := h.exists_of_put ht hput'
      have hapart := h.apart_of_mem hs ht hne
      rw [hapart.get_set] at hw
      rw [hapart.set_comm]
      exact ⟨_, h.put_of_mem ht hw, h.put_of_mem hs (by rwa [hapart.get_set'])⟩
    · obtain ⟨hwhole, rfl⟩ := h.of_put_of_not_mem hname' hput'
      exact ⟨f, h.put_of_not_mem hname' hwhole, hput⟩
  · obtain ⟨hwhole, rfl⟩ := h.of_put_of_not_mem hname hput
    exact ⟨k, hput', h.put_of_not_mem hname hwhole⟩

end Reads

/-! ### Members one after the other -/

section Members

variable {put : P → String → Document → Except Fault P} {f g : P}

theorem members_cons_eq_ok_iff {m : Name × Document} {ms : List (Name × Document)} :
    Reader.members put f (m :: ms) = .ok g ↔
      ∃ name f', m.1 = .ok name ∧ put f name m.2 = .ok f' ∧ Reader.members put f' ms = .ok g := by
  rw [Reader.members, bind_eq_ok]
  simp only [bind_eq_ok]
  constructor
  · rintro ⟨name, hname, f', hput, hrest⟩
    exact ⟨name, f', hname, hput, hrest⟩
  · rintro ⟨name, f', hname, hput, hrest⟩
    exact ⟨name, hname, f', hput, hrest⟩

theorem members_append_eq_ok_iff {before after : List (Name × Document)} :
    Reader.members put f (before ++ after) = .ok g ↔
      ∃ f', Reader.members put f before = .ok f' ∧ Reader.members put f' after = .ok g := by
  induction before generalizing f with
  | nil => simp [Reader.members]
  | cons m before ih =>
      simp only [List.cons_append, members_cons_eq_ok_iff, ih]
      constructor
      · rintro ⟨name, f', hname, hput, f'', hbefore, hafter⟩
        exact ⟨f'', ⟨name, f', hname, hput, hbefore⟩, hafter⟩
      · rintro ⟨f'', ⟨name, f', hname, hput, hbefore⟩, hafter⟩
        exact ⟨name, f', hname, hput, f'', hbefore, hafter⟩

/-- What is accepted member by member is whole member by member. -/
theorem isWhole_of_members (hput : ∀ f name d g, put f name d = .ok g → d.IsWhole)
    {ms : List (Name × Document)} (hread : Reader.members put f ms = .ok g) :
    ∀ m ∈ ms, m.2.IsWhole := by
  induction ms generalizing f with
  | nil => nofun
  | cons m ms ih =>
      obtain ⟨name, f', -, hm, hrest⟩ := members_cons_eq_ok_iff.mp hread
      exact List.forall_mem_cons.mpr ⟨hput f name m.2 f' hm, ih hrest⟩

end Members

/-- Whether a member has a name. -/
def isNamed (name : String) (m : Name × Document) : Bool :=
  match m.1 with
  | .ok n => n == name
  | .error _ => false

theorem isNamed_iff {name : String} {m : Name × Document} :
    isNamed name m = true ↔ m.1 = .ok name := by
  obtain ⟨n, d⟩ := m
  cases n <;> simp [isNamed]

theorem isNamed_ok (name name' : String) (d : Document) :
    isNamed name' (.ok name, d) = (name == name') := rfl

section Order

variable {name : String} {d : Document} {before after ms ms' : List (Name × Document)}

theorem filter_eq_nil_of_forall (h : ∀ m ∈ ms, isNamed name m = false) :
    ms.filter (isNamed name) = [] :=
  List.filter_eq_nil_iff.mpr fun m hm => Bool.eq_false_iff.mp (h m hm)

/-- What is read has a name. -/
theorem exists_name_of_members {put : P → String → Document → Except Fault P} {f g : P}
    (hread : Reader.members put f ms = .ok g) {m : Name × Document} (hm : m ∈ ms) :
    ∃ name, m.1 = .ok name := by
  obtain ⟨before, after, rfl⟩ := List.append_of_mem hm
  obtain ⟨_, -, hrest⟩ := members_append_eq_ok_iff.mp hread
  obtain ⟨name, -, hname, -⟩ := members_cons_eq_ok_iff.mp hrest
  exact ⟨name, hname⟩

/-- A member stands somewhere among others; as the first one of its name, if those of this name
have to begin with it. -/
theorem exists_first {known : Prop} (hm : (.ok name, d) ∈ ms)
    (hsame : known → ms.filter (isNamed name) = ((.ok name, d) :: ms').filter (isNamed name)) :
    ∃ before after, ms = before ++ (.ok name, d) :: after ∧
      (known → ∀ m ∈ before, isNamed name m = false) := by
  by_cases hknown : known
  · have hfilter := hsame hknown
    rw [List.filter_cons_of_pos (isNamed_iff.mpr rfl)] at hfilter
    obtain ⟨before, after, hms, hnot, -, -⟩ := List.filter_eq_cons_iff.mp hfilter
    exact ⟨before, after, hms, fun _ m hm => by simpa using hnot m hm⟩
  · obtain ⟨before, after, hms⟩ := List.append_of_mem hm
    exact ⟨before, after, hms, fun hknown' => absurd hknown' hknown⟩

/-- Without a member that is the first one of its name on both sides, those of a name are still the
same. -/
theorem filter_of_filter_cons {n : String}
    (hfirst : name = n → ∀ m ∈ before, isNamed name m = false)
    (h : (before ++ (.ok name, d) :: after).filter (isNamed n) =
      ((.ok name, d) :: ms').filter (isNamed n)) :
    (before ++ after).filter (isNamed n) = ms'.filter (isNamed n) := by
  rw [List.filter_append] at h ⊢
  by_cases hnamed : isNamed n (.ok name, d) = true
  · obtain rfl : name = n := by simpa [isNamed_ok] using hnamed
    rw [List.filter_cons_of_pos hnamed, List.filter_cons_of_pos hnamed,
      filter_eq_nil_of_forall (hfirst rfl)] at h
    rw [filter_eq_nil_of_forall (hfirst rfl)]
    exact (List.cons.inj h).2
  · rwa [List.filter_cons_of_neg hnamed, List.filter_cons_of_neg hnamed] at h

/-- A member stands at the end as well. -/
theorem perm_middle (m : Name × Document) :
    (before ++ after ++ [m]).Perm (before ++ m :: after) :=
  (List.perm_append_singleton m _).trans List.perm_middle.symm

/-- The only member of a name stands at the end as well. -/
theorem filter_middle (hnone : ∀ m ∈ before ++ after, isNamed name m = false) (d : Document)
    (n : String) :
    (before ++ after ++ [(Except.ok name, d)]).filter (isNamed n) =
      (before ++ (Except.ok name, d) :: after).filter (isNamed n) := by
  rw [List.forall_mem_append] at hnone
  by_cases hname : name = n
  · subst hname
    simp [List.filter_append, filter_eq_nil_of_forall hnone.1, filter_eq_nil_of_forall hnone.2,
      isNamed_ok]
  · simp [List.filter_append, isNamed_ok, hname]

end Order

namespace Reads

variable {put : P → String → Document → Except Fault P} {fields : List (Field P)}
  {f g : P} {name : String} {d : Document} {before after ms ms' : List (Name × Document)}

/-- A member may be read before others that have other names, or first of all if its name is not
known. -/
theorem members_move (h : Reads put fields)
    (hbefore : name ∈ fields.map Field.name → ∀ m ∈ before, isNamed name m = false)
    (hread : Reader.members put f (before ++ (.ok name, d) :: after) = .ok g) :
    Reader.members put f ((.ok name, d) :: (before ++ after)) = .ok g := by
  induction before generalizing f with
  | nil => exact hread
  | cons m before ih =>
      obtain ⟨name', f', hname', hput', hrest⟩ := members_cons_eq_ok_iff.mp hread
      have hmoved := ih (fun hknown m hm => hbefore hknown m (List.mem_cons_of_mem _ hm)) hrest
      obtain ⟨_, f'', hname, hput, hrest⟩ := members_cons_eq_ok_iff.mp hmoved
      cases hname
      have hne : name' ≠ name ∨ name' ∉ fields.map Field.name := by
        by_cases hknown : name ∈ fields.map Field.name
        · refine .inl fun he => ?_
          have hnot := hbefore hknown m List.mem_cons_self
          rw [isNamed_iff.mpr (hname'.trans (congrArg Except.ok he))] at hnot
          cases hnot
        · exact (em (name' = name)).elim (fun he => .inr (he ▸ hknown)) .inl
      obtain ⟨g', hput, hput'⟩ := h.put_comm hne hput' hput
      exact members_cons_eq_ok_iff.mpr ⟨name, g', rfl, hput,
        members_cons_eq_ok_iff.mpr ⟨name', f'', hname', hput', hrest⟩⟩

/-- The order of members does not count, but among those of one known name. -/
theorem members_perm (h : Reads put fields) (hperm : ms.Perm ms')
    (hsame : ∀ name ∈ fields.map Field.name, ms.filter (isNamed name) = ms'.filter (isNamed name))
    (hread : Reader.members put f ms = .ok g) : Reader.members put f ms' = .ok g := by
  induction ms' generalizing ms f with
  | nil => rwa [List.perm_nil.mp hperm] at hread
  | cons m ms' ih =>
      obtain ⟨nm, d⟩ := m
      have hmem : (nm, d) ∈ ms := hperm.mem_iff.mpr List.mem_cons_self
      obtain ⟨name, rfl⟩ : ∃ name, nm = .ok name := exists_name_of_members hread hmem
      obtain ⟨before, after, rfl, hfirst⟩ := exists_first hmem (hsame name)
      obtain ⟨_, f', hname, hput, hrest⟩ := members_cons_eq_ok_iff.mp (h.members_move hfirst hread)
      cases hname
      have hperm' : (before ++ after).Perm ms' := (List.perm_middle.symm.trans hperm).cons_inv
      have hsame' : ∀ n ∈ fields.map Field.name,
          (before ++ after).filter (isNamed n) = ms'.filter (isNamed n) := fun n hn =>
        filter_of_filter_cons (fun hnamed => hfirst (hnamed ▸ hn)) (hsame n hn)
      exact members_cons_eq_ok_iff.mpr ⟨name, f', rfl, hput, ih hperm' hsame' hrest⟩

/-- A field that no member is for stays as it is. -/
theorem get_of_members (h : Reads put fields) {s : Field P} (hs : s ∈ fields)
    (hnone : ∀ m ∈ ms, isNamed s.name m = false) (hread : Reader.members put f ms = .ok g) :
    s.get g = s.get f := by
  induction ms generalizing f with
  | nil => cases hread; rfl
  | cons m ms ih =>
      obtain ⟨name, f', hname, hput, hrest⟩ := members_cons_eq_ok_iff.mp hread
      have hne : s.name ≠ name := by
        rintro rfl
        have hnot := hnone m List.mem_cons_self
        rw [isNamed_iff.mpr hname] at hnot
        cases hnot
      rw [ih (fun m hm => hnone m (List.mem_cons_of_mem _ hm)) hrest, h.get_of_put hs hne hput]

/-- A member for a field was read. -/
theorem exists_read (h : Reads put fields) {s : Field P} (hs : s ∈ fields)
    (hmem : (.ok s.name, d) ∈ ms) (hread : Reader.members put f ms = .ok g) :
    ∃ found v, s.read found d = .ok v := by
  obtain ⟨before, after, rfl⟩ := List.append_of_mem hmem
  obtain ⟨f', -, hrest⟩ := members_append_eq_ok_iff.mp hread
  obtain ⟨_, _, hname, hput, -⟩ := members_cons_eq_ok_iff.mp hrest
  cases hname
  obtain ⟨v, hv, -⟩ := h.exists_of_put hs hput
  exact ⟨_, v, hv⟩

/-- A member of a name that is not known may stand anywhere. -/
theorem members_insert_unknown (h : Reads put fields) (hname : name ∉ fields.map Field.name)
    (hd : d.IsWhole) (hread : Reader.members put f (before ++ after) = .ok g) :
    Reader.members put f (before ++ (.ok name, d) :: after) = .ok g := by
  obtain ⟨f', hbefore, hafter⟩ := members_append_eq_ok_iff.mp hread
  exact members_append_eq_ok_iff.mpr ⟨f', hbefore,
    members_cons_eq_ok_iff.mpr ⟨name, f', rfl, h.put_of_not_mem hname hd, hafter⟩⟩

/-- A member of a name that is not known may be left out. -/
theorem members_remove_unknown (h : Reads put fields) (hname : name ∉ fields.map Field.name)
    (hread : Reader.members put f (before ++ (.ok name, d) :: after) = .ok g) :
    Reader.members put f (before ++ after) = .ok g := by
  obtain ⟨f', hbefore, hrest⟩ := members_append_eq_ok_iff.mp hread
  obtain ⟨_, f'', hname', hput, hafter⟩ := members_cons_eq_ok_iff.mp hrest
  cases hname'
  obtain ⟨-, rfl⟩ := h.of_put_of_not_mem hname hput
  exact members_append_eq_ok_iff.mpr ⟨f', hbefore, hafter⟩

/-- A value for a field may be replaced by one that is read alike. -/
theorem members_replace (h : Reads put fields) {s : Field P} (hs : s ∈ fields) {d' : Document}
    (halike : ∀ found v, s.read found d = .ok v → s.read found d' = .ok v)
    (hread : Reader.members put f (before ++ (.ok s.name, d) :: after) = .ok g) :
    Reader.members put f (before ++ (.ok s.name, d') :: after) = .ok g := by
  obtain ⟨f', hbefore, hrest⟩ := members_append_eq_ok_iff.mp hread
  obtain ⟨_, f'', hname, hput, hafter⟩ := members_cons_eq_ok_iff.mp hrest
  cases hname
  obtain ⟨v, hv, rfl⟩ := h.exists_of_put hs hput
  exact members_append_eq_ok_iff.mpr ⟨f', hbefore, members_cons_eq_ok_iff.mpr
    ⟨s.name, _, rfl, h.put_of_mem hs (halike _ v hv), hafter⟩⟩

end Reads

/-! ### Members that were written -/

theorem mem_memberDocuments {members : List (String × Json)} {name : String} {j : Json}
    (h : (name, j) ∈ members) : (.ok name, document j) ∈ memberDocuments members := by
  induction members with
  | nil => cases h
  | cons m members ih =>
      rcases List.mem_cons.mp h with rfl | h
      · exact List.mem_cons_self
      · exact List.mem_cons_of_mem _ (ih h)

theorem mem_present {members : List (String × Option Json)} {name : String} {j : Json}
    (h : (name, some j) ∈ members) : (name, j) ∈ present members :=
  List.mem_filterMap.mpr ⟨(name, some j), h, rfl⟩

/-- What was written of a value that may be absent came back as another one. -/
theorem Reads.exists_returns {put : P → String → Document → Except Fault P}
    {fields : List (Field P)} (h : Reads put fields) {f g : P} {name : String} {read : Reader α}
    {write : α → Json} {get : P → Option α} {set : P → Option α → P}
    (hs : Field.last name read get set ∈ fields) {o : Option α}
    {members : List (String × Option Json)} (hmem : (name, o.map write) ∈ members)
    (hread : Reader.members put f (memberDocuments (present members)) = .ok g) :
    ∃ o', Reader.Returns read write o o' := by
  cases o with
  | none => exact ⟨none, rfl⟩
  | some a =>
      obtain ⟨_, o', ho'⟩ := h.exists_read hs (mem_memberDocuments (mem_present hmem)) hread
      exact ⟨o', ho'⟩

/-! ### Fields that are given once, and those that may be left out -/

/-- Whether a field refuses a second member. -/
def Field.IsOnce (s : Field P) : Prop :=
  ∀ found d v, s.read found d = .ok v → found = s.absent ∧ v ≠ s.absent

/-- Whether `null` makes the same of a record, in the end, as nothing at all. -/
def Field.IsOmittable (finish : P → Except Fault α) (s : Field P) : Prop :=
  ∃ v, s.read s.absent .null = .ok v ∧ ∀ f, s.get f = s.absent → finish (s.set f v) = finish f

theorem eq_of_perm_of_length_le_one {β : Type} {l l' : List β} (h : l.Perm l')
    (hlength : l.length ≤ 1) : l = l' := by
  match l, hlength with
  | [], _ => exact (List.nil_perm.mp h).symm
  | [a], _ => exact (List.singleton_perm.mp h)

namespace Reads

variable {put : P → String → Document → Except Fault P} {fields : List (Field P)} {s : Field P}
  {f g : P} {before after ms : List (Name × Document)}

theorem length_filter_le (h : Reads put fields) (hs : s ∈ fields) (honce : s.IsOnce)
    (hread : Reader.members put f ms = .ok g) :
    (ms.filter (isNamed s.name)).length ≤ 1 ∧
      (s.get f ≠ s.absent → ∀ m ∈ ms, isNamed s.name m = false) := by
  induction ms generalizing f with
  | nil => exact ⟨Nat.zero_le 1, nofun⟩
  | cons m ms ih =>
      obtain ⟨name, f', hname, hput, hrest⟩ := members_cons_eq_ok_iff.mp hread
      obtain ⟨hlength, hfound⟩ := ih hrest
      by_cases hnamed : isNamed s.name m = true
      · obtain rfl : name = s.name :=
          Except.ok.inj (hname.symm.trans (isNamed_iff.mp hnamed))
        obtain ⟨v, hv, rfl⟩ := h.exists_of_put hs hput
        obtain ⟨hnone, hsome⟩ := honce _ _ v hv
        have hrest := hfound (by rwa [h.get_set s hs])
        rw [List.filter_cons_of_pos hnamed, filter_eq_nil_of_forall hrest]
        exact ⟨Nat.le_refl 1, fun hne => absurd hnone hne⟩
      · have hne : s.name ≠ name := fun he => hnamed (isNamed_iff.mpr (he ▸ hname))
        rw [h.get_of_put hs hne hput] at hfound
        rw [List.filter_cons_of_neg hnamed]
        exact ⟨hlength, fun hget => List.forall_mem_cons.mpr
          ⟨Bool.eq_false_iff.mpr hnamed, hfound hget⟩⟩

/-- A field that is absent may be given as `null`. -/
theorem members_null (h : Reads put fields) (hs : s ∈ fields) {v : s.Value}
    (hv : s.read s.absent .null = .ok v) (hget : s.get f = s.absent)
    (hnone : ∀ m ∈ before ++ after, isNamed s.name m = false)
    (hread : Reader.members put f (before ++ after) = .ok g) :
    s.get g = s.absent ∧
      Reader.members put f (before ++ (.ok s.name, .null) :: after) = .ok (s.set g v) := by
  have hg : s.get g = s.absent := (h.get_of_members hs hnone hread).trans hget
  refine ⟨hg, h.members_perm (perm_middle _) (fun name _ => filter_middle hnone _ name) ?_⟩
  exact members_append_eq_ok_iff.mpr ⟨g, hread, members_cons_eq_ok_iff.mpr
    ⟨s.name, _, rfl, h.put_of_mem hs (by rwa [hg]), rfl⟩⟩

/-- A field that is given as `null` may be left out. -/
theorem members_omit (h : Reads put fields) (hs : s ∈ fields) (honce : s.IsOnce)
    (hread : Reader.members put f (before ++ (.ok s.name, .null) :: after) = .ok g) :
    ∃ g' v, Reader.members put f (before ++ after) = .ok g' ∧ s.get g' = s.absent ∧
      s.read s.absent .null = .ok v ∧ s.set g' v = g := by
  have hnone : ∀ m ∈ before ++ after, isNamed s.name m = false := by
    have hlength := (h.length_filter_le hs honce hread).1
    rw [List.filter_append, List.filter_cons_of_pos (isNamed_iff.mpr rfl), List.length_append,
      List.length_cons] at hlength
    have hbefore := List.eq_nil_of_length_eq_zero
      (l := before.filter (isNamed s.name)) (by omega)
    have hafter := List.eq_nil_of_length_eq_zero
      (l := after.filter (isNamed s.name)) (by omega)
    rw [List.forall_mem_append]
    exact ⟨fun m hm => by simpa using List.filter_eq_nil_iff.mp hbefore m hm,
      fun m hm => by simpa using List.filter_eq_nil_iff.mp hafter m hm⟩
  have hlast := h.members_perm (perm_middle _).symm
    (fun name _ => (filter_middle hnone _ name).symm) hread
  obtain ⟨g', hrest, hput⟩ := members_append_eq_ok_iff.mp hlast
  obtain ⟨_, g'', hname, hput, hnil⟩ := members_cons_eq_ok_iff.mp hput
  cases hname
  cases hnil
  obtain ⟨v, hv, hset⟩ := h.exists_of_put hs hput
  have hg := (honce _ _ v hv).1
  exact ⟨g', v, hrest, hg, hg ▸ hv, hset⟩

end Reads

/-! ### Objects -/

/-- Objects are read field by field into a record, and the record makes the value. -/
structure ReadsObjects (read : Reader α) (put : P → String → Document → Except Fault P)
    (fields : List (Field P)) (start : P) (finish : P → Except Fault α) : Prop
    extends Reads put fields where
  get_start : ∀ s ∈ fields, s.get start = s.absent
  read_object : ∀ ms a, read (.object ms none) = .ok a ↔
    ∃ f, Reader.members put start ms = .ok f ∧ finish f = .ok a

namespace ReadsObjects

theorem plain {put : P → String → Document → Except Fault P} {fields : List (Field P)} {start : P}
    (h : Reads put fields) (hstart : ∀ s ∈ fields, s.get start = s.absent) :
    ReadsObjects (Reader.plain put start) put fields start Except.ok where
  toReads := h
  get_start := hstart
  read_object ms a := by
    simp only [Reader.plain, bind_eq_ok, Reader.closed]
    simp [pure, Except.pure]

theorem declared {o : Declared P α} {fields : List (Field P)} (h : Reads o.put fields)
    (hstart : ∀ s ∈ fields, s.get o.start = s.absent) :
    ReadsObjects o.read o.put fields o.start o.finish where
  toReads := h
  get_start := hstart
  read_object ms a := by
    simp only [Declared.read, bind_eq_ok, Reader.closed]
    simp

variable {read : Reader α} {put : P → String → Document → Except Fault P}
  {fields : List (Field P)} {start : P} {finish : P → Except Fault α} {s : Field P}
  {before after ms ms' : List (Name × Document)} {d d' : Document} {name : String} {a : α}

theorem permuted (h : ReadsObjects read put fields start finish) (hperm : ms.Perm ms')
    (hsame : ∀ s ∈ fields, s.IsOnce ∨
      ms.filter (isNamed s.name) = ms'.filter (isNamed s.name))
    (hread : read (.object ms none) = .ok a) : read (.object ms' none) = .ok a := by
  obtain ⟨f, hf, ha⟩ := (h.read_object ms a).mp hread
  refine (h.read_object ms' a).mpr ⟨f, h.members_perm hperm (fun name hname => ?_) hf, ha⟩
  obtain ⟨s, hs, rfl⟩ := List.mem_map.mp hname
  rcases hsame s hs with honce | hfilter
  · exact eq_of_perm_of_length_le_one (hperm.filter _) (h.length_filter_le hs honce hf).1
  · exact hfilter

theorem inserted (h : ReadsObjects read put fields start finish)
    (hname : name ∉ fields.map Field.name) (hd : d.IsWhole)
    (hread : read (.object (before ++ after) none) = .ok a) :
    read (.object (before ++ (.ok name, d) :: after) none) = .ok a := by
  obtain ⟨f, hf, ha⟩ := (h.read_object _ a).mp hread
  exact (h.read_object _ a).mpr ⟨f, h.members_insert_unknown hname hd hf, ha⟩

theorem removed (h : ReadsObjects read put fields start finish)
    (hname : name ∉ fields.map Field.name)
    (hread : read (.object (before ++ (.ok name, d) :: after) none) = .ok a) :
    read (.object (before ++ after) none) = .ok a := by
  obtain ⟨f, hf, ha⟩ := (h.read_object _ a).mp hread
  exact (h.read_object _ a).mpr ⟨f, h.members_remove_unknown hname hf, ha⟩

theorem nulled (h : ReadsObjects read put fields start finish) (hs : s ∈ fields)
    (homit : s.IsOmittable finish) (hnone : ∀ m ∈ before ++ after, isNamed s.name m = false)
    (hread : read (.object (before ++ after) none) = .ok a) :
    read (.object (before ++ (.ok s.name, .null) :: after) none) = .ok a := by
  obtain ⟨f, hf, ha⟩ := (h.read_object _ a).mp hread
  obtain ⟨v, hv, hfinish⟩ := homit
  obtain ⟨hget, hnull⟩ := h.members_null hs hv (h.get_start s hs) hnone hf
  exact (h.read_object _ a).mpr ⟨s.set f v, hnull, (hfinish f hget).trans ha⟩

theorem omitted (h : ReadsObjects read put fields start finish) (hs : s ∈ fields)
    (honce : s.IsOnce) (homit : s.IsOmittable finish)
    (hread : read (.object (before ++ (.ok s.name, .null) :: after) none) = .ok a) :
    read (.object (before ++ after) none) = .ok a := by
  obtain ⟨f, hf, ha⟩ := (h.read_object _ a).mp hread
  obtain ⟨g, v, hg, hget, hv, rfl⟩ := h.members_omit hs honce hf
  obtain ⟨w, hw, hfinish⟩ := homit
  obtain rfl : v = w := Except.ok.inj (hv.symm.trans hw)
  exact (h.read_object _ a).mpr ⟨g, hg, (hfinish g hget).symm.trans ha⟩

theorem replaced (h : ReadsObjects read put fields start finish) (hs : s ∈ fields)
    (halike : ∀ found v, s.read found d = .ok v → s.read found d' = .ok v)
    (hread : read (.object (before ++ (.ok s.name, d) :: after) none) = .ok a) :
    read (.object (before ++ (.ok s.name, d') :: after) none) = .ok a := by
  obtain ⟨f, hf, ha⟩ := (h.read_object _ a).mp hread
  exact (h.read_object _ a).mpr ⟨f, h.members_replace hs halike hf, ha⟩

end ReadsObjects

end NodeFencing.Json
