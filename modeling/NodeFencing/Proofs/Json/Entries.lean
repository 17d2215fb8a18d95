/-
Objects whose members are entries.

Labels, and the objects in a value of any shape, know no names: each of their members is an entry,
a name with a value.  They are kept in the order of the names, the last of those with one name, so
what is kept is told by the last value under each name.  Members that change places keep these
values, unless they have the same name; that is all there is to say about their order.

Of a list, and of entries, each is read by itself.  So where one of them is put in another way that
is read alike, the whole is read alike.
-/
import Mathlib.Data.List.Sort
import NodeFencing.Metadata
import NodeFencing.Proofs.Command.Assembly
import NodeFencing.Proofs.Json.Fields

namespace NodeFencing

/-! ### Entries by their last values -/

namespace Ordered

variable {κ α : Type} [DecidableEq κ]

theorem mem_of_lookup {k : κ} {v : α} {l : List (κ × α)} (h : lookup k l = some v) :
    (k, v) ∈ l := by
  induction l with
  | nil => cases h
  | cons e rest ih =>
      rw [lookup] at h
      split at h
      · next hk =>
        cases h
        exact hk ▸ List.mem_cons_self
      · exact List.mem_cons_of_mem _ (ih h)

theorem lookup_eq_some_iff {l : List (κ × α)} (h : (l.map Prod.fst).Nodup) {k : κ} {v : α} :
    lookup k l = some v ↔ (k, v) ∈ l :=
  ⟨mem_of_lookup, get?_of_mem ⟨l, h⟩⟩

/-- Where no key comes twice, the last value under a key is the one that is found. -/
theorem lastValue?_entries (m : Ordered κ α) (k : κ) : lastValue? m.entries k = m.get? k := by
  cases h : lastValue? m.entries k with
  | none =>
      symm
      refine (lookup_eq_none_iff k m.entries).mpr fun hk => ?_
      obtain ⟨e, he, rfl⟩ := List.mem_map.mp hk
      simpa using List.lookup_eq_none_iff.mp h e (List.mem_reverse.mpr he)
  | some v =>
      obtain ⟨before, after, hentries, -⟩ := List.lookup_eq_some_iff.mp h
      have hmem : (k, v) ∈ m.entries.reverse :=
        hentries ▸ List.mem_append_right _ List.mem_cons_self
      exact (m.get?_of_mem (List.mem_reverse.mp hmem)).symm

end Ordered

namespace Labels

variable {α : Type}

theorem lookup_placeAll (pairs : List (String × α)) (name : String) :
    Ordered.lookup name (placeAll pairs) = lastValue? pairs name := by
  induction pairs using List.reverseRecOn with
  | nil => rfl
  | append_singleton pairs p ih =>
      have hplace : placeAll (pairs ++ [p]) = place p.1 p.2 (placeAll pairs) := by
        simp [placeAll, List.foldl_append]
      rw [hplace, lookup_place, ih, lastValue?_concat]

/-- Entries in the order of their names are told by the values under the names. -/
theorem eq_of_lookup_eq {l l' : List (String × α)} (hl : l.Pairwise (fun a b => a.1 < b.1))
    (hl' : l'.Pairwise (fun a b => a.1 < b.1))
    (h : ∀ name, Ordered.lookup name l = Ordered.lookup name l') : l = l' := by
  have hirrefl : Std.Irrefl fun a b : String × α => a.1 < b.1 := ⟨fun a => String.lt_irrefl a.1⟩
  have hantisymm : Std.Antisymm fun a b : String × α => a.1 < b.1 :=
    ⟨fun a b hab hba => absurd hba (String.lt_asymm hab)⟩
  refine hl.eq_of_mem_iff hl' fun e => ?_
  rw [← Ordered.lookup_eq_some_iff (nodup_of_increasing hl), h,
    Ordered.lookup_eq_some_iff (nodup_of_increasing hl')]

theorem placeAll_congr {pairs pairs' : List (String × α)}
    (h : ∀ name, lastValue? pairs name = lastValue? pairs' name) :
    placeAll pairs = placeAll pairs' := by
  refine eq_of_lookup_eq (increasing_placeAll pairs) (increasing_placeAll pairs') fun name => ?_
  rw [lookup_placeAll, lookup_placeAll, h]

end Labels

namespace Json

/-! ### One by one -/

section Each

variable {β γ : Type} {f : β → Except Fault γ}

/-- All can be read if each of them can. -/
theorem exists_mapM_iff {l : List β} :
    (∃ vs, l.mapM f = .ok vs) ↔ ∀ x ∈ l, ∃ v, f x = .ok v := by
  induction l with
  | nil => exact ⟨fun _ => nofun, fun _ => ⟨[], rfl⟩⟩
  | cons x l ih =>
      rw [List.forall_mem_cons, ← ih]
      constructor
      · rintro ⟨vs, h⟩
        obtain ⟨v, rest, hv, hrest, -⟩ := mapM_cons_eq_ok_iff.mp h
        exact ⟨⟨v, hv⟩, rest, hrest⟩
      · rintro ⟨⟨v, hv⟩, rest, hrest⟩
        exact ⟨v :: rest, mapM_cons_eq_ok_iff.mpr ⟨v, rest, hv, hrest, rfl⟩⟩

/-- One of them may be replaced by one that is read alike. -/
theorem mapM_replace {x x' : β} (halike : ∀ v, f x = .ok v → f x' = .ok v)
    {before after : List β} {vs : List γ} (h : (before ++ x :: after).mapM f = .ok vs) :
    (before ++ x' :: after).mapM f = .ok vs := by
  induction before generalizing vs with
  | nil =>
      obtain ⟨v, rest, hv, hrest, rfl⟩ := mapM_cons_eq_ok_iff.mp h
      exact mapM_cons_eq_ok_iff.mpr ⟨v, rest, halike v hv, hrest, rfl⟩
  | cons y before ih =>
      obtain ⟨v, rest, hv, hrest, rfl⟩ := mapM_cons_eq_ok_iff.mp h
      exact mapM_cons_eq_ok_iff.mpr ⟨v, rest, hv, ih hrest, rfl⟩

end Each

/-! ### Members as entries -/

section Entry

variable {α β : Type} {read : Reader β} {ms ms' : List (Name × Document)}
  {pairs : List (String × β)}

/-- Reads a member as an entry. -/
def readEntry (read : Reader β) (m : Name × Document) : Except Fault (String × β) := do
  let name ← m.1
  return (name, ← read m.2)

theorem readEntry_eq_ok_iff {m : Name × Document} {e : String × β} :
    readEntry read m = .ok e ↔ m.1 = .ok e.1 ∧ read m.2 = .ok e.2 := by
  obtain ⟨name, d⟩ := m
  obtain ⟨n, b⟩ := e
  simp only [readEntry, bind_eq_ok]
  constructor
  · rintro ⟨n, hn, b, hb, h⟩
    cases h
    exact ⟨hn, hb⟩
  · rintro ⟨hn, hb⟩
    exact ⟨n, hn, b, hb, rfl⟩

/-- The members of a name are the entries of that name. -/
theorem mapM_readEntry_filter (h : ms.mapM (readEntry read) = .ok pairs) (name : String) :
    (ms.filter (isNamed name)).mapM (readEntry read) =
      .ok (pairs.filter fun e => e.1 == name) := by
  induction ms generalizing pairs with
  | nil => cases h; rfl
  | cons m ms ih =>
      obtain ⟨e, rest, he, hrest, rfl⟩ := mapM_cons_eq_ok_iff.mp h
      have hname : m.1 = .ok e.1 := (readEntry_eq_ok_iff.mp he).1
      by_cases hnamed : e.1 = name
      · rw [List.filter_cons_of_pos (isNamed_iff.mpr (hnamed ▸ hname)),
          List.filter_cons_of_pos (by simpa using hnamed)]
        exact mapM_cons_eq_ok_iff.mpr ⟨e, _, he, ih hrest, rfl⟩
      · have hnot : ¬ isNamed name m = true := fun hm =>
          hnamed (Except.ok.inj (hname.symm.trans (isNamed_iff.mp hm)))
        rw [List.filter_cons_of_neg hnot, List.filter_cons_of_neg (by simpa using hnamed)]
        exact ih hrest

/-- Members in another order have the same last values, if those of one name stay in their order. -/
theorem mapM_readEntry_perm (hperm : ms.Perm ms')
    (hsame : ∀ name, ms.filter (isNamed name) = ms'.filter (isNamed name))
    (h : ms.mapM (readEntry read) = .ok pairs) :
    ∃ pairs', ms'.mapM (readEntry read) = .ok pairs' ∧
      ∀ name, lastValue? pairs name = lastValue? pairs' name := by
  obtain ⟨pairs', h'⟩ := exists_mapM_iff.mpr fun m hm =>
    exists_mapM_iff.mp ⟨pairs, h⟩ m (hperm.mem_iff.mpr hm)
  refine ⟨pairs', h', fun name => ?_⟩
  have hfilter := mapM_readEntry_filter h name
  rw [hsame name, mapM_readEntry_filter h' name] at hfilter
  rw [← lastValue?_filter pairs, ← lastValue?_filter pairs', Except.ok.inj hfilter]

/-- Objects are read entry by entry, and only the last value under each name is kept. -/
structure ReadsEntries (read : Reader α) (value : Reader β) (make : List (String × β) → α) :
    Prop where
  read_object : ∀ ms a, read (.object ms none) = .ok a ↔
    ∃ pairs, ms.mapM (readEntry value) = .ok pairs ∧ make pairs = a
  make_congr : ∀ {pairs pairs' : List (String × β)},
    (∀ name, lastValue? pairs name = lastValue? pairs' name) → make pairs = make pairs'

namespace ReadsEntries

variable {read : Reader α} {value : Reader β} {make : List (String × β) → α} {a : α}

theorem permuted (h : ReadsEntries read value make) (hperm : ms.Perm ms')
    (hsame : ∀ name, ms.filter (isNamed name) = ms'.filter (isNamed name))
    (hread : read (.object ms none) = .ok a) : read (.object ms' none) = .ok a := by
  obtain ⟨pairs, hpairs, rfl⟩ := (h.read_object ms a).mp hread
  obtain ⟨pairs', hpairs', hlast⟩ := mapM_readEntry_perm hperm hsame hpairs
  exact (h.read_object ms' _).mpr ⟨pairs', hpairs', (h.make_congr hlast).symm⟩

theorem replaced (h : ReadsEntries read value make) {name : String} {d d' : Document}
    (halike : ∀ b, value d = .ok b → value d' = .ok b) {before after : List (Name × Document)}
    (hread : read (.object (before ++ (.ok name, d) :: after) none) = .ok a) :
    read (.object (before ++ (.ok name, d') :: after) none) = .ok a := by
  obtain ⟨pairs, hpairs, rfl⟩ := (h.read_object _ a).mp hread
  refine (h.read_object _ _).mpr ⟨pairs, mapM_replace (fun e he => ?_) hpairs, rfl⟩
  obtain ⟨hname, hb⟩ := readEntry_eq_ok_iff.mp he
  exact readEntry_eq_ok_iff.mpr ⟨hname, halike e.2 hb⟩

end ReadsEntries

end Entry

/-! ### Maps, labels and values of any shape -/

theorem members_insert_eq_ok_iff {β : Type} {value : Reader β} {m m' : Ordered String β}
    {ms : List (Name × Document)} :
    Reader.members (fun (m : Ordered String β) name d => do return m.insert name (← value d)) m ms =
        .ok m' ↔
      ∃ pairs, ms.mapM (readEntry value) = .ok pairs ∧
        pairs.foldl (fun m e => m.insert e.1 e.2) m = m' := by
  induction ms generalizing m with
  | nil =>
      constructor
      · intro h
        exact ⟨[], rfl, Except.ok.inj h⟩
      · rintro ⟨pairs, hpairs, rfl⟩
        cases hpairs
        rfl
  | cons entry ms ih =>
      rw [members_cons_eq_ok_iff]
      simp only [bind_eq_ok, ih]
      constructor
      · rintro ⟨name, _, hname, ⟨b, hb, h⟩, pairs, hpairs, rfl⟩
        cases h
        exact ⟨(name, b) :: pairs, mapM_cons_eq_ok_iff.mpr
          ⟨(name, b), pairs, readEntry_eq_ok_iff.mpr ⟨hname, hb⟩, hpairs, rfl⟩, rfl⟩
      · rintro ⟨_, hall, rfl⟩
        obtain ⟨e, pairs, he, hpairs, rfl⟩ := mapM_cons_eq_ok_iff.mp hall
        obtain ⟨hname, hb⟩ := readEntry_eq_ok_iff.mp he
        exact ⟨e.1, _, hname, ⟨e.2, hb, rfl⟩, pairs, hpairs, rfl⟩

/-- A map is made of the entries in their order. -/
theorem map_object_eq_ok_iff {β : Type} {value : Reader β} {ms : List (Name × Document)}
    {m : Ordered String β} :
    Reader.map value (.object ms none) = .ok m ↔
      ∃ pairs, ms.mapM (readEntry value) = .ok pairs ∧ Ordered.ofList pairs = m := by
  refine Iff.trans ?_ members_insert_eq_ok_iff
  simp only [Reader.map, Reader.plain, bind_eq_ok, Reader.closed]
  simp [pure, Except.pure]

theorem ofItems_eq_mapM (room : Nat) (ds : List Document) :
    ofItems room ds = ds.mapM (ofDocument room) := by
  induction ds with
  | nil => rfl
  | cons d ds ih => rw [List.mapM_cons, ← ih]; rfl

theorem ofMembers_eq_mapM (room : Nat) (ms : List (Name × Document)) :
    ofMembers room ms = ms.mapM (readEntry (ofDocument room)) := by
  induction ms with
  | nil => rfl
  | cons m ms ih =>
      obtain ⟨name, d⟩ := m
      rw [List.mapM_cons, ← ih, ofMembers, readEntry, bind_assoc]
      simp

theorem readsEntries_ofDocument (room : Nat) :
    ReadsEntries (ofDocument (room + 1)) (ofDocument room)
      fun pairs => .object (Labels.placeAll pairs) where
  read_object ms j := by
    rw [ofDocument, ofMembers_eq_mapM]
    simp only [bind_eq_ok, Reader.closed]
    simp [pure, Except.pure]
  make_congr h := congrArg Json.object (Labels.placeAll_congr h)

theorem ofDocument_array {room : Nat} {ds : List Document} {j : Json} :
    ofDocument (room + 1) (.array ds none) = .ok j ↔
      ∃ js, ds.mapM (ofDocument room) = .ok js ∧ .array js = j := by
  rw [ofDocument, ofItems_eq_mapM]
  simp only [bind_eq_ok, Reader.closed]
  simp [pure, Except.pure]

end Json

open Json

/-- Labels that are read from entries over a map are the same as without it. -/
theorem Labels.ofList_entries_ofList (pairs : List (String × String)) :
    ofList (Ordered.ofList pairs).entries = ofList pairs := by
  refine Labels.ext ?_
  rw [entries_ofList, entries_ofList]
  refine placeAll_congr fun name => ?_
  rw [Ordered.lastValue?_entries, Ordered.get?_ofList]

theorem Labels.readsEntries : ReadsEntries Labels.read Reader.text Labels.ofList where
  read_object ms l := by
    unfold Labels.read
    rw [bind_eq_ok]
    simp only [map_object_eq_ok_iff]
    constructor
    · rintro ⟨_, ⟨pairs, hpairs, rfl⟩, h⟩
      exact ⟨pairs, hpairs, (ofList_entries_ofList pairs).symm.trans (Except.ok.inj h)⟩
    · rintro ⟨pairs, hpairs, rfl⟩
      exact ⟨_, ⟨pairs, hpairs, rfl⟩, congrArg Except.ok (ofList_entries_ofList pairs)⟩
  make_congr h := Labels.ext (by rw [entries_ofList, entries_ofList, placeAll_congr h])

end NodeFencing
