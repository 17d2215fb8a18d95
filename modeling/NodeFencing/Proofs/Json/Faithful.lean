/-
Readers that undo writers.

A reader is `Faithful` to a writer if it gives back every value that was written, and if what it
reads from any text at all is a value of the same kind.  The second half is what lets a text that
somebody else wrote be read, written and read again: the value that was read first is one that
reads back.  Where a reader gives back something else, `Returns` says what it is.

Readers of containers inherit this from the readers of what they hold.  An object is read member
by member, so the way there and the way back are each said of one member: `Takes` is what reading
a member does that may have been left out, and an invariant of `members` is one of each step.
-/
import Mathlib.Data.List.Forall2
import NodeFencing.Json.Reader
import NodeFencing.Proofs.Decimal.Reading
import NodeFencing.Proofs.Json.Documents

namespace NodeFencing.Json

variable {α β P : Type}

theorem bind_eq_ok {ε : Type} {x : Except ε α} {f : α → Except ε β} {b : β} :
    x >>= f = .ok b ↔ ∃ a, x = .ok a ∧ f a = .ok b := by
  cases x <;> simp [bind, Except.bind]

theorem map_eq_ok {ε : Type} {x : Except ε α} {f : α → β} {b : β} :
    f <$> x = .ok b ↔ ∃ a, x = .ok a ∧ f a = b := by
  cases x <;> simp [Functor.map, Except.map]

theorem mapM_cons_eq_ok_iff {ε : Type} {f : α → Except ε β} {a : α} {l : List α} {bs : List β} :
    (a :: l).mapM f = .ok bs ↔
      ∃ b rest, f a = .ok b ∧ l.mapM f = .ok rest ∧ b :: rest = bs := by
  rw [List.mapM_cons, bind_eq_ok]
  simp only [bind_eq_ok]
  constructor
  · rintro ⟨b, hb, rest, hrest, h⟩
    exact ⟨b, rest, hb, hrest, Except.ok.inj h⟩
  · rintro ⟨b, rest, hb, hrest, rfl⟩
    exact ⟨b, hb, rest, hrest, rfl⟩

theorem join_map_some (o : Option α) : (o.map some).join = o := by cases o <;> rfl

/-- A reader gives back what was written of a value that fits, and reads only values that fit. -/
structure Faithful (read : Reader α) (write : α → Json) (fits : α → Prop) : Prop where
  back : ∀ a, fits a → read (document (write a)) = .ok a
  fit : ∀ d a, read d = .ok a → fits a

/-- A text as it is written after it was read. -/
def rewrite (read : Reader α) (write : α → Json) (s : String) : Except Fault String :=
  (fun a => (write a).print) <$> decode read s

theorem rewrite_of_decode {read : Reader α} {write : α → Json} {s : String} {a : α}
    (h : decode read s = .ok a) : rewrite read write s = .ok (write a).print := by
  rw [rewrite, h]
  rfl

/-- What was written decodes to what is read of its tree. -/
theorem decode_print_eq (read : Reader α) (j : Json) : decode read j.print = read (document j) := by
  rw [decode, Document.ofText_print]
  cases h : read (document j) <;> simp [h, bind, Except.bind, pure, Except.pure]

/-- A text decodes to what is read of some tree. -/
theorem exists_of_decode {read : Reader α} {s : String} {a : α} (h : decode read s = .ok a) :
    ∃ d, read d = .ok a := by
  obtain ⟨b, hb, hrest⟩ := bind_eq_ok.mp h
  split at hrest
  · cases hrest
    exact ⟨_, hb⟩
  · cases hrest

namespace Faithful

variable {read : Reader α} {write : α → Json} {fits : α → Prop}

/-- A written value decodes to itself. -/
theorem decode_print (h : Faithful read write fits) {a : α} (ha : fits a) :
    decode read (write a).print = .ok a :=
  (decode_print_eq read (write a)).trans (h.back a ha)

theorem fits_of_decode (h : Faithful read write fits) {s : String} {a : α}
    (ha : decode read s = .ok a) : fits a := by
  obtain ⟨d, hd⟩ := exists_of_decode ha
  exact h.fit d a hd

/-- Just the values that fit decode to themselves when they are written. -/
theorem decode_print_iff (h : Faithful read write fits) {a : α} :
    decode read (write a).print = .ok a ↔ fits a :=
  ⟨h.fits_of_decode, h.decode_print⟩

/-- What a text was read as decodes to itself when it is written again. -/
theorem decode_print_of_decode (h : Faithful read write fits) {s : String} {a : α}
    (ha : decode read s = .ok a) : decode read (write a).print = .ok a :=
  h.decode_print (h.fits_of_decode ha)

/-- Writing what was read makes a text that stays as it is. -/
theorem rewrite_of_rewrite (h : Faithful read write fits) {s t : String}
    (ht : rewrite read write s = .ok t) : rewrite read write t = .ok t := by
  obtain ⟨a, ha, rfl⟩ := map_eq_ok.mp ht
  exact rewrite_of_decode (h.decode_print_of_decode ha)

end Faithful

namespace Reader

/-! ### Leaves -/

theorem text_faithful : Faithful text Json.text fun _ => True :=
  ⟨fun _ _ => rfl, fun _ _ _ => trivial⟩

theorem bool_faithful : Faithful bool Json.bool fun _ => True :=
  ⟨fun _ _ => rfl, fun _ _ _ => trivial⟩

/-- A whole number that has 64 bits, with a sign or without, is read from its numeral. -/
theorem value?_ofInt {n : Int} (h : -9223372036854775808 ≤ n ∧ n ≤ 18446744073709551615) :
    (Numeral.ofInt n).value? = some (.int n) := by
  simp only [Numeral.value?, int?_ofInt, if_pos h]

theorem whole_faithful {low high : Int} (hlow : -9223372036854775808 ≤ low)
    (hhigh : high ≤ 18446744073709551615) :
    Faithful (whole low high) Json.int fun n => low ≤ n ∧ n ≤ high where
  back n hn := by
    have hvalue := value?_ofInt (n := n) (by omega)
    simp [document, whole, hvalue, hn]
  fit d n h := by
    unfold whole at h
    split at h
    · split at h
      · split at h
        · next hn => cases h; exact hn
        · cases h
      · cases h
      · cases h
    · cases h

/-- Whether a number has 64 bits with a sign. -/
def InInt64 (n : Int) : Prop := -9223372036854775808 ≤ n ∧ n ≤ 9223372036854775807

instance (n : Int) : Decidable (InInt64 n) := inferInstanceAs (Decidable (_ ∧ _))

theorem int64_faithful : Faithful int64 Json.int InInt64 :=
  whole_faithful (by decide) (by decide)

/-! ### Arrays -/

theorem mapM_documents {read : Reader α} {write : α → Json} {l l' : List α} :
    (documents (l.map write)).mapM read = .ok l' ↔
      List.Forall₂ (fun a b => read (document (write a)) = .ok b) l l' := by
  induction l generalizing l' with
  | nil =>
      rw [List.map_nil, documents, List.forall₂_nil_left_iff]
      exact ⟨fun h => (Except.ok.inj h).symm, fun h => h ▸ rfl⟩
  | cons a l ih =>
      rw [List.map_cons, documents, mapM_cons_eq_ok_iff, List.forall₂_cons_left_iff]
      simp only [ih]
      constructor
      · rintro ⟨b, rest, hb, hrest, rfl⟩
        exact ⟨b, rest, hb, hrest, rfl⟩
      · rintro ⟨b, rest, hb, hrest, rfl⟩
        exact ⟨b, rest, hb, hrest, rfl⟩

/-- A written list is read item by item. -/
theorem list_document_iff {read : Reader α} {write : α → Json} {l l' : List α} :
    list read (document (.array (l.map write))) = .ok l' ↔
      List.Forall₂ (fun a b => read (document (write a)) = .ok b) l l' := by
  rw [← mapM_documents, document, list, bind_eq_ok]
  constructor
  · rintro ⟨values, hvalues, h⟩
    cases h
    exact hvalues
  · exact fun h => ⟨l', h, rfl⟩

/-- A written list is read if its items are. -/
theorem exists_list_document {read : Reader α} {write : α → Json} {l : List α}
    (h : ∀ a ∈ l, ∃ b, read (document (write a)) = .ok b) :
    ∃ l', list read (document (.array (l.map write))) = .ok l' := by
  suffices hitems : ∃ l', List.Forall₂ (fun a b => read (document (write a)) = .ok b) l l' by
    obtain ⟨l', hl'⟩ := hitems
    exact ⟨l', list_document_iff.mpr hl'⟩
  induction l with
  | nil => exact ⟨[], .nil⟩
  | cons a l ih =>
      obtain ⟨⟨b, hb⟩, hl⟩ := List.forall_mem_cons.mp h
      obtain ⟨l', hl'⟩ := ih hl
      exact ⟨b :: l', .cons hb hl'⟩

theorem forall_mem_of_mapM {read : Reader α} {fits : α → Prop}
    (h : ∀ d a, read d = .ok a → fits a) {ds : List Document} {l : List α}
    (hl : ds.mapM read = .ok l) : ∀ a ∈ l, fits a := by
  induction ds generalizing l with
  | nil => cases hl; nofun
  | cons d ds ih =>
      obtain ⟨a, rest, ha, hrest, rfl⟩ := mapM_cons_eq_ok_iff.mp hl
      exact List.forall_mem_cons.mpr ⟨h d a ha, ih hrest⟩

theorem forall_mem_of_list {read : Reader α} {fits : α → Prop}
    (h : ∀ d a, read d = .ok a → fits a) {d : Document} {l : List α} (hl : list read d = .ok l) :
    ∀ a ∈ l, fits a := by
  unfold list at hl
  split at hl
  · obtain ⟨values, hvalues, hl⟩ := bind_eq_ok.mp hl
    obtain ⟨_, _, hl⟩ := bind_eq_ok.mp hl
    cases hl
    exact forall_mem_of_mapM h hvalues
  · cases hl

theorem list_faithful {read : Reader α} {write : α → Json} {fits : α → Prop}
    (h : Faithful read write fits) :
    Faithful (list read) (fun l => .array (l.map write)) fun l => ∀ a ∈ l, fits a where
  back _ hl := list_document_iff.mpr (List.forall₂_same.mpr fun a ha => h.back a (hl a ha))
  fit _ _ := forall_mem_of_list h.fit

/-! ### Objects -/

/-- What every member that is read preserves is preserved by reading members. -/
theorem members_invariant {put : P → String → Document → Except Fault P} (I : P → Prop)
    (hput : ∀ {f name d g}, I f → put f name d = .ok g → I g) {ms : List (Name × Document)}
    {f g : P} (hf : I f) (h : members put f ms = .ok g) : I g := by
  induction ms generalizing f with
  | nil => cases h; exact hf
  | cons m ms ih =>
      obtain ⟨name, d⟩ := m
      obtain ⟨name, -, h⟩ := bind_eq_ok.mp h
      obtain ⟨g, hg, h⟩ := bind_eq_ok.mp h
      exact ih (hput hf hg) h

/-- The invariant of the members holds of a plain object. -/
theorem plain_invariant {put : P → String → Document → Except Fault P} (I : P → Prop)
    (hput : ∀ {f name d g}, I f → put f name d = .ok g → I g) {start p : P} (hstart : I start)
    {d : Document} (h : plain put start d = .ok p) : I p := by
  unfold plain at h
  split at h
  · obtain ⟨found, hfound, h⟩ := bind_eq_ok.mp h
    obtain ⟨_, _, h⟩ := bind_eq_ok.mp h
    cases h
    exact members_invariant I hput hstart hfound
  · cases h

theorem plain_document {put : P → String → Document → Except Fault P} {start p : P}
    {ms : List (String × Json)} (h : members put start (memberDocuments ms) = .ok p) :
    plain put start (document (.object ms)) = .ok p := by
  simp only [document, plain, h]
  rfl

/-- A declared object is made of members that were found, whether it was an object or an array. -/
theorem exists_of_declared {o : Declared P α} {d : Document} {a : α} (h : o.read d = .ok a) :
    ∃ ms found, members o.put o.start ms = .ok found ∧ o.finish found = .ok a := by
  unfold Declared.read at h
  split at h
  · obtain ⟨found, hfound, h⟩ := bind_eq_ok.mp h
    obtain ⟨_, _, h⟩ := bind_eq_ok.mp h
    exact ⟨_, found, hfound, h⟩
  · obtain ⟨found, hfound, h⟩ := bind_eq_ok.mp h
    refine ⟨_, found, hfound, ?_⟩
    dsimp only at h
    split at h
    · cases h
    · obtain ⟨_, _, h⟩ := bind_eq_ok.mp h
      split at h
      · cases h
      · exact h
  · cases h

theorem mem_of_required {o : Option α} {a : α} (h : required o = .ok a) : a ∈ o := by
  cases o with
  | none => cases h
  | some b => cases h; rfl

theorem declared_document {o : Declared P α} {ms : List (String × Json)} {f : P}
    (h : members o.put o.start (memberDocuments ms) = .ok f) :
    o.read (document (.object ms)) = o.finish f := by
  simp only [document, Declared.read, h]
  rfl

/-! ### Members that may be absent -/

/-- Reading a member, if it is there, leads from one record of what was found to another. -/
def Takes (put : P → String → Document → Except Fault P) (f : P) (name : String)
    (value? : Option Json) (g : P) : Prop :=
  match value? with
  | some j => put f name (document j) = .ok g
  | none => g = f

/-- Of the members that are there the first is read first. -/
theorem members_present {put : P → String → Document → Except Fault P} {f g p : P} {name : String}
    {value? : Option Json} {rest : List (String × Option Json)} (h : Takes put f name value? g)
    (hrest : members put g (memberDocuments (present rest)) = .ok p) :
    members put f (memberDocuments (present ((name, value?) :: rest))) = .ok p := by
  cases value? with
  | none =>
      -- What is not there is not written either.
      have hg : g = f := h
      exact hg ▸ hrest
  | some j =>
      have hj : put f name (document j) = .ok g := h
      show (put f name (document j) >>= fun found =>
        members put found (memberDocuments (present rest))) = .ok p
      rw [hj]
      exact hrest

theorem optional_document {read : Reader α} {j : Json} (h : j ≠ .null) :
    optional read (document j) = some <$> read (document j) := by
  cases j <;> first | rfl | exact absurd rfl h

/-- What is written of a value that may be absent is read as another one, or as none. -/
def Returns (read : Reader α) (write : α → Json) (o o' : Option α) : Prop :=
  match o with
  | none => o' = none
  | some a => last read (document (write a)) = .ok o'

theorem returns_of_forall {read : Reader α} {write : α → Json} {cut : α → α} {o : Option α}
    (h : ∀ a ∈ o, read (document (write a)) = .ok (cut a) ∧ write a ≠ .null) :
    Returns read write o (o.map cut) := by
  cases o with
  | none => rfl
  | some a =>
      obtain ⟨ha, hnull⟩ := h a rfl
      show last read (document (write a)) = .ok (some (cut a))
      rw [last, optional_document hnull, ha]
      rfl

/-- What is written of a value is read as something if the value is. -/
theorem exists_returns {read : Reader α} {write : α → Json} {o : Option α}
    (h : ∀ a ∈ o, ∃ b, read (document (write a)) = .ok b) : ∃ o', Returns read write o o' := by
  cases o with
  | none => exact ⟨none, rfl⟩
  | some a =>
      obtain ⟨b, hb⟩ := h a rfl
      by_cases hnull : write a = .null
      · refine ⟨none, ?_⟩
        show last read (document (write a)) = .ok none
        rw [hnull]
        rfl
      · refine ⟨some b, ?_⟩
        show last read (document (write a)) = .ok (some b)
        rw [last, optional_document hnull, hb]
        rfl

theorem takes_returned {put : P → String → Document → Except Fault P} {f : P} {name : String}
    {read : Reader α} {write : α → Json} {o o' : Option α} (h : Returns read write o o')
    (set : P → Option α → P)
    (hput : ∀ d, put f name d = do return set f (← last read d)) (hnone : set f none = f) :
    Takes put f name (o.map write) (set f o') := by
  cases o with
  | none =>
      obtain rfl : o' = none := h
      exact hnone
  | some a =>
      have hread : last read (document (write a)) = .ok o' := h
      show put f name (document (write a)) = .ok (set f o')
      rw [hput, hread]
      rfl

theorem takes_last {put : P → String → Document → Except Fault P} {f : P} {name : String}
    {read : Reader α} {write : α → Json} {fits : α → Prop} (h : Faithful read write fits)
    (set : P → Option α → P)
    (hput : ∀ d, put f name d = do return set f (← last read d)) (hnone : set f none = f)
    {o : Option α} (ho : ∀ a ∈ o, fits a ∧ write a ≠ .null) :
    Takes put f name (o.map write) (set f o) := by
  have hback : Returns read write o (o.map id) :=
    returns_of_forall fun a ha => ⟨h.back a (ho a ha).1, (ho a ha).2⟩
  rw [Option.map_id] at hback
  exact takes_returned hback set hput hnone

/-- A text that may be absent needs no more. -/
theorem takes_text {put : P → String → Document → Except Fault P} {f : P} {name : String}
    (set : P → Option String → P)
    (hput : ∀ d, put f name d = do return set f (← last text d)) (hnone : set f none = f)
    {o : Option String} : Takes put f name (o.map Json.text) (set f o) :=
  takes_last text_faithful set hput hnone fun _ _ => ⟨trivial, nofun⟩

theorem takes_once {put : P → String → Document → Except Fault P} {f : P} {name : String}
    {read : Reader α} {write : α → Json} {fits : α → Prop} (h : Faithful read write fits)
    (set : P → Option α → P) (hput : ∀ d, put f name d = do return set f (← once read none d))
    {a : α} (ha : fits a) : Takes put f name (some (write a)) (set f (some a)) := by
  show put f name (document (write a)) = .ok (set f (some a))
  rw [hput, once, h.back a ha]
  rfl

theorem takes_once_optional {put : P → String → Document → Except Fault P} {f : P} {name : String}
    {read : Reader α} {write : α → Json} {fits : α → Prop} (h : Faithful read write fits)
    (set : P → Option (Option α) → P)
    (hput : ∀ d, put f name d = do return set f (← once (optional read) none d))
    (hnone : set f none = f) {o : Option α} (ho : ∀ a ∈ o, fits a ∧ write a ≠ .null) :
    Takes put f name (o.map write) (set f (o.map some)) := by
  cases o with
  | none => exact hnone
  | some a =>
      obtain ⟨ha, hnull⟩ := ho a rfl
      show put f name (document (write a)) = .ok (set f (some (some a)))
      rw [hput, once, optional_document hnull, h.back a ha]
      rfl

/-- A value that was read where there might be none is not `null`. -/
theorem of_optional {read : Reader α} {d : Document} {o : Option α}
    (h : optional read d = .ok o) : ∀ a ∈ o, d ≠ .null ∧ read d = .ok a := by
  unfold optional at h
  split at h
  · cases h; nofun
  · next hd =>
      obtain ⟨a, ha, rfl⟩ := map_eq_ok.mp h
      rintro b ⟨⟩
      exact ⟨hd, ha⟩

theorem of_once {read : Reader α} {found : Option α} {d : Document} {o : Option α}
    (h : once read found d = .ok o) : ∀ a ∈ o, read d = .ok a := by
  unfold once at h
  split at h
  · cases h
  · obtain ⟨a, ha, rfl⟩ := map_eq_ok.mp h
    rintro b ⟨⟩
    exact ha

theorem of_once_optional {read : Reader α} {found : Option (Option α)} {d : Document}
    {o : Option (Option α)} (h : once (optional read) found d = .ok o) :
    ∀ a, some a ∈ o → read d = .ok a :=
  fun a ha => (of_optional (of_once h (some a) ha) a rfl).2

/-! ### Maps -/

theorem members_insert {read : Reader α} {write : α → Json} {entries : List (String × α)}
    (hback : ∀ e ∈ entries, read (document (write e.2)) = .ok e.2) {m : Ordered String α}
    (hkeys : ((m.entries ++ entries).map Prod.fst).Nodup) :
    ∃ m', members (fun m name d => do return m.insert name (← read d)) m
        (memberDocuments (entries.map fun e => (e.1, write e.2))) = .ok m' ∧
      m'.entries = m.entries ++ entries := by
  induction entries generalizing m with
  | nil => exact ⟨m, rfl, (List.append_nil m.entries).symm⟩
  | cons e entries ih =>
      have hnew : e.1 ∉ m.entries.map Prod.fst := by
        rw [List.map_append, List.nodup_append] at hkeys
        exact fun he => hkeys.2.2 e.1 he e.1 (by simp) rfl
      have hins : (m.insert e.1 e.2).entries = m.entries ++ [e] := Ordered.place_of_not_mem hnew
      have hmore : (m.insert e.1 e.2).entries ++ entries = m.entries ++ e :: entries := by
        rw [hins, List.append_assoc, List.singleton_append]
      obtain ⟨m', hm', hentries⟩ :=
        ih (fun b hb => hback b (List.mem_cons_of_mem e hb)) (hmore ▸ hkeys)
      refine ⟨m', ?_, hentries.trans hmore⟩
      rw [← hm', List.map_cons, memberDocuments, members, hback e List.mem_cons_self]
      rfl

theorem map_faithful {read : Reader α} {write : α → Json} {fits : α → Prop}
    (h : Faithful read write fits) :
    Faithful (map read) (fun m => .object (m.entries.map fun e => (e.1, write e.2)))
      fun m => ∀ e ∈ m.entries, fits e.2 where
  back m hm := by
    obtain ⟨m', hm', hentries⟩ := members_insert (fun e he => h.back e.2 (hm e he))
      (m := Ordered.empty) m.distinct
    exact plain_document (hm'.trans (congrArg Except.ok (Ordered.ext hentries)))
  fit d m hm := by
    refine plain_invariant (fun m => ∀ e ∈ m.entries, fits e.2) (fun {m name d g} hall hput => ?_)
      ?_ hm
    · obtain ⟨a, ha, hput⟩ := bind_eq_ok.mp hput
      cases hput
      intro e he
      rcases Ordered.mem_place he with rfl | he
      · exact h.fit d a ha
      · exact hall e he
    · nofun

end Reader

/-! ### Values of any shape -/

mutual

/-- The floats in a value. -/
def floats : Json → List Decimal.Binary
  | .float x => [x]
  | .array items => itemFloats items
  | .object members => memberFloats members
  | _ => []

/-- The floats in items. -/
def itemFloats : List Json → List Decimal.Binary
  | [] => []
  | item :: rest => floats item ++ itemFloats rest

/-- The floats in members. -/
def memberFloats : List (String × Json) → List Decimal.Binary
  | [] => []
  | (_, value) :: rest => floats value ++ memberFloats rest

end

/-- Whether a float is read from the numeral that it is written as. -/
def IsSteady (x : Decimal.Binary) : Prop :=
  Decimal.Binary.ofNumeral? (x.numeral layout) = some x

instance (x : Decimal.Binary) : Decidable (IsSteady x) := inferInstanceAs (Decidable (_ = _))

/-- The shape of the values that can be read where at most so many containers are nested: whole
numbers have 64 bits, with a sign or without, and objects come in the order of their names. -/
inductive Readable : Nat → Json → Prop where
  | null {room : Nat} : Readable room .null
  | bool {room : Nat} (b : Bool) : Readable room (.bool b)
  | int {room : Nat} {n : Int} : -9223372036854775808 ≤ n ∧ n ≤ 18446744073709551615 →
      Readable room (.int n)
  | float {room : Nat} (x : Decimal.Binary) : Readable room (.float x)
  | text {room : Nat} (s : String) : Readable room (.text s)
  | array {room : Nat} {items : List Json} : (∀ j ∈ items, Readable room j) →
      Readable (room + 1) (.array items)
  | object {room : Nat} {members : List (String × Json)} :
      members.Pairwise (fun a b => a.1 < b.1) → (∀ m ∈ members, Readable room m.2) →
      Readable (room + 1) (.object members)

/-! What is read has this shape. -/

/-- A numeral is read as a whole number of 64 bits or as a float. -/
theorem int_or_float_of_value? {n : Numeral} {j : Json} (h : n.value? = some j) :
    (∃ i, (-9223372036854775808 ≤ i ∧ i ≤ 18446744073709551615) ∧ j = .int i) ∨
      ∃ x, j = .float x := by
  unfold Numeral.value? at h
  split at h
  · split at h
    · next hi => cases h; exact .inl ⟨_, hi, rfl⟩
    · obtain ⟨x, -, rfl⟩ := Option.map_eq_some_iff.mp h
      exact .inr ⟨x, rfl⟩
  · obtain ⟨x, -, rfl⟩ := Option.map_eq_some_iff.mp h
    exact .inr ⟨x, rfl⟩

theorem ofDocument_number {room : Nat} {n : Numeral} {j : Json} :
    ofDocument room (.number n) = .ok j ↔ n.value? = some j := by
  rw [ofDocument]
  cases n.value? <;> simp

mutual

theorem readable_of_ofDocument : ∀ (room : Nat) (d : Document) (j : Json),
    ofDocument room d = .ok j → Readable room j
  | _, .null, _, rfl => .null
  | _, .bool b, _, rfl => .bool b
  | _, .number n, j, h => by
      obtain ⟨i, hi, rfl⟩ | ⟨x, rfl⟩ := int_or_float_of_value? (ofDocument_number.mp h)
      · exact .int hi
      · exact .float x
  | _, .text s, j, h => by
      obtain ⟨s, -, rfl⟩ := map_eq_ok.mp h
      exact .text s
  | room + 1, .array items close, j, h => by
      obtain ⟨values, hvalues, h⟩ := bind_eq_ok.mp h
      obtain ⟨_, _, h⟩ := bind_eq_ok.mp h
      cases h
      exact .array (readable_of_ofItems room items values hvalues)
  | room + 1, .object ms close, j, h => by
      obtain ⟨values, hvalues, h⟩ := bind_eq_ok.mp h
      obtain ⟨_, _, h⟩ := bind_eq_ok.mp h
      cases h
      refine .object (Labels.increasing_placeAll values) fun m hm => ?_
      exact readable_of_ofMembers room ms values hvalues m (Labels.mem_of_mem_placeAll hm)

theorem readable_of_ofItems : ∀ (room : Nat) (ds : List Document) (values : List Json),
    ofItems room ds = .ok values → ∀ j ∈ values, Readable room j
  | _, [], _, rfl => nofun
  | room, d :: ds, values, h => by
      obtain ⟨j, hj, h⟩ := bind_eq_ok.mp h
      obtain ⟨rest, hrest, h⟩ := bind_eq_ok.mp h
      cases h
      exact List.forall_mem_cons.mpr
        ⟨readable_of_ofDocument room d j hj, readable_of_ofItems room ds rest hrest⟩

theorem readable_of_ofMembers : ∀ (room : Nat) (ms : List (Name × Document))
    (values : List (String × Json)), ofMembers room ms = .ok values →
    ∀ m ∈ values, Readable room m.2
  | _, [], _, rfl => nofun
  | room, (name, d) :: ms, values, h => by
      obtain ⟨name, -, h⟩ := bind_eq_ok.mp h
      obtain ⟨j, hj, h⟩ := bind_eq_ok.mp h
      obtain ⟨rest, hrest, h⟩ := bind_eq_ok.mp h
      cases h
      exact List.forall_mem_cons.mpr
        ⟨readable_of_ofDocument room d j hj, readable_of_ofMembers room ms rest hrest⟩

end

/-- What is read of a value that is not `null` is not `null`. -/
theorem ne_null_of_ofDocument {room : Nat} {d : Document} {j : Json} (hd : d ≠ .null)
    (h : ofDocument room d = .ok j) : j ≠ .null := by
  rintro rfl
  cases d with
  | null => exact hd rfl
  | bool b => cases h
  | number n =>
      obtain ⟨_, _, h⟩ | ⟨_, h⟩ := int_or_float_of_value? (ofDocument_number.mp h) <;> cases h
  | text s => obtain ⟨_, _, h⟩ := map_eq_ok.mp h; cases h
  | array items close =>
      cases room with
      | zero => cases h
      | succ room =>
          obtain ⟨_, _, h⟩ := bind_eq_ok.mp h
          obtain ⟨_, _, h⟩ := bind_eq_ok.mp h
          cases h
  | object ms close =>
      cases room with
      | zero => cases h
      | succ room =>
          obtain ⟨_, _, h⟩ := bind_eq_ok.mp h
          obtain ⟨_, _, h⟩ := bind_eq_ok.mp h
          cases h
  | broken b => cases h

/-! What has this shape is read back if its floats are. -/

theorem value?_float (x : Decimal.Binary) :
    (x.numeral layout).value? = (Decimal.Binary.ofNumeral? (x.numeral layout)).map .float := by
  have hint : (x.numeral layout).int? = none := int?_layout layout _ _
  simp only [Numeral.value?, hint]

theorem ofDocument_float {room : Nat} {x y : Decimal.Binary} :
    ofDocument room (document (.float x)) = .ok (.float y) ↔
      Decimal.Binary.ofNumeral? (x.numeral layout) = some y := by
  rw [document, ofDocument_number, value?_float]
  simp

/-- Every float is read, be it as another one. -/
theorem exists_ofDocument_float {room : Nat} (x : Decimal.Binary) :
    ∃ y, ofDocument room (document (.float x)) = .ok (.float y) := by
  obtain ⟨y, hy⟩ := Option.isSome_iff_exists.mp x.isSome_ofNumeral?_numeral
  exact ⟨y, ofDocument_float.mpr hy⟩

theorem mem_itemFloats {items : List Json} {x : Decimal.Binary} :
    x ∈ itemFloats items ↔ ∃ j ∈ items, x ∈ floats j := by
  induction items with
  | nil => simp [itemFloats]
  | cons j items ih => simp [itemFloats, ih]

theorem mem_memberFloats {members : List (String × Json)} {x : Decimal.Binary} :
    x ∈ memberFloats members ↔ ∃ m ∈ members, x ∈ floats m.2 := by
  induction members with
  | nil => simp [memberFloats]
  | cons m members ih => simp [memberFloats, ih]

theorem ofItems_documents {room : Nat} {items : List Json} :
    ofItems room (documents items) = .ok items ↔
      ∀ j ∈ items, ofDocument room (document j) = .ok j := by
  induction items with
  | nil => simp [documents, ofItems]
  | cons j items ih =>
      rw [documents, ofItems, bind_eq_ok, List.forall_mem_cons, ← ih]
      constructor
      · rintro ⟨i, hi, h⟩
        obtain ⟨rest, hrest, h⟩ := bind_eq_ok.mp h
        cases h
        exact ⟨hi, hrest⟩
      · rintro ⟨hj, hitems⟩
        exact ⟨j, hj, bind_eq_ok.mpr ⟨items, hitems, rfl⟩⟩

theorem ofMembers_documents {room : Nat} {members : List (String × Json)} :
    ofMembers room (memberDocuments members) = .ok members ↔
      ∀ m ∈ members, ofDocument room (document m.2) = .ok m.2 := by
  induction members with
  | nil => simp [memberDocuments, ofMembers]
  | cons m members ih =>
      obtain ⟨name, j⟩ := m
      rw [memberDocuments, ofMembers, List.forall_mem_cons, ← ih]
      constructor
      · intro h
        obtain ⟨_, hname, h⟩ := bind_eq_ok.mp h
        obtain ⟨i, hi, h⟩ := bind_eq_ok.mp h
        obtain ⟨rest, hrest, h⟩ := bind_eq_ok.mp h
        cases h
        exact ⟨hi, hrest⟩
      · rintro ⟨hj, hmembers⟩
        exact bind_eq_ok.mpr ⟨name, rfl, bind_eq_ok.mpr ⟨j, hj, bind_eq_ok.mpr ⟨_, hmembers, rfl⟩⟩⟩

/-- Members keep their names. -/
theorem map_fst_of_ofMembers {room : Nat} {members values : List (String × Json)}
    (h : ofMembers room (memberDocuments members) = .ok values) :
    values.map Prod.fst = members.map Prod.fst := by
  induction members generalizing values with
  | nil => cases h; rfl
  | cons m members ih =>
      obtain ⟨name, j⟩ := m
      obtain ⟨_, hname, h⟩ := bind_eq_ok.mp h
      obtain ⟨i, hi, h⟩ := bind_eq_ok.mp h
      obtain ⟨rest, hrest, h⟩ := bind_eq_ok.mp h
      cases hname
      cases h
      rw [List.map_cons, List.map_cons, ih hrest]

theorem ofDocument_array_document {room : Nat} {items : List Json} :
    ofDocument (room + 1) (document (.array items)) = .ok (.array items) ↔
      ofItems room (documents items) = .ok items := by
  rw [document, ofDocument, bind_eq_ok]
  constructor
  · rintro ⟨values, hvalues, h⟩
    cases h
    exact hvalues
  · exact fun h => ⟨items, h, rfl⟩

theorem ofDocument_object_document {room : Nat} {members : List (String × Json)}
    (hnames : members.Pairwise fun a b => a.1 < b.1) :
    ofDocument (room + 1) (document (.object members)) = .ok (.object members) ↔
      ofMembers room (memberDocuments members) = .ok members := by
  rw [document, ofDocument, bind_eq_ok]
  constructor
  · rintro ⟨values, hvalues, h⟩
    -- The names are in order already, so what was read is kept as it came.
    have hordered : values.Pairwise fun a b => a.1 < b.1 := by
      rw [← List.pairwise_map (f := Prod.fst) (R := (· < ·))] at hnames ⊢
      rwa [map_fst_of_ofMembers hvalues]
    have hplaced : members = Labels.placeAll values := by cases h; rfl
    rwa [← hplaced.trans (Labels.placeAll_of_increasing hordered)] at hvalues
  · intro h
    refine ⟨members, h, ?_⟩
    rw [Labels.placeAll_of_increasing hnames]
    rfl

/-- A value of the shape of what is read comes back just if its floats do. -/
theorem Readable.ofDocument_document_iff {room : Nat} {j : Json} (h : Readable room j) :
    ofDocument room (document j) = .ok j ↔ ∀ x ∈ floats j, IsSteady x := by
  induction h with
  | null | bool | text => simp [document, ofDocument, floats]
  | int hn => simp [document, ofDocument, floats, Reader.value?_ofInt hn]
  | float x => simp [ofDocument_float, floats, IsSteady]
  | @array room items _ ih =>
      rw [ofDocument_array_document, ofItems_documents, floats]
      simp only [mem_itemFloats]
      constructor
      · rintro h x ⟨j, hj, hx⟩
        exact (ih j hj).mp (h j hj) x hx
      · exact fun h j hj => (ih j hj).mpr fun x hx => h x ⟨j, hj, hx⟩
  | @object room members hnames _ ih =>
      rw [ofDocument_object_document hnames, ofMembers_documents, floats]
      simp only [mem_memberFloats]
      constructor
      · rintro h x ⟨m, hm, hx⟩
        exact (ih m hm).mp (h m hm) x hx
      · exact fun h m hm => (ih m hm).mpr fun x hx => h x ⟨m, hm, hx⟩

theorem exists_ofItems {room : Nat} {items : List Json}
    (h : ∀ j ∈ items, ∃ i, ofDocument room (document j) = .ok i) :
    ∃ values, ofItems room (documents items) = .ok values := by
  induction items with
  | nil => exact ⟨[], rfl⟩
  | cons j items ih =>
      obtain ⟨⟨i, hi⟩, hitems⟩ := List.forall_mem_cons.mp h
      obtain ⟨values, hvalues⟩ := ih hitems
      exact ⟨i :: values, bind_eq_ok.mpr ⟨i, hi, bind_eq_ok.mpr ⟨values, hvalues, rfl⟩⟩⟩

theorem exists_ofMembers {room : Nat} {members : List (String × Json)}
    (h : ∀ m ∈ members, ∃ i, ofDocument room (document m.2) = .ok i) :
    ∃ values, ofMembers room (memberDocuments members) = .ok values := by
  induction members with
  | nil => exact ⟨[], rfl⟩
  | cons m members ih =>
      obtain ⟨name, j⟩ := m
      obtain ⟨⟨i, hi⟩, hmembers⟩ := List.forall_mem_cons.mp h
      obtain ⟨values, hvalues⟩ := ih hmembers
      exact ⟨(name, i) :: values, bind_eq_ok.mpr ⟨name, rfl, bind_eq_ok.mpr ⟨i, hi,
        bind_eq_ok.mpr ⟨values, hvalues, rfl⟩⟩⟩⟩

/-- A value of the shape of what is read is read again when it is written. -/
theorem Readable.exists_ofDocument {room : Nat} {j : Json} (h : Readable room j) :
    ∃ i, ofDocument room (document j) = .ok i := by
  induction h with
  | null | bool | text => exact ⟨_, rfl⟩
  | int hn => exact ⟨_, ofDocument_number.mpr (Reader.value?_ofInt hn)⟩
  | float x =>
      obtain ⟨y, hy⟩ := exists_ofDocument_float x
      exact ⟨_, hy⟩
  | array _ ih =>
      obtain ⟨values, hvalues⟩ := exists_ofItems ih
      exact ⟨.array values, bind_eq_ok.mpr ⟨values, hvalues, rfl⟩⟩
  | object _ _ ih =>
      obtain ⟨values, hvalues⟩ := exists_ofMembers ih
      exact ⟨.object (Labels.placeAll values), bind_eq_ok.mpr ⟨values, hvalues, rfl⟩⟩

/-- Just the values of this shape whose floats are steady are read back. -/
theorem ofDocument_document_iff {room : Nat} {j : Json} :
    ofDocument room (document j) = .ok j ↔ Readable room j ∧ ∀ x ∈ floats j, IsSteady x :=
  ⟨fun h => ⟨readable_of_ofDocument room _ j h,
      (readable_of_ofDocument room _ j h).ofDocument_document_iff.mp h⟩,
    fun ⟨hshape, hfloats⟩ => hshape.ofDocument_document_iff.mpr hfloats⟩

end NodeFencing.Json
