/-
How a tree is written.

`parts` says which tokens a tree consists of, and a text spells a tree if it is made of these.
The builder keeps what is open in a list, and over the tokens of a tree it goes, whatever is open,
to the place where it would be had the tree been a single token.  For the items of an array, and
for the members of an object, it is the same with those that were read before.

The other way round the invariant is of what the builder has read: the tokens of everything that is
open, up to the place where it is.  With every token they grow by that token, so when the builder
has found a whole tree it has read the tokens of that tree.  A text that breaks off leaves a tree
that is not whole.
-/
import NodeFencing.Json.Document
import NodeFencing.Proofs.Json.Lexemes

namespace NodeFencing.Json.Document

/-! ### Whole trees and their tokens -/

/-- Whether nothing in a tree breaks off. -/
def IsWhole (d : Document) : Prop := d.skip = .ok ()

/-- The token at the end of a container. -/
def ending (token : Token) : Option Break → Token
  | none => token
  | some b => .broken b

mutual

/-- The tokens of a tree. -/
def parts : Document → List Token
  | .null => [.null]
  | .bool b => [.bool b]
  | .number n => [.number n]
  | .text s => [.text s]
  | .array items close => .openArray :: itemParts items ++ [ending .closeArray close]
  | .object members close => .openObject :: memberParts members ++ [ending .closeObject close]
  | .broken b => [.broken b]

/-- The tokens of items, with commas between them. -/
def itemParts : List Document → List Token
  | [] => []
  | [d] => parts d
  | d :: rest => parts d ++ .comma :: itemParts rest

/-- The tokens of members, with commas between them. -/
def memberParts : List (Name × Document) → List Token
  | [] => []
  | [(name, d)] => .text name :: .colon :: parts d
  | (name, d) :: rest => .text name :: .colon :: (parts d ++ .comma :: memberParts rest)

end

theorem skipItems_eq_ok {items : List Document} :
    skipItems items = .ok () ↔ ∀ d ∈ items, d.IsWhole := by
  induction items with
  | nil => simp [skipItems]
  | cons d items ih =>
      cases h : d.skip with
      | error f => simp [skipItems, IsWhole, h, bind, Except.bind]
      | ok u => simp [skipItems, IsWhole, h, bind, Except.bind, ih]

theorem skipMembers_eq_ok {members : List (Name × Document)} :
    skipMembers members = .ok () ↔ ∀ m ∈ members, m.2.IsWhole := by
  induction members with
  | nil => simp [skipMembers]
  | cons m members ih =>
      cases h : m.2.skip with
      | error f => simp [skipMembers, IsWhole, h, bind, Except.bind]
      | ok u => simp [skipMembers, IsWhole, h, bind, Except.bind, ih]

theorem isWhole_array {items : List Document} {close : Option Break} :
    (Document.array items close).IsWhole ↔ (∀ d ∈ items, d.IsWhole) ∧ close = none := by
  rw [← skipItems_eq_ok]
  cases h : skipItems items <;> cases close <;> simp [IsWhole, skip, h, bind, Except.bind]

theorem isWhole_object {members : List (Name × Document)} {close : Option Break} :
    (Document.object members close).IsWhole ↔ (∀ m ∈ members, m.2.IsWhole) ∧ close = none := by
  rw [← skipMembers_eq_ok]
  cases h : skipMembers members <;> cases close <;> simp [IsWhole, skip, h, bind, Except.bind]

theorem not_isWhole_broken (b : Break) : ¬ (Document.broken b).IsWhole := nofun

/-! ### From the tokens of a tree to the tree -/

/-- Where the builder is after a value, inside the open containers. -/
def settle (d : Document) (levels : List Level) (rest : List Token) : Document × List Token :=
  match levels with
  | [] => (d, rest)
  | level :: levels => build (level.add d :: levels) .more rest

/-- The first token of an item does not end its array. -/
theorem build_firstItem (d : Document) (items : List Document) (levels : List Level)
    (rest : List Token) :
    build levels .firstItem (itemParts (d :: items) ++ rest) =
      build levels .value (itemParts (d :: items) ++ rest) := by
  cases items <;> cases d <;>
    simp only [itemParts, parts, List.cons_append, List.nil_append, List.append_assoc] <;> rfl

mutual

/-- Over the tokens of a tree the builder goes as over one. -/
theorem build_parts : ∀ (d : Document), d.IsWhole → ∀ (levels : List Level) (rest : List Token),
    build levels .value (parts d ++ rest) = settle d levels rest
  | .null, _, levels, rest => by cases levels <;> rfl
  | .bool b, _, levels, rest => by cases levels <;> rfl
  | .number n, _, levels, rest => by cases levels <;> rfl
  | .text s, _, levels, rest => by cases levels <;> rfl
  | .broken b, h, _, _ => absurd h (not_isWhole_broken b)
  | .array [] close, h, levels, rest => by
      cases (isWhole_array.mp h).2
      cases levels <;> rfl
  | .array (d :: items) close, h, levels, rest => by
      obtain ⟨hitems, rfl⟩ := isWhole_array.mp h
      -- After the bracket an item is due or the end of the array, and here it is an item.
      have hbuild := build_itemParts (d :: items) (List.cons_ne_nil d items) hitems [] levels rest
      rw [← build_firstItem] at hbuild
      rw [parts, List.append_assoc, List.singleton_append]
      exact hbuild
  | .object [] close, h, levels, rest => by
      cases (isWhole_object.mp h).2
      cases levels <;> rfl
  | .object (m :: members) close, h, levels, rest => by
      obtain ⟨hmembers, rfl⟩ := isWhole_object.mp h
      have hbuild :=
        build_memberParts (m :: members) (List.cons_ne_nil m members) hmembers [] none levels rest
      rw [parts, List.append_assoc, List.singleton_append]
      cases members <;> exact hbuild

/-- Over items and the end of their array the builder goes as over the array. -/
theorem build_itemParts : ∀ (items : List Document), items ≠ [] → (∀ d ∈ items, d.IsWhole) →
    ∀ (before : List Document) (levels : List Level) (rest : List Token),
    build (.array before :: levels) .value (itemParts items ++ .closeArray :: rest) =
      settle (.array (before.reverse ++ items) none) levels rest
  | [], h, _, _, _, _ => absurd rfl h
  | [d], _, hitems, before, levels, rest => by
      rw [itemParts, build_parts d (hitems d List.mem_cons_self), ← List.reverse_cons]
      cases levels <;> rfl
  | d :: next :: items, _, hitems, before, levels, rest => by
      have hbuild := build_itemParts (next :: items) (List.cons_ne_nil next items)
        (fun d hd => hitems d (List.mem_cons_of_mem _ hd)) (d :: before) levels rest
      rw [List.reverse_cons, List.append_assoc, List.singleton_append] at hbuild
      rw [itemParts, List.append_assoc, build_parts d (hitems d List.mem_cons_self)]
      · exact hbuild
      · nofun

/-- Over members and the end of their object the builder goes as over the object. -/
theorem build_memberParts : ∀ (members : List (Name × Document)), members ≠ [] →
    (∀ m ∈ members, m.2.IsWhole) → ∀ (before : List (Name × Document)) (pending : Option Name)
    (levels : List Level) (rest : List Token),
    build (.object before pending :: levels) .member
        (memberParts members ++ .closeObject :: rest) =
      settle (.object (before.reverse ++ members) none) levels rest
  | [], h, _, _, _, _, _ => absurd rfl h
  | [(name, d)], _, hmembers, before, pending, levels, rest => by
      have hvalue := build_parts d (hmembers (name, d) List.mem_cons_self)
        (.object before (some name) :: levels) (.closeObject :: rest)
      rw [memberParts, ← List.reverse_cons]
      refine hvalue.trans ?_
      cases levels <;> rfl
  | (name, d) :: next :: members, _, hmembers, before, pending, levels, rest => by
      have hvalue := build_parts d (hmembers (name, d) List.mem_cons_self)
        (.object before (some name) :: levels)
        (.comma :: memberParts (next :: members) ++ .closeObject :: rest)
      have hbuild := build_memberParts (next :: members) (List.cons_ne_nil next members)
        (fun m hm => hmembers m (List.mem_cons_of_mem _ hm)) ((name, d) :: before) none levels rest
      rw [List.reverse_cons, List.append_assoc, List.singleton_append] at hbuild
      rw [memberParts, List.cons_append, List.cons_append, List.append_assoc]
      · exact hvalue.trans hbuild
      · nofun

end

theorem ofTokens_parts {d : Document} (h : d.IsWhole) : ofTokens d.parts = (d, []) := by
  have hbuild := build_parts d h [] []
  rwa [List.append_nil] at hbuild

/-! ### From a tree to its tokens -/

/-- The tokens of items, each with a comma after it. -/
def followedItems (items : List Document) : List Token :=
  items.flatMap fun d => parts d ++ [.comma]

/-- The tokens of members, each with a comma after it. -/
def followedMembers (members : List (Name × Document)) : List Token :=
  members.flatMap fun m => .text m.1 :: .colon :: (parts m.2 ++ [.comma])

theorem itemParts_concat (items : List Document) (d : Document) :
    itemParts (items ++ [d]) = followedItems items ++ parts d := by
  induction items with
  | nil => rfl
  | cons first items ih =>
      rw [List.cons_append, itemParts, ih]
      · simp [followedItems]
      · simp

theorem memberParts_concat (members : List (Name × Document)) (m : Name × Document) :
    memberParts (members ++ [m]) = followedMembers members ++ .text m.1 :: .colon :: parts m.2 := by
  induction members with
  | nil => rfl
  | cons first members ih =>
      rw [List.cons_append, memberParts, ih]
      · simp [followedMembers]
      · simp

/-- The tokens that were read of all that is open, when a value is due inside it. -/
inductive Awaits : List Level → List Token → Prop where
  | nil : Awaits [] []
  | array {levels : List Level} {read : List Token} (items : List Document) :
      Awaits levels read →
      Awaits (.array items :: levels) (read ++ .openArray :: followedItems items.reverse)
  | object {levels : List Level} {read : List Token} (members : List (Name × Document))
      (name : Name) : Awaits levels read →
      Awaits (.object members (some name) :: levels)
        (read ++ .openObject :: (followedMembers members.reverse ++ [.text name, .colon]))

/-- The tokens that were read of all that is open, up to what is due. -/
inductive Reads : List Level → Due → List Token → Prop where
  | value {levels : List Level} {read : List Token} : Awaits levels read →
      Reads levels .value read
  | firstItem {levels : List Level} {read : List Token} : Awaits levels read →
      Reads (.array [] :: levels) .firstItem (read ++ [.openArray])
  | firstMember {levels : List Level} {read : List Token} : Awaits levels read →
      Reads (.object [] none :: levels) .firstMember (read ++ [.openObject])
  | member {levels : List Level} {read : List Token} (members : List (Name × Document)) :
      Awaits levels read →
      Reads (.object members none :: levels) .member
        (read ++ .openObject :: followedMembers members.reverse)
  | colon {levels : List Level} {read : List Token} (members : List (Name × Document))
      (name : Name) : Awaits levels read →
      Reads (.object members (some name) :: levels) .colon
        (read ++ .openObject :: (followedMembers members.reverse ++ [.text name]))
  | moreItems {levels : List Level} {read : List Token} (items : List Document) (d : Document) :
      Awaits levels read →
      Reads (.array (d :: items) :: levels) .more
        (read ++ .openArray :: itemParts (d :: items).reverse)
  | moreMembers {levels : List Level} {read : List Token} (members : List (Name × Document))
      (m : Name × Document) : Awaits levels read →
      Reads (.object (m :: members) none :: levels) .more
        (read ++ .openObject :: memberParts (m :: members).reverse)

/-- After a value more may come, if it stands inside of something. -/
theorem Awaits.reads_add {level : Level} {levels : List Level} {read : List Token}
    (h : Awaits (level :: levels) read) (d : Document) :
    Reads (level.add d :: levels) .more (read ++ parts d) := by
  cases h with
  | array items h =>
      have hreads := Reads.moreItems items d h
      rw [List.reverse_cons, itemParts_concat] at hreads
      simpa [Level.add] using hreads
  | object members name h =>
      have hreads := Reads.moreMembers members (name, d) h
      rw [List.reverse_cons, memberParts_concat] at hreads
      simpa [Level.add] using hreads

/-! A tree that breaks off is not whole. -/

theorem not_isWhole_close (level : Level) (b : Break) : ¬ (level.close (some b)).IsWhole := by
  intro h
  cases level with
  | array items => cases (isWhole_array.mp h).2
  | object members pending => cases (isWhole_object.mp h).2

theorem not_isWhole_abandon {d : Document} (hd : ¬ d.IsWhole) (b : Break) (levels : List Level) :
    ¬ (abandon b d levels).IsWhole := by
  induction levels generalizing d with
  | nil => exact hd
  | cons level levels ih => exact ih (not_isWhole_close _ b)

theorem not_isWhole_abandonOpen (b : Break) (levels : List Level) :
    ¬ (abandonOpen b levels).IsWhole := by
  cases levels with
  | nil => exact not_isWhole_broken b
  | cons level levels => exact not_isWhole_abandon (not_isWhole_close level b) b levels

theorem not_isWhole_atEnd (levels : List Level) (due : Due) : ¬ (atEnd levels due).IsWhole := by
  cases due <;> first
    | exact not_isWhole_abandon (not_isWhole_broken _) _ levels
    | exact not_isWhole_abandonOpen _ levels

/-- A whole tree that the builder finds in tokens has the tokens that were read. -/
def Follows (ts : List Token) : Prop :=
  ∀ {levels : List Level} {due : Due} {read : List Token} {d : Document} {rest : List Token},
    Reads levels due read → build levels due ts = (d, rest) → d.IsWhole →
    read ++ ts = parts d ++ rest

section Step

variable {token : Token} {ts : List Token} {levels : List Level} {due : Due} {read : List Token}
  {d : Document} {rest : List Token}

theorem Follows.settle (ih : Follows ts) (h : Awaits levels read) {v : Document}
    (hbuild : settle v levels ts = (d, rest)) (hd : d.IsWhole) :
    read ++ (parts v ++ ts) = parts d ++ rest := by
  cases levels with
  | nil =>
      cases h
      cases hbuild
      rfl
  | cons level levels =>
      have hfollows := ih (h.reads_add v) hbuild hd
      rwa [List.append_assoc] at hfollows

theorem Follows.value (ih : Follows ts) (h : Awaits levels read)
    (hbuild : build levels .value (token :: ts) = (d, rest)) (hd : d.IsWhole) :
    read ++ token :: ts = parts d ++ rest := by
  cases token with
  | openArray => simpa using ih (.firstItem h) hbuild hd
  | openObject => simpa using ih (.firstMember h) hbuild hd
  | null => exact ih.settle h (v := .null) (by cases levels <;> exact hbuild) hd
  | bool b => exact ih.settle h (v := .bool b) (by cases levels <;> exact hbuild) hd
  | number n => exact ih.settle h (v := .number n) (by cases levels <;> exact hbuild) hd
  | text s => exact ih.settle h (v := .text s) (by cases levels <;> exact hbuild) hd
  | _ =>
      cases hbuild
      exact absurd hd (not_isWhole_abandon (not_isWhole_broken _) _ levels)

theorem Follows.cons (ih : Follows ts) (h : Reads levels due read)
    (hbuild : build levels due (token :: ts) = (d, rest)) (hd : d.IsWhole) :
    read ++ token :: ts = parts d ++ rest := by
  cases h with
  | value h => exact ih.value h hbuild hd
  | @firstItem levels read h =>
      by_cases hclose : token = .closeArray
      · subst hclose
        simpa [parts, itemParts, ending] using
          ih.settle h (v := .array [] none) (by cases levels <;> exact hbuild) hd
      · have hvalue : build (.array [] :: levels) .value (token :: ts) = (d, rest) := by
          cases token <;> first | exact absurd rfl hclose | exact hbuild
        simpa [followedItems] using ih.value (h.array []) hvalue hd
  | @firstMember levels read h =>
      cases token with
      | closeObject =>
          simpa [parts, memberParts, ending] using
            ih.settle h (v := .object [] none) (by cases levels <;> exact hbuild) hd
      | text name => simpa [followedMembers] using ih (.colon [] name h) hbuild hd
      | _ => cases hbuild; exact absurd hd (not_isWhole_abandonOpen _ _)
  | member members h =>
      cases token with
      | text name => simpa using ih (.colon members name h) hbuild hd
      | _ => cases hbuild; exact absurd hd (not_isWhole_abandonOpen _ _)
  | colon members name h =>
      cases token with
      | colon => simpa using ih (.value (h.object members name)) hbuild hd
      | _ => cases hbuild; exact absurd hd (not_isWhole_abandon (not_isWhole_broken _) _ _)
  | @moreItems levels read items last h =>
      cases token with
      | comma =>
          have hitems : followedItems (last :: items).reverse =
              itemParts (last :: items).reverse ++ [.comma] := by
            rw [List.reverse_cons, itemParts_concat]
            simp [followedItems]
          have hfollows := ih (.value (h.array (last :: items))) hbuild hd
          rw [hitems] at hfollows
          simpa using hfollows
      | closeArray =>
          simpa [parts, ending] using ih.settle h (v := .array (last :: items).reverse none)
            (by cases levels <;> exact hbuild) hd
      | _ => cases hbuild; exact absurd hd (not_isWhole_abandonOpen _ _)
  | @moreMembers levels read members last h =>
      cases token with
      | comma =>
          have hmembers : followedMembers (last :: members).reverse =
              memberParts (last :: members).reverse ++ [.comma] := by
            rw [List.reverse_cons, memberParts_concat]
            simp [followedMembers]
          have hfollows := ih (.member (last :: members) h) hbuild hd
          rw [hmembers] at hfollows
          simpa using hfollows
      | closeObject =>
          simpa [parts, ending] using ih.settle h (v := .object (last :: members).reverse none)
            (by cases levels <;> exact hbuild) hd
      | _ => cases hbuild; exact absurd hd (not_isWhole_abandonOpen _ _)

end Step

theorem follows (ts : List Token) : Follows ts := by
  induction ts with
  | nil =>
      intro levels due read d rest _ hbuild hd
      cases hbuild
      exact absurd hd (not_isWhole_atEnd levels due)
  | cons token ts ih => exact fun h hbuild hd => ih.cons h hbuild hd

/-- A whole tree is made of the tokens that it was found in. -/
theorem eq_parts_of_ofTokens {ts rest : List Token} {d : Document}
    (h : ofTokens ts = (d, rest)) (hd : d.IsWhole) : ts = parts d ++ rest :=
  follows ts (.value .nil) h hd

/-! ### Texts that spell a tree -/

mutual

theorem isSound_parts : ∀ (d : Document), d.IsWhole → ∀ token ∈ parts d, token.IsSound
  | .null, _ => by simp [parts, Token.IsSound]
  | .bool b, _ => by simp [parts, Token.IsSound]
  | .number n, _ => by simp [parts, Token.IsSound]
  | .text s, _ => by simp [parts, Token.IsSound]
  | .broken b, h => absurd h (not_isWhole_broken b)
  | .array items close, h => by
      obtain ⟨hitems, rfl⟩ := isWhole_array.mp h
      simpa [parts, ending, Token.IsSound, or_imp, forall_and] using isSound_itemParts items hitems
  | .object members close, h => by
      obtain ⟨hmembers, rfl⟩ := isWhole_object.mp h
      simpa [parts, ending, Token.IsSound, or_imp, forall_and] using
        isSound_memberParts members hmembers

theorem isSound_itemParts : ∀ (items : List Document), (∀ d ∈ items, d.IsWhole) →
    ∀ token ∈ itemParts items, token.IsSound
  | [], _ => nofun
  | [d], h => by
      rw [itemParts]
      exact isSound_parts d (h d List.mem_cons_self)
  | d :: next :: items, h => by
      obtain ⟨hd, hitems⟩ := List.forall_mem_cons.mp h
      rw [itemParts]
      · simpa [Token.IsSound, or_imp, forall_and] using
          ⟨isSound_parts d hd, isSound_itemParts (next :: items) hitems⟩
      · nofun

theorem isSound_memberParts : ∀ (members : List (Name × Document)), (∀ m ∈ members, m.2.IsWhole) →
    ∀ token ∈ memberParts members, token.IsSound
  | [], _ => nofun
  | [(name, d)], h => by
      rw [memberParts]
      simpa [Token.IsSound] using isSound_parts d (h (name, d) List.mem_cons_self)
  | (name, d) :: next :: members, h => by
      obtain ⟨hd, hmembers⟩ := List.forall_mem_cons.mp h
      rw [memberParts]
      · simpa [Token.IsSound, or_imp, forall_and] using
          ⟨isSound_parts d hd, isSound_memberParts (next :: members) hmembers⟩
      · nofun

end

/-- Whether a text is a whole tree and nothing else: the tokens of the tree, put down in any of
their spellings, with blanks anywhere between them. -/
structure Spelled (d : Document) (s : String) : Prop where
  isWhole : d.IsWhole
  written : Written (parts d) s.toList

theorem Spelled.ofText_eq {d : Document} {s : String} (h : Spelled d s) : ofText s = (d, []) := by
  rw [ofText, h.written.tokens_eq, ofTokens_parts h.isWhole]

/-- A text is spelled by no other tree. -/
theorem Spelled.unique {d d' : Document} {s : String} (h : Spelled d s) (h' : Spelled d' s) :
    d = d' :=
  congrArg Prod.fst (h.ofText_eq.symm.trans h'.ofText_eq)

/-- A text that has just the tokens of a whole tree spells it. -/
theorem spelled_of_tokens {d : Document} {s : String} (h : tokens s.toList = parts d)
    (hd : d.IsWhole) : Spelled d s := by
  refine ⟨hd, h ▸ written_tokens s.toList fun token htoken => ?_⟩
  exact isSound_parts d hd token (h ▸ htoken)

/-- A text that is found to be a whole tree and nothing else spells it. -/
theorem spelled_of_ofText {d : Document} {s : String} (h : ofText s = (d, [])) (hd : d.IsWhole) :
    Spelled d s := by
  have hparts := eq_parts_of_ofTokens h hd
  rw [List.append_nil] at hparts
  exact spelled_of_tokens hparts hd

end NodeFencing.Json.Document
