/-
What is read of a manifest depends on what it says, not on how it is put.

A step from one way of putting a part to another keeps what is read: of a record since it does so
for what the members are read into, of labels and free values since it keeps the last value under
each name, and inside of a member or an item since each is read by itself.  So any number of steps
does, and with them go all spellings of the trees: blanks, escapes and the ways to write a number
are gone once there are tokens.
-/
import Mathlib.Logic.Relation
import NodeFencing.Proofs.Json.Entries
import NodeFencing.Proofs.Json.Parts

namespace NodeFencing

open Json

/-! ### A step keeps what is read -/

/-- Whether a tree is read as another one, if that one is accepted. -/
def Keeps {α : Type} (read : Reader α) (d d' : Document) : Prop :=
  ∀ a, read d = .ok a → read d' = .ok a

theorem Keeps.once {α P : Type} {read : Reader α} {d d' : Document} (h : Keeps read d d')
    {name : String} {get : P → Option α} {set : P → Option α → P} :
    ∀ found v, (Json.Field.once name read get set).read found d = .ok v →
      (Json.Field.once name read get set).read found d' = .ok v := by
  intro found v hv
  have hone : Reader.once read found d = .ok v := hv
  show Reader.once read found d' = .ok v
  unfold Reader.once at hone ⊢
  split at hone
  · cases hone
  · next hfound =>
    obtain ⟨a, ha, rfl⟩ := map_eq_ok.mp hone
    rw [if_neg hfound, h a ha]
    rfl

theorem Keeps.optional {α : Type} {read : Reader α} {d d' : Document} (h : Keeps read d d')
    (hnull : d ≠ .null ∧ d' ≠ .null) : Keeps (Reader.optional read) d d' := by
  intro o ho
  have hread : ∀ d : Document, d ≠ .null → Reader.optional read d = some <$> read d := by
    intro d hd
    cases d <;> first | rfl | exact absurd rfl hd
  rw [hread d hnull.1] at ho
  obtain ⟨a, ha, rfl⟩ := map_eq_ok.mp ho
  rw [hread d' hnull.2, h a ha]
  rfl

theorem Keeps.list {α : Type} {read : Reader α} {d d' : Document} (h : Keeps read d d')
    (before after : List Document) :
    Keeps (Reader.list read) (.array (before ++ d :: after) none)
      (.array (before ++ d' :: after) none) := by
  intro l hl
  obtain ⟨values, hvalues, hl⟩ := bind_eq_ok.mp hl
  exact bind_eq_ok.mpr ⟨values, mapM_replace h hvalues, hl⟩

theorem Keeps.array {room : Nat} {d d' : Document} (h : Keeps (ofDocument room) d d')
    (before after : List Document) :
    Keeps (ofDocument (room + 1)) (.array (before ++ d :: after) none)
      (.array (before ++ d' :: after) none) := by
  intro j hj
  obtain ⟨js, hjs, hj⟩ := ofDocument_array.mp hj
  exact ofDocument_array.mpr ⟨js, mapM_replace h hjs, hj⟩

/-- A part that is the value of a member of a record is read into a field of its own. -/
theorem Record.exists_child {room : Nat} {r : Record} {q : Part} {name : String} {d d' : Document}
    (hchild : r.child? name = some q) (hnull : d ≠ .null ∧ d' ≠ .null)
    (hkeeps : Keeps (q.read (room - 1)) d d') :
    ∃ s ∈ r.layout room, s.name = name ∧
      ∀ found v, s.read found d = .ok v → s.read found d' = .ok v := by
  unfold child? at hchild
  split at hchild <;> cases hchild
  · exact ⟨Remediation.metadataField room, Remediation.metadataField_mem, rfl, hkeeps.once⟩
  · exact ⟨Remediation.specField, Remediation.specField_mem, rfl, hkeeps.once⟩
  · exact ⟨Remediation.statusField, Remediation.statusField_mem, rfl, (hkeeps.optional hnull).once⟩
  · exact ⟨Metadata.annotationsField, Metadata.annotationsField_mem, rfl,
      fun _ => hkeeps.optional hnull⟩
  · exact ⟨Metadata.labelsField, Metadata.labelsField_mem, rfl, fun _ => hkeeps.optional hnull⟩
  · exact ⟨Metadata.managersField room, Metadata.managersField_mem, rfl,
      fun _ => hkeeps.optional hnull⟩
  · exact ⟨Metadata.ownersField, Metadata.ownersField_mem, rfl, fun _ => hkeeps.optional hnull⟩
  · exact ⟨Management.freeField room, Management.freeField_mem, rfl,
      fun _ => hkeeps.optional hnull⟩
  · exact ⟨Status.conditionsField, Status.conditionsField_mem, rfl, hkeeps.once⟩

/-- A declared object that is given as an array is read from its fields in their order. -/
theorem declared_array {P α : Type} {o : Declared P α} {items : List Document} {a : α} :
    o.read (.array items none) = .ok a ↔ items.length ≤ o.fields.length ∧
      o.needed ≤ items.length ∧ ∃ f, Reader.members o.put o.start
        ((o.fields.map (Except.ok : String → Name)).zip items) = .ok f ∧ o.finish f = .ok a := by
  have hread : o.read (.array items none) =
      (Reader.members o.put o.start ((o.fields.map Except.ok).zip items) >>= fun f =>
        if o.fields.length < items.length then .error .malformed
        else if items.length < o.needed then .error .mismatched else o.finish f) := rfl
  rw [hread, bind_eq_ok]
  constructor
  · rintro ⟨f, hf, ha⟩
    split at ha
    · cases ha
    · next hmany =>
      split at ha
      · cases ha
      · next hfew => exact ⟨Nat.not_lt.mp hmany, Nat.not_lt.mp hfew, f, hf, ha⟩
  · rintro ⟨hmany, hfew, f, hf, ha⟩
    exact ⟨f, hf, by rw [if_neg (Nat.not_lt.mpr hmany), if_neg (Nat.not_lt.mpr hfew), ha]⟩

/-- An item that is read into a field may be replaced by one that is read alike. -/
theorem keeps_positional {P α : Type} {o : Declared P α} {fields : List (Json.Field P)}
    (h : Reads o.put fields) {s : Json.Field P} (hs : s ∈ fields) {before after : List Document}
    {d d' : Document} (hposition : o.fields[before.length]? = some s.name)
    (halike : ∀ found v, s.read found d = .ok v → s.read found d' = .ok v) :
    Keeps o.read (.array (before ++ d :: after) none) (.array (before ++ d' :: after) none) := by
  intro a ha
  obtain ⟨hmany, hfew, f, hf, ha⟩ := declared_array.mp ha
  have hlength : (before ++ d' :: after).length = (before ++ d :: after).length := by simp
  refine declared_array.mpr ⟨hlength ▸ hmany, hlength ▸ hfew, f, ?_, ha⟩
  obtain ⟨hlt, hname⟩ := List.getElem?_eq_some_iff.mp hposition
  have hzip : ∀ e : Document,
      (o.fields.map (Except.ok : String → Name)).zip (before ++ e :: after) =
      ((o.fields.take before.length).map Except.ok).zip before ++
        (.ok s.name, e) :: ((o.fields.drop (before.length + 1)).map Except.ok).zip after := by
    intro e
    conv => lhs; rw [← List.take_append_drop before.length o.fields]
    rw [List.drop_eq_getElem_cons hlt, hname, List.map_append, List.map_cons,
      List.zip_append, List.zip_cons_cons]
    simp
    omega
  rw [hzip] at hf ⊢
  exact h.members_replace hs halike hf

namespace Part

theorem wantsWhole_read (room : Nat) : (p : Part) → WantsWhole (p.read room)
  | .record r => r.wantsWhole_read room
  | .list r => (r.wantsWhole_read (room - 1)).list
  | .labels => Labels.wantsWhole_read
  | .free => wantsWhole_ofDocument

/-- A step keeps what is read, however many containers may be nested. -/
theorem Restates.keeps {p : Part} {d d' : Document} (h : Restates p d d') (room : Nat) :
    Keeps (p.read room) d d' := by
  induction h generalizing room with
  | @permuted p ms ms' hperm hsame =>
      intro a ha
      cases p with
      | record r =>
          refine (r.readsObjects room).permuted hperm (fun s hs => ?_) ha
          cases hr : r.repeats with
          | true => exact .inr (hsame s.name ⟨hr, Record.mem_names hs⟩)
          | false => exact .inl (Record.isOnce_layout hr s hs)
      | list r => cases ha
      | labels => exact Labels.readsEntries.permuted hperm (fun name => hsame name trivial) ha
      | free =>
          cases room with
          | zero => cases ha
          | succ room =>
              exact (readsEntries_ofDocument room).permuted hperm
                (fun name => hsame name trivial) ha
  | @inserted r before after name d hname hd =>
      exact fun a ha => (r.readsObjects room).inserted (r.map_name_layout room ▸ hname) hd ha
  | @removed r before after name d hname =>
      exact fun a ha => (r.readsObjects room).removed (r.map_name_layout room ▸ hname) ha
  | @nulled r before after name hname hnone =>
      obtain ⟨s, hs, rfl, -, homit⟩ := Record.exists_optional room hname
      exact fun a ha => (r.readsObjects room).nulled hs homit hnone ha
  | @omitted r before after name hname =>
      obtain ⟨s, hs, rfl, honce, homit⟩ := Record.exists_optional room hname
      exact fun a ha => (r.readsObjects room).omitted hs honce homit ha
  | @member p q before after name d d' hchild hstep ih =>
      intro a ha
      cases p with
      | record r =>
          obtain ⟨s, hs, rfl, halike⟩ := Record.exists_child hchild hstep.ne_null (ih (room - 1))
          exact (r.readsObjects room).replaced hs halike ha
      | free =>
          cases hchild
          cases room with
          | zero => cases ha
          | succ room => exact (readsEntries_ofDocument room).replaced (ih room) ha
      | _ => cases hchild
  | @positional r q before after name d d' hposition hchild hstep ih =>
      obtain ⟨s, hs, rfl, halike⟩ := Record.exists_child hchild hstep.ne_null (ih (room - 1))
      cases r with
      | request => exact keeps_positional Remediation.reads hs hposition halike
      | status => exact keeps_positional Status.reads hs hposition halike
      | metadata | owner | manager => exact fun a ha => nomatch ha
      | spec | condition => exact nomatch hchild
  | @item p q before after d d' hitem _ ih =>
      cases p with
      | list r => cases hitem; exact (ih (room - 1)).list before after
      | free =>
          cases hitem
          cases room with
          | zero => exact fun a ha => nomatch ha
          | succ room => exact (ih room).array before after
      | _ => cases hitem

/-- Any number of steps keeps what is read. -/
theorem keeps_of_restated {p : Part} {d d' : Document}
    (h : Relation.ReflTransGen (Restates p) d d') (room : Nat) : Keeps (p.read room) d d' := by
  induction h with
  | refl => exact fun a ha => ha
  | tail _ hstep ih => exact fun a ha => hstep.keeps room a (ih a ha)

/-! ### Texts -/

theorem decode_eq_ok_iff {α : Type} {read : Reader α} {s : String} {a : α} :
    decode read s = .ok a ↔ ∃ d, Document.ofText s = (d, []) ∧ read d = .ok a := by
  unfold decode
  obtain ⟨d, rest⟩ := Document.ofText s
  cases hd : read d with
  | error f => simp [hd, bind, Except.bind]
  | ok b => cases rest <;> simp [hd, bind, Except.bind, pure, Except.pure]

/-- A text that is accepted spells the tree that was read. -/
theorem spelled_of_decode {room : Nat} {p : Part} {s : String} {a : p.Value}
    (h : decode (p.read room) s = .ok a) :
    ∃ d : Document, d.Spelled s ∧ p.read room d = .ok a := by
  obtain ⟨d, hd, ha⟩ := decode_eq_ok_iff.mp h
  exact ⟨d, Document.spelled_of_ofText hd (p.wantsWhole_read room d a ha), ha⟩

theorem decode_of_spelled {α : Type} {read : Reader α} {d : Document} {s : String} {a : α}
    (h : d.Spelled s) (ha : read d = .ok a) : decode read s = .ok a :=
  decode_eq_ok_iff.mpr ⟨d, h.ofText_eq, ha⟩

/-! ### Parameters, whose order counts -/

/-- An object whose members are pairs. -/
def tree {α : Type} (value : α → Document) (pairs : List (String × α)) : Document :=
  .object (pairs.map fun e => (.ok e.1, value e.2)) none

/-- The object of a spec whose parameters are pairs. -/
def specTree (agent : String) (shared : List (String × String))
    (byNode : List (String × List (String × String))) : Document :=
  .object [(.ok "agent", .text (.ok agent)),
    (.ok "sharedParameters", tree (fun s => .text (.ok s)) shared),
    (.ok "nodeParameters", tree (tree fun s => .text (.ok s)) byNode)] none

theorem map_tree {α β : Type} {read : Reader β} {value : α → Document} {f : α → β}
    (h : ∀ a, read (value a) = .ok (f a)) (pairs : List (String × α)) :
    Reader.map read (tree value pairs) =
      .ok (Ordered.ofList (pairs.map fun e => (e.1, f e.2))) := by
  refine map_object_eq_ok_iff.mpr ⟨_, ?_, rfl⟩
  induction pairs with
  | nil => rfl
  | cons e pairs ih =>
      exact mapM_cons_eq_ok_iff.mpr
        ⟨(e.1, f e.2), _, readEntry_eq_ok_iff.mpr ⟨rfl, h e.2⟩, ih, rfl⟩

theorem read_specTree (agent : String) (shared : List (String × String))
    (byNode : List (String × List (String × String))) :
    Spec.read (specTree agent shared byNode) =
      .ok (.ofPairs agent (some shared) (some byNode)) := by
  have htext : ∀ s, Reader.text (.text (.ok s)) = .ok s := fun _ => rfl
  have hpairs : ∀ pairs : List (String × String),
      Spec.readShared (tree (fun s => .text (.ok s)) pairs) = .ok (Ordered.ofList pairs) := by
    intro pairs
    have h := map_tree (f := id) htext pairs
    simp only [id, List.map_id_fun'] at h
    exact h
  have hbyNode : Spec.readByNode (tree (tree fun s => .text (.ok s)) byNode) =
      .ok (Ordered.ofList (byNode.map fun e => (e.1, Ordered.ofList e.2))) :=
    map_tree hpairs byNode
  refine (Spec.readsObjects.read_object _ _).mpr ⟨⟨some agent, some (some (Ordered.ofList shared)),
    some (some (Ordered.ofList (byNode.map fun e => (e.1, Ordered.ofList e.2))))⟩, ?_, rfl⟩
  refine members_cons_eq_ok_iff.mpr ⟨"agent", ⟨some agent, none, none⟩, rfl, rfl,
    members_cons_eq_ok_iff.mpr ⟨"sharedParameters",
      ⟨some agent, some (some (Ordered.ofList shared)), none⟩, rfl, ?_,
      members_cons_eq_ok_iff.mpr ⟨"nodeParameters", _, rfl, ?_, rfl⟩⟩⟩
  · refine Spec.reads.put_of_mem Spec.sharedField_mem ?_
    show some <$> some <$> Spec.readShared _ = _
    rw [hpairs]
    rfl
  · refine Spec.reads.put_of_mem Spec.byNodeField_mem ?_
    show some <$> some <$> Spec.readByNode _ = _
    rw [hbyNode]
    rfl

/-- **What is read of a manifest depends on what it says.**  A text that is accepted spells a tree,
and every text that spells a tree which says the same is accepted as well and read alike: with its
members in another order, with others that are not known, with or without those that may be left
out, and with blanks wherever they may be.  So the same is to be done for it, with the same
command.  Of the members of parameters alone the order counts: it is that of the arguments. -/
theorem decode_of_restated :
    (∀ (room : Nat) (p : Part) (s : String) (a : p.Value), decode (p.read room) s = .ok a →
      ∃ d : Document, d.Spelled s ∧ ∀ (d' : Document) (t : String),
        Relation.ReflTransGen (Restates p) d d' → d'.Spelled t → decode (p.read room) t = .ok a) ∧
    ∀ (agent node : String) (shared : List (String × String))
      (byNode : List (String × List (String × String))) (d : Document) (t : String),
      Relation.ReflTransGen (Restates (.record .spec)) (specTree agent shared byNode) d →
      d.Spelled t →
      ∃ spec, decode Spec.read t = .ok spec ∧
        ∀ command, Command.ofSpec spec node = .ok command ↔
          ∃ sharedArgs nodeArgs,
            Command.Spelled (lastValue? shared) (flagsOf shared) sharedArgs ∧
            Command.Spelled (nodeValue? byNode node) (flagsOf byNode) nodeArgs ∧
            command = agent :: (sharedArgs ++ nodeArgs) := by
  constructor
  · intro room p s a ha
    obtain ⟨d, hd, ha⟩ := spelled_of_decode ha
    exact ⟨d, hd, fun d' t hstep ht => decode_of_spelled ht (keeps_of_restated hstep room a ha)⟩
  · intro agent node shared byNode d t hstep ht
    have hread : Spec.read d = .ok (.ofPairs agent (some shared) (some byNode)) :=
      keeps_of_restated hstep nesting _ (read_specTree agent shared byNode)
    exact ⟨.ofPairs agent (some shared) (some byNode), decode_of_spelled ht hread,
      Command.ofSpec_ofPairs_eq_ok_iff agent node shared byNode⟩

/-! ### A request in few words and in many -/

deriving instance DecidableEq for Json.Token

/-- A member that is a text. -/
def textMember (name value : String) : Name × Document := (.ok name, .text (.ok value))

/-- A request that says little. -/
def brief : Document :=
  .object [(.ok "metadata", .object [textMember "name" "n",
      (.ok "labels", .object [textMember "a" "1", textMember "b" "2"] none)] none),
    (.ok "spec", .object [textMember "agent" "f"] none),
    (.ok "status", .object [(.ok "conditions", .array [] none),
      (.ok "lastUpdateTime", .null)] none)] none

/-- The same request in many words. -/
def wordy : Document :=
  .object [(.ok "spec", .object [(.ok "sharedParameters", .null), textMember "agent" "f"] none),
    (.ok "kind", .array [.number ⟨false, ['1'], none, some (false, ['9', '9', '9'])⟩,
      .text (.error .malformed)] none),
    (.ok "status", .object [(.ok "conditions", .array [] none)] none),
    (.ok "metadata", .object [textMember "name" "n",
      (.ok "labels", .object [textMember "b" "2", textMember "a" "1"] none)] none)] none

/-- The request in few words. -/
def briefText : String :=
  "\x7b\"metadata\":\x7b\"name\":\"n\",\"labels\":\x7b\"a\":\"1\",\"b\":\"2\"\x7d\x7d," ++
    "\"spec\":\x7b\"agent\":\"f\"\x7d,\"status\":\x7b\"conditions\":[]," ++
    "\"lastUpdateTime\":null\x7d\x7d"

/-- The request in many words, with blanks between them. -/
def wordyText : String :=
  "\x7b \"spec\" :\n\x7b\"sharedParameters\":null,\"agent\":\"\\u0066\"\x7d," ++
    "\"kind\":[1e999,\"\\ud800\"],\"status\":\x7b\"conditions\":[]\x7d," ++
    "\"metadata\":\x7b\"name\":\"n\"," ++
    "\"labels\":\x7b\"b\":\"2\",\"a\":\"1\"\x7d\x7d\t\x7d"

/-- A spec whose flags come in an order of their own. -/
def unsortedText : String :=
  "\x7b\"agent\":\"f\",\"sharedParameters\":\x7b\"b\":\"1\",\"a\":\"\"\x7d," ++
    "\"nodeParameters\":\x7b\x7d\x7d"

theorem restated_wordy :
    Relation.ReflTransGen (Restates (.record .request)) brief wordy := by
  have hlabels : Restates .labels (.object [textMember "a" "1", textMember "b" "2"] none)
      (.object [textMember "b" "2", textMember "a" "1"] none) := by
    refine .permuted (.swap _ _ _) fun name _ => ?_
    by_cases ha : "a" = name
    · subst ha
      rfl
    · by_cases hb : "b" = name <;> simp [textMember, isNamed_ok, ha, hb]
  refine .head (.permuted (List.perm_append_singleton _ [_, _]).symm nofun) ?_
  refine .head (.member (q := .record .spec) [] _ "spec" rfl
    (.nulled [] _ "sharedParameters" (by decide) (by decide))) ?_
  refine .head (.member (q := .record .status) [_] _ "status" rfl
    (.omitted [_] [] "lastUpdateTime" (by decide))) ?_
  refine .head (.member (q := .record .metadata) [_, _] [] "metadata" rfl
    (.member (q := .labels) [_] [] "labels" rfl hlabels)) ?_
  exact .single (.inserted [_] _ "kind" (by decide) rfl)

/-- A request in few words and in many is read alike, and flags become arguments in their order. -/
theorem decode_of_restated_wordy :
    (∃ r, decode Remediation.read briefText = .ok r ∧ decode Remediation.read wordyText = .ok r ∧
      r.spec.agent = "f") ∧
    ∃ spec, decode Spec.read unsortedText = .ok spec ∧
      Command.ofSpec spec "n" = .ok ["f", "b=1", "a"] := by
  have hbrief : brief.Spelled briefText := Document.spelled_of_tokens (by decide +kernel) rfl
  have hwordy : wordy.Spelled wordyText := Document.spelled_of_tokens (by decide +kernel) rfl
  have hread : decode Remediation.read briefText =
      .ok ⟨{ name := some "n", labels := some (Labels.ofList [("a", "1"), ("b", "2")]) },
        ⟨"f", none, none⟩, some ⟨[], none⟩⟩ := decode_of_spelled hbrief rfl
  have hunsorted : (specTree "f" [("b", "1"), ("a", "")] []).Spelled unsortedText :=
    Document.spelled_of_tokens (by decide +kernel) rfl
  obtain ⟨htexts, hparameters⟩ := decode_of_restated
  constructor
  · obtain ⟨d, hd, hsame⟩ := htexts nesting (.record .request) _ _ hread
    obtain rfl := hbrief.unique hd
    exact ⟨_, hread, hsame wordy _ restated_wordy hwordy, rfl⟩
  · obtain ⟨spec, hspec, hcommand⟩ := hparameters "f" "n" _ [] _ _ .refl hunsorted
    refine ⟨spec, hspec, (hcommand _).mpr ⟨["b=1", "a"], [], ?_, .nil, rfl⟩⟩
    exact .cons ⟨"1", rfl, rfl⟩ (.cons ⟨"", rfl, rfl⟩ .nil)

/-! ### Where a name comes twice -/

/-- A request with the given members in its metadata. -/
def requestOf (members : List (Name × Document)) : Document :=
  .object [(.ok "metadata", .object members none),
    (.ok "spec", .object [textMember "agent" "f"] none)] none

/-- Two members of one name. -/
def twoNames : List (Name × Document) := [textMember "name" "b", textMember "name" "a"]

/-- A request whose metadata has two names. -/
def twoNamesText : String :=
  "\x7b\"metadata\":\x7b\"name\":\"b\",\"name\":\"a\"\x7d," ++
    "\"spec\":\x7b\"agent\":\"f\"\x7d\x7d"

/-- The same members the other way round. -/
def swappedNamesText : String :=
  "\x7b\"metadata\":\x7b\"name\":\"a\",\"name\":\"b\"\x7d," ++
    "\"spec\":\x7b\"agent\":\"f\"\x7d\x7d"

/-- In metadata a name may come twice, and then the last member counts; so members of one name may
not change places. -/
theorem not_decode_of_permuted :
    (requestOf twoNames).Spelled twoNamesText ∧ twoNames.Perm twoNames.reverse ∧
    (requestOf twoNames.reverse).Spelled swappedNamesText ∧
    ∃ r r', decode Remediation.read twoNamesText = .ok r ∧
      decode Remediation.read swappedNamesText = .ok r' ∧ r.anyName = "a" ∧ r'.anyName = "b" := by
  have htext : (requestOf twoNames).Spelled twoNamesText :=
    Document.spelled_of_tokens (by decide +kernel) rfl
  have hswapped : (requestOf twoNames.reverse).Spelled swappedNamesText :=
    Document.spelled_of_tokens (by decide +kernel) rfl
  refine ⟨htext, twoNames.reverse_perm.symm, hswapped,
    ⟨{ name := some "a" }, ⟨"f", none, none⟩, none⟩,
    ⟨{ name := some "b" }, ⟨"f", none, none⟩, none⟩, ?_, ?_, rfl, rfl⟩
  · exact decode_of_spelled htext rfl
  · exact decode_of_spelled hswapped rfl

end Part

end NodeFencing
