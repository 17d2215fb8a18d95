/-
The arguments of the agent, read off the pairs that a request gives.

A request gives its shared parameters as pairs of a flag and a value, and the parameters of
nodes as pairs of a flag and the values that nodes have for it, pairs again.  A flag may come
more than once: it keeps the place where it came first and has the value that came last, and
for a flag with values node by node that is the last list of them as a whole.

`command_of_pairs` says which command such a request stands for, in terms of the pairs alone:
the flags without their repetitions, and for each of them the last value.  Whether there is a
command at all, and which flag is told of if not, follows from the same two.
-/
import Mathlib.Data.List.Forall2
import Mathlib.Data.List.Induction
import NodeFencing.Command

namespace NodeFencing

/-! ### Maps that are read from pairs -/

/-- The value that was given last under a key. -/
def lastValue? {κ α : Type} [BEq κ] (pairs : List (κ × α)) (k : κ) : Option α :=
  pairs.reverse.lookup k

theorem lastValue?_concat {κ α : Type} [DecidableEq κ] (pairs : List (κ × α)) (p : κ × α) (k : κ) :
    lastValue? (pairs ++ [p]) k = if p.1 = k then some p.2 else lastValue? pairs k := by
  unfold lastValue?
  rw [List.reverse_append, List.reverse_singleton, List.singleton_append, List.lookup_cons]
  by_cases h : p.1 = k
  · subst h
    simp
  · have hne : (k == p.1) = false := by simpa using fun e => h e.symm
    rw [if_neg h, hne]

namespace Ordered

variable {κ α : Type} [DecidableEq κ]

theorem ofList_concat (pairs : List (κ × α)) (p : κ × α) :
    ofList (pairs ++ [p]) = (ofList pairs).insert p.1 p.2 := by
  simp [ofList, List.foldl_append]

/-- The keys stand in the order in which they first came. -/
theorem keys_ofList (pairs : List (κ × α)) :
    (ofList pairs).keys = (pairs.map Prod.fst).eraseDups := by
  induction pairs using List.reverseRecOn with
  | nil => rfl
  | append_singleton pairs p ih =>
      have hkeys : (ofList (pairs ++ [p])).keys =
          if p.1 ∈ (ofList pairs).keys then (ofList pairs).keys
          else (ofList pairs).keys ++ [p.1] := by
        rw [ofList_concat]
        exact keys_place p.1 p.2 (ofList pairs).entries
      rw [hkeys, ih, List.map_append, List.map_singleton, eraseDups_concat]
      simp only [List.mem_eraseDups]

/-- Under a key is the value that was given last. -/
theorem get?_ofList (pairs : List (κ × α)) (k : κ) :
    (ofList pairs).get? k = lastValue? pairs k := by
  induction pairs using List.reverseRecOn with
  | nil => rfl
  | append_singleton pairs p ih =>
      rw [ofList_concat, get?_insert, ih, lastValue?_concat]

theorem get?_of_mem (m : Ordered κ α) {e : κ × α} (h : e ∈ m.entries) : m.get? e.1 = some e.2 := by
  obtain ⟨entries, distinct⟩ := m
  show lookup e.1 entries = some e.2
  induction entries with
  | nil => cases h
  | cons a rest ih =>
      obtain ⟨hnot, hrest⟩ := List.nodup_cons.mp distinct
      rcases List.mem_cons.mp h with rfl | h
      · exact if_pos rfl
      · have hne : ¬ a.1 = e.1 := fun heq => hnot (heq ▸ List.mem_map_of_mem h)
        rw [lookup, if_neg hne]
        exact ih hrest h

end Ordered

namespace Command

/-! ### Flags one by one -/

/-- A flag with the value that a node has for it, or the error that it has none. -/
def handOver (node flag : String) : Option String → Except Error String
  | some value => .ok (argument flag value)
  | none => .error (.missingNodeParameter flag node)

/-- One argument for every flag, in order: the flag alone if its value is empty, and with the
value after an equals sign if not. -/
def Spelled (value? : String → Option String) (flags arguments : List String) : Prop :=
  List.Forall₂ (fun flag argument => ∃ value, value? flag = some value ∧
    argument = if value = "" then flag else flag ++ "=" ++ value) flags arguments

section

variable {node : String} {value? : String → Option String} {flags : List String}

/-- The arguments are there if every flag has a value. -/
theorem mapM_handOver_eq_ok_iff {arguments : List String} :
    flags.mapM (fun flag => handOver node flag (value? flag)) = .ok arguments ↔
      Spelled value? flags arguments := by
  induction flags generalizing arguments with
  | nil =>
      rw [Spelled, List.forall₂_nil_left_iff, List.mapM_nil]
      exact ⟨fun h => (Except.ok.inj h).symm, fun h => congrArg Except.ok h.symm⟩
  | cons flag flags ih =>
      rw [Spelled, List.forall₂_cons_left_iff, List.mapM_cons]
      cases hvalue : value? flag with
      | none =>
          constructor
          · intro h
            cases h
          · rintro ⟨_, _, ⟨value, hsome, -⟩, -⟩
            cases hsome
      | some value =>
          cases hrest : flags.mapM (fun flag => handOver node flag (value? flag)) with
          | error e =>
              constructor
              · intro h
                cases h
              · rintro ⟨_, rest, -, hspelled, -⟩
                rw [ih.mpr hspelled] at hrest
                cases hrest
          | ok rest =>
              have hspelled := ih.mp hrest
              constructor
              · intro h
                exact ⟨_, rest, ⟨value, rfl, rfl⟩, hspelled, (Except.ok.inj h).symm⟩
              · rintro ⟨_, rest', ⟨value', hvalue', rfl⟩, hspelled', rfl⟩
                obtain rfl := Option.some.inj hvalue'
                obtain rfl : rest = rest' := Except.ok.inj (hrest.symm.trans (ih.mpr hspelled'))
                rfl

/-- The flag that is told of is the first one that has no value. -/
theorem mapM_handOver_eq_error_iff {e : Error} :
    flags.mapM (fun flag => handOver node flag (value? flag)) = .error e ↔
      ∃ flag, flags.find? (fun flag => (value? flag).isNone) = some flag ∧
        e = .missingNodeParameter flag node := by
  induction flags with
  | nil => simp [pure, Except.pure]
  | cons flag flags ih =>
      rw [List.mapM_cons]
      cases hvalue : value? flag with
      | none =>
          rw [List.find?_cons_of_pos (by simp [hvalue])]
          constructor
          · intro h
            exact ⟨flag, rfl, (Except.error.inj h).symm⟩
          · rintro ⟨_, hflag, rfl⟩
            obtain rfl := Option.some.inj hflag
            rfl
      | some value =>
          rw [List.find?_cons_of_neg (by simp [hvalue]), ← ih]
          cases flags.mapM (fun flag => handOver node flag (value? flag)) with
          | error e' => exact Iff.rfl
          | ok rest =>
              constructor
              · intro h
                cases h
              · intro h
                cases h

end

/-- Flags are spelled out in one way only. -/
theorem Spelled.unique {value? : String → Option String} {flags args args' : List String}
    (h : Spelled value? flags args) (h' : Spelled value? flags args') : args = args' := by
  refine List.right_unique_forall₂' ?_ h h'
  rintro flag _ _ ⟨value, hvalue, rfl⟩ ⟨value', hvalue', rfl⟩
  obtain rfl := Option.some.inj (hvalue.symm.trans hvalue')
  rfl

/-! ### Maps of parameters -/

/-- The shared parameters are handed over one by one. -/
theorem spelled_sharedArguments (shared : SharedParameters) :
    Spelled shared.get? shared.keys (sharedArguments shared) := by
  unfold Spelled sharedArguments Ordered.keys
  rw [List.forall₂_map_left_iff, List.forall₂_map_right_iff, List.forall₂_same]
  intro e he
  exact ⟨e.2, shared.get?_of_mem he, rfl⟩

/-- The parameters of a node are handed over flag by flag. -/
theorem nodeArguments_eq (byNode : NodeParameters) (node : String) :
    nodeArguments byNode node = byNode.keys.mapM fun flag =>
      handOver node flag ((byNode.get? flag).bind (·.get? node)) := by
  have hvalues : byNode.keys.map (fun flag => (flag, (byNode.get? flag).bind (·.get? node))) =
      byNode.entries.map fun e => (e.1, e.2.get? node) := by
    unfold Ordered.keys
    rw [List.map_map]
    refine List.map_congr_left ?_
    intro e he
    simp [byNode.get?_of_mem he]
  calc nodeArguments byNode node
      = (byNode.entries.map fun e => (e.1, e.2.get? node)).mapM
          (fun p => handOver node p.1 p.2) := by
        rw [List.mapM_map]
        refine congrArg (byNode.entries.mapM ·) ?_
        funext e
        simp only [Function.comp_apply]
        cases e.2.get? node <;> rfl
    _ = _ := by rw [← hvalues, List.mapM_map]; rfl

end Command

/-! ### Requests that are given in pairs -/

/-- The spec whose parameters are read from pairs, from left to right. -/
def Spec.ofPairs (agent : String) (shared : Option (List (String × String)))
    (byNode : Option (List (String × List (String × String)))) : Spec where
  agent := agent
  sharedParameters := shared.map Ordered.ofList
  nodeParameters := byNode.map fun pairs =>
    Ordered.ofList (pairs.map fun p => (p.1, Ordered.ofList p.2))

/-- The value that a node has for a flag: the last one in the last list of values. -/
def nodeValue? (byNode : List (String × List (String × String))) (node flag : String) :
    Option String :=
  (lastValue? byNode flag).bind fun values => lastValue? values node

/-- The flags of pairs, in the order in which they first come. -/
def flagsOf {α : Type} (pairs : List (String × α)) : List String := (pairs.map Prod.fst).eraseDups

theorem lastValue?_map {α β : Type} (f : α → β) (pairs : List (String × α)) (k : String) :
    lastValue? (pairs.map fun p => (p.1, f p.2)) k = (lastValue? pairs k).map f := by
  unfold lastValue?
  rw [← List.map_reverse]
  induction pairs.reverse with
  | nil => rfl
  | cons p rest ih =>
      rw [List.map_cons, List.lookup_cons, List.lookup_cons]
      cases k == p.1 with
      | true => rfl
      | false => exact ih

theorem lastValue?_filter {α : Type} (values : List (String × α)) (node : String) :
    lastValue? (values.filter fun q => q.1 == node) node = lastValue? values node := by
  unfold lastValue?
  rw [← List.filter_reverse]
  induction values.reverse with
  | nil => rfl
  | cons q rest ih =>
      by_cases h : q.1 = node
      · subst h
        rw [List.filter_cons_of_pos (by simp), List.lookup_cons_self, List.lookup_cons_self]
      · have hne : (node == q.1) = false := by simpa using fun e => h e.symm
        rw [List.filter_cons_of_neg (by simpa using h), ih, List.lookup_cons, hne]

/-- The pairs without the values of all other nodes. -/
def onlyFor (node : String) (byNode : List (String × List (String × String))) :
    List (String × List (String × String)) :=
  byNode.map fun p => (p.1, p.2.filter fun q => q.1 == node)

theorem flagsOf_onlyFor (node : String) (byNode : List (String × List (String × String))) :
    flagsOf (onlyFor node byNode) = flagsOf byNode := by
  simp [flagsOf, onlyFor, Function.comp_def]

theorem nodeValue?_onlyFor (node : String) (byNode : List (String × List (String × String)))
    (flag : String) : nodeValue? (onlyFor node byNode) node flag = nodeValue? byNode node flag := by
  unfold nodeValue? onlyFor
  rw [lastValue?_map]
  cases lastValue? byNode flag with
  | none => rfl
  | some values => exact lastValue?_filter values node

namespace Command

theorem nodeArguments_ofPairs (byNode : List (String × List (String × String))) (node : String) :
    nodeArguments (Ordered.ofList (byNode.map fun p => (p.1, Ordered.ofList p.2))) node =
      (flagsOf byNode).mapM fun flag => handOver node flag (nodeValue? byNode node flag) := by
  rw [nodeArguments_eq, Ordered.keys_ofList]
  have hflags : (byNode.map fun p => (p.1, Ordered.ofList p.2)).map Prod.fst =
      byNode.map Prod.fst := by
    simp [Function.comp_def]
  rw [hflags]
  refine congrArg ((flagsOf byNode).mapM ·) ?_
  funext flag
  rw [Ordered.get?_ofList, lastValue?_map]
  unfold nodeValue?
  cases lastValue? byNode flag with
  | none => rfl
  | some values =>
      show handOver node flag ((Ordered.ofList values).get? node) = _
      rw [Ordered.get?_ofList]
      rfl

/-- Shared parameters that are read from pairs, one argument for every flag. -/
theorem spelled_ofPairs (shared : List (String × String)) :
    Spelled (lastValue? shared) (flagsOf shared) (sharedArguments (Ordered.ofList shared)) := by
  have h := spelled_sharedArguments (Ordered.ofList shared)
  rw [Ordered.keys_ofList] at h
  exact (funext fun flag => Ordered.get?_ofList shared flag) ▸ h

/-- With both parameters given, the command of a node is up to its own arguments. -/
theorem ofSpec_ofPairs (agent node : String) (shared : List (String × String))
    (byNode : List (String × List (String × String))) :
    ofSpec (.ofPairs agent (some shared) (some byNode)) node =
      ((flagsOf byNode).mapM fun flag => handOver node flag (nodeValue? byNode node flag)).map
        fun nodeArgs => agent :: (sharedArguments (Ordered.ofList shared) ++ nodeArgs) := by
  rw [← nodeArguments_ofPairs]
  show (agent :: ·) <$>
    ((sharedArguments (Ordered.ofList shared) ++ ·) <$> nodeArguments _ node) = _
  cases nodeArguments (Ordered.ofList (byNode.map fun p => (p.1, Ordered.ofList p.2))) node <;> rfl

/-- With both parameters given, the error tells of the first flag that has no value. -/
theorem ofSpec_ofPairs_eq_error_iff (agent node : String) (shared : List (String × String))
    (byNode : List (String × List (String × String))) (e : Error) :
    ofSpec (.ofPairs agent (some shared) (some byNode)) node = .error e ↔
      ∃ flag, (flagsOf byNode).find? (fun flag => (nodeValue? byNode node flag).isNone) =
        some flag ∧ e = .missingNodeParameter flag node := by
  rw [ofSpec_ofPairs, ← mapM_handOver_eq_error_iff]
  cases (flagsOf byNode).mapM fun flag => handOver node flag (nodeValue? byNode node flag) with
  | error e' => exact Iff.rfl
  | ok nodeArgs =>
      constructor
      · intro h
        cases h
      · intro h
        cases h

/-- With both parameters given, the command has both lists of flags spelled out. -/
theorem ofSpec_ofPairs_eq_ok_iff (agent node : String) (shared : List (String × String))
    (byNode : List (String × List (String × String))) (command : List String) :
    ofSpec (.ofPairs agent (some shared) (some byNode)) node = .ok command ↔
      ∃ sharedArgs nodeArgs, Spelled (lastValue? shared) (flagsOf shared) sharedArgs ∧
        Spelled (nodeValue? byNode node) (flagsOf byNode) nodeArgs ∧
        command = agent :: (sharedArgs ++ nodeArgs) := by
  rw [ofSpec_ofPairs]
  constructor
  · intro h
    cases hnode : (flagsOf byNode).mapM fun flag =>
        handOver node flag (nodeValue? byNode node flag) with
    | error e =>
        rw [hnode] at h
        cases h
    | ok nodeArgs =>
        rw [hnode] at h
        exact ⟨_, nodeArgs, spelled_ofPairs shared, mapM_handOver_eq_ok_iff.mp hnode,
          (Except.ok.inj h).symm⟩
  · rintro ⟨sharedArgs, nodeArgs, hshared, hnode, rfl⟩
    rw [mapM_handOver_eq_ok_iff.mpr hnode, hshared.unique (spelled_ofPairs shared)]
    rfl

/-- Parameters are missed if one of the two is not given, be the other one what it may. -/
theorem ofSpec_ofPairs_eq_missingParameters_iff (agent node : String)
    (shared : Option (List (String × String)))
    (byNode : Option (List (String × List (String × String)))) :
    ofSpec (.ofPairs agent shared byNode) node = .error .missingParameters ↔
      shared = none ∨ byNode = none := by
  cases shared with
  | none => exact ⟨fun _ => .inl rfl, fun _ => rfl⟩
  | some shared =>
      cases byNode with
      | none => exact ⟨fun _ => .inr rfl, fun _ => rfl⟩
      | some byNode =>
          rw [ofSpec_ofPairs_eq_error_iff]
          constructor
          · rintro ⟨flag, -, h⟩
            cases h
          · rintro (h | h) <;> cases h

/-- What is given for other nodes makes no difference. -/
theorem ofSpec_onlyFor (agent node : String) (shared : List (String × String))
    (byNode : List (String × List (String × String))) :
    ofSpec (.ofPairs agent (some shared) (some (onlyFor node byNode))) node =
      ofSpec (.ofPairs agent (some shared) (some byNode)) node := by
  rw [ofSpec_ofPairs, ofSpec_ofPairs, flagsOf_onlyFor]
  simp only [nodeValue?_onlyFor]

/-- **The command of a request that is given in pairs**: there is none without both of the
parameters, and none if a flag has no value for the node, of which the first is told.  If all
have one, the command is the agent with one argument for every shared flag and then one for
every flag of the node, each with the value that came last, and what is given for other nodes
makes no difference. -/
theorem command_of_pairs (agent node : String) :
    (∀ shared byNode, ofSpec (.ofPairs agent shared byNode) node = .error .missingParameters ↔
      shared = none ∨ byNode = none) ∧
    ∀ shared byNode, let result := ofSpec (.ofPairs agent (some shared) (some byNode)) node
      (∀ e, result = .error e ↔
        ∃ flag, (flagsOf byNode).find? (fun flag => (nodeValue? byNode node flag).isNone) =
          some flag ∧ e = .missingNodeParameter flag node) ∧
      (∀ command, result = .ok command ↔
        ∃ sharedArgs nodeArgs, Spelled (lastValue? shared) (flagsOf shared) sharedArgs ∧
          Spelled (nodeValue? byNode node) (flagsOf byNode) nodeArgs ∧
          command = agent :: (sharedArgs ++ nodeArgs)) ∧
      ofSpec (.ofPairs agent (some shared) (some (onlyFor node byNode))) node = result := by
  refine ⟨ofSpec_ofPairs_eq_missingParameters_iff agent node, ?_⟩
  intro shared byNode result
  exact ⟨ofSpec_ofPairs_eq_error_iff agent node shared byNode,
    ofSpec_ofPairs_eq_ok_iff agent node shared byNode,
    ofSpec_onlyFor agent node shared byNode⟩

/-- A flag that is given again keeps its place and takes the new list of values as a whole. -/
example :
    ofSpec (.ofPairs "fence_ipmilan" (some [("--lanplus", ""), ("--user", "a"), ("--lanplus", "1")])
      (some [("--ip", [("n1", "10.0.0.1"), ("n2", "10.0.0.2")]), ("--ip", [("n2", "10.0.0.3")])]))
      "n2" = .ok ["fence_ipmilan", "--lanplus=1", "--user=a", "--ip=10.0.0.3"] := by
  decide +kernel

end Command

end NodeFencing
