/-
The parts of a manifest, and how they may be put.

Most parts are records, which know some names each and of these some that may be left out; labels
and the parts of a value of any shape know no names, and lists have records as their items.
`Restates` are the ways of putting a part that say the same: members in another order, members of
names that are not known, `null` in the place of a member that may be left out or the other way
round, and all of this inside of members and items.  The parameters of a spec are no parts: of
their members the order counts.

What is to be known of how records are read stands here for all of them at once.
-/
import NodeFencing.Proofs.Json.Records

namespace NodeFencing

open Json

/-! ### The parts of a manifest -/

/-- The records of a manifest: the objects whose members are told apart by their names. -/
inductive Record where
  | request
  | metadata
  | owner
  | manager
  | spec
  | status
  | condition

namespace Record

/-- What a record is read as. -/
def Value : Record → Type
  | .request => Remediation
  | .metadata => Metadata
  | .owner => Owner
  | .manager => Management
  | .spec => Spec
  | .status => Status
  | .condition => Condition

/-- Reads a record in which at most so many containers are nested. -/
def read (room : Nat) : (r : Record) → Reader r.Value
  | .request => Remediation.readWithin room
  | .metadata => Metadata.read room
  | .owner => Owner.read
  | .manager => Management.read room
  | .spec => Spec.read
  | .status => Status.read
  | .condition => Condition.read

/-- The names that are known in a record. -/
def names : Record → List String
  | .request => ["metadata", "spec", "status"]
  | .metadata => ["annotations", "creationTimestamp", "deletionGracePeriodSeconds",
      "deletionTimestamp", "finalizers", "generateName", "generation", "labels", "managedFields",
      "name", "namespace", "ownerReferences", "resourceVersion", "selfLink", "uid"]
  | .owner => ["apiVersion", "blockOwnerDeletion", "controller", "kind", "name", "uid"]
  | .manager => ["apiVersion", "fieldsType", "fieldsV1", "manager", "operation", "subresource",
      "time"]
  | .spec => ["agent", "sharedParameters", "nodeParameters"]
  | .status => ["conditions", "lastUpdateTime"]
  | .condition =>
    ["type", "status", "reason", "message", "lastTransitionTime", "observedGeneration"]

/-- The names of the members that may be left out. -/
def optional : Record → List String
  | .request => ["status"]
  | .spec => ["sharedParameters", "nodeParameters"]
  | .status => ["lastUpdateTime"]
  | .condition => ["observedGeneration"]
  | _ => []

/-- Whether a name may be given more than once; then the last member of that name counts. -/
def repeats : Record → Bool
  | .metadata | .owner | .manager => true
  | _ => false

end Record

/-- A part of a manifest: a record, a list of records, labels, or a value of any shape. -/
inductive Part where
  | record (r : Record)
  | list (r : Record)
  | labels
  | free

/-- The part that is the value of a member of a record. -/
def Record.child? : Record → String → Option Part
  | .request, "metadata" => some (.record .metadata)
  | .request, "spec" => some (.record .spec)
  | .request, "status" => some (.record .status)
  | .metadata, "annotations" => some .labels
  | .metadata, "labels" => some .labels
  | .metadata, "managedFields" => some (.list .manager)
  | .metadata, "ownerReferences" => some (.list .owner)
  | .manager, "fieldsV1" => some .free
  | .status, "conditions" => some (.list .condition)
  | _, _ => none

namespace Part

/-- What a part is read as. -/
def Value : Part → Type
  | .record r => r.Value
  | .list r => List r.Value
  | .labels => Labels
  | .free => Json

/-- Reads a part in which at most so many containers are nested. -/
def read (room : Nat) : (p : Part) → Reader p.Value
  | .record r => r.read room
  | .list r => Reader.list (r.read (room - 1))
  | .labels => Labels.read
  | .free => ofDocument room

/-- Whether of several members of a name the last one counts. -/
def Repeats : Part → String → Prop
  | .record r, name => r.repeats = true ∧ name ∈ r.names
  | _, _ => True

/-- The part that is the value of a member. -/
def child? : Part → String → Option Part
  | .record r, name => r.child? name
  | .free, _ => some .free
  | _, _ => none

/-- The part that is an item of a part. -/
def item? : Part → Option Part
  | .list r => some (.record r)
  | .free => some .free
  | _ => none

/-! ### Ways of putting a part -/

/-- One step from a way of putting a part to another that says the same. -/
inductive Restates : Part → Document → Document → Prop where
  /-- Members in another order.  Where the last member of a name counts, those of one name stay in
  their order. -/
  | permuted {p : Part} {ms ms' : List (Name × Document)} : ms.Perm ms' →
      (∀ name, p.Repeats name → ms.filter (isNamed name) = ms'.filter (isNamed name)) →
      Restates p (.object ms none) (.object ms' none)
  /-- One more member, of a name that is not known, with any value that does not break off. -/
  | inserted {r : Record} (before after : List (Name × Document)) (name : String) {d : Document} :
      name ∉ r.names → d.IsWhole →
      Restates (.record r) (.object (before ++ after) none)
        (.object (before ++ (.ok name, d) :: after) none)
  /-- A member of a name that is not known is left out. -/
  | removed {r : Record} (before after : List (Name × Document)) (name : String) {d : Document} :
      name ∉ r.names →
      Restates (.record r) (.object (before ++ (.ok name, d) :: after) none)
        (.object (before ++ after) none)
  /-- A member that may be left out is `null`. -/
  | nulled {r : Record} (before after : List (Name × Document)) (name : String) :
      name ∈ r.optional → (∀ m ∈ before ++ after, isNamed name m = false) →
      Restates (.record r) (.object (before ++ after) none)
        (.object (before ++ (.ok name, .null) :: after) none)
  /-- A member that is `null` is left out. -/
  | omitted {r : Record} (before after : List (Name × Document)) (name : String) :
      name ∈ r.optional →
      Restates (.record r) (.object (before ++ (.ok name, .null) :: after) none)
        (.object (before ++ after) none)
  /-- A step inside of a member. -/
  | member {p q : Part} (before after : List (Name × Document)) (name : String)
      {d d' : Document} : p.child? name = some q → Restates q d d' →
      Restates p (.object (before ++ (.ok name, d) :: after) none)
        (.object (before ++ (.ok name, d') :: after) none)
  /-- A step inside of a member, where these are given by their positions. -/
  | positional {r : Record} {q : Part} (before after : List Document) (name : String)
      {d d' : Document} : r.names[before.length]? = some name →
      r.child? name = some q → Restates q d d' →
      Restates (.record r) (.array (before ++ d :: after) none)
        (.array (before ++ d' :: after) none)
  /-- A step inside of an item. -/
  | item {p q : Part} (before after : List Document) {d d' : Document} : p.item? = some q →
      Restates q d d' →
      Restates p (.array (before ++ d :: after) none) (.array (before ++ d' :: after) none)

theorem Restates.ne_null {p : Part} {d d' : Document} (h : Restates p d d') :
    d ≠ .null ∧ d' ≠ .null := by
  cases h <;> exact ⟨nofun, nofun⟩

end Part

/-! ### How a record is read -/

namespace Record

/-- What the members of a record are read into. -/
def Found : Record → Type
  | .request => Remediation.Found
  | .metadata => Metadata
  | .owner => Owner
  | .manager => Management
  | .spec => Spec.Found
  | .status => Status.Found
  | .condition => Condition.Found

variable (room : Nat)

/-- The fields of that. -/
def layout : (r : Record) → List (Json.Field r.Found)
  | .request => Remediation.layout room
  | .metadata => Metadata.layout room
  | .owner => Owner.layout
  | .manager => Management.layout room
  | .spec => Spec.layout
  | .status => Status.layout
  | .condition => Condition.layout

/-- How members are read into it. -/
def put : (r : Record) → r.Found → String → Document → Except Fault r.Found
  | .request => (Remediation.declared room).put
  | .metadata => Metadata.put room
  | .owner => Owner.put
  | .manager => Management.put room
  | .spec => Spec.declared.put
  | .status => Status.declared.put
  | .condition => Condition.declared.put

/-- What it is before anything is read. -/
def start : (r : Record) → r.Found
  | .request => {}
  | .metadata | .owner | .manager => {}
  | .spec => Spec.declared.start
  | .status => Status.declared.start
  | .condition => Condition.declared.start

/-- The record that it makes. -/
def finish : (r : Record) → r.Found → Except Fault r.Value
  | .request => (Remediation.declared room).finish
  | .metadata | .owner | .manager => .ok
  | .spec => Spec.declared.finish
  | .status => Status.declared.finish
  | .condition => Condition.declared.finish

theorem readsObjects : (r : Record) →
    ReadsObjects (r.read room) (r.put room) (r.layout room) r.start (r.finish room)
  | .request => Remediation.readsObjects
  | .metadata => Metadata.readsObjects
  | .owner => Owner.readsObjects
  | .manager => Management.readsObjects
  | .spec => Spec.readsObjects
  | .status => Status.readsObjects
  | .condition => Condition.readsObjects

theorem wantsWhole_read : (r : Record) → WantsWhole (r.read room)
  | .request => Remediation.wantsWhole_read
  | .metadata => Metadata.wantsWhole_read
  | .owner => Owner.wantsWhole_read
  | .manager => Management.wantsWhole_read
  | .spec => Spec.wantsWhole_read
  | .status => Status.wantsWhole_read
  | .condition => Condition.wantsWhole_read

theorem map_name_layout (r : Record) : (r.layout room).map Json.Field.name = r.names := by
  cases r <;> rfl

variable {room}

theorem mem_names {r : Record} {s : Json.Field r.Found} (hs : s ∈ r.layout room) :
    s.name ∈ r.names :=
  r.map_name_layout room ▸ List.mem_map_of_mem hs

theorem isOnce_layout {r : Record} (h : r.repeats = false) :
    ∀ s ∈ r.layout room, s.IsOnce := by
  cases r with
  | request => exact Remediation.isOnce_layout
  | spec => exact Spec.isOnce_layout
  | status => exact Status.isOnce_layout
  | condition => exact Condition.isOnce_layout
  | _ => cases h

/-- A member that may be left out is given at most once, and as `null` it does nothing. -/
theorem exists_optional (room : Nat) {r : Record} {name : String} (h : name ∈ r.optional) :
    ∃ s ∈ r.layout room, s.name = name ∧ s.IsOnce ∧ s.IsOmittable (r.finish room) := by
  have hr : r.repeats = false := by cases r <;> first | rfl | cases h
  suffices hs : ∃ s ∈ r.layout room, s.name = name ∧ s.IsOmittable (r.finish room) by
    obtain ⟨s, hs, hname, homit⟩ := hs
    exact ⟨s, hs, hname, isOnce_layout hr s hs, homit⟩
  -- Whether nothing was found of the member or `null`, there is no value in the end.
  cases r with
  | request =>
      obtain rfl : name = "status" := by simpa [optional] using h
      refine ⟨Remediation.statusField, Remediation.statusField_mem, rfl, some none, rfl,
        fun f hf => ?_⟩
      obtain ⟨metadata, spec, status⟩ := f
      cases hf
      rfl
  | spec =>
      have hname : name = "sharedParameters" ∨ name = "nodeParameters" := by
        simpa [optional] using h
      rcases hname with rfl | rfl
      · refine ⟨Spec.sharedField, Spec.sharedField_mem, rfl, some none, rfl,
          fun f hf => ?_⟩
        obtain ⟨agent, shared, byNode⟩ := f
        cases hf
        rfl
      · refine ⟨Spec.byNodeField, Spec.byNodeField_mem, rfl, some none, rfl,
          fun f hf => ?_⟩
        obtain ⟨agent, shared, byNode⟩ := f
        cases hf
        rfl
  | status =>
      obtain rfl : name = "lastUpdateTime" := by simpa [optional] using h
      refine ⟨Status.updateField, Status.updateField_mem, rfl, some none, rfl,
        fun f hf => ?_⟩
      obtain ⟨conditions, lastUpdateTime⟩ := f
      cases hf
      rfl
  | condition =>
      obtain rfl : name = "observedGeneration" := by simpa [optional] using h
      refine ⟨Condition.generationField, Condition.generationField_mem, rfl, some none, rfl,
        fun f hf => ?_⟩
      obtain ⟨type, status, reason, message, time, generation⟩ := f
      cases hf
      rfl
  | _ => cases h

end Record

end NodeFencing
