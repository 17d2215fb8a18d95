/-
The fields of the records of this library.

Each record is read field by field: its `layout` lists, for every name that is known, what is made
of a member of that name and where it is kept, and the reader of the record is the one that the
list gives.  What a reader accepts it has read to the end, so nothing in it breaks off.
-/
import NodeFencing.Remediation
import NodeFencing.Proofs.Json.Fields

namespace NodeFencing

/-! ### Readers accept only whole trees -/

namespace Json

/-- Whether a reader accepts only trees in which nothing breaks off. -/
def WantsWhole {α : Type} (read : Reader α) : Prop := ∀ d a, read d = .ok a → d.IsWhole

namespace WantsWhole

variable {α β P : Type} {read : Reader α}

theorem text : WantsWhole Reader.text := by
  intro d a h
  cases d <;> first | rfl | cases h

theorem bool : WantsWhole Reader.bool := by
  intro d a h
  cases d <;> first | rfl | cases h

theorem whole {low high : Int} : WantsWhole (Reader.whole low high) := by
  intro d a h
  cases d <;> first | rfl | cases h

theorem optional (h : WantsWhole read) : WantsWhole (Reader.optional read) := by
  intro d o ho
  unfold Reader.optional at ho
  split at ho
  · rfl
  · obtain ⟨a, ha, -⟩ := map_eq_ok.mp ho
    exact h d a ha

theorem filtered (h : WantsWhole read) (f : α → Option β) :
    WantsWhole (Reader.filtered read f) := by
  intro d b hb
  obtain ⟨a, ha, -⟩ := bind_eq_ok.mp hb
  exact h d a ha

theorem closed {close : Option Break} (h : Reader.closed close = .ok ()) : close = none := by
  cases close with
  | none => rfl
  | some b => cases h

theorem mapM (h : WantsWhole read) {items : List Document} {l : List α}
    (hl : items.mapM read = .ok l) : ∀ d ∈ items, d.IsWhole := by
  induction items generalizing l with
  | nil => nofun
  | cons d items ih =>
      obtain ⟨a, rest, ha, hrest, -⟩ := mapM_cons_eq_ok_iff.mp hl
      exact List.forall_mem_cons.mpr ⟨h d a ha, ih hrest⟩

theorem list (h : WantsWhole read) : WantsWhole (Reader.list read) := by
  intro d l hl
  unfold Reader.list at hl
  split at hl
  · obtain ⟨values, hvalues, hl⟩ := bind_eq_ok.mp hl
    obtain ⟨_, hclose, -⟩ := bind_eq_ok.mp hl
    exact Document.isWhole_array.mpr ⟨h.mapM hvalues, closed hclose⟩
  · cases hl

theorem plain {put : P → String → Document → Except Fault P} {start : P}
    (h : ∀ f name d g, put f name d = .ok g → d.IsWhole) :
    WantsWhole (Reader.plain put start) := by
  intro d f hf
  unfold Reader.plain at hf
  split at hf
  · obtain ⟨found, hfound, hf⟩ := bind_eq_ok.mp hf
    obtain ⟨_, hclose, -⟩ := bind_eq_ok.mp hf
    exact Document.isWhole_object.mpr ⟨isWhole_of_members h hfound, closed hclose⟩
  · cases hf

theorem map (h : WantsWhole read) : WantsWhole (Reader.map read) :=
  plain fun m name d m' hm => by
    obtain ⟨a, ha, -⟩ := bind_eq_ok.mp hm
    exact h d a ha

/-- A declared object is whole, whether it is given as an object or as an array. -/
theorem declared {o : Declared P α} (h : ∀ f name d g, o.put f name d = .ok g → d.IsWhole) :
    WantsWhole o.read := by
  intro d a ha
  unfold Declared.read at ha
  split at ha
  · obtain ⟨found, hfound, ha⟩ := bind_eq_ok.mp ha
    obtain ⟨_, hclose, -⟩ := bind_eq_ok.mp ha
    exact Document.isWhole_object.mpr ⟨isWhole_of_members h hfound, closed hclose⟩
  · next items close =>
    obtain ⟨found, hfound, ha⟩ := bind_eq_ok.mp ha
    dsimp only at ha
    split at ha
    · cases ha
    · next hlength =>
      obtain ⟨_, hclose, -⟩ := bind_eq_ok.mp ha
      refine Document.isWhole_array.mpr ⟨fun d hd => ?_, closed hclose⟩
      -- No item is left over, so each was read under the name of a field.
      have hnames : items.length ≤ (o.fields.map (Except.ok : String → Name)).length := by
        rw [List.length_map]
        exact Nat.not_lt.mp hlength
      have hitems := List.map_snd_zip hnames
      obtain ⟨m, hm, rfl⟩ := List.mem_map.mp (hitems ▸ hd)
      exact isWhole_of_members h hfound m hm
  · cases ha

end WantsWhole

/-! Values of any shape are read to the end as well. -/

mutual

theorem isWhole_of_ofDocument : ∀ (room : Nat) (d : Document) (j : Json),
    ofDocument room d = .ok j → d.IsWhole
  | _, .null, _, _ => rfl
  | _, .bool _, _, _ => rfl
  | _, .number _, _, _ => rfl
  | _, .text _, _, _ => rfl
  | _, .broken _, _, h => by simp [ofDocument] at h
  | room + 1, .array items close, j, h => by
      obtain ⟨values, hvalues, h⟩ := bind_eq_ok.mp h
      obtain ⟨_, hclose, -⟩ := bind_eq_ok.mp h
      exact Document.isWhole_array.mpr
        ⟨isWhole_of_ofItems room items values hvalues, WantsWhole.closed hclose⟩
  | room + 1, .object ms close, j, h => by
      obtain ⟨values, hvalues, h⟩ := bind_eq_ok.mp h
      obtain ⟨_, hclose, -⟩ := bind_eq_ok.mp h
      exact Document.isWhole_object.mpr
        ⟨isWhole_of_ofMembers room ms values hvalues, WantsWhole.closed hclose⟩

theorem isWhole_of_ofItems : ∀ (room : Nat) (ds : List Document) (values : List Json),
    ofItems room ds = .ok values → ∀ d ∈ ds, d.IsWhole
  | _, [], _, _ => nofun
  | room, d :: ds, values, h => by
      obtain ⟨j, hj, h⟩ := bind_eq_ok.mp h
      obtain ⟨rest, hrest, -⟩ := bind_eq_ok.mp h
      exact List.forall_mem_cons.mpr
        ⟨isWhole_of_ofDocument room d j hj, isWhole_of_ofItems room ds rest hrest⟩

theorem isWhole_of_ofMembers : ∀ (room : Nat) (ms : List (Name × Document))
    (values : List (String × Json)), ofMembers room ms = .ok values → ∀ m ∈ ms, m.2.IsWhole
  | _, [], _, _ => nofun
  | room, (name, d) :: ms, values, h => by
      obtain ⟨name, -, h⟩ := bind_eq_ok.mp h
      obtain ⟨j, hj, h⟩ := bind_eq_ok.mp h
      obtain ⟨rest, hrest, -⟩ := bind_eq_ok.mp h
      exact List.forall_mem_cons.mpr
        ⟨isWhole_of_ofDocument room d j hj, isWhole_of_ofMembers room ms rest hrest⟩

end

theorem wantsWhole_ofDocument {room : Nat} : WantsWhole (ofDocument room) :=
  isWhole_of_ofDocument room

namespace Field

variable {α P : Type} {read : Reader α} {name : String} {get : P → Option α}
  {set : P → Option α → P}

theorem WantsWhole.once (h : Json.WantsWhole read) : (once name read get set).WantsWhole := by
  intro found d v hv
  have hone : Reader.once read found d = .ok v := hv
  unfold Reader.once at hone
  split at hone
  · cases hone
  · obtain ⟨a, ha, -⟩ := map_eq_ok.mp hone
    exact h d a ha

theorem WantsWhole.last (h : Json.WantsWhole read) : (last name read get set).WantsWhole :=
  fun _ d v hv => h.optional d v hv

theorem WantsWhole.textOrEmpty {get : P → String} {set : P → String → P} :
    (textOrEmpty name get set).WantsWhole := by
  intro _ d v hv
  obtain ⟨o, ho, -⟩ := map_eq_ok.mp hv
  exact Json.WantsWhole.text.optional d o ho

/-- A text that is read and set at once. -/
theorem map_getD (x : Except Fault (Option String)) (f : String → P) :
    f <$> ((·.getD "") <$> x) = do return f ((← x).getD "") := by
  cases x <;> rfl

theorem isOnce_once : (once name read get set).IsOnce := by
  intro found d v hv
  have hone : Reader.once read found d = .ok v := hv
  unfold Reader.once at hone
  split at hone
  · cases hone
  · next hfound =>
    obtain ⟨a, -, rfl⟩ := map_eq_ok.mp hone
    exact ⟨Option.not_isSome_iff_eq_none.mp hfound, nofun⟩

end Field

end Json

open Json

/-! ### Leaves -/

theorem Instant.wantsWhole_read : WantsWhole Instant.read := WantsWhole.text.filtered _

theorem Labels.wantsWhole_read : WantsWhole Labels.read := by
  intro d l hl
  obtain ⟨m, hm, -⟩ := bind_eq_ok.mp hl
  exact WantsWhole.text.map d m hm

/-! ### Metadata -/

namespace Owner

/-- The fields of an owner. -/
def layout : List (Json.Field Owner) := [
  .textOrEmpty "apiVersion" apiVersion fun o v => { o with apiVersion := v },
  .last "blockOwnerDeletion" Reader.bool blocksDeletion fun o v => { o with blocksDeletion := v },
  .last "controller" Reader.bool isController fun o v => { o with isController := v },
  .textOrEmpty "kind" kind fun o v => { o with kind := v },
  .textOrEmpty "name" name fun o v => { o with name := v },
  .textOrEmpty "uid" uid fun o v => { o with uid := v }]

theorem reads : Reads put layout where
  put_eq f name d := by
    unfold put
    split
    case h_7 => exact (Field.put_of_not_mem (by simp_all [layout]) f d).symm
    case h_1 => exact (Field.map_getD _ fun v => { f with apiVersion := v }).symm
    case h_4 => exact (Field.map_getD _ fun v => { f with kind := v }).symm
    case h_5 => exact (Field.map_getD _ fun v => { f with name := v }).symm
    case h_6 => exact (Field.map_getD _ fun v => { f with uid := v }).symm
    all_goals rfl
  apart := by simp [layout, Field.apart_iff]
  get_set := by simp [layout]
  wantsWhole := by
    simp only [layout, List.forall_mem_cons]
    exact ⟨.textOrEmpty, .last .bool, .last .bool, .textOrEmpty, .textOrEmpty, .textOrEmpty,
      nofun⟩

theorem readsObjects : ReadsObjects read put layout {} Except.ok :=
  .plain reads (by simp [layout])

theorem wantsWhole_read : WantsWhole read := .plain fun _ _ _ _ => reads.isWhole_of_put

end Owner

namespace Management

/-- The free-form field of a management entry in which at most so many containers are nested. -/
@[simp] def freeField (room : Nat) : Json.Field Management :=
  .last "fieldsV1" (ofDocument (room - 1)) fields fun m v => { m with fields := v }

/-- The fields of a management entry. -/
def layout (room : Nat) : List (Json.Field Management) := [
  .last "apiVersion" Reader.text apiVersion fun m v => { m with apiVersion := v },
  .last "fieldsType" Reader.text fieldsType fun m v => { m with fieldsType := v },
  freeField room,
  .last "manager" Reader.text manager fun m v => { m with manager := v },
  .last "operation" Reader.text operation fun m v => { m with operation := v },
  .last "subresource" Reader.text subresource fun m v => { m with subresource := v },
  .last "time" Instant.read time fun m v => { m with time := v }]

variable {room : Nat}

theorem freeField_mem : freeField room ∈ layout room := by
  simp only [layout, List.mem_cons, true_or, or_true]

theorem reads : Reads (put room) (layout room) where
  put_eq f name d := by
    unfold put
    split
    case h_8 => exact (Field.put_of_not_mem (by simp_all [layout]) f d).symm
    all_goals rfl
  apart := by simp [layout, Field.apart_iff]
  get_set := by simp [layout]
  wantsWhole := by
    simp only [layout, List.forall_mem_cons]
    exact ⟨.last .text, .last .text, .last wantsWhole_ofDocument, .last .text, .last .text,
      .last .text, .last Instant.wantsWhole_read, nofun⟩

theorem readsObjects : ReadsObjects (read room) (put room) (layout room) {} Except.ok :=
  .plain reads (by simp [layout])

theorem wantsWhole_read : WantsWhole (read room) := .plain fun _ _ _ _ => reads.isWhole_of_put

end Management

namespace Metadata

/-- The field of the annotations. -/
@[simp] def annotationsField : Json.Field Metadata :=
  .last "annotations" Labels.read annotations fun m v => { m with annotations := v }

/-- The field of the labels. -/
@[simp] def labelsField : Json.Field Metadata :=
  .last "labels" Labels.read labels fun m v => { m with labels := v }

/-- The field of the management entries. -/
@[simp] def managersField (room : Nat) : Json.Field Metadata :=
  .last "managedFields" (Reader.list (Management.read (room - 2))) managedFields
    fun m v => { m with managedFields := v }

/-- The field of the owners. -/
@[simp] def ownersField : Json.Field Metadata :=
  .last "ownerReferences" (Reader.list Owner.read) owners fun m v => { m with owners := v }

/-- The fields of metadata; of several members for one of them the last counts. -/
def layout (room : Nat) : List (Json.Field Metadata) := [
  annotationsField,
  .last "creationTimestamp" Instant.read creationTimestamp
    fun m v => { m with creationTimestamp := v },
  .last "deletionGracePeriodSeconds" Reader.int64 deletionGracePeriodSeconds
    fun m v => { m with deletionGracePeriodSeconds := v },
  .last "deletionTimestamp" Instant.read deletionTimestamp
    fun m v => { m with deletionTimestamp := v },
  .last "finalizers" (Reader.list Reader.text) finalizers fun m v => { m with finalizers := v },
  .last "generateName" Reader.text generateName fun m v => { m with generateName := v },
  .last "generation" Reader.int64 generation fun m v => { m with generation := v },
  labelsField,
  managersField room,
  .last "name" Reader.text name fun m v => { m with name := v },
  .last "namespace" Reader.text inNamespace fun m v => { m with inNamespace := v },
  ownersField,
  .last "resourceVersion" Reader.text resourceVersion fun m v => { m with resourceVersion := v },
  .last "selfLink" Reader.text selfLink fun m v => { m with selfLink := v },
  .last "uid" Reader.text uid fun m v => { m with uid := v }]

variable {room : Nat}

theorem annotationsField_mem : annotationsField ∈ layout room := by
  simp only [layout, List.mem_cons, true_or]

theorem labelsField_mem : labelsField ∈ layout room := by
  simp only [layout, List.mem_cons, true_or, or_true]

theorem managersField_mem : managersField room ∈ layout room := by
  simp only [layout, List.mem_cons, true_or, or_true]

theorem ownersField_mem : ownersField ∈ layout room := by
  simp only [layout, List.mem_cons, true_or, or_true]

theorem reads : Reads (put room) (layout room) where
  put_eq f name d := by
    unfold put
    split
    case h_16 => exact (Field.put_of_not_mem (by simp_all [layout]) f d).symm
    all_goals rfl
  apart := by simp [layout, Field.apart_iff]
  get_set := by simp [layout]
  wantsWhole := by
    simp only [layout, List.forall_mem_cons]
    exact ⟨.last Labels.wantsWhole_read, .last Instant.wantsWhole_read, .last .whole,
      .last Instant.wantsWhole_read, .last (.list .text), .last .text, .last .whole,
      .last Labels.wantsWhole_read, .last Management.wantsWhole_read.list, .last .text,
      .last .text, .last Owner.wantsWhole_read.list, .last .text, .last .text, .last .text, nofun⟩

theorem readsObjects : ReadsObjects (read room) (put room) (layout room) {} Except.ok :=
  .plain reads (by simp [layout])

theorem wantsWhole_read : WantsWhole (read room) := .plain fun _ _ _ _ => reads.isWhole_of_put

end Metadata

/-! ### Requests -/

namespace Spec

/-- The field of the shared parameters. -/
@[simp] def sharedField : Json.Field Found :=
  .once "sharedParameters" (Reader.optional readShared) Found.sharedParameters
    fun f v => { f with sharedParameters := v }

/-- The field of the parameters node by node. -/
@[simp] def byNodeField : Json.Field Found :=
  .once "nodeParameters" (Reader.optional readByNode) Found.nodeParameters
    fun f v => { f with nodeParameters := v }

/-- The fields of a spec. -/
def layout : List (Json.Field Found) := [
  .once "agent" Reader.text Found.agent fun f v => { f with agent := v },
  sharedField,
  byNodeField]

theorem sharedField_mem : sharedField ∈ layout := by
  simp only [layout, List.mem_cons, true_or, or_true]

theorem byNodeField_mem : byNodeField ∈ layout := by
  simp only [layout, List.mem_cons, true_or, or_true]

theorem reads : Reads declared.put layout where
  put_eq f name d := by
    simp only [declared]
    split
    case h_4 => exact (Field.put_of_not_mem (by simp_all [layout]) f d).symm
    all_goals rfl
  apart := by simp [layout, Field.apart_iff]
  get_set := by simp [layout]
  wantsWhole := by
    simp only [layout, List.forall_mem_cons]
    exact ⟨.once .text, .once (.optional (.map .text)), .once (.optional (.map (.map .text))),
      nofun⟩

theorem readsObjects :
    ReadsObjects read declared.put layout declared.start declared.finish :=
  .declared reads (by simp [layout, declared])

theorem isOnce_layout : ∀ s ∈ layout, s.IsOnce := by
  simp only [layout, List.forall_mem_cons]
  exact ⟨Field.isOnce_once, Field.isOnce_once, Field.isOnce_once, nofun⟩

theorem wantsWhole_read : WantsWhole read := .declared fun _ _ _ _ => reads.isWhole_of_put

end Spec

namespace Condition

/-- The field of the generation that a condition was observed for. -/
@[simp] def generationField : Json.Field Found :=
  .once "observedGeneration" (Reader.optional Reader.int64) Found.observedGeneration
    fun f v => { f with observedGeneration := v }

/-- The fields of a condition. -/
def layout : List (Json.Field Found) := [
  .once "type" Reader.text Found.type fun f v => { f with type := v },
  .once "status" Reader.text Found.status fun f v => { f with status := v },
  .once "reason" Reader.text Found.reason fun f v => { f with reason := v },
  .once "message" Reader.text Found.message fun f v => { f with message := v },
  .once "lastTransitionTime" Reader.text Found.lastTransitionTime
    fun f v => { f with lastTransitionTime := v },
  generationField]

theorem generationField_mem : generationField ∈ layout := by
  simp only [layout, List.mem_cons, true_or, or_true]

theorem reads : Reads declared.put layout where
  put_eq f name d := by
    simp only [declared]
    split
    case h_7 => exact (Field.put_of_not_mem (by simp_all [layout]) f d).symm
    all_goals rfl
  apart := by simp [layout, Field.apart_iff]
  get_set := by simp [layout]
  wantsWhole := by
    simp only [layout, List.forall_mem_cons]
    exact ⟨.once .text, .once .text, .once .text, .once .text, .once .text,
      .once (.optional .whole), nofun⟩

theorem readsObjects :
    ReadsObjects read declared.put layout declared.start declared.finish :=
  .declared reads (by simp [layout, declared])

theorem isOnce_layout : ∀ s ∈ layout, s.IsOnce := by
  simp only [layout, List.forall_mem_cons]
  exact ⟨Field.isOnce_once, Field.isOnce_once, Field.isOnce_once, Field.isOnce_once,
    Field.isOnce_once, Field.isOnce_once, nofun⟩

theorem wantsWhole_read : WantsWhole read := .declared fun _ _ _ _ => reads.isWhole_of_put

end Condition

namespace Status

/-- The field of the conditions. -/
@[simp] def conditionsField : Json.Field Found :=
  .once "conditions" (Reader.list Condition.read) Found.conditions
    fun f v => { f with conditions := v }

/-- The field of the last update. -/
@[simp] def updateField : Json.Field Found :=
  .once "lastUpdateTime" (Reader.optional Reader.text) Found.lastUpdateTime
    fun f v => { f with lastUpdateTime := v }

/-- The fields of a status. -/
def layout : List (Json.Field Found) := [conditionsField, updateField]

theorem conditionsField_mem : conditionsField ∈ layout := by
  simp only [layout, List.mem_cons, true_or]

theorem updateField_mem : updateField ∈ layout := by
  simp only [layout, List.mem_cons, true_or, or_true]

theorem reads : Reads declared.put layout where
  put_eq f name d := by
    simp only [declared]
    split
    case h_3 => exact (Field.put_of_not_mem (by simp_all [layout]) f d).symm
    all_goals rfl
  apart := by simp [layout, Field.apart_iff]
  get_set := by simp [layout]
  wantsWhole := by
    simp only [layout, List.forall_mem_cons]
    exact ⟨.once Condition.wantsWhole_read.list, .once (.optional .text), nofun⟩

theorem readsObjects :
    ReadsObjects read declared.put layout declared.start declared.finish :=
  .declared reads (by simp [layout, declared])

theorem isOnce_layout : ∀ s ∈ layout, s.IsOnce := by
  simp only [layout, List.forall_mem_cons]
  exact ⟨Field.isOnce_once, Field.isOnce_once, nofun⟩

theorem wantsWhole_read : WantsWhole read := .declared fun _ _ _ _ => reads.isWhole_of_put

end Status

namespace Remediation

/-- The field of the metadata. -/
@[simp] def metadataField (room : Nat) : Json.Field Found :=
  .once "metadata" (Metadata.read (room - 1)) Found.metadata fun f v => { f with metadata := v }

/-- The field of the spec. -/
@[simp] def specField : Json.Field Found :=
  .once "spec" Spec.read Found.spec fun f v => { f with spec := v }

/-- The field of the status. -/
@[simp] def statusField : Json.Field Found :=
  .once "status" (Reader.optional Status.read) Found.status fun f v => { f with status := v }

/-- The fields of a request. -/
def layout (room : Nat) : List (Json.Field Found) := [metadataField room, specField, statusField]

variable {room : Nat}

theorem metadataField_mem : metadataField room ∈ layout room := by
  simp only [layout, List.mem_cons, true_or]

theorem specField_mem : specField ∈ layout room := by
  simp only [layout, List.mem_cons, true_or, or_true]

theorem statusField_mem : statusField ∈ layout room := by
  simp only [layout, List.mem_cons, true_or, or_true]

theorem reads : Reads (declared room).put (layout room) where
  put_eq f name d := by
    simp only [declared]
    split
    case h_4 => exact (Field.put_of_not_mem (by simp_all [layout]) f d).symm
    all_goals rfl
  apart := by simp [layout, Field.apart_iff]
  get_set := by simp [layout]
  wantsWhole := by
    simp only [layout, List.forall_mem_cons]
    exact ⟨.once Metadata.wantsWhole_read, .once Spec.wantsWhole_read,
      .once Status.wantsWhole_read.optional, nofun⟩

theorem readsObjects :
    ReadsObjects (readWithin room) (declared room).put (layout room) (declared room).start
      (declared room).finish :=
  .declared reads (by simp [layout, declared])

theorem isOnce_layout : ∀ s ∈ layout room, s.IsOnce := by
  simp only [layout, List.forall_mem_cons]
  exact ⟨Field.isOnce_once, Field.isOnce_once, Field.isOnce_once, nofun⟩

theorem wantsWhole_read : WantsWhole (readWithin room) :=
  .declared fun _ _ _ _ => reads.isWhole_of_put

end Remediation

end NodeFencing
