/-
What is written of a request is read back.

Each kind of object is read faithfully to how it is written, from the leaves up to requests.  The
members of an object are written in one order and read in any, so going back follows the order of
writing: it holds the record of what was found so far against the members that are still to come,
one line a member.  Going forth, the readers keep a few numbers within their 64 bits and the
free-form fields of managers in shape.

Three things do not come back.  A time is written to the second.  Free-form fields that are
`null` are no different from none, and those that are nested too deeply are refused.  And a float
in them is read in the way that is fast, so it may come back as one of its neighbours.
`Remediation.Fits` shuts out these and nothing else, and `Remediation.reads_back` says so.
-/
import NodeFencing.Command
import NodeFencing.Lifecycle
import NodeFencing.Proofs.Json.Records

namespace NodeFencing

open Json (Faithful Readable IsSteady)
open Json.Reader

/-! ### Leaves of objects -/

theorem Instant.read_document (t : Instant) :
    Instant.read (Json.document t.toJson) = .ok t.toSecond := by
  have htext : Json.Reader.text (Json.document t.toJson) = .ok t.text := rfl
  have hread : Instant.ofText? t.text = some t.toSecond := by
    rw [Instant.ofText?, Instant.text, String.toList_ofList, Instant.read_chars]
  simp only [Instant.read, filtered, htext, bind, Except.bind, hread]

/-- A time comes back as its second. -/
theorem Instant.returns (o : Option Instant) :
    Returns Instant.read Instant.toJson o (o.map Instant.toSecond) :=
  returns_of_forall fun t _ => ⟨t.read_document, nofun⟩

theorem Labels.distinct (l : Labels) : (l.entries.map Prod.fst).Nodup :=
  nodup_of_increasing l.increasing

theorem Labels.faithful : Faithful Labels.read Labels.toJson fun _ => True where
  back l _ := by
    have hread := (map_faithful text_faithful).back ⟨l.entries, l.distinct⟩ fun _ _ => trivial
    show (Json.Reader.map text (Json.document l.toJson) >>= fun m =>
      Except.ok (Labels.ofList m.entries)) = .ok l
    have hl : l.toJson = .object (l.entries.map fun e => (e.1, .text e.2)) := rfl
    rw [hl, hread]
    exact congrArg Except.ok l.ofList_entries
  fit _ _ _ := trivial

theorem Json.texts_faithful : Faithful (list Json.Reader.text) Json.texts fun _ => True where
  back l _ := (list_faithful text_faithful).back l fun _ _ => trivial
  fit _ _ _ := trivial

/-! ### Owners and managers -/

theorem Owner.faithful : Faithful Owner.read Owner.toJson fun _ => True where
  back o _ := by
    refine plain_document ?_
    -- Texts that are always written are read for what they are.
    refine members_present (g := { apiVersion := o.apiVersion }) (by rfl) ?_
    refine members_present (takes_last bool_faithful
      (fun o b => { o with blocksDeletion := b }) (fun _ => rfl) rfl (by simp)) ?_
    refine members_present (takes_last bool_faithful
      (fun o b => { o with isController := b }) (fun _ => rfl) rfl (by simp)) ?_
    rfl
  fit _ _ _ := trivial

namespace Management

/-- The entry with its time cut to the second. -/
def toSeconds (m : Management) : Management := { m with time := m.time.map Instant.toSecond }

/-- The floats in the free-form fields of an entry. -/
def floats (m : Management) : List Decimal.Binary := (m.fields.map Json.floats).getD []

/-- Whether the free-form fields of an entry have the shape of what is read where at most so many
containers are nested; `null` says that there are none. -/
def Sound (room : Nat) (m : Management) : Prop :=
  ∀ j ∈ m.fields, Readable (room - 1) j ∧ j ≠ .null

theorem toJson_toSeconds (m : Management) : m.toSeconds.toJson = m.toJson := by
  obtain ⟨_, _, _, _, _, _, time⟩ := m
  cases time <;> rfl

variable {room : Nat} {m m' : Management}

/-- An entry comes back with the fields that its free-form member is read as. -/
theorem read_document {j? : Option Json} (h : Returns (Json.ofDocument (room - 1)) id m.fields j?) :
    read room (Json.document m.toJson) = .ok { m.toSeconds with fields := j? } := by
  refine plain_document ?_
  refine members_present (takes_text (fun m o => { m with apiVersion := o }) (fun _ => rfl) rfl) ?_
  refine members_present (takes_text (fun m o => { m with fieldsType := o }) (fun _ => rfl) rfl) ?_
  refine members_present (g := { m with
    fields := j?, manager := none, operation := none, subresource := none, time := none }) ?_ ?_
  · have hfields : Takes (put room) { apiVersion := m.apiVersion, fieldsType := m.fieldsType }
        "fieldsV1" (m.fields.map id) _ :=
      takes_returned h (fun m j => { m with fields := j }) (fun _ => rfl) rfl
    rwa [Option.map_id] at hfields
  refine members_present (takes_text (fun m o => { m with manager := o }) (fun _ => rfl) rfl) ?_
  refine members_present (takes_text (fun m o => { m with operation := o }) (fun _ => rfl) rfl) ?_
  refine members_present (takes_text (fun m o => { m with subresource := o }) (fun _ => rfl) rfl) ?_
  refine members_present (takes_returned (Instant.returns m.time)
    (fun m o => { m with time := o }) (fun _ => rfl) rfl) ?_
  rfl

theorem read_document_iff :
    read room (Json.document m.toJson) = .ok m' ↔
      ∃ j?, Returns (Json.ofDocument (room - 1)) id m.fields j? ∧
        { m.toSeconds with fields := j? } = m' := by
  constructor
  · intro h
    obtain ⟨_, hmembers, -⟩ := (readsObjects.read_object _ _).mp h
    obtain ⟨j?, hj⟩ : ∃ j?, Returns (Json.ofDocument (room - 1)) id m.fields j? :=
      reads.exists_returns freeField_mem (by simp) hmembers
    exact ⟨j?, hj, Except.ok.inj ((read_document hj).symm.trans h)⟩
  · rintro ⟨j?, hj, rfl⟩
    exact read_document hj

/-- A member that is read leaves an entry of the shape of what is read. -/
theorem Sound.put {name : String} {d : Json.Document} (hm : m.Sound room)
    (h : m.put room name d = .ok m') : m'.Sound room := by
  unfold Management.put at h
  split at h
  all_goals
    obtain ⟨o, ho, h⟩ := Json.bind_eq_ok.mp h
    cases h
  -- Only the free-form member is asked for.
  case h_3 =>
    intro j hj
    obtain ⟨hd, hread⟩ := of_optional ho j hj
    exact ⟨Json.readable_of_ofDocument _ d j hread, Json.ne_null_of_ofDocument hd hread⟩
  all_goals exact hm

theorem sound_of_read {d : Json.Document} (h : read room d = .ok m) : m.Sound room :=
  plain_invariant (Sound room) Sound.put (by simp [Sound]) h

/-- An entry of that shape comes back, but for its time, if its floats are steady. -/
theorem Sound.read_document (hm : m.Sound room) (hfloats : ∀ x ∈ m.floats, IsSteady x) :
    read room (Json.document m.toJson) = .ok m.toSeconds := by
  have hfields : Returns (Json.ofDocument (room - 1)) id m.fields (m.fields.map id) := by
    refine returns_of_forall fun j hj => ⟨?_, (hm j hj).2⟩
    refine Json.ofDocument_document_iff.mpr ⟨(hm j hj).1, fun x hx => hfloats x ?_⟩
    rw [floats, hj]
    exact hx
  rw [Option.map_id] at hfields
  exact Management.read_document hfields

/-- An entry of that shape is read again when it is written. -/
theorem Sound.exists_read (hm : m.Sound room) :
    ∃ m', read room (Json.document m.toJson) = .ok m' := by
  obtain ⟨j?, hj⟩ : ∃ j?, Returns (Json.ofDocument (room - 1)) id m.fields j? :=
    exists_returns fun j hj => (hm j hj).1.exists_ofDocument
  exact ⟨_, Management.read_document hj⟩

/-- Nothing but an entry with steady floats and a whole second comes back as it was. -/
theorem of_read_document (h : read room (Json.document m.toJson) = .ok m) :
    (∀ x ∈ m.floats, IsSteady x) ∧ m.toSeconds = m := by
  obtain ⟨j?, hj, hm⟩ := read_document_iff.mp h
  obtain rfl : j? = m.fields := congrArg Management.fields hm
  refine ⟨fun x hx => ?_, hm⟩
  unfold floats at hx
  cases hfields : m.fields with
  | none => simp [hfields] at hx
  | some j =>
      rw [hfields] at hj hx
      have hread : Json.ofDocument (room - 1) (Json.document j) = .ok j :=
        (of_optional hj j rfl).2
      exact (Json.ofDocument_document_iff.mp hread).2 x hx

end Management

/-! ### Metadata -/

namespace Metadata

/-- The management entries. -/
def managers (m : Metadata) : List Management := m.managedFields.getD []

/-- The metadata with its times cut to the second. -/
def toSeconds (m : Metadata) : Metadata :=
  { m with
    creationTimestamp := m.creationTimestamp.map Instant.toSecond
    deletionTimestamp := m.deletionTimestamp.map Instant.toSecond
    managedFields := m.managedFields.map fun l => l.map Management.toSeconds }

/-- Whether the numbers of metadata have 64 bits and its management entries have the shape of what
is read where at most so many containers are nested. -/
structure Sound (room : Nat) (m : Metadata) : Prop where
  gracePeriod : ∀ n ∈ m.deletionGracePeriodSeconds, InInt64 n
  generation : ∀ n ∈ m.generation, InInt64 n
  managers : ∀ l ∈ m.managedFields, ∀ e ∈ l, Management.Sound (room - 2) e

theorem toJson_toSeconds (m : Metadata) : m.toSeconds.toJson = m.toJson := by
  obtain ⟨_, creation, _, deletion, _, _, _, _, managedFields, _⟩ := m
  have hmanagers : ∀ l : List Management,
      (l.map Management.toSeconds).map Management.toJson = l.map Management.toJson := fun l => by
    rw [List.map_map]
    exact List.map_congr_left fun e _ => e.toJson_toSeconds
  cases managedFields with
  | none => cases creation <;> cases deletion <;> rfl
  | some l =>
      have hl := congrArg (fun items => some (Json.array items)) (hmanagers l)
      cases creation <;> cases deletion <;>
        exact congrArg (fun j => Json.object (Json.present [_, _, _, _, _, _, _, _, (_, j), _, _, _,
          _, _, _])) hl

variable {room : Nat} {m m' : Metadata}

/-- Metadata comes back with the management entries that their member is read as. -/
theorem read_document {managers? : Option (List Management)} (hm : m.Sound room)
    (h : Returns (list (Management.read (room - 2))) (fun l => .array (l.map Management.toJson))
      m.managedFields managers?) :
    read room (Json.document m.toJson) = .ok { m.toSeconds with managedFields := managers? } := by
  refine plain_document ?_
  refine members_present (takes_last Labels.faithful
    (fun m o => { m with annotations := o }) (fun _ => rfl) rfl (by simp [Labels.toJson])) ?_
  refine members_present (takes_returned (Instant.returns m.creationTimestamp)
    (fun m o => { m with creationTimestamp := o }) (fun _ => rfl) rfl) ?_
  refine members_present (takes_last int64_faithful
    (fun m o => { m with deletionGracePeriodSeconds := o }) (fun _ => rfl) rfl
    fun n hn => ⟨hm.gracePeriod n hn, nofun⟩) ?_
  refine members_present (takes_returned (Instant.returns m.deletionTimestamp)
    (fun m o => { m with deletionTimestamp := o }) (fun _ => rfl) rfl) ?_
  refine members_present (takes_last Json.texts_faithful
    (fun m o => { m with finalizers := o }) (fun _ => rfl) rfl (by simp [Json.texts])) ?_
  refine members_present (takes_text (fun m o => { m with generateName := o })
    (fun _ => rfl) rfl) ?_
  refine members_present (takes_last int64_faithful
    (fun m o => { m with generation := o }) (fun _ => rfl) rfl
    fun n hn => ⟨hm.generation n hn, nofun⟩) ?_
  refine members_present (takes_last Labels.faithful
    (fun m o => { m with labels := o }) (fun _ => rfl) rfl (by simp [Labels.toJson])) ?_
  refine members_present (takes_returned h
    (fun m o => { m with managedFields := o }) (fun _ => rfl) rfl) ?_
  refine members_present (takes_text (fun m o => { m with name := o }) (fun _ => rfl) rfl) ?_
  refine members_present (takes_text (fun m o => { m with inNamespace := o })
    (fun _ => rfl) rfl) ?_
  refine members_present (takes_last (list_faithful Owner.faithful)
    (fun m o => { m with owners := o }) (fun _ => rfl) rfl (by simp)) ?_
  refine members_present (takes_text (fun m o => { m with resourceVersion := o })
    (fun _ => rfl) rfl) ?_
  refine members_present (takes_text (fun m o => { m with selfLink := o }) (fun _ => rfl) rfl) ?_
  refine members_present (takes_text (fun m o => { m with uid := o }) (fun _ => rfl) rfl) ?_
  rfl

theorem exists_of_read_document (hm : m.Sound room)
    (h : read room (Json.document m.toJson) = .ok m') :
    ∃ managers?, Returns (list (Management.read (room - 2)))
      (fun l => .array (l.map Management.toJson)) m.managedFields managers? ∧
      { m.toSeconds with managedFields := managers? } = m' := by
  obtain ⟨_, hmembers, -⟩ := (readsObjects.read_object _ _).mp h
  obtain ⟨managers?, hmanagers⟩ : ∃ managers?, Returns (list (Management.read (room - 2)))
      (fun l => .array (l.map Management.toJson)) m.managedFields managers? :=
    reads.exists_returns managersField_mem (by simp) hmembers
  exact ⟨managers?, hmanagers, Except.ok.inj ((read_document hm hmanagers).symm.trans h)⟩

/-- A member that is read leaves metadata of the shape of what is read. -/
theorem Sound.put {name : String} {d : Json.Document} (hm : m.Sound room)
    (h : m.put room name d = .ok m') : m'.Sound room := by
  unfold Metadata.put at h
  split at h
  all_goals
    obtain ⟨o, ho, h⟩ := Json.bind_eq_ok.mp h
    cases h
  -- The two numbers and the management entries are asked for, in the order of their names.
  case h_3 =>
    refine ⟨fun n hn => ?_, hm.generation, hm.managers⟩
    exact int64_faithful.fit d n (of_optional ho n hn).2
  case h_7 =>
    refine ⟨hm.gracePeriod, fun n hn => ?_, hm.managers⟩
    exact int64_faithful.fit d n (of_optional ho n hn).2
  case h_9 =>
    refine ⟨hm.gracePeriod, hm.generation, fun l hl => ?_⟩
    exact forall_mem_of_list (fun _ _ => Management.sound_of_read) (of_optional ho l hl).2
  all_goals exact ⟨hm.gracePeriod, hm.generation, hm.managers⟩

theorem sound_of_read {d : Json.Document} (h : read room d = .ok m) : m.Sound room :=
  plain_invariant (Sound room) Sound.put ⟨by simp, by simp, by simp⟩ h

/-- Metadata of that shape comes back, but for its times, if the floats in it are steady. -/
theorem Sound.read_document (hm : m.Sound room)
    (hfloats : ∀ e ∈ m.managers, ∀ x ∈ e.floats, IsSteady x) :
    read room (Json.document m.toJson) = .ok m.toSeconds := by
  refine Metadata.read_document hm (returns_of_forall fun l hl => ⟨?_, nofun⟩)
  have hmanagers : m.managers = l := by rw [Metadata.managers, hl]; rfl
  refine list_document_iff.mpr
    (List.forall₂_map_right_iff.mpr (List.forall₂_same.mpr fun e he => ?_))
  exact (hm.managers l hl e he).read_document fun x hx => hfloats e (hmanagers ▸ he) x hx

/-- Metadata of that shape is read again when it is written. -/
theorem Sound.exists_read (hm : m.Sound room) :
    ∃ m', read room (Json.document m.toJson) = .ok m' := by
  have hlists : ∀ l ∈ m.managedFields, ∃ l', list (Management.read (room - 2))
      (Json.document (.array (l.map Management.toJson))) = .ok l' := fun l hl =>
    exists_list_document fun e he => (hm.managers l hl e he).exists_read
  obtain ⟨managers?, hmanagers⟩ := exists_returns hlists
  exact ⟨_, Metadata.read_document hm hmanagers⟩

/-- Nothing but metadata with steady floats and whole seconds comes back as it was. -/
theorem of_read_document (h : read room (Json.document m.toJson) = .ok m) :
    (∀ e ∈ m.managers, ∀ x ∈ e.floats, IsSteady x) ∧ m.toSeconds = m := by
  obtain ⟨managers?, hback, hm⟩ := exists_of_read_document (sound_of_read h) h
  obtain rfl : managers? = m.managedFields := congrArg managedFields hm
  have hread : ∀ l ∈ m.managedFields, ∀ e ∈ l,
      Management.read (room - 2) (Json.document e.toJson) = .ok e := by
    intro l hl
    rw [hl] at hback
    exact List.forall₂_same.mp (list_document_iff.mp (of_optional hback l rfl).2)
  have hseconds : m.managedFields.map (fun l => l.map Management.toSeconds) = m.managedFields := by
    cases hfields : m.managedFields with
    | none => rfl
    | some l =>
        have hl : l.map Management.toSeconds = l.map id := List.map_congr_left fun e he =>
          (Management.of_read_document (hread l hfields e he)).2
        exact congrArg some (hl.trans l.map_id)
  constructor
  · intro e he
    obtain ⟨l, hl, hel⟩ : ∃ l ∈ m.managedFields, e ∈ l := by
      cases hfields : m.managedFields <;> simp_all [managers]
    exact (Management.of_read_document (hread l hl e hel)).1
  · rw [← hseconds] at hm
    exact hm

end Metadata

/-! ### Conditions -/

/-- Whether the generation that a condition was observed for has 64 bits. -/
def Condition.Fits (c : Condition) : Prop := ∀ n ∈ c.observedGeneration, InInt64 n

/-- Whether the generation that was found has 64 bits. -/
def Condition.Found.Fits (f : Found) : Prop := ∀ n, some n ∈ f.observedGeneration → InInt64 n

theorem Condition.Found.Fits.put {f g : Found} {name : String} {d : Json.Document} (hf : f.Fits)
    (h : declared.put f name d = .ok g) : g.Fits := by
  simp only [declared] at h
  split at h
  all_goals
    obtain ⟨o, ho, h⟩ := Json.bind_eq_ok.mp h
    cases h
  case h_6 => exact fun n hn => int64_faithful.fit d n (of_once_optional ho n hn)
  all_goals exact hf

theorem Condition.faithful : Faithful Condition.read Condition.toJson Condition.Fits where
  back c hc := by
    refine (declared_document (f := ⟨some c.type, some c.status, some c.reason, some c.message,
      some c.lastTransitionTime, c.observedGeneration.map some⟩) ?_).trans ?_
    · refine members_present (takes_once text_faithful
        (fun (f : Found) o => { f with type := o }) (fun _ => rfl) trivial) ?_
      refine members_present (takes_once text_faithful
        (fun f o => { f with status := o }) (fun _ => rfl) trivial) ?_
      refine members_present (takes_once text_faithful
        (fun f o => { f with reason := o }) (fun _ => rfl) trivial) ?_
      refine members_present (takes_once text_faithful
        (fun f o => { f with message := o }) (fun _ => rfl) trivial) ?_
      refine members_present (takes_once text_faithful
        (fun f o => { f with lastTransitionTime := o }) (fun _ => rfl) trivial) ?_
      refine members_present (takes_once_optional int64_faithful
        (fun f o => { f with observedGeneration := o }) (fun _ => rfl) rfl
        fun n hn => ⟨hc n hn, nofun⟩) ?_
      rfl
    · show Except.ok (Condition.mk _ _ _ _ _ (c.observedGeneration.map some).join) = .ok c
      rw [Json.join_map_some]
  fit d c h := by
    obtain ⟨ms, found, hfound, h⟩ := exists_of_declared h
    have hfits : found.Fits :=
      members_invariant Found.Fits Found.Fits.put (by simp [declared, Found.Fits]) hfound
    iterate 5 obtain ⟨_, _, h⟩ := Json.bind_eq_ok.mp h
    cases h
    exact fun n hn => hfits n (Option.join_eq_some_iff.mp hn)

/-! ### What is asked and what is told -/

theorem Spec.readShared_faithful : Faithful readShared sharedJson fun _ => True where
  back p _ := (map_faithful text_faithful).back p fun _ _ => trivial
  fit _ _ _ := trivial

theorem Spec.readByNode_faithful : Faithful readByNode byNodeJson fun _ => True where
  back p _ := (map_faithful readShared_faithful).back p fun _ _ => trivial
  fit _ _ _ := trivial

theorem Spec.faithful : Faithful Spec.read Spec.toJson fun _ => True where
  back s _ := by
    refine (declared_document (f := ⟨some s.agent, s.sharedParameters.map some,
      s.nodeParameters.map some⟩) ?_).trans ?_
    · refine members_present (takes_once text_faithful
        (fun (f : Found) o => { f with agent := o }) (fun _ => rfl) trivial) ?_
      refine members_present (takes_once_optional readShared_faithful
        (fun f o => { f with sharedParameters := o }) (fun _ => rfl) rfl
        (by simp [sharedJson])) ?_
      refine members_present (takes_once_optional readByNode_faithful
        (fun f o => { f with nodeParameters := o }) (fun _ => rfl) rfl (by simp [byNodeJson])) ?_
      rfl
    · show Except.ok (Spec.mk s.agent (s.sharedParameters.map some).join
        (s.nodeParameters.map some).join) = .ok s
      rw [Json.join_map_some, Json.join_map_some]
  fit _ _ _ := trivial

/-- Whether the generations in a status have 64 bits. -/
def Status.Fits (s : Status) : Prop := ∀ c ∈ s.conditions, Condition.Fits c

/-- Whether the conditions that were found have generations of 64 bits. -/
def Status.Found.Fits (f : Found) : Prop := ∀ cs ∈ f.conditions, ∀ c ∈ cs, Condition.Fits c

theorem Status.Found.Fits.put {f g : Found} {name : String} {d : Json.Document} (hf : f.Fits)
    (h : declared.put f name d = .ok g) : g.Fits := by
  simp only [declared] at h
  split at h
  all_goals
    obtain ⟨o, ho, h⟩ := Json.bind_eq_ok.mp h
    cases h
  case h_1 =>
    exact fun cs hcs => (list_faithful Condition.faithful).fit d cs (of_once ho cs hcs)
  all_goals exact hf

theorem Status.faithful : Faithful Status.read Status.toJson Status.Fits where
  back s hs := by
    refine (declared_document (f := ⟨some s.conditions, s.lastUpdateTime.map some⟩) ?_).trans ?_
    · refine members_present (takes_once (list_faithful Condition.faithful)
        (fun (f : Found) o => { f with conditions := o }) (fun _ => rfl) hs) ?_
      refine members_present (takes_once_optional text_faithful
        (fun f o => { f with lastUpdateTime := o }) (fun _ => rfl) rfl (by simp)) ?_
      rfl
    · show Except.ok (Status.mk s.conditions (s.lastUpdateTime.map some).join) = .ok s
      rw [Json.join_map_some]
  fit d s h := by
    obtain ⟨ms, found, hfound, h⟩ := exists_of_declared h
    have hfits : found.Fits :=
      members_invariant Found.Fits Found.Fits.put (by simp [declared, Found.Fits]) hfound
    cases h
    intro c hc
    -- Without the member there are no conditions.
    cases hfs : found.conditions with
    | none => simp [hfs] at hc
    | some cs => exact hfits cs hfs c (by simpa [hfs] using hc)

/-! ### Requests -/

namespace Remediation

/-- The floats in the free-form fields of the managers of a request. -/
def floats (r : Remediation) : List Decimal.Binary := r.metadata.managers.flatMap Management.floats

/-- The request with the times of its metadata cut to the second. -/
def toSeconds (r : Remediation) : Remediation := { r with metadata := r.metadata.toSeconds }

/-- Whether a request has the shape of what is read where at most so many containers are nested:
its numbers have 64 bits, and so have those in the free-form fields of its managers, which are not
nested too deeply. -/
structure Sound (room : Nat) (r : Remediation) : Prop where
  metadata : r.metadata.Sound (room - 1)
  status : ∀ s ∈ r.status, Status.Fits s

/-- Whether a request comes back as it was: it has the shape of what is read, its floats are steady
and its times are whole seconds. -/
structure Fits (r : Remediation) : Prop where
  sound : r.Sound Json.nesting
  steady : ∀ x ∈ r.floats, IsSteady x
  seconds : r.toSeconds = r

theorem toJson_toSeconds (r : Remediation) : r.toSeconds.toJson = r.toJson := by
  simp only [toSeconds, toJson, Metadata.toJson_toSeconds]

theorem steady_iff {r : Remediation} :
    (∀ x ∈ r.floats, IsSteady x) ↔ ∀ e ∈ r.metadata.managers, ∀ x ∈ e.floats, IsSteady x := by
  simp only [floats, List.mem_flatMap]
  exact ⟨fun h e he x hx => h x ⟨e, he, hx⟩, fun h x ⟨e, he, hx⟩ => h e he x hx⟩

variable {room : Nat} {r r' : Remediation}

/-- A request comes back with the metadata that its member is read as. -/
theorem read_document {m : Metadata} (hr : r.Sound room)
    (hm : Metadata.read (room - 1) (Json.document r.metadata.toJson) = .ok m) :
    readWithin room (Json.document r.toJson) = .ok { r with metadata := m } := by
  refine (declared_document (f := ⟨some m, some r.spec, r.status.map some⟩) ?_).trans ?_
  · -- The version and the kind are written first; a reader steps over them.
    refine members_present (g := {}) (by rfl) (members_present (g := {}) (by rfl) ?_)
    refine members_present (g := { metadata := some m }) ?_ ?_
    · show (do return ({ metadata := ← once (Metadata.read (room - 1)) none _ } : Found)) = _
      rw [once, hm]
      rfl
    refine members_present (takes_once Spec.faithful
      (fun f o => { f with spec := o }) (fun _ => rfl) trivial) ?_
    refine members_present (takes_once_optional Status.faithful
      (fun f o => { f with status := o }) (fun _ => rfl) rfl
      fun s hs => ⟨hr.status s hs, by simp [Status.toJson]⟩) ?_
    rfl
  · show Except.ok (Remediation.mk _ _ (r.status.map some).join) = .ok _
    rw [Json.join_map_some]

theorem exists_of_read_document (hr : r.Sound room)
    (h : readWithin room (Json.document r.toJson) = .ok r') :
    ∃ m, Metadata.read (room - 1) (Json.document r.metadata.toJson) = .ok m ∧
      { r with metadata := m } = r' := by
  obtain ⟨_, hmembers, -⟩ := (readsObjects.read_object _ _).mp h
  obtain ⟨found, m?, hm⟩ := reads.exists_read metadataField_mem
    (Json.mem_memberDocuments (Json.mem_present (j := r.metadata.toJson) (by simp))) hmembers
  have hone : once (Metadata.read (room - 1)) found (Json.document r.metadata.toJson) = .ok m? := hm
  unfold once at hone
  split at hone
  · cases hone
  · obtain ⟨m, hm, -⟩ := Json.map_eq_ok.mp hone
    exact ⟨m, hm, Except.ok.inj ((read_document hr hm).symm.trans h)⟩

/-- Whether what was found of a request has the shape of what is read. -/
structure Found.Sound (room : Nat) (f : Found) : Prop where
  metadata : ∀ m ∈ f.metadata, Metadata.Sound (room - 1) m
  status : ∀ s, some s ∈ f.status → Status.Fits s

theorem Found.Sound.put {f g : Found} {name : String} {d : Json.Document} (hf : f.Sound room)
    (h : (declared room).put f name d = .ok g) : g.Sound room := by
  simp only [declared] at h
  split at h
  all_goals
    obtain ⟨o, ho, h⟩ := Json.bind_eq_ok.mp h
    cases h
  case h_1 => exact ⟨fun m hm => Metadata.sound_of_read (of_once ho m hm), hf.status⟩
  case h_3 => exact ⟨hf.metadata, fun s hs => Status.faithful.fit d s (of_once_optional ho s hs)⟩
  all_goals exact ⟨hf.metadata, hf.status⟩

theorem sound_of_read {d : Json.Document} (h : readWithin room d = .ok r) : r.Sound room := by
  obtain ⟨ms, found, hfound, h⟩ := exists_of_declared h
  have hsound : found.Sound room :=
    members_invariant (Found.Sound room) Found.Sound.put ⟨by simp [declared], by simp [declared]⟩
      hfound
  obtain ⟨m, hm, h⟩ := Json.bind_eq_ok.mp h
  obtain ⟨_, _, h⟩ := Json.bind_eq_ok.mp h
  cases h
  exact ⟨hsound.metadata m (mem_of_required hm),
    fun s hs => hsound.status s (Option.join_eq_some_iff.mp hs)⟩

/-- A request of that shape comes back, but for its times, if the floats in it are steady. -/
theorem Sound.read_document (hr : r.Sound room) (hfloats : ∀ x ∈ r.floats, IsSteady x) :
    readWithin room (Json.document r.toJson) = .ok r.toSeconds :=
  Remediation.read_document hr (hr.metadata.read_document (steady_iff.mp hfloats))

/-- A request of that shape is read again when it is written. -/
theorem Sound.exists_read (hr : r.Sound room) :
    ∃ r', readWithin room (Json.document r.toJson) = .ok r' := by
  obtain ⟨m, hm⟩ := hr.metadata.exists_read
  exact ⟨_, Remediation.read_document hr hm⟩

/-- Just the requests that fit come back as they were. -/
theorem read_document_iff_fits : read (Json.document r.toJson) = .ok r ↔ r.Fits := by
  constructor
  · intro h
    have hsound : r.Sound Json.nesting := sound_of_read h
    obtain ⟨m, hm, hr⟩ := exists_of_read_document hsound h
    obtain rfl : m = r.metadata := congrArg metadata hr
    obtain ⟨hfloats, hseconds⟩ := Metadata.of_read_document hm
    exact ⟨hsound, steady_iff.mpr hfloats, congrArg (fun m => { r with metadata := m }) hseconds⟩
  · rintro ⟨hsound, hfloats, hseconds⟩
    have hread : read (Json.document r.toJson) = .ok r.toSeconds := hsound.read_document hfloats
    rwa [hseconds] at hread

/-- Whatever a request comes back as, it has the same name, the same finalizers and the same spec,
and is marked deleted just if it was. -/
theorem Sound.same_of_read_document (hr : r.Sound room)
    (h : readWithin room (Json.document r.toJson) = .ok r') :
    r'.anyName = r.anyName ∧ r'.hasFinalizer = r.hasFinalizer ∧ r'.isDeleted = r.isDeleted ∧
      r'.spec = r.spec := by
  obtain ⟨m, hm, rfl⟩ := exists_of_read_document hr h
  obtain ⟨managers?, -, rfl⟩ := Metadata.exists_of_read_document hr.metadata hm
  refine ⟨rfl, rfl, ?_, rfl⟩
  exact Option.isSome_map

end Remediation

/-! ### The round trip -/

/-- **A resource that is written reads back as it was.**  Every spec does, and so does every status
whose numbers have their 64 bits.  Of requests those do that fit, and only these: the times in
their metadata have to be whole seconds, and the free-form fields of their managers such as can be
read.  Where only the times are not, their seconds come back.  Whatever a text looks like, once it
was accepted what is written is accepted again; what the request says of itself and the command
that it stands for, or the error in place of the command, are then those of the text.  And what is
written stays as it is, if the floats in those fields are steady. -/
theorem Remediation.reads_back :
    (∀ s : Spec, Json.decode Spec.read s.toJson.print = .ok s) ∧
    (∀ s : Status, Json.decode Status.read s.toJson.print = .ok s ↔ s.Fits) ∧
    (∀ r : Remediation, Json.decode Remediation.read r.toJson.print = .ok r ↔ r.Fits) ∧
    (∀ r : Remediation, r.Sound Json.nesting → (∀ x ∈ r.floats, IsSteady x) →
      Json.decode Remediation.read r.toJson.print = .ok r.toSeconds) ∧
    (∀ t u, Json.rewrite Spec.read Spec.toJson t = .ok u →
      Json.rewrite Spec.read Spec.toJson u = .ok u) ∧
    (∀ t u, Json.rewrite Status.read Status.toJson t = .ok u →
      Json.rewrite Status.read Status.toJson u = .ok u) ∧
    (∀ t r, Json.decode Remediation.read t = .ok r → (∀ x ∈ r.floats, IsSteady x) →
      Json.decode Remediation.read r.toJson.print = .ok r.toSeconds ∧
      Json.rewrite Remediation.read Remediation.toJson r.toJson.print = .ok r.toJson.print) ∧
    (∀ t s, Json.decode Spec.read t = .ok s → ∃ s', Json.decode Spec.read s.toJson.print = .ok s' ∧
      ∀ node, Command.ofSpec s' node = Command.ofSpec s node) ∧
    ∀ t r, Json.decode Remediation.read t = .ok r →
      ∃ r', Json.decode Remediation.read r.toJson.print = .ok r' ∧
        r'.anyName = r.anyName ∧ r'.hasFinalizer = r.hasFinalizer ∧
        r'.isDeleted = r.isDeleted ∧ r'.lifecycleAction = r.lifecycleAction ∧
        Command.ofSpec r'.spec r'.anyName = Command.ofSpec r.spec r.anyName := by
  have hback : ∀ r : Remediation, r.Sound Json.nesting → (∀ x ∈ r.floats, IsSteady x) →
      Json.decode Remediation.read r.toJson.print = .ok r.toSeconds := fun r hr hfloats =>
    (Json.decode_print_eq _ _).trans (hr.read_document hfloats)
  have hsound : ∀ t r, Json.decode Remediation.read t = .ok r → r.Sound Json.nesting := by
    intro t r hr
    obtain ⟨d, hd⟩ := Json.exists_of_decode hr
    exact Remediation.sound_of_read hd
  refine ⟨fun s => Spec.faithful.decode_print trivial, fun s => Status.faithful.decode_print_iff,
    fun r => ?_, hback, fun t u => Spec.faithful.rewrite_of_rewrite,
    fun t u => Status.faithful.rewrite_of_rewrite, fun t r hr hfloats => ?_, fun t s hs => ?_,
    fun t r hr => ?_⟩
  · rw [Json.decode_print_eq, Remediation.read_document_iff_fits]
  · have hread := hback r (hsound t r hr) hfloats
    have hrewrite : Json.rewrite Remediation.read Remediation.toJson r.toJson.print = _ :=
      Json.rewrite_of_decode hread
    rw [Remediation.toJson_toSeconds] at hrewrite
    exact ⟨hread, hrewrite⟩
  · exact ⟨s, Spec.faithful.decode_print_of_decode hs, fun _ => rfl⟩
  · obtain ⟨r', hr'⟩ := (hsound t r hr).exists_read
    obtain ⟨hname, hfinalizer, hdeleted, hspec⟩ := (hsound t r hr).same_of_read_document hr'
    refine ⟨r', (Json.decode_print_eq _ _).trans hr', hname, hfinalizer, hdeleted, ?_,
      by rw [hspec, hname]⟩
    rw [Remediation.lifecycleAction, Remediation.lifecycleAction, hfinalizer, hdeleted]

/-! ### What comes back and what does not -/

namespace Remediation

/-- A request that says little but in its metadata. -/
def ofMetadata (m : Metadata) : Remediation := { metadata := m, spec := { agent := "f" } }

/-- A request with one manager, whose free-form fields are given. -/
def managed (fields : Json) : Remediation :=
  ofMetadata { managedFields := some [{ fields := some fields }] }

/-- A request that was made half a second after midnight. -/
def halfSecond : Remediation :=
  ofMetadata { creationTimestamp := some ⟨2024, 1, 1, 0, 0, 0, 500000000, by decide⟩ }

/-- The text of such a request. -/
def halfSecondText : String :=
  "\x7b\"metadata\":\x7b\"creationTimestamp\":\"2024-01-01T00:00:00.5Z\"\x7d," ++
    "\"spec\":\x7b\"agent\":\"f\"\x7d\x7d"

/-- One half. -/
def half : Decimal.Binary := ⟨false, 4602678819172646912, by decide⟩

/-- A request that is marked deleted and has parameters of no kind for its node. -/
def strange : Remediation where
  metadata := {
    name := some "n\"\\\x01\u00e9"
    deletionTimestamp := some ⟨2024, 2, 29, 23, 59, 60, 0, by decide⟩
    finalizers := some [finalizer]
    generation := some 9223372036854775807
    managedFields := some [{
      fields := some (.object [("a", .float half), ("b", .int 18446744073709551615)]) }] }
  spec := { agent := "", nodeParameters := some (Ordered.ofList [("--b", Ordered.empty)]) }
  status := some {
    conditions := [⟨"", "", "", "", "", some (-9223372036854775808)⟩] }

theorem fits_strange : strange.Fits where
  sound := {
    metadata := {
      gracePeriod := by rintro n ⟨⟩
      generation := by rintro n ⟨⟩; decide
      managers := by
        rintro l ⟨⟩ e he j hj
        cases List.mem_singleton.mp he
        cases hj
        refine ⟨.object (by decide) ?_, by rintro ⟨⟩⟩
        simp only [List.forall_mem_cons]
        refine ⟨.float _, .int (by decide), ?_⟩
        rintro e ⟨⟩ }
    status := by
      rintro s ⟨⟩ c hc n hn
      cases List.mem_singleton.mp hc
      cases hn
      decide }
  steady := by decide +kernel
  seconds := by decide +kernel

theorem sound_halfSecond : halfSecond.Sound Json.nesting :=
  ⟨⟨nofun, nofun, nofun⟩, nofun⟩

end Remediation

/-- Values at the bounds come back, a time comes back as its second, and texts that are written in
other ways settle: a spec, a status and a request that are given as arrays. -/
theorem Remediation.reads_back_strange :
    Json.decode Remediation.read strange.toJson.print = .ok strange ∧
    Json.decode Remediation.read halfSecond.toJson.print = .ok halfSecond.toSeconds ∧
    (∃ s s' u, Json.decode Spec.read
        "[\"f\\u0041\",\x7b\"b\":\"1\",\"a\":\"\",\"b\":\"2\"\x7d]" = .ok s ∧
      Json.decode Spec.read s.toJson.print = .ok s' ∧
      Command.ofSpec s' "n" = .error .missingParameters ∧
      Json.rewrite Spec.read Spec.toJson u = .ok u) ∧
    (∃ u, Json.rewrite Status.read Status.toJson "[[],null]" = .ok u ∧
      Json.rewrite Status.read Status.toJson u = .ok u) ∧
    ∃ r r', Json.decode Remediation.read
        "[\x7b\"name\":\"\\u00e9\"\x7d,[\"f\",null,\x7b\x7d],[[],null]]" = .ok r ∧
      Json.decode Remediation.read r.toJson.print = .ok r' ∧ r'.lifecycleAction = .addFinalizer ∧
      Json.rewrite Remediation.read Remediation.toJson r.toJson.print = .ok r.toJson.print := by
  obtain ⟨-, -, hvalue, hsecond, hspec, hstatus, hrequest, hcommand, hreads⟩ :=
    Remediation.reads_back
  have hs : Json.decode Spec.read
      "[\"f\\u0041\",\x7b\"b\":\"1\",\"a\":\"\",\"b\":\"2\"\x7d]" =
      .ok ⟨"fA", some (Ordered.ofList [("b", "2"), ("a", "")]), none⟩ := by decide +kernel
  have ht : Json.rewrite Status.read Status.toJson "[[],null]" =
      .ok "\x7b\"conditions\":[]\x7d" := by decide +kernel
  have hr : Json.decode Remediation.read
      "[\x7b\"name\":\"\\u00e9\"\x7d,[\"f\",null,\x7b\x7d],[[],null]]" =
      .ok ⟨{ name := some "\u00e9" }, ⟨"f", none, some Ordered.empty⟩, some ⟨[], none⟩⟩ := by
    decide +kernel
  obtain ⟨s', hs', hcommand⟩ := hcommand _ _ hs
  obtain ⟨-, hsettled⟩ := hrequest _ _ hr nofun
  obtain ⟨r', hr', -, -, -, haction, -⟩ := hreads _ _ hr
  exact ⟨(hvalue strange).mpr fits_strange, hsecond halfSecond sound_halfSecond nofun,
    ⟨_, s', _, hs, hs', hcommand "n",
      hspec _ _ (Json.rewrite_of_decode hs)⟩, ⟨_, ht, hstatus _ _ ht⟩,
    _, r', hr, hr', haction, hsettled⟩

/-- A value inside of so many arrays. -/
def Json.nested : Nat → Json
  | 0 => .null
  | n + 1 => .array [nested n]

theorem Json.le_of_readable_nested {room n : Nat} (h : Readable room (nested n)) : n ≤ room := by
  induction n generalizing room with
  | zero => exact Nat.zero_le room
  | succ n ih =>
      cases h with
      | array hitems => exact Nat.succ_le_succ (ih (hitems _ List.mem_cons_self))

/-- A text with a number in the free-form fields of a manager. -/
def Remediation.numberText : String :=
  "\x7b\"metadata\":\x7b\"managedFields\":[\x7b\"fieldsV1\":5e32\x7d]\x7d," ++
    "\"spec\":\x7b\"agent\":\"f\"\x7d\x7d"

/-- The float that five times ten to the thirty-second is read as, which is not the nearest. -/
def Remediation.above : Decimal.Binary := ⟨false, 5096006472832567709, by decide⟩

/-- The float that the text of `above` is read as. -/
def Remediation.below : Decimal.Binary := ⟨false, 5096006472832567708, by decide⟩

/-- Not everything comes back.  A time is cut to its second, whether a text gave it or not;
free-form fields that are `null` are lost, and those that are nested too deeply do not come back;
and a float may take two texts in turn. -/
theorem Remediation.not_reads_back :
    (Json.decode Remediation.read halfSecondText = .ok halfSecond ∧
      Json.decode Remediation.read halfSecond.toJson.print ≠ .ok halfSecond) ∧
    Json.decode Remediation.read (managed .null).toJson.print =
      .ok (ofMetadata { managedFields := some [{}] }) ∧
    Json.decode Remediation.read (managed (.nested 124)).toJson.print ≠
      .ok (managed (.nested 124)) ∧
    ∃ u v, Json.rewrite Remediation.read Remediation.toJson numberText = .ok u ∧
      Json.rewrite Remediation.read Remediation.toJson u = .ok v ∧
      Json.rewrite Remediation.read Remediation.toJson v = .ok u ∧ u ≠ v := by
  have hsecond : ¬ halfSecond.Fits := fun h => absurd h.seconds (by decide)
  have hdeep : ¬ Readable 123 (.nested 124) := fun h =>
    absurd (Json.le_of_readable_nested h) (by decide)
  have hup : Json.decode Remediation.read numberText = .ok (managed (.float above)) := by
    decide +kernel
  have hdown : Json.decode Remediation.read (managed (.float above)).toJson.print =
      .ok (managed (.float below)) := (Json.decode_print_eq _ _).trans (by decide +kernel)
  have hagain : Json.decode Remediation.read (managed (.float below)).toJson.print =
      .ok (managed (.float above)) := (Json.decode_print_eq _ _).trans (by decide +kernel)
  refine ⟨⟨by decide +kernel, fun h => hsecond ?_⟩,
    (Json.decode_print_eq _ _).trans (by decide +kernel), fun h => hdeep ?_,
    (managed (.float above)).toJson.print, (managed (.float below)).toJson.print,
    Json.rewrite_of_decode hup, Json.rewrite_of_decode hdown, Json.rewrite_of_decode hagain,
    by decide +kernel⟩
  · rwa [Json.decode_print_eq, read_document_iff_fits] at h
  · rw [Json.decode_print_eq, read_document_iff_fits] at h
    exact (h.sound.metadata.managers _ rfl _ List.mem_cons_self _ rfl).1

end NodeFencing
