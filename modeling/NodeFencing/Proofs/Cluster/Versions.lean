/-
Versions in a cluster.

Every write gives the object that it stores a version that was not given before.  So what
was read and is read again with the same version is the same object, whatever was done
in between: that is what a conditional replace relies on, and what `eq_of_version_eq`
says.

`Later` compares a cluster with what it becomes: an object that is stored later was
stored before, or has a newer version and stands under its own key.  Every answer and
every edit is such a step, steps compose, and a cluster is `Sound` if it is later than
the empty one.
-/
import Mathlib.Order.Basic
import NodeFencing.World

namespace NodeFencing

/-! ### Versions as they are written -/

theorem Json.digit_eq_digitChar {n : Nat} (h : n < 10) : Json.digit n = n.digitChar := by
  have hall : ∀ i : Fin 10, Json.digit i = (i : Nat).digitChar := by decide
  exact hall ⟨n, h⟩

theorem Json.decimal_eq_toDigits (n : Nat) : Json.decimal n = Nat.toDigits 10 n := by
  induction n using Nat.strongRecOn with
  | ind n ih =>
      rw [Json.decimal]
      by_cases h : n < 10
      · rw [if_pos h, Nat.toDigits_of_lt_base h, Json.digit_eq_digitChar h]
      · have hdiv : n / 10 < n := Nat.div_lt_self (by omega) (by omega)
        have hmod : n % 10 < 10 := Nat.mod_lt n (by omega)
        rw [if_neg h, ih (n / 10) hdiv, Json.digit_eq_digitChar hmod,
          Nat.toDigits_of_base_le (n := n) (by omega) (by omega)]

/-- A version can be read off its text. -/
theorem Cluster.versionText_inj {m n : Nat} (h : Cluster.versionText m = Cluster.versionText n) :
    m = n := by
  have hdigits : Nat.toDigits 10 m = Nat.toDigits 10 n := by
    rw [← Json.decimal_eq_toDigits, ← Json.decimal_eq_toDigits]
    exact String.ofList_injective h
  rw [← Nat.ofDigitChars_ten_toDigits (n := m), hdigits, Nat.ofDigitChars_ten_toDigits]


namespace Cluster

/-! ### Objects that are stored later -/

/-- What is stored later was stored before, or has a newer version and is under its own key. -/
def Grows {κ α : Type} [DecidableEq κ] (keyOf : α → κ) (metadataOf : α → Metadata)
    (v v' : Nat) (m m' : Ordered κ α) : Prop :=
  ∀ k x, m'.get? k = some x →
    m.get? k = some x ∨
      keyOf x = k ∧ ∃ u, v < u ∧ u ≤ v' ∧ (metadataOf x).resourceVersion = some (versionText u)

namespace Grows

variable {κ α : Type} [DecidableEq κ] {keyOf : α → κ} {metadataOf : α → Metadata}
  {u v v' v'' : Nat} {m m' m'' : Ordered κ α}

theorem refl (v v' : Nat) (m : Ordered κ α) : Grows keyOf metadataOf v v' m m :=
  fun _ _ h => .inl h

theorem trans (hv : v ≤ v') (hv' : v' ≤ v'') (h : Grows keyOf metadataOf v v' m m')
    (h' : Grows keyOf metadataOf v' v'' m' m'') : Grows keyOf metadataOf v v'' m m'' := by
  intro k x hx
  rcases h' k x hx with hx' | ⟨hk, u, hu, hu', hver⟩
  · rcases h k x hx' with hx'' | ⟨hk, u, hu, hu', hver⟩
    · exact .inl hx''
    · exact .inr ⟨hk, u, hu, by omega, hver⟩
  · exact .inr ⟨hk, u, by omega, hu', hver⟩

/-- An insertion of a new version of an object grows the map. -/
theorem insert {x : α} (m : Ordered κ α) (k : κ) (hk : keyOf x = k) (hv : v < v')
    (hver : (metadataOf x).resourceVersion = some (versionText v')) :
    Grows keyOf metadataOf v v' m (m.insert k x) := by
  intro k' y hy
  rw [Ordered.get?_insert] at hy
  split at hy
  · next h =>
      obtain rfl : x = y := by simpa using hy
      exact .inr ⟨hk.trans h, v', hv, Nat.le_refl v', hver⟩
  · exact .inl hy

theorem erase (v v' : Nat) (m : Ordered κ α) (k : κ) :
    Grows keyOf metadataOf v v' m (m.erase k) := by
  intro k' y hy
  rw [Ordered.get?_erase] at hy
  split at hy
  · cases hy
  · exact .inl hy

/-- Nothing was stored in an empty map, so all that is stored is under its own key. -/
theorem key_eq {x : α} {k : κ} (h : Grows keyOf metadataOf v v' .empty m)
    (hx : m.get? k = some x) : keyOf x = k := by
  rcases h k x hx with hx' | ⟨hk, -⟩
  · rw [Ordered.get?_empty] at hx'
    cases hx'
  · exact hk

/-- All that is stored was given a version. -/
theorem exists_version {x : α} {k : κ} (h : Grows keyOf metadataOf v v' .empty m)
    (hx : m.get? k = some x) :
    ∃ u, u ≤ v' ∧ (metadataOf x).resourceVersion = some (versionText u) := by
  rcases h k x hx with hx' | ⟨-, u, -, hu, hver⟩
  · rw [Ordered.get?_empty] at hx'
    cases hx'
  · exact ⟨u, hu, hver⟩

/-- What is stored with a version that was given before is not new. -/
theorem of_version_eq {w w' : Nat} {l l' : Ordered κ α} {x y : α} {k k' : κ}
    (h : Grows keyOf metadataOf v v' .empty m) (hx : m.get? k' = some x) (hw : v' ≤ w)
    (h' : Grows keyOf metadataOf w w' l l') (hy : l'.get? k = some y)
    (hver : (metadataOf x).resourceVersion = (metadataOf y).resourceVersion) :
    l.get? k = some y := by
  rcases h' k y hy with hy' | ⟨-, u, hu, -, hvery⟩
  · exact hy'
  · obtain ⟨u', hu', hverx⟩ := h.exists_version hx
    rw [hverx, hvery] at hver
    have := versionText_inj (Option.some.inj hver)
    omega

end Grows

/-! ### Clusters -/

/-- What a cluster becomes: versions and objects grow. -/
structure Later (k k' : Cluster) : Prop where
  version : k.version ≤ k'.version
  nodes : Grows Node.anyName Node.metadata k.version k'.version k.nodes k'.nodes
  remediations : Grows Remediation.key Remediation.metadata k.version k'.version
    k.remediations k'.remediations

/-- A cluster that came about by writes: every object has a version of its own. -/
def Sound (k : Cluster) : Prop := Later {} k

variable {k k' k'' : Cluster}

theorem Later.refl (k : Cluster) : Later k k :=
  ⟨Nat.le_refl _, .refl _ _ _, .refl _ _ _⟩

theorem Later.trans (h : Later k k') (h' : Later k' k'') : Later k k'' :=
  ⟨Nat.le_trans h.version h'.version, h.nodes.trans h.version h'.version h'.nodes,
    h.remediations.trans h.version h'.version h'.remediations⟩

theorem Sound.empty : Sound {} := .refl {}

theorem Sound.later (h : Sound k) (h' : Later k k') : Sound k' := Later.trans h h'

/-- A node is stored under its name. -/
theorem Sound.anyName_eq {name : String} {n : Node} (h : Sound k) (hn : k.node? name = some n) :
    n.anyName = name :=
  h.nodes.key_eq hn

/-- A request is stored under its namespace and name. -/
theorem Sound.key_eq {inNamespace name : String} {r : Remediation} (h : Sound k)
    (hr : k.remediation? inNamespace name = some r) : r.key = (inNamespace, name) :=
  h.remediations.key_eq hr

/--
**A version names one content.**  If the node that is stored now has the version of one
that was read before, it is that node, and it was stored all the time in between.
-/
theorem Sound.node?_eq_of_version_eq {name : String} {n m : Node} (h : Sound k)
    (hk' : Later k k') (hk'' : Later k' k'') (hn : k.node? name = some n)
    (hm : k''.node? name = some m)
    (hver : n.metadata.resourceVersion = m.metadata.resourceVersion) :
    m = n ∧ k'.node? name = some n := by
  have hfirst := h.nodes.of_version_eq hn (Nat.le_refl _) (hk'.trans hk'').nodes hm hver
  obtain rfl : n = m := Option.some.inj (hn.symm.trans hfirst)
  exact ⟨rfl, h.nodes.of_version_eq hn hk'.version hk''.nodes hm rfl⟩

/-- The same of requests. -/
theorem Sound.remediation?_eq_of_version_eq {inNamespace name : String} {r q : Remediation}
    (h : Sound k) (hk' : Later k k') (hk'' : Later k' k'')
    (hr : k.remediation? inNamespace name = some r)
    (hq : k''.remediation? inNamespace name = some q)
    (hver : r.metadata.resourceVersion = q.metadata.resourceVersion) :
    q = r ∧ k'.remediation? inNamespace name = some r := by
  have hfirst := h.remediations.of_version_eq hr (Nat.le_refl _) (hk'.trans hk'').remediations
    hq hver
  obtain rfl : r = q := Option.some.inj (hr.symm.trans hfirst)
  exact ⟨rfl, h.remediations.of_version_eq hr hk'.version hk''.remediations hq rfl⟩

/-! ### Every write gives a new version -/

theorem later_replaceNode (k : Cluster) (n : Node) : Later k (k.replaceNode n).2 := by
  unfold replaceNode
  split
  · exact .refl k
  · split
    · exact ⟨Nat.le_succ _, .insert _ _ rfl (Nat.lt_succ_self _) rfl, .refl _ _ _⟩
    · exact .refl k

theorem later_replaceRemediation (k : Cluster) (r : Remediation) :
    Later k (k.replaceRemediation r).2 := by
  unfold replaceRemediation
  split
  · exact .refl k
  · split
    · refine ⟨Nat.le_succ _, .refl _ _ _, ?_⟩
      dsimp only
      split
      · exact .erase _ _ _ _
      · exact .insert _ _ rfl (Nat.lt_succ_self _) rfl
    · exact .refl k

theorem Sound.later_patchStatus (h : Sound k) (inNamespace name : String) (s : Status) :
    Later k (k.patchStatus inNamespace name s).2 := by
  unfold patchStatus
  split
  · exact .refl k
  · next r hr =>
      have hkey : r.key = (inNamespace, name) := h.key_eq hr
      exact ⟨Nat.le_succ _, .refl _ _ _, .insert _ _ hkey (Nat.lt_succ_self _) rfl⟩

theorem Sound.later_changeNode (h : Sound k) (name : String) {f : Node → Node}
    (hf : ∀ n, (f n).metadata = n.metadata) : Later k (k.changeNode name f) := by
  unfold changeNode
  dsimp only
  split
  · exact ⟨Nat.le_succ _, .refl _ _ _, .refl _ _ _⟩
  · next n hn =>
      have hname : (f n).anyName = name := by
        unfold Node.anyName
        rw [hf n]
        exact h.anyName_eq hn
      exact ⟨Nat.le_succ _, .insert _ _ hname (Nat.lt_succ_self _) rfl, .refl _ _ _⟩

theorem Sound.later_changeRemediation (h : Sound k) (inNamespace name : String)
    {f : Remediation → Remediation} (hf : ∀ r, (f r).key = r.key) :
    Later k (k.changeRemediation inNamespace name f) := by
  unfold changeRemediation
  dsimp only
  split
  · exact ⟨Nat.le_succ _, .refl _ _ _, .refl _ _ _⟩
  · next r hr =>
      have hkey : (f r).key = (inNamespace, name) := (hf r).trans (h.key_eq hr)
      exact ⟨Nat.le_succ _, .refl _ _ _, .insert _ _ hkey (Nat.lt_succ_self _) rfl⟩

/-- Whatever others do, versions and objects grow. -/
theorem Sound.later_edit (h : Sound k) (e : Edit) : Later k (k.edit e) := by
  cases e with
  | addNode n => exact ⟨Nat.le_succ _, .insert _ _ rfl (Nat.lt_succ_self _) rfl, .refl _ _ _⟩
  | addRemediation r =>
      exact ⟨Nat.le_succ _, .refl _ _ _, .insert _ _ rfl (Nat.lt_succ_self _) rfl⟩
  | removeNode name => exact ⟨Nat.le_refl _, .erase _ _ _ _, .refl _ _ _⟩
  | removeRemediation inNamespace name => exact ⟨Nat.le_refl _, .refl _ _ _, .erase _ _ _ _⟩
  | addPod p => exact ⟨Nat.le_refl _, .refl _ _ _, .refl _ _ _⟩
  | clearPods => exact ⟨Nat.le_refl _, .refl _ _ _, .refl _ _ _⟩
  | setTaints name taints => exact h.later_changeNode name fun n => rfl
  | markDeleted inNamespace name time =>
      exact h.later_changeRemediation inNamespace name fun r => rfl
  | setFinalizers inNamespace name finalizers =>
      exact h.later_changeRemediation inNamespace name fun r => rfl
  | setSpec inNamespace name spec =>
      exact h.later_changeRemediation inNamespace name fun r => rfl

/-- The cluster that others make of an empty one. -/
def ofEdits (edits : List Edit) : Cluster := edits.foldl edit {}

theorem Sound.foldl_edit (h : Sound k) (edits : List Edit) : Sound (edits.foldl edit k) := by
  induction edits generalizing k with
  | nil => exact h
  | cons e edits ih => exact ih (h.later (h.later_edit e))

theorem sound_ofEdits (edits : List Edit) : Sound (ofEdits edits) :=
  Sound.empty.foldl_edit edits

end Cluster

end NodeFencing
