/-
A pass that shares the cluster.

Between two calls of a pass anything may happen to the cluster that its outlook does not show.
So a `Dialogue` has a cluster of its own for every call, and only the outlook is handed on.

`Dialogue.fits` says that every call of a pass fits its outlook: what the pass has read is
still there, since it makes the first write of its node with nothing but reading before it,
and that of its request with nothing but the node written before it.  `Dialogue.determined`
then goes through two dialogues call by call: what the outlook shows at the start decides
all that is said and heard, the result, and the outlook that is left.
-/
import NodeFencing.Proofs.Apart.Outlook

namespace NodeFencing

variable {α : Type} {j : Job}

/-- What a program says and hears, from one outlook to another. -/
inductive Dialogue (j : Job) : Outlook → Program α → List Exchange → Outlook → Program α → Prop
  | refl (o : Outlook) (p : Program α) : Dialogue j o p [] o p
  | call {o o' : Outlook} {k : Cluster} {w : Surroundings} {c : Call}
      {next : c.Answer → Program α} {log : List Exchange} {q : Program α} (hk : k.Keyed)
      (ho : j.outlook k = o)
      (h : Dialogue j (j.outlook (k.serve w c).2) (next (k.serve w c).1) log o' q) :
      Dialogue j o (.call c next) (⟨c, (k.serve w c).1⟩ :: log) o' q

namespace Cluster

/-- A call that writes nothing leaves the cluster as it is. -/
theorem serve_of_read (k : Cluster) {w : Surroundings} {c : Call} (h : c.isWrite = false) :
    (k.serve w c).2 = k := by
  cases c with
  | replaceRemediation r => cases h
  | patchStatus inNamespace name s => cases h
  | replaceNode n => cases h
  | _ => rfl

theorem remediation?_replaceNode (k : Cluster) (w : Surroundings) (n : Node)
    {inNamespace name : String} :
    (k.serve w (.replaceNode n)).2.remediation? inNamespace name =
      k.remediation? inNamespace name := by
  rcases k.remediation?_answer w (.replaceNode n) .served inNamespace name with
    heq | ⟨_, _, hc, -⟩ | ⟨_, _, hc, -⟩
  · exact heq
  · cases hc
  · cases hc

end Cluster

namespace Pass.Heard

variable {s : Settings} {inNamespace name : String} {log : List Exchange}

/-- Before a pass puts its node back it wrote nothing. -/
theorem isWrite_eq_false_of_replaceNode {sent : Node}
    {next : Except Error Node → Program (Except Error Report)}
    (h : Heard s inNamespace name log (.replaceNode sent) next) :
    ∀ x ∈ log, x.1.isWrite = false := by
  obtain ⟨⟨_, _, _, ⟨_⟩, -, rfl, -⟩ | ⟨_, _, _, _, ⟨_⟩, -, -, rfl, -⟩, -⟩ := h
  · simp [Call.isWrite]
  · simp [Call.isWrite]

/-- Before a pass puts its request back it wrote at most the node. -/
theorem isRead_of_replaceRemediation {sent : Remediation}
    {next : Except Error Remediation → Program (Except Error Report)}
    (h : Heard s inNamespace name log (.replaceRemediation sent) next) :
    ∀ x ∈ log, x.1.isWrite = false ∨ ∃ n, x.1 = .replaceNode n := by
  obtain ⟨⟨_, ⟨_⟩, -⟩ | ⟨_, hcleared, -⟩, -⟩ := h
  · simp [Call.isWrite]
  · cases hcleared with
    | absent h _ => cases h; simp [Call.isWrite]
    | clean h _ _ => cases h; simp [Call.isWrite]
    | removed h _ _ => cases h; simp [Call.isWrite]
    | vanished h _ _ _ => cases h; simp [Call.isWrite]

end Pass.Heard

namespace Dialogue

variable {o o' o'' : Outlook} {p q r : Program α} {log more : List Exchange}

theorem trans (h : Dialogue j o p log o' q) (h' : Dialogue j o' q more o'' r) :
    Dialogue j o p (log ++ more) o'' r := by
  induction h with
  | refl o p => exact h'
  | call hk ho _ ih => exact .call hk ho (ih h')

/-- One more call. -/
theorem snoc {k : Cluster} {c : Call} {next : c.Answer → Program α}
    (h : Dialogue j o p log o' (.call c next)) (hk : k.Keyed) (ho : j.outlook k = o')
    (w : Surroundings) :
    Dialogue j o p (log ++ [⟨c, (k.serve w c).1⟩]) (j.outlook (k.serve w c).2)
      (next (k.serve w c).1) :=
  h.trans (.call hk ho (.refl _ _))

theorem reaches (h : Dialogue j o p log o' q) : p.Reaches log q := by
  induction h with
  | refl o p => exact .refl p
  | call _ _ _ ih => exact .call _ ih

/-- Every exchange is with a cluster of its own, which shows what was handed on. -/
theorem at_exchange {x : Exchange} (h : Dialogue j o p (log ++ x :: more) o' q) :
    ∃ (k : Cluster) (w : Surroundings) (next : x.1.Answer → Program α),
      k.Keyed ∧ x.2 = (k.serve w x.1).1 ∧
        Dialogue j (j.outlook (k.serve w x.1).2) (next x.2) more o' q := by
  generalize hsaid : log ++ x :: more = said at h
  induction h generalizing log with
  | refl o p => simp at hsaid
  | @call o o' k w c next rest q hk ho h ih =>
      cases log with
      | nil =>
          obtain ⟨rfl, rfl⟩ := List.cons.inj hsaid
          exact ⟨k, w, next, hk, rfl, h⟩
      | cons y log => exact ih (List.cons.inj hsaid).2

/-! ### What was read is still there -/

/-- What no call changes of an outlook is handed on. -/
theorem eq_of_keeps {β : Type} (f : Outlook → β) (h : Dialogue j o p log o' q)
    (hkeeps : ∀ x ∈ log, ∀ k w, f (j.outlook (k.serve w x.1).2) = f (j.outlook k)) :
    f o' = f o := by
  induction h with
  | refl o p => rfl
  | @call o o' k w c next log q hk ho h ih =>
      rw [ih fun x hx => hkeeps x (List.mem_cons_of_mem _ hx), ← ho]
      exact hkeeps _ List.mem_cons_self k w

/-- A node that was read is the one that the outlook shows until something is written. -/
theorem node_of_mem {a : Except Error (Option Node)} (h : Dialogue j o p log o' q)
    (hx : ⟨.getNode j.name, a⟩ ∈ log) (hread : ∀ x ∈ log, x.1.isWrite = false) :
    a = .ok o'.node := by
  obtain ⟨before, after, rfl⟩ := List.append_of_mem hx
  obtain ⟨k, w, next, -, ha, hafter⟩ := h.at_exchange
  have hkept : o'.node = k.node? j.name := by
    refine hafter.eq_of_keeps Outlook.node ?_
    intro x hx k w
    rw [k.serve_of_read (hread x (by simp [hx]))]
  rw [hkept]
  exact ha

/-- A request that was read has the key that it was asked for by, and is the one that the outlook
shows until a request is written. -/
theorem request_of_mem {x : Option Remediation} (h : Dialogue j o p log o' q)
    (hx : ⟨.getRemediation j.inNamespace j.name, .ok x⟩ ∈ log) :
    (∀ r, x = some r → r.key = j.key) ∧
      ((∀ y ∈ log, y.1.isWrite = false ∨ ∃ n, y.1 = .replaceNode n) → x = o'.request) := by
  obtain ⟨before, after, rfl⟩ := List.append_of_mem hx
  obtain ⟨k, w, next, hk, ha, hafter⟩ := h.at_exchange
  have hx' : x = k.remediation? j.inNamespace j.name := Except.ok.inj ha
  refine ⟨fun r hr => hk.request _ _ r (hx'.symm.trans hr), fun hread => ?_⟩
  rw [hx']
  refine (hafter.eq_of_keeps Outlook.request ?_).symm
  intro y hy k w
  rcases hread y (by simp [hy]) with hquiet | ⟨n, hn⟩
  · rw [k.serve_of_read hquiet]
  · rw [hn]
    exact k.remediation?_replaceNode w n

/-! ### The calls of a pass -/

variable {said : List Exchange} {result : Except Error Report}
  {rest : Program (Except Error Report)}

/-- Every call of a pass fits its outlook. -/
theorem fits {c : Call} {next : c.Answer → Program (Except Error Report)}
    (h : Dialogue j o j.program said o' (.call c next)) : j.Fits o' c := by
  have hheard := Pass.heard h.reaches
  have hkey : ∀ r, ⟨.getRemediation j.inNamespace j.name, .ok (some r)⟩ ∈ said → r.key = j.key :=
    fun r hr => (h.request_of_mem hr).1 r rfl
  cases c with
  | getRemediation inNamespace name =>
      obtain ⟨-, rfl, rfl⟩ := hheard
      rfl
  | replaceRemediation sent =>
      obtain ⟨r, hr, hedit⟩ := hheard.exists_request
      exact ⟨r, ((h.request_of_mem hr).2 hheard.isRead_of_replaceRemediation).symm, hedit⟩
  | patchStatus inNamespace name s =>
      rcases hheard.key_eq with heq | ⟨r, hr, heq⟩
      · exact heq
      · exact heq.trans (hkey r hr)
  | getNode name =>
      obtain ⟨r, hopen, ⟨-, rfl⟩ | ⟨-, rfl⟩⟩ := hheard
      · exact congrArg Prod.snd (hkey r hopen.mem)
      · rfl
  | replaceNode sent =>
      obtain ⟨r, n, node, hr, hnode, hread, -, hedit⟩ := hheard.exists_node
      obtain rfl : node = j.name := by
        rcases hnode with rfl | rfl
        · exact congrArg Prod.snd (hkey r hr)
        · rfl
      have hn := h.node_of_mem hread hheard.isWrite_eq_false_of_replaceNode
      exact ⟨n, (Except.ok.inj hn).symm, hedit⟩
  | _ => trivial

/-! ### Two dialogues -/

/-- Whether the agent answers as it does to a command in a pod. -/
def obeys (agent : Pod → List String → Except Error Output) : Exchange → Bool
  | ⟨.execute pod command, a⟩ => a = agent pod command
  | _ => true

/-- The agent always answers as it does to a command in a pod. -/
def Obeys (agent : Pod → List String → Except Error Output) (log : List Exchange) : Prop :=
  ∀ x ∈ log, obeys agent x = true

instance (agent : Pod → List String → Except Error Output) (log : List Exchange) :
    Decidable (Obeys agent log) :=
  inferInstanceAs (Decidable (∀ x ∈ log, obeys agent x = true))

/-- What an outlook that is the same up to versions and times leads to is the same up to versions
and times. -/
theorem determined {agent : Pod → List String → Except Error Output}
    {p p' : Program (Except Error Report)} (halike : p.Alike p')
    {s s' o o' e e' : Outlook} {said said' log log' : List Exchange}
    {a a' : Except Error Report} (hp : Dialogue j s j.program said o p)
    (hp' : Dialogue j s' j.program said' o' p') (ho : o.undated = o'.undated)
    (h : Dialogue j o p log e (.done a)) (h' : Dialogue j o' p' log' e' (.done a'))
    (hagent : Obeys agent log) (hagent' : Obeys agent log') :
    a = a' ∧ log.map Exchange.undated = log'.map Exchange.undated ∧ e.undated = e'.undated := by
  induction p generalizing p' o o' said said' log log' with
  | done b =>
      cases halike
      cases h
      cases h'
      exact ⟨rfl, rfl, ho⟩
  | call c next ih =>
      obtain ⟨c', next', rfl, hc, hnext⟩ := halike.exists_call
      cases h with
      | @call _ _ k w _ _ log _ hk hko h =>
          cases h' with
          | @call _ _ k' w' _ _ log' _ hk' hko' h' =>
              subst hko hko'
              have hexecute : ∀ pod command, c = .execute pod command → w.output = w'.output := by
                rintro pod command rfl
                obtain rfl := Call.eq_execute hc
                have hw : w.output = agent pod command := by
                  simpa [obeys] using hagent ⟨.execute pod command, w.output⟩ List.mem_cons_self
                have hw' : w'.output = agent pod command := by
                  simpa [obeys] using hagent' ⟨.execute pod command, w'.output⟩ List.mem_cons_self
                exact hw.trans hw'.symm
              obtain ⟨hx, hafter⟩ := Job.serve_alike hk hk' ho hc hp.fits hp'.fits hexecute
              have hrest := ih _ (hnext _ _ hx) (hp.snoc hk rfl w) (hp'.snoc hk' rfl w') hafter h h'
                (fun x hx => hagent x (List.mem_cons_of_mem _ hx))
                (fun x hx => hagent' x (List.mem_cons_of_mem _ hx))
              refine ⟨hrest.1, ?_, hrest.2.2⟩
              rw [List.map_cons, List.map_cons, hx, hrest.2.1]

end Dialogue

end NodeFencing
