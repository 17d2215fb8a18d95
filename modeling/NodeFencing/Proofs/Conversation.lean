/-
What a program says and hears.

A program knows of the world only what its calls were answered.  So what can be said of
it, whoever answers, is said of its conversations: the lists of its calls with their
answers.  `Reaches` follows a conversation from one program to what is left of it,
`conversation` is the one that a state holds that answers calls, and `Every` is the
property of all calls that can come up, each with what was said and heard before it.

`Every` is computed by recursion over the program, so it is proved by a walk through the
program's text, one phase after the other; `Every.of_reaches` turns it into a statement
about conversations.
-/
import NodeFencing.Program

namespace NodeFencing

/-- A call and its answer. -/
abbrev Exchange := (c : Call) × c.Answer

/-- Whether the call runs a command. -/
def Call.isExecution : Call → Bool
  | .execute _ _ => true
  | _ => false

namespace Program

variable {α β σ : Type}

/-- What is left of a program after a conversation. -/
inductive Reaches : Program α → List Exchange → Program α → Prop
  | refl (p : Program α) : Reaches p [] p
  | call {c : Call} {next : c.Answer → Program α} {log : List Exchange} {q : Program α}
      (a : c.Answer) (h : Reaches (next a) log q) : Reaches (.call c next) (⟨c, a⟩ :: log) q

theorem Reaches.trans {p q r : Program α} {log more : List Exchange} (h : Reaches p log q)
    (h' : Reaches q more r) : Reaches p (log ++ more) r := by
  induction h with
  | refl p => exact h'
  | call a _ ih => exact .call a (ih h')

/-- A conversation can be cut anywhere. -/
theorem Reaches.split {p r : Program α} {log more : List Exchange}
    (h : Reaches p (log ++ more) r) : ∃ q, Reaches p log q ∧ Reaches q more r := by
  induction log generalizing p with
  | nil => exact ⟨p, .refl p, h⟩
  | cons x log ih =>
      cases h with
      | call a h =>
          obtain ⟨q, hq, hr⟩ := ih h
          exact ⟨q, .call a hq, hr⟩

/-- Before an exchange the program is at its call, and after it at what the answer leads to. -/
theorem Reaches.at_exchange {p r : Program α} {log more : List Exchange} {x : Exchange}
    (h : Reaches p (log ++ x :: more) r) :
    ∃ next, Reaches p log (.call x.1 next) ∧ Reaches (next x.2) more r := by
  obtain ⟨q, hq, hr⟩ := h.split
  cases hr with
  | call a hr => exact ⟨_, hq, hr⟩

/-- A program that comes to its end makes the call that it is at. -/
theorem Reaches.exists_answer {c : Call} {next : c.Answer → Program α} {log : List Exchange}
    {a : α} (h : Reaches (.call c next) log (.done a)) :
    ∃ answer rest, log = ⟨c, answer⟩ :: rest ∧ Reaches (next answer) rest (.done a) := by
  cases h with
  | call answer h => exact ⟨answer, _, rfl, h⟩

/-! ### The conversation with a state -/

/-- What a program says and hears when a state answers. -/
def conversation (serve : (c : Call) → σ → c.Answer × σ) : Program α → σ → List Exchange
  | .done _, _ => []
  | .call c next, s =>
    ⟨c, (serve c s).1⟩ :: conversation serve (next (serve c s).1) (serve c s).2

/-- The conversation with a state leads to the end of the program. -/
theorem reaches_conversation (serve : (c : Call) → σ → c.Answer × σ) (p : Program α) (s : σ) :
    p.Reaches (p.conversation serve s) (.done (p.run serve s).1) := by
  induction p generalizing s with
  | done a => exact .refl _
  | call c next ih => exact .call _ (ih _ _)

/-- What two programs in a row say and hear. -/
theorem conversation_bind (serve : (c : Call) → σ → c.Answer × σ) (p : Program α)
    (k : α → Program β) (s : σ) :
    (p.bind k).conversation serve s =
      p.conversation serve s ++ (k (p.run serve s).1).conversation serve (p.run serve s).2 := by
  induction p generalizing s with
  | done a => rfl
  | call c next ih => exact congrArg (_ :: ·) (ih (serve c s).1 (serve c s).2)

/-- What a state keeps when it answers holds of the state that gives any of the answers. -/
theorem exists_state_of_mem {serve : (c : Call) → σ → c.Answer × σ} {I : σ → Prop}
    (hI : ∀ c s, I s → I (serve c s).2) {p : Program α} {s : σ} (hs : I s) {x : Exchange}
    (hx : x ∈ p.conversation serve s) : ∃ s', I s' ∧ x.2 = (serve x.1 s').1 := by
  induction p generalizing s with
  | done a => cases hx
  | call c next ih =>
      rcases List.mem_cons.mp hx with rfl | hx
      · exact ⟨s, hs, rfl⟩
      · exact ih (serve c s).1 (hI c s hs) hx

/-! ### Every call that can come up -/

/-- Every call of a program, after what was said and heard before, has a property. -/
def Every (P : List Exchange → (c : Call) → (c.Answer → Program α) → Prop) :
    List Exchange → Program α → Prop
  | _, .done _ => True
  | log, .call c next => P log c next ∧ ∀ a, Every P (log ++ [⟨c, a⟩]) (next a)

variable {P : List Exchange → (c : Call) → (c.Answer → Program α) → Prop}

/-- A property of all calls follows from one that says more of them, after what was said before. -/
theorem Every.imp {P' : List Exchange → (c : Call) → (c.Answer → Program α) → Prop}
    {p : Program α} {log : List Exchange} (h : p.Every P log)
    (himp : ∀ more c next, P (log ++ more) c next → P' (log ++ more) c next) :
    p.Every P' log := by
  induction p generalizing log with
  | done a => exact trivial
  | call c next ih =>
      refine ⟨?_, ?_⟩
      · simpa using himp [] c next (by simpa using h.1)
      · intro a
        refine ih a (h.2 a) ?_
        intro more c' next' hP
        rw [List.append_assoc] at hP ⊢
        exact himp _ c' next' hP

theorem Every.of_forall (p : Program α) (log : List Exchange) (h : ∀ log c next, P log c next) :
    p.Every P log := by
  induction p generalizing log with
  | done a => exact trivial
  | call c next ih => exact ⟨h log c next, fun a => ih a _⟩

theorem Every.of_reaches {p q : Program α} {log more : List Exchange} (h : p.Every P log)
    (hq : p.Reaches more q) : q.Every P (log ++ more) := by
  induction hq generalizing log with
  | refl p => simpa using h
  | call a _ ih => simpa using ih (h.2 a)

/-! ### Every end that can come up -/

/-- Whatever a program ends with, after what was said and heard, has a property. -/
def Finally (P : List Exchange → α → Prop) : List Exchange → Program α → Prop
  | log, .done a => P log a
  | log, .call c next => ∀ a, Finally P (log ++ [⟨c, a⟩]) (next a)

variable {F : List Exchange → β → Prop}

theorem Finally.bind {p : Program α} {k : α → Program β} {log : List Exchange}
    (h : p.Finally (fun log a => (k a).Finally F log) log) : (p.bind k).Finally F log := by
  induction p generalizing log with
  | done a => exact h
  | call c next ih => exact fun a => ih a (h a)

theorem Finally.of_forall (p : Program β) (log : List Exchange) (h : ∀ log b, F log b) :
    p.Finally F log := by
  induction p generalizing log with
  | done b => exact h log b
  | call c next ih => exact fun a => ih a _

theorem Finally.imp {p : Program β} {log : List Exchange} {F' : List Exchange → β → Prop}
    (h : p.Finally F log) (himp : ∀ log b, F log b → F' log b) : p.Finally F' log := by
  induction p generalizing log with
  | done b => exact himp log b h
  | call c next ih => exact fun a => ih a (h a)

theorem Finally.of_reaches {p : Program β} {b : β} {log more : List Exchange}
    (h : p.Finally F log) (hb : p.Reaches more (.done b)) : F (log ++ more) b := by
  induction p generalizing log more with
  | done b' =>
      cases hb
      rw [List.append_nil]
      exact h
  | call c next ih =>
      obtain ⟨a, rest, rfl, hrest⟩ := hb.exists_answer
      simpa using ih a (h a) hrest

theorem Finally.of_forall_reaches {p : Program β} {log : List Exchange}
    (h : ∀ more b, p.Reaches more (.done b) → F (log ++ more) b) : p.Finally F log := by
  induction p generalizing log with
  | done b => simpa [Finally] using h [] b (.refl _)
  | call c next ih =>
      intro a
      apply ih a
      intro more b hb
      simpa using h (⟨c, a⟩ :: more) b (.call a hb)

end Program

end NodeFencing
