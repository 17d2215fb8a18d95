/-
The agent is asked to run the words of a command, and nothing else.

The words of a command go into the query of a request, beside the pairs that choose the streams
and the container.  An encoded text has none of the signs that separate the parts of an address,
so the query of the request is the one that was written, and its pairs are read back in order.
What a server finds under each name is then what was asked for, whatever the words are.

An address has a greatest length; a command that needs more is not asked for at all.
-/
import Mathlib.Data.List.TakeWhile
import NodeFencing.Api.Request
import NodeFencing.Proofs.Text.Encoding

namespace NodeFencing

/-! ### What a query asks for -/

namespace Query

/-- The values under a name, in order. -/
def values (q : Query) (name : String) : List String :=
  (q.filter fun p => p.1 = name).map Prod.snd

@[simp] theorem values_append (q q' : Query) (name : String) :
    values (q ++ q') name = q.values name ++ q'.values name := by
  simp [values]

@[simp] theorem values_cons (p : String × String) (q : Query) (name : String) :
    values (p :: q) name = if p.1 = name then p.2 :: q.values name else q.values name := by
  by_cases h : p.1 = name <;> simp [values, h]

theorem values_map_of_eq (name : String) (l : List String) :
    values (l.map fun value => (name, value)) name = l := by
  induction l with
  | nil => rfl
  | cons value l ih => rw [List.map_cons, values_cons, if_pos rfl, ih]

theorem values_map_of_ne {name name' : String} (h : name' ≠ name) (l : List String) :
    values (l.map fun value => (name', value)) name = [] := by
  induction l with
  | nil => rfl
  | cons value l ih => rw [List.map_cons, values_cons, if_neg h, ih]

/-- The pairs of a query run a command: its output and its errors are wanted, it has no input and
no terminal, and nothing else is said than the container and the words. -/
structure Runs (q : Query) (container : Option String) (command : List String) : Prop where
  stdin : q.values "stdin" = []
  stdout : q.values "stdout" = ["true"]
  stderr : q.values "stderr" = ["true"]
  tty : q.values "tty" = []
  container : q.values "container" = container.toList
  command : q.values "command" = command
  name_mem : ∀ p ∈ q, p.1 ∈ ["stdout", "stderr", "container", "command"]

/-- A query runs one command, in one container. -/
theorem Runs.unique {q : Query} {container container' : Option String}
    {command command' : List String} (h : q.Runs container command)
    (h' : q.Runs container' command') : container = container' ∧ command = command' := by
  refine ⟨?_, h.command.symm.trans h'.command⟩
  have hlist : container.toList = container'.toList := h.container.symm.trans h'.container
  cases container <;> cases container' <;> simp_all

end Query

namespace Api

theorem Request.executeQuery_eq (container : Option String) (command : List String) :
    executeQuery container command =
      ("stdout", "true") :: ("stderr", "true") ::
        ((container.toList.map fun value => ("container", value)) ++
          command.map fun value => ("command", value)) := by
  cases container <;> rfl

theorem Request.runs_executeQuery (container : Option String) (command : List String) :
    (executeQuery container command).Runs container command := by
  rw [executeQuery_eq]
  constructor
  case name_mem => simp +contextual [or_imp, forall_and]
  all_goals simp [Query.values_map_of_eq, Query.values_map_of_ne]

/-! ### Addresses with a query -/

namespace Address

theorem isQueryChar_of_mem {q : Query} {c : Char} (h : c ∈ q.chars) :
    isQueryChar c = true ∧ c ≠ '#' := by
  have hbyte : ∀ b, (Form.encodeByte b).all (fun c => isQueryChar c && c != '#') = true :=
    Form.forall_byte (by decide +kernel)
  obtain ⟨p, -, hp⟩ := List.mem_flatMap.mp h
  rcases List.mem_cons.mp hp with rfl | hp
  · decide
  rcases Query.mem_piece hp with rfl | ⟨cs, hcs⟩
  · decide
  · simpa using Form.of_mem_encodeChars hbyte cs c hcs

/-- Where a path has no sign that cuts it short, the address is the path and the query. -/
theorem make_eq {path : String} (hpath : ∀ c ∈ path.toList, isPathChar c = true ∧ c ≠ '#' ∧ c ≠ '?')
    (q : Query) :
    make path (some q) =
      if maxBytes < (Utf8.encode (chars path (some q))).length then .error .addressTooLong
      else .ok ⟨path, some q.render⟩ := by
  have hcut : (path.toList ++ '?' :: q.chars).takeWhile (· != '#') =
      path.toList ++ '?' :: q.chars := by
    refine List.takeWhile_eq_self_iff.mpr ?_
    intro c hc
    rcases List.mem_append.mp hc with hc | hc
    · simpa using (hpath c hc).2.1
    rcases List.mem_cons.mp hc with rfl | hc
    · decide
    · simpa using (isQueryChar_of_mem hc).2
  have hstart : ∀ c ∈ path.toList, (c != '?') = true := fun c hc => by simpa using (hpath c hc).2.2
  have hall : path.toList.all isPathChar = true := List.all_eq_true.mpr fun c hc => (hpath c hc).1
  have hquery : q.chars.all isQueryChar = true :=
    List.all_eq_true.mpr fun c hc => (isQueryChar_of_mem hc).1
  have haddress : ofChars? (chars path (some q)) = some ⟨path, some q.render⟩ := by
    simp only [chars, ofChars?, hcut, List.takeWhile_append_of_pos hstart,
      List.dropWhile_append_of_pos hstart]
    simp [hall, hquery, Query.render]
  rw [make, haddress]

end Address

/-! ### Running a command in a pod -/

/-- Whether a text may be the name of an object: not empty, and of small letters, digits, hyphens
and full stops. -/
def IsName (s : String) : Prop :=
  s ≠ "" ∧ ∀ c ∈ s.toList, c.isLower = true ∨ c.isDigit = true ∨ c = '-' ∨ c = '.'

theorem isName_of_all {s : String} (hne : s ≠ "")
    (h : s.toList.all (fun c => c.isLower || c.isDigit || c == '-' || c == '.') = true) :
    IsName s := by
  refine ⟨hne, fun c hc => ?_⟩
  simpa [or_assoc] using List.all_eq_true.mp h c hc

namespace Request

/-- The path of the session in a pod. -/
def executePath (pod : Pod) : String :=
  "/api/v1/namespaces/" ++ pod.metadata.namespaceName ++ "/pods/" ++ pod.anyName ++ "/exec"

theorem isPathChar_of_isName {s : String} (h : IsName s) :
    ∀ c ∈ s.toList, Address.isPathChar c = true ∧ c ≠ '#' ∧ c ≠ '?' := by
  intro c hc
  rcases h.2 c hc with hlower | hdigit | rfl | rfl
  · have hbounds : (decide ('a' ≤ c) && decide (c ≤ 'z')) = true := hlower
    simp only [Bool.and_eq_true, decide_eq_true_eq] at hbounds
    have hnumber : 0x61 ≤ c.toNat ∧ c.toNat ≤ 0x7A := hbounds
    refine ⟨by simp [Address.isPathChar]; omega, ?_, ?_⟩ <;>
      (rintro rfl; exact absurd hnumber (by decide))
  · have hbounds : (decide ('0' ≤ c) && decide (c ≤ '9')) = true := hdigit
    simp only [Bool.and_eq_true, decide_eq_true_eq] at hbounds
    have hnumber : 0x30 ≤ c.toNat ∧ c.toNat ≤ 0x39 := hbounds
    refine ⟨by simp [Address.isPathChar]; omega, ?_, ?_⟩ <;>
      (rintro rfl; exact absurd hnumber (by decide))
  · decide
  · decide

theorem isPathChar_of_all {s : String}
    (h : s.toList.all (fun c => Address.isPathChar c && c != '#' && c != '?') = true) :
    ∀ c ∈ s.toList, Address.isPathChar c = true ∧ c ≠ '#' ∧ c ≠ '?' := by
  intro c hc
  simpa [and_assoc] using List.all_eq_true.mp h c hc

theorem isPathChar_executePath {pod : Pod} (hname : IsName pod.anyName)
    (hspace : IsName pod.metadata.namespaceName) :
    ∀ c ∈ (executePath pod).toList, Address.isPathChar c = true ∧ c ≠ '#' ∧ c ≠ '?' := by
  intro c hc
  unfold executePath at hc
  simp only [String.toList_append, List.mem_append] at hc
  obtain (((hc | hc) | hc) | hc) | hc := hc
  · exact isPathChar_of_all (by decide +kernel) c hc
  · exact isPathChar_of_isName hspace c hc
  · exact isPathChar_of_all (by decide +kernel) c hc
  · exact isPathChar_of_isName hname c hc
  · exact isPathChar_of_all (by decide +kernel) c hc

/-- The request that opens a session for a command. -/
def opening (container : Option String) (pod : Pod) (command : List String) : Request where
  address := ⟨executePath pod, some (executeQuery container command).render⟩
  upgrade := some "websocket"

theorem member_pods {pod : Pod} (h : IsName pod.anyName) :
    (Collection.pods.member (some pod.metadata.namespaceName) pod.anyName).map (· ++ "/exec") =
      .ok (executePath pod) := by
  unfold executePath
  rw [Collection.member, if_neg h.1]
  simp [Except.map, Collection.path, Collection.version, Collection.plural, String.append_assoc]

/-- Whether the address for a command is one that can be sent. -/
def Fits (container : Option String) (pod : Pod) (command : List String) : Prop :=
  (Utf8.encode (Address.chars (executePath pod) (some (executeQuery container command)))).length ≤
    Address.maxBytes

theorem make_executePath {pod : Pod} (hname : IsName pod.anyName)
    (hspace : IsName pod.metadata.namespaceName) (q : Query) :
    Address.make (executePath pod) (some q) =
      if Address.maxBytes < (Utf8.encode (Address.chars (executePath pod) (some q))).length then
        .error .addressTooLong
      else .ok ⟨executePath pod, some q.render⟩ :=
  Address.make_eq (isPathChar_executePath hname hspace) q

theorem execute_eq_bind {pod : Pod} (hname : IsName pod.anyName) (container : Option String)
    (command : List String) :
    execute container pod command =
      Address.make (executePath pod) (some (executeQuery container command)) >>= fun address =>
        .ok { address, upgrade := some "websocket" } := by
  have hpath := member_pods hname
  unfold execute
  cases hmember : Collection.pods.member (some pod.metadata.namespaceName) pod.anyName with
  | error e => rw [hmember] at hpath; cases hpath
  | ok path =>
      rw [hmember] at hpath
      have hexec : path ++ "/exec" = executePath pod := Except.ok.inj hpath
      rw [← hexec]
      rfl

theorem execute_of_fits {pod : Pod} (hname : IsName pod.anyName)
    (hspace : IsName pod.metadata.namespaceName) {container : Option String}
    {command : List String} (h : Fits container pod command) :
    execute container pod command = .ok (opening container pod command) := by
  rw [execute_eq_bind hname, make_executePath hname hspace, if_neg (Nat.not_lt.mpr h)]
  rfl

theorem execute_of_not_fits {pod : Pod} (hname : IsName pod.anyName)
    (hspace : IsName pod.metadata.namespaceName) {container : Option String}
    {command : List String} (h : ¬ Fits container pod command) :
    execute container pod command = .error .addressTooLong := by
  rw [execute_eq_bind hname, make_executePath hname hspace, if_pos (Nat.not_le.mp h)]
  rfl

theorem eq_opening_of_execute {pod : Pod} (hname : IsName pod.anyName)
    (hspace : IsName pod.metadata.namespaceName) {container : Option String}
    {command : List String} {r : Request} (h : execute container pod command = .ok r) :
    r = opening container pod command := by
  by_cases hfits : Fits container pod command
  · rw [execute_of_fits hname hspace hfits] at h
    exact (Except.ok.inj h).symm
  · rw [execute_of_not_fits hname hspace hfits] at h
    cases h

theorem parse_render_executeQuery (container : Option String) (command : List String) :
    Query.parse (executeQuery container command).render.toList =
      some (executeQuery container command) := by
  rw [Query.render, String.toList_ofList, Query.parse_chars]

/-- Requests that are alike run the same command in the same container. -/
theorem opening_inj {container container' : Option String} {pod pod' : Pod}
    {command command' : List String}
    (h : opening container pod command = opening container' pod' command') :
    container = container' ∧ command = command' := by
  have htext : (executeQuery container command).render =
      (executeQuery container' command').render :=
    Option.some.inj (congrArg (fun r => r.address.query) h)
  have hquery : some (executeQuery container command) =
      some (executeQuery container' command') := by
    rw [← parse_render_executeQuery, htext, parse_render_executeQuery]
  have hruns := runs_executeQuery container command
  rw [Option.some.inj hquery] at hruns
  exact hruns.unique (runs_executeQuery container' command')

/-- **The agent is asked for exactly the command.**  For a pod with a name and a namespace, and
for whatever container and words, the request goes to the session of that pod, and the pairs of
its query, read back, want the output and the errors and no input, name the container if there is
one, and give the words one by one in their order and nothing else; only a command whose address is
too long makes no request.  So requests that are alike are for the same words and container. -/
theorem execute_runs (pod : Pod) (hname : IsName pod.anyName)
    (hspace : IsName pod.metadata.namespaceName) (container : Option String)
    (command : List String) :
    (Fits container pod command →
      ∃ r text q, execute container pod command = .ok r ∧
        r.address = ⟨executePath pod, some text⟩ ∧ Query.parse text.toList = some q ∧
        q.Runs container command) ∧
    (¬ Fits container pod command → execute container pod command = .error .addressTooLong) ∧
    ∀ (pod' : Pod) (container' : Option String) (command' : List String) (r : Request),
      IsName pod'.anyName → IsName pod'.metadata.namespaceName →
      execute container pod command = .ok r → execute container' pod' command' = .ok r →
      container = container' ∧ command = command' := by
  refine ⟨fun h => ?_, execute_of_not_fits hname hspace, ?_⟩
  · exact ⟨opening container pod command, _, executeQuery container command,
      execute_of_fits hname hspace h, rfl, parse_render_executeQuery container command,
      runs_executeQuery container command⟩
  · intro pod' container' command' r hname' hspace' hr hr'
    have hopening := eq_opening_of_execute hname hspace hr
    have hopening' := eq_opening_of_execute hname' hspace' hr'
    exact opening_inj (hopening.symm.trans hopening')

/-- A pod of the agent. -/
def agentPod : Pod where
  metadata := { name := some "fence-agents-0", inNamespace := some "fencing" }

/-- Words with every sign that means something in an address. -/
def awkward : List String :=
  ["fence_ipmilan", "--password=a&command=rm", "50%+1 #?", "\"'\\", "stdin=true", "élan vital ☃",
    ""]

/-- Awkward words arrive as they are, in a container that is just as awkward. -/
theorem execute_runs_awkward :
    IsName agentPod.anyName ∧ IsName agentPod.metadata.namespaceName ∧
    ∃ r text q, execute (some "a&stdin=true") agentPod awkward = .ok r ∧
      r.address = ⟨"/api/v1/namespaces/fencing/pods/fence-agents-0/exec", some text⟩ ∧
      Query.parse text.toList = some q ∧ q.values "stdin" = [] ∧
      q.values "container" = ["a&stdin=true"] ∧ q.values "command" = awkward := by
  have hname : IsName agentPod.anyName := isName_of_all (by decide) (by decide +kernel)
  have hspace : IsName agentPod.metadata.namespaceName :=
    isName_of_all (by decide) (by decide +kernel)
  have hfits : Fits (some "a&stdin=true") agentPod awkward := by
    unfold Fits
    decide +kernel
  obtain ⟨r, text, q, hr, haddress, hq, hruns⟩ :=
    (execute_runs agentPod hname hspace (some "a&stdin=true") awkward).1 hfits
  exact ⟨hname, hspace, r, text, q, hr, haddress, hq, hruns.stdin, hruns.container, hruns.command⟩

end Request

end Api

end NodeFencing
