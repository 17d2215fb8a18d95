/-
What decides about a setting.

A setting has three sources: its flag, its variable, and a default.  Here the flags stand each in
one word, with the value after an equals sign or, where there is none to give, bare; no flag comes
twice, and every value that counts can be read.  Then the words are read one by one into the texts
that flags were given, and the one thing to know of these afterwards is which text each flag has:
`Holds` says so, by membership, so that the order of the words drops out.

The settings look at the flags through `chosen` alone, so whatever leaves that function as it is
leaves the settings as they are.  `parse_words` has what they come to, field by field.
-/
import Mathlib.Data.List.TakeWhile
import NodeFencing.Settings.CommandLine

namespace NodeFencing.CommandLine

/-- A flag in one word, with a value that can be read; a flag without a value says `true`. -/
structure Argument where
  flag : Flag
  value : String
  readable : flag.check value = .ok ()
  bare : flag.takesValue = false → value = "true"

/-- The word of a command line that gives the flag. -/
def Argument.word (a : Argument) : String :=
  if a.flag.takesValue then "--" ++ a.flag.name ++ "=" ++ a.value else "--" ++ a.flag.name

/-- The flags that are given. -/
def flagsOf (arguments : List Argument) : List Flag := arguments.map Argument.flag

theorem not_mem_flagsOf {arguments : List Argument} {f : Flag}
    (h : arguments.find? (·.flag == f) = none) : f ∉ flagsOf arguments := by
  intro hmem
  obtain ⟨a, ha, rfl⟩ := List.mem_map.mp hmem
  simpa using List.find?_eq_none.mp h a ha

/-- The text that decides about a setting: of its flag if that is given, or else of its variable. -/
def deciding (arguments : List Argument) (environment : Environment) (f : Flag) : Option String :=
  match arguments.find? (·.flag == f) with
  | some a => some a.value
  | none => environment.get? f.environmentName

/-- A number that a text stands for, or a default where there is no text. -/
def Amounts (read : String → Option Nat) (text? : Option String) (default n : Nat) : Prop :=
  match text? with
  | some text => read text = some n
  | none => n = default

/-- Settings each of which is decided by its own text alone, or its default. -/
structure Decided (text : Flag → Option String) (s : Settings) : Prop where
  watchNamespace : s.watchNamespace = (text .watchNamespace).filter (· != "")
  agentPodNamespace : s.agentPodNamespace = (text .agentPodNamespace).getD "default"
  agentPodSelector : s.agentPodSelector =
    (text .agentPodSelector).getD "app=fence-agents-remediation-operator"
  agentContainer : s.agentContainer = (text .agentContainer).filter (· != "")
  fenceAgentTimeout : ∃ seconds, s.fenceAgentTimeout = seconds * 1000 ∧
    Amounts seconds? (text .fenceAgentTimeoutSecs) 60 seconds
  healthPort : Amounts port? (text .healthPort) 8081 s.healthPort
  leaderElect : s.leaderElect = true ↔ text .leaderElect = some "true"
  leaseName : s.leaseName = (text .leaseName).getD "fence-agents-remediation-leader"
  leaseTtl : s.leaseTtl = 15000
  leaseRenewInterval : s.leaseRenewInterval = 5000

/-! ### Words -/

theorem Flag.ofName?_name (f : Flag) : ofName? f.name = some f := by
  cases f <;> decide

theorem Flag.name_ne (f : Flag) : ¬ (f.name = "help" ∨ f.name = "version") := by
  cases f <;> decide

/-- The name of a flag does not end early, neither at once nor at an equals sign. -/
theorem Flag.name_toList (f : Flag) :
    f.name.toList ≠ [] ∧ ∀ c ∈ f.name.toList, (c != '=') = true := by
  have hall : f.name.toList.all (· != '=') = true := by cases f <;> decide
  exact ⟨by cases f <;> decide, List.all_eq_true.mp hall⟩

/-- A word of two dashes and a name is a flag without a value. -/
theorem Word.ofText_bare {name : String} (hne : name.toList ≠ [])
    (hname : ∀ c ∈ name.toList, (c != '=') = true) :
    ofText ("--" ++ name) = .long name none := by
  obtain ⟨c, cs, hcs⟩ := List.exists_cons_of_ne_nil hne
  have htake : (c :: cs).takeWhile (· != '=') = c :: cs :=
    List.takeWhile_eq_self_iff.mpr (hcs ▸ hname)
  have hdrop : (c :: cs).dropWhile (· != '=') = [] :=
    List.dropWhile_eq_nil_iff.mpr (hcs ▸ hname)
  have hword : ("--" ++ name).toList = '-' :: '-' :: c :: cs := by
    rw [String.toList_append, hcs]
    rfl
  simp only [ofText, hword, htake, hdrop]
  rw [← hcs, String.ofList_toList]

/-- What stands after the first equals sign is the value of the flag. -/
theorem Word.ofText_valued {name : String} (hne : name.toList ≠ [])
    (hname : ∀ c ∈ name.toList, (c != '=') = true) (value : String) :
    ofText ("--" ++ name ++ "=" ++ value) = .long name (some value) := by
  obtain ⟨c, cs, hcs⟩ := List.exists_cons_of_ne_nil hne
  have hall : ∀ d ∈ c :: cs, (d != '=') = true := hcs ▸ hname
  have htake : (c :: cs ++ '=' :: value.toList).takeWhile (· != '=') = c :: cs := by
    rw [List.takeWhile_append_of_pos hall]
    simp
  have hdrop : (c :: cs ++ '=' :: value.toList).dropWhile (· != '=') = '=' :: value.toList := by
    rw [List.dropWhile_append_of_pos hall]
    simp
  have hword : ("--" ++ name ++ "=" ++ value).toList =
      '-' :: '-' :: (c :: cs ++ '=' :: value.toList) := by
    simp only [String.toList_append, hcs, List.append_assoc]
    rfl
  rw [List.cons_append] at htake hdrop hword
  simp only [ofText, hword, htake, hdrop]
  rw [← hcs, String.ofList_toList, String.ofList_toList]

theorem Argument.ofText_word (a : Argument) :
    Word.ofText a.word =
      .long a.flag.name (if a.flag.takesValue then some a.value else none) := by
  obtain ⟨hne, hname⟩ := a.flag.name_toList
  unfold word
  by_cases h : a.flag.takesValue = true
  · rw [if_pos h, if_pos h, Word.ofText_valued hne hname]
  · rw [if_neg h, if_neg h, Word.ofText_bare hne hname]

theorem settle_of_new {given : Given} (a : Argument) (hnew : given.contains a.flag = false) :
    settle given a.flag (some a.value) = .ok (given.insert a.flag a.value) := by
  rw [settle, hnew, a.readable]
  rfl

/-- A flag that was not given before is settled at once. -/
theorem State.word_argument {given : Given} (a : Argument)
    (hnew : given.contains a.flag = false) :
    State.word ⟨given, none⟩ (Word.ofText a.word) =
      .ok ⟨given.insert a.flag a.value, none⟩ := by
  have hsettle := settle_of_new a hnew
  rw [a.ofText_word, State.word, State.long, if_neg a.flag.name_ne, a.flag.ofName?_name]
  by_cases h : a.flag.takesValue = true
  · simp only [h, if_true, State.settled, bind, Except.bind, hsettle]
    rfl
  · rw [a.bare (Bool.eq_false_iff.mpr h)] at hsettle ⊢
    simp only [h, if_false, Option.isSome_none, Bool.false_eq_true, State.settled, bind,
      Except.bind, hsettle]
    rfl

/-- Whether the flags have just the texts that arguments give them. -/
structure Holds (given : Given) (arguments : List Argument) : Prop where
  get?_of_mem : ∀ a ∈ arguments, given.get? a.flag = some a.value
  get?_of_not_mem : ∀ f, f ∉ flagsOf arguments → given.get? f = none

theorem Holds.insert {given : Given} {arguments : List Argument} (h : Holds given arguments)
    {a : Argument} (hnew : a.flag ∉ flagsOf arguments) :
    Holds (given.insert a.flag a.value) (arguments ++ [a]) where
  get?_of_mem b hb := by
    rw [Ordered.get?_insert]
    rcases List.mem_append.mp hb with hb | hb
    · have hne : a.flag ≠ b.flag := fun e => hnew (e ▸ List.mem_map_of_mem hb)
      rw [if_neg hne, h.get?_of_mem b hb]
    · rw [List.mem_singleton.mp hb, if_pos rfl]
  get?_of_not_mem f hf := by
    rw [flagsOf, List.map_append, List.mem_append, not_or] at hf
    have hne : a.flag ≠ f := fun e => hf.2 (e ▸ List.mem_singleton_self a.flag)
    rw [Ordered.get?_insert, if_neg hne, h.get?_of_not_mem f hf.1]

/-- Words with distinct flags add just what they give. -/
theorem State.exists_words {given : Given} {before arguments : List Argument}
    (h : Holds given before) (hdistinct : (flagsOf (before ++ arguments)).Nodup) :
    ∃ given', State.words ⟨given, none⟩ ((arguments.map Argument.word).map Word.ofText) =
        .ok ⟨given', none⟩ ∧ Holds given' (before ++ arguments) := by
  induction arguments generalizing given before with
  | nil => exact ⟨given, rfl, by rwa [List.append_nil]⟩
  | cons a arguments ih =>
      have hmore : before ++ a :: arguments = before ++ [a] ++ arguments := by simp
      rw [hmore] at hdistinct ⊢
      have hnew : a.flag ∉ flagsOf before := by
        rw [flagsOf, List.map_append, List.map_append] at hdistinct
        have hpair := List.nodup_append.mp (List.nodup_append.mp hdistinct).1
        exact fun hmem => hpair.2.2 a.flag hmem a.flag (List.mem_singleton_self _) rfl
      have hcontains : given.contains a.flag = false := by
        rw [Ordered.contains, h.get?_of_not_mem a.flag hnew]
        rfl
      obtain ⟨given', hwords, hgiven'⟩ := ih (h.insert hnew) hdistinct
      refine ⟨given', ?_, hgiven'⟩
      have hword := State.word_argument a hcontains
      rw [a.ofText_word] at hword
      rw [List.map_cons, List.map_cons, a.ofText_word, State.words, hword]
      · exact hwords
      · nofun

theorem exists_given {arguments : List Argument} (hdistinct : (flagsOf arguments).Nodup) :
    ∃ g, given (arguments.map Argument.word) = .ok g ∧ Holds g arguments := by
  have hstart : Holds .empty [] := ⟨nofun, fun f _ => Ordered.get?_empty f⟩
  obtain ⟨g, hwords, hg⟩ := State.exists_words hstart hdistinct
  refine ⟨g, ?_, hg⟩
  have hstate : State.words {} ((arguments.map Argument.word).map Word.ofText) =
      .ok ⟨g, none⟩ := hwords
  rw [given, hstate]
  rfl

/-! ### Settings -/

theorem Holds.chosen_eq {g : Given} {arguments : List Argument} (h : Holds g arguments)
    (environment : Environment) : chosen g environment = deciding arguments environment := by
  funext f
  unfold chosen deciding
  cases hfind : arguments.find? (·.flag == f) with
  | some a =>
      have hflag : a.flag = f := by simpa using List.find?_some hfind
      rw [← hflag, h.get?_of_mem a (List.mem_of_find?_eq_some hfind)]
      rfl
  | none =>
      rw [h.get?_of_not_mem f (not_mem_flagsOf hfind)]
      rfl

theorem Holds.perm {g : Given} {arguments arguments' : List Argument}
    (h : Holds g arguments) (hperm : arguments'.Perm arguments) : Holds g arguments' where
  get?_of_mem a ha := h.get?_of_mem a (hperm.mem_iff.mp ha)
  get?_of_not_mem f hf :=
    h.get?_of_not_mem f fun hmem => hf ((hperm.map Argument.flag).mem_iff.mpr hmem)

/-- Of a text that can be read the number is there. -/
theorem amounts_getD {read : String → Option Nat} {text? : Option String} (default : Nat)
    (h : ∀ text ∈ text?, (read text).isSome) :
    Amounts read text? default ((text?.bind read).getD default) := by
  cases text? with
  | none => rfl
  | some text =>
      obtain ⟨n, hn⟩ := Option.isSome_iff_exists.mp (h text rfl)
      show read text = some ((read text).getD default)
      rw [hn]
      rfl

/-- Settings are decided field by field, if every text can be read. -/
theorem decided_settings {g : Given} {environment : Environment}
    (h : ∀ f, ∀ text ∈ chosen g environment f, f.check text = .ok ()) :
    Decided (chosen g environment) (settings g environment) where
  watchNamespace := rfl
  agentPodNamespace := rfl
  agentPodSelector := rfl
  agentContainer := rfl
  leaseName := rfl
  leaseTtl := rfl
  leaseRenewInterval := rfl
  fenceAgentTimeout := by
    have hread : ∀ text ∈ chosen g environment .fenceAgentTimeoutSecs,
        (seconds? text).isSome := by
      intro text htext
      have hcheck := h .fenceAgentTimeoutSecs text htext
      simp only [Flag.check] at hcheck
      split at hcheck
      · assumption
      · cases hcheck
    exact ⟨_, Option.getD_map (· * 1000) 60 _, amounts_getD 60 hread⟩
  healthPort := by
    refine amounts_getD 8081 fun text htext => ?_
    have hcheck := h .healthPort text htext
    simp only [Flag.check] at hcheck
    split at hcheck
    · assumption
    · cases hcheck
  leaderElect := by
    show ((chosen g environment .leaderElect).bind truth?).getD false = true ↔ _
    cases htext : chosen g environment .leaderElect with
    | none => simp
    | some text =>
        rw [Option.bind_some, Option.some.injEq, truth?]
        by_cases htrue : text = "true"
        · simp [htrue]
        · by_cases hfalse : text = "false" <;> simp [htrue, hfalse]

/-- The settings are checked in a fixed order, and what is wrong first is told. -/
theorem validate_eq {s : Settings} (hrenewal : s.leaseRenewInterval < s.leaseTtl) :
    s.validate =
      if s.agentPodNamespace = "" then .error (.settings "agent pod namespace must not be empty")
      else if '=' ∉ s.agentPodSelector.toList then
        .error (.settings ("agent pod selector must be of the form key=value, got `" ++
          s.agentPodSelector ++ "`"))
      else if s.fenceAgentTimeout = 0 then
        .error (.settings "fence agent timeout must be greater than zero")
      else .ok () := by
  have hontime : ¬ (s.leaderElect = true ∧ s.leaseTtl ≤ s.leaseRenewInterval) := by omega
  unfold Settings.validate Settings.defect?
  by_cases hspace : s.agentPodNamespace = ""
  · rw [if_pos hspace, if_pos hspace]
    rfl
  rw [if_neg hspace, if_neg hspace]
  by_cases hselector : '=' ∈ s.agentPodSelector.toList
  · have hcontains : ¬ (!s.agentPodSelector.toList.contains '=') = true := by simpa using hselector
    rw [if_neg hcontains, if_neg (not_not_intro hselector)]
    by_cases htimeout : s.fenceAgentTimeout = 0
    · rw [if_pos htimeout, if_pos htimeout]
      rfl
    · rw [if_neg htimeout, if_neg htimeout, if_neg hontime]
  · have hcontains : (!s.agentPodSelector.toList.contains '=') = true := by simpa using hselector
    rw [if_pos hcontains, if_pos hselector]
    rfl

/-! ### The command line as a whole -/

/-- Whether the variables that stand in for flags that are not given can be read. -/
def Readable (arguments : List Argument) (environment : Environment) : Prop :=
  ∀ f, f ∉ flagsOf arguments → ∀ text ∈ environment.get? f.environmentName, f.check text = .ok ()

theorem Holds.check_chosen {g : Given} {arguments : List Argument} (h : Holds g arguments)
    {environment : Environment} (hreadable : Readable arguments environment) (f : Flag) :
    ∀ text ∈ chosen g environment f, f.check text = .ok () := by
  intro text htext
  by_cases hf : f ∈ flagsOf arguments
  · obtain ⟨a, ha, rfl⟩ := List.mem_map.mp hf
    rw [chosen, h.get?_of_mem a ha] at htext
    obtain rfl : a.value = text := Option.some.inj htext
    exact a.readable
  · rw [chosen, h.get?_of_not_mem f hf] at htext
    exact hreadable f hf text htext

/-- Variables that can be read, where they count, are not complained about. -/
theorem Holds.checkVariables {g : Given} {arguments : List Argument} (h : Holds g arguments)
    {environment : Environment} (hreadable : Readable arguments environment) :
    ∀ flags : List Flag, flags.forM (checkVariable g environment) = .ok ()
  | [] => rfl
  | f :: flags => by
      have hf : checkVariable g environment f = .ok () := by
        unfold checkVariable
        by_cases hmem : g.contains f = true
        · rw [if_pos hmem]
        · rw [if_neg hmem]
          cases htext : environment.get? f.environmentName with
          | none => rfl
          | some text =>
              refine h.check_chosen hreadable f text ?_
              have hnone : g.get? f = none := by simpa [Ordered.contains] using hmem
              rw [chosen, hnone, htext]
              rfl
      show (checkVariable g environment f >>= fun _ =>
        flags.forM (checkVariable g environment)) = .ok ()
      rw [hf]
      exact h.checkVariables hreadable flags

/-- Settings that pass the check are the answer, and what the check has to say is if they fail. -/
theorem Holds.parse_eq {words : List String} {g : Given} {arguments : List Argument}
    (h : Holds g arguments) (hg : given words = .ok g) {environment : Environment}
    (hreadable : Readable arguments environment) :
    parse words environment =
      (settings g environment).validate.mapError .error >>= fun _ =>
        .ok (settings g environment) := by
  rw [parse, hg]
  show ((Flag.all.forM (checkVariable g environment)).mapError Rejection.usage >>= fun _ => _) = _
  rw [h.checkVariables hreadable]
  rfl

theorem validate_of_parse {words : List String} {environment : Environment} {s : Settings}
    (h : parse words environment = .ok s) : s.validate = .ok () := by
  unfold parse at h
  simp only [bind, Except.bind, pure, Except.pure] at h
  split at h
  · cases h
  · split at h
    · cases h
    · split at h
      · cases h
      · next u hu =>
          cases h
          cases hv : Settings.validate _ with
          | error e => rw [hv] at hu; cases hu
          | ok _ => rfl

/-- The flags and variables that count leave the same settings, whatever the order of the flags
and whatever the other variables are. -/
theorem settings_congr {g g' : Given} {environment environment' : Environment}
    (h : chosen g environment = chosen g' environment') :
    settings g environment = settings g' environment' := by
  unfold settings
  rw [h]

theorem deciding_congr {arguments : List Argument} {environment environment' : Environment}
    (h : ∀ f, f ∉ flagsOf arguments →
      environment'.get? f.environmentName = environment.get? f.environmentName) :
    deciding arguments environment' = deciding arguments environment := by
  funext f
  unfold deciding
  split
  · rfl
  · next hfind => exact h f (not_mem_flagsOf hfind)

/-- **Every setting is decided by its flag, else by its variable, else by its default.**  Let the
words give distinct flags, with values that can be read, and let the variables of the other flags
be such too.  Then each setting is what its own text makes of it, an empty namespace or container
being none; the settings are the answer if the pods have a namespace, the selector an equals sign
and the agent time to run, and otherwise the first of these that fails is told.  Neither the order
of the words nor the variable of a flag that is given matters.  And whatever the words and the
variables are, settings that are answered pass their check. -/
theorem parse_words (arguments : List Argument) (environment : Environment)
    (hdistinct : (flagsOf arguments).Nodup) (hreadable : Readable arguments environment) :
    (∃ s, Decided (deciding arguments environment) s ∧
      parse (arguments.map Argument.word) environment =
        if s.agentPodNamespace = "" then
          .error (.error (.settings "agent pod namespace must not be empty"))
        else if '=' ∉ s.agentPodSelector.toList then
          .error (.error (.settings ("agent pod selector must be of the form key=value, got `" ++
            s.agentPodSelector ++ "`")))
        else if s.fenceAgentTimeout = 0 then
          .error (.error (.settings "fence agent timeout must be greater than zero"))
        else .ok s) ∧
    (∀ (arguments' : List Argument) (environment' : Environment), arguments'.Perm arguments →
      (∀ f, f ∉ flagsOf arguments →
        environment'.get? f.environmentName = environment.get? f.environmentName) →
      parse (arguments'.map Argument.word) environment' =
        parse (arguments.map Argument.word) environment) ∧
    ∀ words settled s, parse words settled = .ok s → s.validate = .ok () := by
  obtain ⟨g, hg, hholds⟩ := exists_given hdistinct
  have hparse := hholds.parse_eq hg hreadable
  refine ⟨⟨settings g environment, ?_, ?_⟩, ?_, fun words settled s => validate_of_parse⟩
  · exact hholds.chosen_eq environment ▸ decided_settings (hholds.check_chosen hreadable)
  · rw [hparse, validate_eq (by decide : 5000 < 15000)]
    split
    · rfl
    split
    · rfl
    split
    · rfl
    · rfl
  · intro arguments' environment' hperm hsame
    have hdistinct' : (flagsOf arguments').Nodup :=
      (hperm.map Argument.flag).nodup_iff.mpr hdistinct
    have hmem : ∀ f, f ∉ flagsOf arguments' ↔ f ∉ flagsOf arguments := fun f =>
      not_congr (hperm.map Argument.flag).mem_iff
    have hreadable' : Readable arguments' environment' := by
      intro f hf text htext
      rw [hsame f ((hmem f).mp hf)] at htext
      exact hreadable f ((hmem f).mp hf) text htext
    obtain ⟨g', hg', hholds'⟩ := exists_given hdistinct'
    have hchosen : chosen g' environment' = chosen g environment := by
      rw [(hholds'.perm hperm.symm).chosen_eq environment', hholds.chosen_eq environment]
      exact deciding_congr hsame
    rw [hparse, hholds'.parse_eq hg' hreadable', settings_congr hchosen]

/-- Three flags: one without a value, one with a number, one with nothing after the equals sign. -/
def Argument.three : List Argument :=
  [⟨.leaderElect, "true", rfl, fun _ => rfl⟩,
    ⟨.fenceAgentTimeoutSecs, "+90", by decide, nofun⟩,
    ⟨.agentContainer, "", rfl, nofun⟩]

/-- Variables of which one stands in and the other two are overruled, the last being no number. -/
def Environment.overruled : Environment :=
  Ordered.ofList [("WATCH_NAMESPACE", "far"), ("LEADER_ELECT", "false"),
    ("FENCE_AGENT_TIMEOUT_SECONDS", "soon")]

/-- Flags overrule their variables in either order, and with or without them. -/
theorem parse_words_overruled :
    (flagsOf Argument.three).Nodup ∧ Readable Argument.three Environment.overruled ∧
    ∃ s, parse ["--leader-elect", "--fence-agent-timeout-secs=+90", "--agent-container="]
        Environment.overruled = .ok s ∧
      parse ["--agent-container=", "--fence-agent-timeout-secs=+90", "--leader-elect"]
        (Ordered.ofList [("WATCH_NAMESPACE", "far")]) = .ok s ∧
      s.watchNamespace = some "far" ∧ s.agentContainer = none ∧ s.leaderElect = true ∧
      s.fenceAgentTimeout = 90000 := by
  have hdistinct : (flagsOf Argument.three).Nodup := by decide
  have hreadable : Readable Argument.three Environment.overruled := by
    intro f hf text htext
    cases f <;> first
      | rfl
      | exact absurd (by decide) hf
      | exact nomatch htext
  obtain ⟨⟨s, hs, hparse⟩, hsame, -⟩ := parse_words Argument.three Environment.overruled
    hdistinct hreadable
  have hspace : s.agentPodNamespace = "default" := hs.agentPodNamespace
  have hselector : s.agentPodSelector = "app=fence-agents-remediation-operator" :=
    hs.agentPodSelector
  have htimeout : s.fenceAgentTimeout = 90000 := by
    obtain ⟨seconds, hseconds, hread⟩ := hs.fenceAgentTimeout
    have hninety : seconds? "+90" = some seconds := hread
    obtain rfl : 90 = seconds := Option.some.inj hninety
    exact hseconds
  rw [hspace, hselector, htimeout, if_neg (by decide), if_neg (by decide),
    if_neg (by decide)] at hparse
  refine ⟨hdistinct, hreadable, s, hparse, ?_, hs.watchNamespace, hs.agentContainer,
    hs.leaderElect.mpr rfl, htimeout⟩
  refine (hsame Argument.three.reverse _ (List.reverse_perm _) ?_).trans hparse
  intro f hf
  cases f <;> first
    | rfl
    | exact absurd (by decide) hf

end NodeFencing.CommandLine
