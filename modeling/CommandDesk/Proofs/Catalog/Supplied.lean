import CommandDesk.Cli.Signals
import CommandDesk.Proofs.Catalog
import CommandDesk.Proofs.Config.Stages
import CommandDesk.Proofs.Session.Line

/-!
# Parameters that are given

A command is given parameters on a typed line and by the options of a call. Both keep a
parameter under a key with underscores for its hyphens, and nothing is kept under any
other key (`contains_ofLine_iff`, `contains_commandOf_iff`). The catalog looks for a
required parameter in the spelling of its entry. So one without a hyphen is found when it
is given, and one with a hyphen is missing all the same (`mem_missingParams_iff_of_given`).
-/

namespace CommandDesk

/-! ## Typed lines -/

namespace Command

variable {c d : Command} {line key p typed w : String} {ws : List String}

/-- A parameter is kept in its own spelling exactly if that has no hyphen. -/
theorem keyOf_eq_self_iff : keyOf p = p ↔ '-' ∉ p.toList := by
  refine ⟨fun h => ?_, Text.replaceChar_eq_self⟩
  rw [← h]
  exact no_hyphen_keyOf p

/-- The keys of the parameters among words. -/
def optionKeys (ws : List String) : List String := (ws.filterMap afterHyphens?).map keyOf

theorem optionKeys_cons_of_some (h : afterHyphens? w = some typed) (ws : List String) :
    optionKeys (w :: ws) = keyOf typed :: optionKeys ws := by
  unfold optionKeys
  rw [List.filterMap_cons_some h, List.map_cons]

theorem optionKeys_cons_of_none (h : afterHyphens? w = none) (ws : List String) :
    optionKeys (w :: ws) = optionKeys ws := by
  unfold optionKeys
  rw [List.filterMap_cons_none h]

theorem keyOf_mem_optionKeys (h : "--" ++ typed ∈ ws) : keyOf typed ∈ optionKeys ws :=
  List.mem_map_of_mem (List.mem_filterMap.2 ⟨_, h, afterHyphens?_eq_some_iff.2 rfl⟩)

theorem no_hyphen_of_mem_optionKeys (h : key ∈ optionKeys ws) : '-' ∉ key.toList := by
  obtain ⟨typed, -, rfl⟩ := List.mem_map.1 h
  exact no_hyphen_keyOf typed

theorem afterHyphens?_of_namesInput (h : namesInput w = true) : afterHyphens? w = none := by
  refine Option.eq_none_iff_forall_ne_some.2 fun typed htyped => ?_
  rw [afterHyphens?_eq_some_iff.1 htyped, namesInput_append] at h
  cases h

theorem afterHyphens?_of_isValue (h : isValue w = true) : afterHyphens? w = none := by
  unfold isValue at h
  exact Option.isNone_iff_eq_none.1 (Bool.and_eq_true_iff.1 h).1

theorem contains_withParam_iff (c : Command) (k key : String) (value : Param) :
    (c.withParam k value).params.contains key = true ↔
      key = k ∨ c.params.contains key = true :=
  c.params.contains_insert_iff k key value

/-- **Words add their own keys** and no others, and leave the name. -/
theorem addWords_keeps (h : addWords c ws = .ok d) :
    d.name = c.name ∧ ∀ key, d.params.contains key = true ↔
      key ∈ optionKeys ws ∨ c.params.contains key = true := by
  fun_induction addWords c ws with
  | case1 c =>
    obtain rfl := Except.ok.inj h
    exact ⟨rfl, fun key => by simp [optionKeys]⟩
  | case2 c word rest hnames r hparse ih =>
    obtain ⟨hname, hkeys⟩ := ih h
    refine ⟨hname, fun key => ?_⟩
    rw [optionKeys_cons_of_none (afterHyphens?_of_namesInput hnames)]
    exact hkeys key
  | case3 => cases h
  | case4 => cases h
  | case5 c word hnames typed htyped =>
    obtain rfl := Except.ok.inj h
    refine ⟨rfl, fun key => ?_⟩
    rw [contains_withParam_iff, optionKeys_cons_of_some htyped]
    simp [optionKeys]
  | case6 c word hnames typed htyped value others hvalue ih =>
    obtain ⟨hname, hkeys⟩ := ih h
    refine ⟨hname, fun key => ?_⟩
    rw [hkeys, contains_withParam_iff, optionKeys_cons_of_some htyped,
      optionKeys_cons_of_none (afterHyphens?_of_isValue hvalue), List.mem_cons, or_left_comm,
      or_assoc]
  | case7 c word hnames typed htyped value others hvalue ih =>
    obtain ⟨hname, hkeys⟩ := ih h
    refine ⟨hname, fun key => ?_⟩
    rw [hkeys, contains_withParam_iff, optionKeys_cons_of_some htyped, List.mem_cons,
      or_left_comm, or_assoc]

/-- A word that begins with two hyphens gives no valid name. -/
theorem not_isValid_of_afterHyphens? (hw : Text.IsWord w) (h : afterHyphens? w = some typed) :
    ¬ Name.isValid
      (ofName (Text.lower (String.ofList (w.toList.dropWhile (· = '/'))))).name = true := by
  obtain rfl := afterHyphens?_eq_some_iff.1 h
  have hchars : ("--" ++ typed).toList.dropWhile (· = '/') = '-' :: '-' :: typed.toList := by
    simp
  intro hvalid
  rw [(typedName_lower hw rfl (by simp)).name_ofName] at hvalid
  refine Name.head_ne_hyphen hvalid ?_
  rw [hchars, Text.lower, String.toList_ofList, String.toList_ofList]
  exact Text.head_lowerChars_of_plain ⟨by decide, by decide, by decide⟩ rfl

/-- **The keys of a line** are those of its words, if the name is valid. -/
theorem contains_ofLine_iff (h : ofLine line = .ok d) (hname : Name.isValid d.name = true)
    (key : String) : d.params.contains key = true ↔ key ∈ optionKeys (Text.words line) := by
  unfold ofLine at h
  split at h
  · cases h
  · rename_i first rest hwords
    dsimp only at h
    split at h
    · cases h
    · obtain ⟨hsame, hkeys⟩ := addWords_keeps h
      -- the first word is the name, so it is no parameter
      have hword : Text.IsWord first := Text.isWord_of_mem_words (hwords ▸ List.mem_cons_self)
      have hfirst : afterHyphens? first = none :=
        Option.eq_none_iff_forall_ne_some.2 fun typed htyped =>
          not_isValid_of_afterHyphens? hword htyped (hsame ▸ hname)
      rw [hwords, optionKeys_cons_of_none hfirst, hkeys]
      simp [ofName, Table.contains, Table.get?_empty]

end Command

/-! ## The options of a call -/

namespace Cli

variable {key p typed : String} {command : Command} {signals : Signals}

/-- The name of the parameter that an option gives, in its own spelling. -/
def givenName (typed : String) : String :=
  Text.trim (match Text.splitOnce? '=' typed with
    | some (name, _) => name
    | none => typed)

theorem keyValue_eq (typed : String) : ∃ value, keyValue typed =
    if (givenName typed).isEmpty then .error (.badParam typed)
    else .ok (Command.keyOf (givenName typed), value) := by
  unfold keyValue givenName
  cases Text.splitOnce? '=' typed with
  | none => exact ⟨_, rfl⟩
  | some parts => exact ⟨_, rfl⟩

theorem fst_of_keyValue {e : String × Param} (h : keyValue typed = .ok e) :
    e.1 = Command.keyOf (givenName typed) := by
  obtain ⟨value, hvalue⟩ := keyValue_eq typed
  rw [hvalue] at h
  split at h
  · cases h
  · rw [← Except.ok.inj h]

/-- What stands before the first equals sign has none. -/
theorem no_equals_givenName (typed : String) : '=' ∉ (givenName typed).toList := by
  intro hmem
  unfold givenName Text.trim at hmem
  rw [String.toList_ofList] at hmem
  have hname := Text.mem_of_mem_trimChars hmem
  unfold Text.splitOnce? at hname
  cases hsplit : Text.splitFirst? '=' typed.toList with
  | none =>
    rw [hsplit] at hname
    exact Text.splitFirst?_eq_none_iff.1 hsplit hname
  | some parts =>
    rw [hsplit] at hname
    exact (Text.eq_append_of_splitFirst? hsplit).2 (by simpa using hname)

theorem no_equals_keyOf_givenName (typed : String) :
    '=' ∉ (Command.keyOf (givenName typed)).toList := by
  intro hmem
  obtain ⟨b, hb, heq⟩ := Text.mem_replaceChar.1 hmem
  split at heq
  · exact absurd heq (by decide)
  · exact no_equals_givenName typed (heq ▸ hb)

/-- A word without an equals sign is given by itself and with any value. -/
theorem givenName_of_isWord (hp : Text.IsWord p) (hequals : '=' ∉ p.toList)
    (htyped : typed = p ∨ ∃ value, typed = p ++ "=" ++ value) : givenName typed = p := by
  unfold givenName Text.splitOnce?
  rcases htyped with rfl | ⟨value, rfl⟩
  · rw [Text.splitFirst?_eq_none_iff.2 hequals]
    exact hp.trim_eq
  · have hchars : (p ++ "=" ++ value).toList = p.toList ++ '=' :: value.toList := by simp
    rw [hchars, Text.splitFirst?_append hequals]
    simpa using hp.trim_eq

namespace Signals

/-- Options add their own keys and no others. -/
theorem contains_foldlM_iff {c d : Command} {params : List String}
    (h : params.foldlM (fun c typed => do
      let (key, value) ← keyValue typed
      return c.withParam key value) c = .ok d) (key : String) :
    d.params.contains key = true ↔
      (∃ typed ∈ params, Command.keyOf (givenName typed) = key) ∨
        c.params.contains key = true := by
  induction params generalizing c with
  | nil =>
    obtain rfl := pure_eq_ok.1 h
    simp
  | cons typed params ih =>
    rw [List.foldlM_cons, bind_eq_ok] at h
    obtain ⟨next, hnext, hrest⟩ := h
    obtain ⟨e, he, hadd⟩ := bind_eq_ok.1 hnext
    obtain rfl := pure_eq_ok.1 hadd
    rw [ih hrest, Command.contains_withParam_iff, fst_of_keyValue he, List.exists_mem_cons_iff,
      or_left_comm, or_assoc, eq_comm]

/-- **The keys of a call** are those of its options. -/
theorem contains_commandOf_iff (h : signals.commandOf = .ok command) (key : String) :
    command.params.contains key = true ↔
      ∃ typed ∈ signals.params, Command.keyOf (givenName typed) = key := by
  unfold commandOf at h
  dsimp only at h
  split at h
  · cases h
  · rw [contains_foldlM_iff h]
    -- neither the name nor the input gives a parameter
    cases signals.input <;>
      simp [Command.ofName, Command.withInput, Table.contains, Table.get?_empty]

end Signals

end Cli

/-! ## The catalog -/

namespace Catalog

variable {c : Catalog} {s : Spec} {es : List Edit} {command : Command} {p : String}

/-- An entry that stands under its name, which is valid. -/
structure Registered (c : Catalog) (s : Spec) : Prop where
  entry : c.get? s.name = some s
  valid : Name.isValid s.name = true

/-- Whatever was registered and unregistered, all entries are registered. -/
theorem Follows.registered (h : Follows es c) (hs : s ∈ c.specs) : c.Registered s :=
  ⟨get?_of_mem h.nodup hs, h.valid s hs⟩

theorem Registered.mem_missingParams_iff (hs : c.Registered s) (hname : command.name = s.name) :
    p ∈ c.missingParams command ↔
      p ∈ s.requiredParams ∧ ¬ command.params.contains p = true := by
  unfold missingParams
  rw [hname, hs.entry]
  simp

/-- **What a line leaves missing** are the required parameters that are no key of its words. -/
theorem Registered.mem_missingParams_ofLine_iff (hs : c.Registered s) (hp : p ∈ s.requiredParams)
    {line : String} (hread : Command.ofLine line = .ok command) (hname : command.name = s.name) :
    p ∈ c.missingParams command ↔ p ∉ Command.optionKeys (Text.words line) := by
  rw [hs.mem_missingParams_iff hname, and_iff_right hp,
    Command.contains_ofLine_iff hread (hname ▸ hs.valid)]

/-- **What a call leaves missing** are the required parameters that are no key of its options. -/
theorem Registered.mem_missingParams_commandOf_iff (hs : c.Registered s)
    (hp : p ∈ s.requiredParams) {signals : Cli.Signals} (hread : signals.commandOf = .ok command)
    (hname : command.name = s.name) :
    p ∈ c.missingParams command ↔
      ∀ typed ∈ signals.params, Command.keyOf (Cli.givenName typed) ≠ p := by
  rw [hs.mem_missingParams_iff hname, and_iff_right hp,
    Cli.Signals.contains_commandOf_iff hread]
  simp only [not_exists, not_and, ne_eq]

/-- **Required parameters that are given.** One that a typed line gives is missing exactly if its
name has a hyphen. One that a call gives, with or without a value, is missing exactly if its name
has a hyphen or an equals sign, for what is typed before the first equals sign is the name. -/
theorem mem_missingParams_iff_of_given (hs : c.Registered s) (hp : p ∈ s.requiredParams)
    (hword : Text.IsWord p) :
    (∀ line command, Command.ofLine line = .ok command → command.name = s.name →
        "--" ++ p ∈ Text.words line →
        (p ∈ c.missingParams command ↔ '-' ∈ p.toList)) ∧
      ∀ (signals : Cli.Signals) (command : Command), signals.commandOf = .ok command →
        command.name = s.name →
        (∃ typed ∈ signals.params, typed = p ∨ ∃ value, typed = p ++ "=" ++ value) →
        (p ∈ c.missingParams command ↔ '-' ∈ p.toList ∨ '=' ∈ p.toList) := by
  constructor
  · intro line command hread hname hgiven
    rw [hs.mem_missingParams_ofLine_iff hp hread hname]
    refine ⟨fun hmissing => ?_, fun hhyphen hkey =>
      Command.no_hyphen_of_mem_optionKeys hkey hhyphen⟩
    by_contra hhyphen
    have hkey : Command.keyOf p = p := Command.keyOf_eq_self_iff.2 hhyphen
    exact hmissing (hkey ▸ Command.keyOf_mem_optionKeys hgiven)
  · rintro signals command hread hname ⟨typed, hmem, htyped⟩
    rw [hs.mem_missingParams_commandOf_iff hp hread hname]
    refine ⟨fun hmissing => ?_, ?_⟩
    · by_contra hplain
      obtain ⟨hhyphen, hequals⟩ := not_or.1 hplain
      have hkey : Command.keyOf p = p := Command.keyOf_eq_self_iff.2 hhyphen
      have hgiven : Cli.givenName typed = p := Cli.givenName_of_isWord hword hequals htyped
      exact hmissing typed hmem (by rw [hgiven, hkey])
    · rintro hsign other - rfl
      rcases hsign with hhyphen | hequals
      · exact Command.no_hyphen_keyOf _ hhyphen
      · exact Cli.no_equals_keyOf_givenName other hequals

/-- A command that must be given two parameters, one with a hyphen. -/
def convertFile : Spec :=
  ⟨"convert-file", "Convert the file to another format", .medium, ["format", "dry-run"], []⟩

def converting : Catalog := ⟨[convertFile]⟩

/-- A line that gives both of them. -/
def convertLine : String := "/Convert-File --format pdf --dry-run"

/-- A call that gives both of them. -/
def convertCall : Cli.Signals :=
  { command := "convert-file", input := none, params := ["format=pdf", "dry-run"],
    confidence := none, tokens := none, steps := none, workflowSteps := [], inputError := none,
    previousError := none, recoveries := [], recent := [], progress := none, unmapped := false }

theorem registered_convertFile : converting.Registered convertFile := by
  have hrun : empty.run [.register convertFile] = converting := by decide +kernel
  have hfollows := follows_run [.register convertFile]
  rw [hrun] at hfollows
  exact hfollows.registered List.mem_cons_self

theorem exists_ofLine_convertLine :
    ∃ command, Command.ofLine convertLine = .ok command ∧ command.name = convertFile.name ∧
      command.text = "/convert-file --dry-run --format pdf" ∧
      converting.missingParams command = ["dry-run"] := by
  have hread : (do
      let command ← Command.ofLine convertLine
      pure (command.name, command.text, converting.missingParams command)) =
      .ok ("convert-file", "/convert-file --dry-run --format pdf", ["dry-run"]) := by
    decide +kernel
  obtain ⟨command, hcommand, hfacts⟩ := bind_eq_ok.1 hread
  simp only [pure_eq_ok, Prod.mk.injEq] at hfacts
  exact ⟨command, hcommand, hfacts⟩

theorem exists_commandOf_convertCall :
    ∃ command, convertCall.commandOf = .ok command ∧ command.name = convertFile.name ∧
      converting.missingParams command = ["dry-run"] := by
  have hread : (do
      let command ← convertCall.commandOf
      pure (command.name, converting.missingParams command)) =
      .ok ("convert-file", ["dry-run"]) := by
    decide +kernel
  obtain ⟨command, hcommand, hfacts⟩ := bind_eq_ok.1 hread
  simp only [pure_eq_ok, Prod.mk.injEq] at hfacts
  exact ⟨command, hcommand, hfacts⟩

/-- The parameter without a hyphen is not missing. -/
theorem mem_missingParams_iff_of_given_format :
    converting.Registered convertFile ∧ "format" ∈ convertFile.requiredParams ∧
      (∃ command, Command.ofLine convertLine = .ok command ∧
        "--format" ∈ Text.words convertLine ∧ "format" ∉ converting.missingParams command) ∧
      ∃ command, convertCall.commandOf = .ok command ∧
        "format=pdf" ∈ convertCall.params ∧ "format" ∉ converting.missingParams command := by
  have hparam : "format" ∈ convertFile.requiredParams := by decide
  have hword : Text.IsWord "format" := by decide +kernel
  have hgiven : "--format" ∈ Text.words convertLine := by decide +kernel
  have hoption : "format=pdf" ∈ convertCall.params := by decide
  obtain ⟨hline, hcall⟩ :=
    mem_missingParams_iff_of_given registered_convertFile hparam hword
  obtain ⟨typed, hread, hname, -⟩ := exists_ofLine_convertLine
  obtain ⟨called, hcommand, hcalled, -⟩ := exists_commandOf_convertCall
  refine ⟨registered_convertFile, hparam, ⟨typed, hread, hgiven, ?_⟩,
    called, hcommand, hoption, ?_⟩
  · rw [hline convertLine typed hread hname hgiven]
    decide
  · rw [hcall convertCall called hcommand hcalled ⟨_, hoption, .inr ⟨"pdf", rfl⟩⟩]
    decide

/-- The one with a hyphen is reported as missing, although the line and the call give it and the
text of the command shows it. -/
theorem mem_missingParams_dry_run :
    converting.Registered convertFile ∧ "dry-run" ∈ convertFile.requiredParams ∧
      Text.IsWord "dry-run" ∧
      (∃ command, Command.ofLine convertLine = .ok command ∧ command.name = convertFile.name ∧
        "--dry-run" ∈ Text.words convertLine ∧
        command.text = "/convert-file --dry-run --format pdf" ∧
        "dry-run" ∈ converting.missingParams command) ∧
      ∃ command, convertCall.commandOf = .ok command ∧ command.name = convertFile.name ∧
        "dry-run" ∈ convertCall.params ∧ "dry-run" ∈ converting.missingParams command := by
  obtain ⟨typed, hread, hname, htext, hmissing⟩ := exists_ofLine_convertLine
  obtain ⟨called, hcommand, hcalled, hlacking⟩ := exists_commandOf_convertCall
  refine ⟨registered_convertFile, by decide, by decide +kernel,
    ⟨typed, hread, hname, by decide +kernel, htext, ?_⟩,
    called, hcommand, hcalled, by decide, ?_⟩
  · rw [hmissing]
    exact List.mem_cons_self
  · rw [hlacking]
    exact List.mem_cons_self

end Catalog

end CommandDesk
