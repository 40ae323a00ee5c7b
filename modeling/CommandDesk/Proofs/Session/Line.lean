import CommandDesk.Proofs.Command.InputRef
import CommandDesk.Proofs.Command.Name
import CommandDesk.Proofs.Table
import CommandDesk.Proofs.Text.Split
import CommandDesk.Proofs.Text.Words
import CommandDesk.Session.Line

/-!
# Typed commands are read back

What a person can type is `Typed`: a name in lowercase that begins with no
slash, an input and parameters made up of words, no hyphen in a key, no value
that could be taken for the next option. The text of such a command reads back
as the command (`Typed.ofLine_text`), and whatever is read from a line is typed,
also with another name or input (`ofLine_text_of_ofLine`).
-/

namespace CommandDesk

namespace Command

/-- A name as it can be typed. -/
structure TypedName (name : String) : Prop where
  word : Text.IsWord name
  lower : Text.lower name = name
  no_slash : name.toList.head? ≠ some '/'

/-- A parameter as it can be typed: a switch, or a word that could not be the next option. -/
structure TypedParam (e : String × Param) : Prop where
  not_blank : ∀ c ∈ e.1.toList, Text.isBlank c = false
  no_hyphen : '-' ∉ e.1.toList
  value : e.2 = .flag true ∨ ∃ s, e.2 = .str s ∧ Text.IsWord s ∧ isValue s = true

/-- **A command as it can be typed.** -/
structure Typed (c : Command) : Prop where
  name : TypedName c.name
  verb : c.verb = Name.verb c.name
  noun : c.noun = Name.noun c.name
  input : ∀ r ∈ c.input, r.WellFormed ∧ ∀ ch ∈ r.text.toList, Text.isBlank ch = false
  params : ∀ e ∈ c.params.entries, TypedParam e

/-- The word that a key is typed as. -/
def optionWord (key : String) : String := "--" ++ Text.replaceChar '_' '-' key

/-- The words that a parameter is typed as. -/
def paramWords : String × Param → List String
  | (key, .flag true) => [optionWord key]
  | (key, v) => [optionWord key, v.text]

/-- The words that follow the name of a command. -/
def options (c : Command) : List String :=
  c.input.toList.map (·.text) ++ c.params.entries.flatMap paramWords

variable {c : Command} {r : InputRef} {e : String × Param} {s w : String} {ws : List String}

/-! ## The words of a command -/

/-- A parameter is written as its words, each after a space. -/
theorem paramText_eq (e : String × Param) :
    paramText e.1 e.2 = Text.spaced (paramWords e) := by
  obtain ⟨key, value⟩ := e
  have hoption : " --" ++ Text.replaceChar '_' '-' key = " " ++ optionWord key := by
    have hspace : " --" = " " ++ "--" := rfl
    unfold optionWord
    rw [hspace, String.append_assoc]
  unfold paramText
  dsimp only
  rw [hoption]
  cases value with
  | flag b => cases b <;> simp [paramWords, Text.spaced, String.append_assoc]
  | int | num | str => simp [paramWords, Text.spaced, String.append_assoc]

/-- **The text of a command** is its name after a slash, and then its options. -/
theorem text_eq_spaced (c : Command) : c.text = "/" ++ c.name ++ Text.spaced c.options := by
  have hparams : ∀ es : List (String × Param),
      String.join (es.map fun e => paramText e.1 e.2) = Text.spaced (es.flatMap paramWords) := by
    intro es
    unfold Text.spaced
    rw [List.map_flatMap]
    induction es with
    | nil => rfl
    | cons e es ih =>
      rw [List.map_cons, List.flatMap_cons, String.join_cons, String.join_append, ih, paramText_eq]
      rfl
  unfold text options
  dsimp only
  rw [hparams]
  cases c.input <;> simp [Text.spaced, String.append_assoc]

/-! ## Reading options -/

theorem no_hyphen_keyOf (typed : String) : '-' ∉ (keyOf typed).toList :=
  Text.not_mem_replaceChar (by decide) typed

/-- The key of an option is read back: only a hyphen would be taken for an underscore. -/
theorem keyOf_replaceChar (h : '-' ∉ s.toList) : keyOf (Text.replaceChar '_' '-' s) = s := by
  apply String.toList_inj.1
  unfold keyOf Text.replaceChar
  rw [String.toList_ofList, String.toList_ofList, List.map_map]
  refine (List.map_congr_left fun d hd => ?_).trans (List.map_id _)
  have hne : d ≠ '-' := fun h' => h (h' ▸ hd)
  by_cases hunderscore : d = '_'
  · simp [hunderscore]
  · simp [hunderscore, hne]

/-- Two hyphens are taken off the words that begin with them. -/
theorem afterHyphens?_eq_some_iff {typed : String} :
    afterHyphens? w = some typed ↔ w = "--" ++ typed := by
  unfold afterHyphens?
  rw [← String.toList_inj, String.toList_append]
  split
  · rename_i rest hrest
    rw [hrest, Option.some_inj, ← String.toList_inj, String.toList_ofList]
    simp
  · rename_i hnot
    simpa using fun hw => hnot typed.toList hw

theorem namesInput_append (typed : String) : namesInput ("--" ++ typed) = false := by
  simp [namesInput]

theorem afterHyphens?_optionWord (key : String) :
    afterHyphens? (optionWord key) = some (Text.replaceChar '_' '-' key) :=
  afterHyphens?_eq_some_iff.2 rfl

theorem namesInput_optionWord (key : String) : namesInput (optionWord key) = false :=
  namesInput_append _

theorem isValue_optionWord (key : String) : isValue (optionWord key) = false := by
  unfold isValue
  rw [afterHyphens?_optionWord]
  rfl

theorem addWords_input (h : r.WellFormed) (ws : List String) :
    addWords c (r.text :: ws) = addWords (c.withInput r) ws := by
  have hnames : namesInput r.text = true := by
    unfold namesInput
    rw [InputRef.toList_text]
    rfl
  rw [addWords, if_pos hnames, h.parse?_text]

/-- An option that no value follows is a switch. -/
theorem addWords_switch (hs : '-' ∉ s.toList) (hws : ∀ v ∈ ws.head?, isValue v = false) :
    addWords c (optionWord s :: ws) = addWords (c.withParam s (.flag true)) ws := by
  rw [addWords, namesInput_optionWord, if_neg Bool.false_ne_true, afterHyphens?_optionWord]
  dsimp only
  rw [keyOf_replaceChar hs]
  cases ws with
  | nil => rw [addWords]
  | cons v ws =>
    have hv : ¬ isValue v = true := Bool.eq_false_iff.1 (hws v rfl)
    exact if_neg hv

/-- An option takes the value that follows it. -/
theorem addWords_value (hs : '-' ∉ s.toList) (hw : isValue w = true) :
    addWords c (optionWord s :: w :: ws) = addWords (c.withParam s (.str w)) ws := by
  rw [addWords, namesInput_optionWord, if_neg Bool.false_ne_true, afterHyphens?_optionWord]
  dsimp only
  rw [keyOf_replaceChar hs]
  exact if_pos hw

/-- No parameter begins with a value. -/
theorem isValue_head_paramWords (es : List (String × Param)) :
    ∀ v ∈ (es.flatMap paramWords).head?, isValue v = false := by
  cases es with
  | nil => simp
  | cons e es =>
    intro v hv
    obtain ⟨key, value⟩ := e
    have hoption : v = optionWord key := by
      rw [List.flatMap_cons] at hv
      unfold paramWords at hv
      split at hv <;> simp_all
    rw [hoption, isValue_optionWord]

/-- **Parameters are read back** one after the other. -/
theorem addWords_params {es : List (String × Param)} (h : ∀ e ∈ es, TypedParam e) :
    addWords c (es.flatMap paramWords) = .ok { c with params := c.params.insertAll es } := by
  induction es generalizing c with
  | nil => rw [List.flatMap_nil, addWords]; rfl
  | cons e es ih =>
    obtain ⟨he, hes⟩ := List.forall_mem_cons.1 h
    obtain ⟨key, value⟩ := e
    have hinsert : c.params.insertAll ((key, value) :: es) =
        (c.params.insert key value).insertAll es := rfl
    rw [List.flatMap_cons, hinsert]
    rcases he.value with hvalue | ⟨s, hvalue, -, hs⟩ <;> obtain rfl : value = _ := hvalue
    · have hwords : paramWords (key, .flag true) = [optionWord key] := rfl
      rw [hwords, List.singleton_append,
        addWords_switch he.no_hyphen (isValue_head_paramWords es), ih hes]
      rfl
    · have hwords : paramWords (key, .str s) = [optionWord key, s] := rfl
      rw [hwords, List.cons_append, List.singleton_append, addWords_value he.no_hyphen hs, ih hes]
      rfl

/-! ## Reading a typed command -/

/-- Nothing is changed in the name of a typed command. -/
theorem TypedName.name_ofName (h : TypedName s) : (ofName s).name = s := by
  change Text.normalize s = s
  unfold Text.normalize
  rw [h.word.trim_eq, h.lower]

theorem isWord_hyphens : Text.IsWord "--" := by decide +kernel

theorem isWord_slash : Text.IsWord "/" := by decide +kernel

theorem isWord_optionWord (h : ∀ d ∈ s.toList, Text.isBlank d = false) :
    Text.IsWord (optionWord s) := by
  refine isWord_hyphens.append fun d hd => ?_
  obtain ⟨b, hb, rfl⟩ := Text.mem_replaceChar.1 hd
  split
  · decide
  · exact h b hb

/-- The options of a typed command are words. -/
theorem Typed.isWord_options (h : c.Typed) : ∀ w ∈ c.options, Text.IsWord w := by
  intro w hw
  rcases List.mem_append.1 hw with hw | hw
  · obtain ⟨r, hr, rfl⟩ := List.mem_map.1 hw
    refine ⟨?_, (h.input r (Option.mem_toList.1 hr)).2⟩
    intro hempty
    have := congrArg String.toList hempty
    rw [InputRef.toList_text] at this
    cases this
  · obtain ⟨e, he, hw⟩ := List.mem_flatMap.1 hw
    have hparam := h.params e he
    have hoption := isWord_optionWord hparam.not_blank
    obtain ⟨key, value⟩ := e
    rcases hparam.value with hvalue | ⟨s, hvalue, hs, -⟩ <;> obtain rfl : value = _ := hvalue
    · obtain rfl := List.mem_singleton.1 hw
      exact hoption
    · rcases List.mem_cons.1 hw with rfl | hw
      · exact hoption
      · obtain rfl := List.mem_singleton.1 hw
        exact hs

/-- **The text of a typed command is read as the command.** -/
theorem Typed.ofLine_text (h : c.Typed) : ofLine c.text = .ok c := by
  obtain ⟨hword, hlower, hslash⟩ := h.name
  have hfirst : Text.IsWord ("/" ++ c.name) := isWord_slash.append hword.not_blank
  have hwords : Text.words c.text = ("/" ++ c.name) :: c.options := by
    rw [text_eq_spaced]
    exact Text.words_append_spaced hfirst h.isWord_options
  have hname : String.ofList (("/" ++ c.name).toList.dropWhile (· = '/')) = c.name := by
    rw [String.toList_append]
    change String.ofList (List.dropWhile _ ('/' :: c.name.toList)) = c.name
    rw [List.dropWhile_cons_of_pos (by decide)]
    cases hs : c.name.toList with
    | nil => exact absurd (String.toList_eq_nil_iff.1 hs) hword.ne_empty
    | cons d ds =>
      have hd : d ≠ '/' := fun hd => hslash (by rw [hs, hd]; rfl)
      rw [List.dropWhile_cons_of_neg (by simpa using hd), ← hs, String.ofList_toList]
  have hstart : ofName c.name = { c with input := none, params := .empty } := by
    have hn : Text.normalize c.name = c.name := h.name.name_ofName
    unfold ofName
    dsimp only
    rw [hn, ← h.verb, ← h.noun]
  have hparams : (Table.empty : Table Param).insertAll c.params.entries = c.params :=
    Table.ofList_entries c.params
  unfold ofLine
  rw [hwords]
  dsimp only
  rw [hname, if_neg (by simpa using hword.ne_empty), hlower, hstart]
  unfold options
  -- the input comes first, if there is one
  cases hinput : c.input with
  | none =>
    change addWords _ (c.params.entries.flatMap paramWords) = _
    rw [addWords_params h.params, hparams, ← hinput]
  | some r =>
    change addWords _ (r.text :: c.params.entries.flatMap paramWords) = _
    rw [addWords_input (h.input r hinput).1, addWords_params h.params]
    dsimp only [withInput]
    rw [hparams, ← hinput]

/-! ## What is read is typed -/

theorem Typed.withInput (h : c.Typed)
    (hr : r.WellFormed ∧ ∀ ch ∈ r.text.toList, Text.isBlank ch = false) :
    (c.withInput r).Typed :=
  ⟨h.name, h.verb, h.noun, fun _ hq => Option.some.inj hq ▸ hr, h.params⟩

theorem Typed.withParam (h : c.Typed) {key : String} {value : Param}
    (he : TypedParam (key, value)) : (c.withParam key value).Typed := by
  refine ⟨h.name, h.verb, h.noun, h.input, fun e hmem => ?_⟩
  rcases Table.mem_insert hmem with rfl | hmem
  · exact he
  · exact h.params e hmem

/-- A command of a name that can be typed is typed. -/
theorem typed_ofName (h : TypedName s) : (ofName s).Typed := by
  have hname := h.name_ofName
  unfold ofName at hname ⊢
  dsimp only at hname ⊢
  rw [hname]
  refine ⟨h, rfl, rfl, ?_, ?_⟩
  · intro r hr
    cases hr
  · intro e he
    exact absurd he List.not_mem_nil

/-- A valid name can be typed. -/
theorem typedName_of_isValid (h : Name.isValid s = true) : TypedName s := by
  have hplain : ∀ d ∈ s.toList, Text.Plain d := fun _ => Name.plain_of_isValid h
  have hempty : s ≠ "" := by
    rintro rfl
    exact absurd h (by decide)
  refine ⟨⟨hempty, fun d hd => (hplain d hd).not_blank⟩, Text.lower_of_plain hplain, ?_⟩
  intro hslash
  rcases Name.isLetter_or_hyphen h (List.mem_of_head? hslash) with hletter | hhyphen
  · exact absurd hletter (by decide)
  · exact absurd hhyphen (by decide)

/-- **With a valid name in its place** a typed command stays typed. -/
theorem Typed.retarget (h : c.Typed) (hs : Name.isValid s = true) : (c.retarget s).Typed := by
  obtain ⟨hname, hverb, hnoun, -, -⟩ := typed_ofName (typedName_of_isValid hs)
  unfold Command.retarget
  dsimp only
  generalize ofName s = d at hname hverb hnoun
  exact ⟨hname, hverb, hnoun, h.input, h.params⟩

/-- A reference that a text without blanks is read as can be typed. -/
theorem typed_of_parse? (hs : ∀ d ∈ s.toList, Text.isBlank d = false)
    (h : InputRef.parse? s = some r) :
    r.WellFormed ∧ ∀ d ∈ r.text.toList, Text.isBlank d = false := by
  refine ⟨InputRef.wellFormed_of_parse? h, fun d hd => ?_⟩
  rw [InputRef.toList_text] at hd
  rcases List.mem_cons.1 hd with rfl | hd
  · decide
  · exact hs d (InputRef.mem_of_parse? h hd)

/-- The key of an option that is a word can be typed. -/
theorem typedParam_of_afterHyphens? {typed : String} {value : Param} (hw : Text.IsWord w)
    (h : afterHyphens? w = some typed)
    (hvalue : value = .flag true ∨ ∃ s, value = .str s ∧ Text.IsWord s ∧ isValue s = true) :
    TypedParam (keyOf typed, value) := by
  have htyped : ∀ b ∈ typed.toList, b ∈ w.toList := by
    rw [afterHyphens?_eq_some_iff.1 h, String.toList_append]
    exact fun b => List.mem_append_right _
  refine ⟨fun d hd => ?_, no_hyphen_keyOf typed, hvalue⟩
  obtain ⟨b, hb, rfl⟩ := Text.mem_replaceChar.1 hd
  split
  · decide
  · exact hw.not_blank b (htyped b hb)

/-- **Words keep a command typed.** -/
theorem Typed.addWords {c' : Command} (h : c.Typed) (hws : ∀ w ∈ ws, Text.IsWord w)
    (hread : Command.addWords c ws = .ok c') : c'.Typed := by
  fun_induction Command.addWords c ws with
  | case1 c => exact Except.ok.inj hread ▸ h
  | case2 c word rest hnames r hparse ih =>
    obtain ⟨hword, hrest⟩ := List.forall_mem_cons.1 hws
    exact ih (h.withInput (typed_of_parse? hword.not_blank hparse)) hrest hread
  | case3 => cases hread
  | case4 => cases hread
  | case5 c word hnames typed htyped =>
    have hword := hws word List.mem_cons_self
    exact Except.ok.inj hread ▸
      h.withParam (typedParam_of_afterHyphens? hword htyped (.inl rfl))
  | case6 c word hnames typed htyped value others hvalue ih =>
    obtain ⟨hword, hrest⟩ := List.forall_mem_cons.1 hws
    obtain ⟨hfirst, hothers⟩ := List.forall_mem_cons.1 hrest
    have hparam := typedParam_of_afterHyphens? hword htyped (.inr ⟨value, rfl, hfirst, hvalue⟩)
    exact ih (h.withParam hparam) hothers hread
  | case7 c word hnames typed htyped value others hvalue ih =>
    obtain ⟨hword, hrest⟩ := List.forall_mem_cons.1 hws
    have hparam := typedParam_of_afterHyphens? hword htyped (.inl rfl)
    exact ih (h.withParam hparam) hrest hread

/-- The first word of a line without its slashes, in lowercase, is a name as it can be typed. -/
theorem typedName_lower {t : String} (ht : Text.IsWord t)
    (hs : s = String.ofList (t.toList.dropWhile (· = '/'))) (hempty : s ≠ "") :
    TypedName (Text.lower s) := by
  have hchars : s.toList = t.toList.dropWhile (· = '/') := by rw [hs, String.toList_ofList]
  have hblank : ∀ d ∈ s.toList, Text.isBlank d = false := by
    intro d hd
    rw [hchars] at hd
    exact ht.not_blank d ((List.dropWhile_suffix _).subset hd)
  have hlower : (Text.lower s).toList = Text.lowerChars s.toList := String.toList_ofList
  refine ⟨⟨?_, fun d hd => ?_⟩, ?_, ?_⟩
  · intro hnil
    have hchars := congrArg String.toList hnil
    rw [hlower] at hchars
    exact Text.lowerAfter_ne_nil (by simpa using hempty) [] hchars
  · rw [hlower] at hd
    exact Text.isBlank_of_mem_lowerAfter hblank hd
  · apply String.toList_inj.1
    have htwice : (Text.lower (Text.lower s)).toList = Text.lowerChars (Text.lower s).toList :=
      String.toList_ofList
    rw [htwice, hlower, Text.lowerChars_lowerChars]
  · rw [hlower]
    intro hslash
    have hfront := Text.head_of_head_lowerChars (by decide) hslash
    rw [hchars] at hfront
    have hnot := List.head?_dropWhile_not (fun d : Char => decide (d = '/')) t.toList
    rw [hfront] at hnot
    exact absurd hnot (by decide)

/-- **What is read from a line is typed.** -/
theorem typed_of_ofLine {line : String} (h : ofLine line = .ok c) : c.Typed := by
  unfold ofLine at h
  split at h
  · cases h
  · rename_i first rest hwords
    have hall : ∀ w ∈ first :: rest, Text.IsWord w := fun w hw =>
      Text.isWord_of_mem_words (hwords ▸ hw)
    obtain ⟨hfirst, hrest⟩ := List.forall_mem_cons.1 hall
    dsimp only at h
    split at h
    · cases h
    · rename_i hempty
      have hname := typedName_lower hfirst rfl (by simpa using hempty)
      exact (typed_ofName hname).addWords hrest h

/-! ## The round trip -/

/-- **Every command of a line is read back from its text**, and so is the command under any valid
name and with any input reference whose text has no blank. -/
theorem ofLine_text_of_ofLine {line : String} (h : ofLine line = .ok c) :
    ofLine c.text = .ok c ∧
      (∀ name, Name.isValid name = true →
        ofLine (c.retarget name).text = .ok (c.retarget name)) ∧
      ∀ typed r, (∀ ch ∈ typed.toList, Text.isBlank ch = false) →
        InputRef.parse? typed = some r →
        ofLine (c.withInput r).text = .ok (c.withInput r) := by
  have hc : c.Typed := typed_of_ofLine h
  refine ⟨hc.ofLine_text, fun name hname => ?_, fun typed r hblank hparse => ?_⟩
  · exact (hc.retarget hname).ofLine_text
  · exact (hc.withInput (typed_of_parse? hblank hparse)).ofLine_text

/-- A command typed in capitals, with its input last. -/
theorem exists_ofLine_inspect_data :
    ∃ c r, ofLine "/Inspect-Data --Top-n 5 --dry-run @file:a.csv" = .ok c ∧
      InputRef.parse? "@db:sales" = some r ∧ Name.isValid "list-files" = true ∧
      ofLine c.text = .ok c ∧
      ofLine (c.retarget "list-files").text = .ok (c.retarget "list-files") ∧
      ofLine (c.withInput r).text = .ok (c.withInput r) := by
  have hline : (ofLine "/Inspect-Data --Top-n 5 --dry-run @file:a.csv").isOk = true := by
    decide +kernel
  have hinput : (InputRef.parse? "@db:sales").isSome = true := by decide +kernel
  have hall : "@db:sales".toList.all (fun ch => !Text.isBlank ch) = true := by decide +kernel
  have hblank : ∀ ch ∈ "@db:sales".toList, Text.isBlank ch = false := by
    intro ch hch
    have hnot := List.all_eq_true.1 hall ch hch
    rwa [Bool.not_eq_true'] at hnot
  have hname : Name.isValid "list-files" = true := by decide +kernel
  obtain ⟨r, hr⟩ := Option.isSome_iff_exists.1 hinput
  cases hread : ofLine "/Inspect-Data --Top-n 5 --dry-run @file:a.csv" with
  | error e =>
    rw [hread] at hline
    cases hline
  | ok c =>
    obtain ⟨htext, hretarget, hwith⟩ := ofLine_text_of_ofLine hread
    exact ⟨c, r, rfl, hr, hname, htext, hretarget _ hname, hwith _ r hblank hr⟩

end Command

end CommandDesk
