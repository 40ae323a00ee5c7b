import CommandDesk.Cli.Run
import CommandDesk.Proofs.Files

/-!
# Which calls write a configuration

A call finds its project, does something there, and may fail at any point. Only
`init` and the edits can write, and only the configuration of their project
(`config_after`): `init` where there is none, an edit where one was read, and
neither of them when it is refused. So a file stands unchanged through any run of
calls in which no edit of it is accepted (`get?_afterAll`).
-/

namespace CommandDesk

namespace Project

/-- The folder of a project lies above its configuration. -/
theorem not_configPath_above_folder (root : Path) : ¬ configPath root <+: folder root := by
  intro h
  have hlength := h.length_le
  simp [configPath, folder] at hlength

/-- A configuration that was read stands in a file. -/
theorem load_eq_ok {fs : Files} {root : Path} {c : Config} :
    load fs root = .ok c ↔
      ∃ text, fs.get? (configPath root) = some (.file text) ∧ Config.parse text = .ok c := by
  unfold load
  split
  · rename_i hnone
    simp [hnone]
  · rename_i text hfile
    simp [hfile]
  · rename_i hfolder
    simp [hfolder]

end Project

namespace Cli

/-! ## Invocations -/

/-- A call with what surrounds it: the project that is named elsewhere, the place it is made at, and
what is typed in. -/
structure Invocation where
  call : Call
  named : Option String
  here : Path
  input : String

/-- The files after a call. A session holds none, so it leaves them as they were. -/
def Outcome.files (before : Files) : Outcome → Files
  | .done r => r.files
  | .session _ => before

/-- Why a call fails, if it does. -/
def Outcome.refusal? : Outcome → Option Refusal
  | .done r => r.refusal
  | .session _ => none

namespace Invocation

def outcome (i : Invocation) (fs : Files) : Outcome := i.call.run i.named i.here i.input fs

def after (i : Invocation) (fs : Files) : Files := (i.outcome fs).files fs

def refusal? (i : Invocation) (fs : Files) : Option Refusal := (i.outcome fs).refusal?

/-- The project that the call is about. -/
def place (i : Invocation) (fs : Files) : Place := .ofCall fs i.here (i.call.root.or i.named)

/-- The configuration of the project. -/
def config (i : Invocation) (fs : Files) : Path := Project.configPath (i.place fs).path

end Invocation

/-! ## Edits -/

/-- **An edit that succeeds has read a configuration**, whatever it looked up before. -/
theorem Edit.exists_loaded {e : Edit} {loaded : Except Error Config} {after : Config × String}
    (h : e.run loaded = .ok after) : ∃ c, loaded = .ok c := by
  cases loaded with
  | ok c => exact ⟨c, rfl⟩
  | error err =>
    cases e with
    | addSynonym command synonym weight => cases h
    | removeSynonym command synonym => cases h
    -- a preset and a hack are looked up first, and what is unknown fails before anything is read
    | choosePreset id =>
      unfold run at h
      dsimp only at h
      split at h <;> cases h
    | switchHack id enabled =>
      unfold run at h
      dsimp only at h
      split at h <;> cases h

/-- What an edit does to the files: nothing if it is refused, else it writes the changed configuration
in place of the one that it read. -/
theorem runEdit_cases (fs : Files) (p : Place) (e : Edit) :
    (∃ r, (runEdit fs p e).refusal = some r ∧ (runEdit fs p e).files = fs) ∨
      ((runEdit fs p e).refusal = none ∧ ∃ text old new said,
        fs.get? (Project.configPath p.path) = some (.file text) ∧ Config.parse text = .ok old ∧
          e.run (.ok old) = .ok (new, said) ∧
            fs.write (Project.configPath p.path) new.print = .ok (runEdit fs p e).files) := by
  unfold runEdit
  split
  · rename_i r hrefused
    exact .inl ⟨r, rfl, rfl⟩
  · rename_i new said haccepted
    split
    · rename_i err hsave
      exact .inl ⟨_, rfl, rfl⟩
    · rename_i after hsave
      obtain ⟨old, hload⟩ := Edit.exists_loaded haccepted
      obtain ⟨text, hfile, hparse⟩ := Project.load_eq_ok.1 hload
      rw [hload] at haccepted
      exact .inr ⟨rfl, text, old, new, said, hfile, hparse, haccepted, hsave⟩

/-! ## Init -/

/-- What `init` does to the files: it adds folders above the configuration, and writes the standard
one where there is none. -/
theorem runInit_cases (fs : Files) (p : Place) :
    (fs.Reaches (runInit fs p).files (Project.folder p.path) ∧
        ((runInit fs p).refusal = none → fs.get? (Project.configPath p.path) ≠ none)) ∨
      (fs.get? (Project.configPath p.path) = none ∧ (runInit fs p).refusal = none ∧
        ∃ above, fs.Reaches above (Project.folder p.path) ∧
          above.write (Project.configPath p.path) Config.standard.print =
            .ok (runInit fs p).files) := by
  unfold runInit
  dsimp only
  split
  · exact .inl ⟨.refl fs _, fun h => by cases h⟩
  · rename_i above hfolders
    have hreaches := Files.reaches_of_makeFolders hfolders
    -- the folders are not in the place of the configuration, so there is one as before
    have hsame := hreaches.get?_of_not_above (Project.not_configPath_above_folder p.path)
    rw [← hsame]
    split
    · exact .inl ⟨hreaches, fun h => by cases h⟩
    · rename_i after hsave
      rcases Files.writeIfMissing_cases hsave with ⟨-, hfalse, -⟩ | ⟨hnone, -, hwrite⟩
      · cases hfalse
      · exact .inr ⟨hnone, rfl, above, hreaches, hwrite⟩
    · rename_i after hsave
      rcases Files.writeIfMissing_cases hsave with ⟨hstands, -, rfl⟩ | ⟨-, htrue, -⟩
      · exact .inl ⟨hreaches, fun _ => hstands⟩
      · cases htrue

/-- What `init` does to a configuration. -/
theorem get?_runInit (fs : Files) (p : Place) :
    (fs.get? (Project.configPath p.path) ≠ none →
        (runInit fs p).files.get? (Project.configPath p.path) =
          fs.get? (Project.configPath p.path)) ∧
      (fs.get? (Project.configPath p.path) = none →
        (runInit fs p).files.get? (Project.configPath p.path) =
          if (runInit fs p).refusal.isSome then none else some (.file Config.standard.print)) := by
  rcases runInit_cases fs p with ⟨hreaches, hpresent⟩ | ⟨habsent, hdone, above, -, hwrite⟩
  · refine ⟨hreaches.get?, fun habsent => ?_⟩
    have hrefused : (runInit fs p).refusal.isSome = true :=
      Option.ne_none_iff_isSome.1 fun hdone => hpresent hdone habsent
    rw [if_pos hrefused, ← habsent]
    exact hreaches.get?_of_not_above (Project.not_configPath_above_folder p.path)
  · refine ⟨fun hpresent => absurd habsent hpresent, fun _ => ?_⟩
    rw [hdone]
    exact (Files.get?_write hwrite).1

/-- Whatever stood before `init` still stands. -/
theorem get?_runInit_of_stands {fs : Files} (p : Place) {q : Path} (hq : fs.get? q ≠ none) :
    (runInit fs p).files.get? q = fs.get? q := by
  rcases runInit_cases fs p with ⟨hreaches, -⟩ | ⟨habsent, -, above, hreaches, hwrite⟩
  · exact hreaches.get? hq
  · have habove : above.get? q = fs.get? q := hreaches.get? hq
    have hne : q ≠ Project.configPath p.path := by
      rintro rfl
      exact hq habsent
    rw [← habove] at hq ⊢
    exact Files.get?_write_of_ne hwrite hne hq

/-! ## Every call -/

namespace Invocation

variable {i : Invocation} {fs : Files} {e : Edit}

theorem outcome_init (h : i.call.action = .init) :
    i.outcome fs = .done (runInit fs (i.place fs)) := by
  unfold outcome Call.run
  rw [h]
  rfl

theorem outcome_edit (h : i.call.action = .edit e) :
    i.outcome fs = .done (runEdit fs (i.place fs) e) := by
  unfold outcome Call.run
  rw [h]
  rfl

/-- A view answers from the configuration and changes nothing. -/
theorem after_view {v : View} (h : i.call.action = .view v) : i.after fs = fs := by
  unfold after outcome Call.run
  rw [h]
  rfl

/-- A session begins without a change, and so does one that cannot begin. -/
theorem after_session (h : i.call.action = .session) : i.after fs = fs := by
  unfold after outcome Call.run
  rw [h]
  dsimp only [Action.run]
  split <;> rfl

/-- **Which calls write the configuration of their project.** `init` leaves one that is there as it
is, and makes the standard one where there is none, unless it is refused. Views and sessions change
no file. An edit that is refused changes no file either; where there is no configuration it is
refused, and where it is accepted it has read one, and the changed one takes its place. -/
theorem config_after (i : Invocation) (fs : Files) :
    match i.call.action with
    | .init =>
      (fs.get? (i.config fs) ≠ none → (i.after fs).get? (i.config fs) = fs.get? (i.config fs)) ∧
        (fs.get? (i.config fs) = none → (i.after fs).get? (i.config fs) =
          if (i.refusal? fs).isSome then none else some (.file Config.standard.print))
    | .view _ => i.after fs = fs
    | .session => i.after fs = fs
    | .edit e =>
      (∀ r, i.refusal? fs = some r → i.after fs = fs) ∧
        (fs.get? (i.config fs) = none → ∃ r, i.refusal? fs = some r) ∧
        (i.refusal? fs = none → ∃ text old new said,
          fs.get? (i.config fs) = some (.file text) ∧ Config.parse text = .ok old ∧
            e.run (.ok old) = .ok (new, said) ∧
              (i.after fs).get? (i.config fs) = some (.file new.print)) := by
  split
  · rename_i hinit
    unfold after refusal?
    rw [outcome_init hinit]
    exact get?_runInit fs (i.place fs)
  · rename_i v hview
    exact after_view hview
  · rename_i hsession
    exact after_session hsession
  · rename_i e hedit
    unfold after refusal?
    rw [outcome_edit hedit]
    rcases runEdit_cases fs (i.place fs) e with
      ⟨r, hrefused, hfiles⟩ | ⟨haccepted, text, old, new, said, hfile, hparse, hrun, hwrite⟩
    · refine ⟨fun _ _ => hfiles, fun _ => ⟨r, hrefused⟩, fun haccepted => ?_⟩
      exact absurd (hrefused.symm.trans haccepted) (by simp)
    · refine ⟨fun r hrefused => ?_, fun habsent => ?_, fun _ => ?_⟩
      · exact absurd (haccepted.symm.trans hrefused) (by simp)
      · exact absurd (hfile.symm.trans habsent) (by simp)
      · exact ⟨text, old, new, said, hfile, hparse, hrun, (Files.get?_write hwrite).1⟩

/-- Without a configuration there is nothing to remove a synonym from. -/
example :
    refusal? ⟨⟨none, false, .edit (.removeSynonym "list-files" "show")⟩, none, [], ""⟩ .empty =
      some (.loading .notInitialized) := by
  decide

/-- An accepted edit of the project's configuration. -/
def Edits (i : Invocation) (fs : Files) : Prop :=
  (∃ e, i.call.action = .edit e) ∧ i.refusal? fs = none

/-- **One call leaves alone** whatever stands, but for the configuration that it edits. -/
theorem get?_after {p : Path} (hp : fs.get? p ≠ none) (hspared : i.Edits fs → i.config fs ≠ p) :
    (i.after fs).get? p = fs.get? p := by
  cases haction : i.call.action with
  | init =>
    unfold after
    rw [outcome_init haction]
    exact get?_runInit_of_stands (i.place fs) hp
  | view v => rw [after_view haction]
  | session => rw [after_session haction]
  | edit e =>
    unfold Edits refusal? at hspared
    unfold after
    rw [outcome_edit haction] at hspared ⊢
    rcases runEdit_cases fs (i.place fs) e with
      ⟨r, -, hfiles⟩ | ⟨haccepted, _, _, _, _, -, -, -, hwrite⟩
    · exact congrArg (·.get? p) hfiles
    · exact Files.get?_write_of_ne hwrite (hspared ⟨⟨e, haction⟩, haccepted⟩).symm hp

/-- The files after a run of calls. -/
def afterAll : List Invocation → Files → Files
  | [], fs => fs
  | i :: is, fs => afterAll is (i.after fs)

/-- No call of the run is an accepted edit of the file. -/
def Spares (p : Path) : List Invocation → Files → Prop
  | [], _ => True
  | i :: is, fs => (i.Edits fs → i.config fs ≠ p) ∧ Spares p is (i.after fs)

/-- **A file stands unchanged through a run of calls** in which no edit of it is accepted. -/
theorem get?_afterAll {p : Path} (is : List Invocation) (hp : fs.get? p ≠ none)
    (h : Spares p is fs) : (afterAll is fs).get? p = fs.get? p := by
  induction is generalizing fs with
  | nil => rfl
  | cons i is ih =>
    obtain ⟨hspared, hrest⟩ := h
    -- the file that stands after the first call is the same one, and the rest of the run spares it
    have hstep : (i.after fs).get? p = fs.get? p := get?_after hp hspared
    rw [← hstep]
    rw [← hstep] at hp
    exact ih hp hrest

end Invocation

end Cli

end CommandDesk
