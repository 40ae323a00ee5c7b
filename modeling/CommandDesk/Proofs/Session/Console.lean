import CommandDesk.Proofs.Session.Pending
import CommandDesk.Proofs.Text.Normal
import CommandDesk.Proofs.Text.Words

/-!
# Working a line off

A session gives back either a turn or a reason, so a line that it refuses cannot
leave anything behind. Whoever works a line off on a session in place has no such
guarantee: the confirmation is taken out before it is replied to, the history is
moved before the move is printed, and what has been done stays done when a later
step stops. `Console.perform` is this work, step by step.

For each kind of line it is shown how the work on it ends (`Ends`): as the turn
says, or with nothing done. So a line ends as the session says of it
(`run_perform`), and a conversation is a run of the session (`session_converse`).
-/

namespace CommandDesk

/-- A session that is worked on, with what has been printed so far. -/
structure Console (α : Type) where
  session : Session α
  printed : List String := []

/-- Work at a console. It may stop at any step, and what was done before stays done. -/
abbrev Work (α β : Type) := EStateM LineError (Console α) β

namespace Console

variable {α β γ : Type}

/-! ## Single steps -/

/-- Print a line. -/
def print (line : String) : Work α Unit :=
  modify fun k => { k with printed := k.printed ++ [line] }

/-- Print a line if there is a reason to. -/
def printIf (c : Prop) [Decidable c] (line : String) : Work α Unit :=
  if c then print line else pure ()

/-- Print lines, one after the other. -/
def printAll : List String → Work α Unit
  | [] => pure ()
  | line :: lines => do
    print line
    printAll lines

/-- Change the session. -/
def change (f : Session α → Session α) : Work α Unit :=
  modify fun k => { k with session := f k.session }

/-- Go on with what was read, or stop. -/
def require : Except LineError β → Work α β
  | .ok b => pure b
  | .error e => throw e

/-- The console after a turn. -/
def after (k : Console α) (t : Turn α) : Console α := ⟨t.session, k.printed ++ t.answer⟩

/-- How a line ends by what the session gives back: with the turn, or with nothing done. -/
def settle (k : Console α) : Except LineError (Turn α) → EStateM.Result LineError (Console α) Bool
  | .ok t => .ok t.leaves (k.after t)
  | .error e => .error e k

/-- Work after which the session goes on ends as the session says. -/
def Ends (k : Console α) (w : Work α Unit) (x : Except LineError (Turn α)) : Prop :=
  (do w; return false : Work α Bool).run k = settle k x

variable {k k' : Console α} {line : String} {words : List String} {e : LineError}
variable {t : Turn α} {w : Work α Unit}

/-- Work goes on from where its first step has led. -/
theorem run_bind_of_ok {w : Work α β} {f : β → Work α γ} {b : β} (h : w.run k = .ok b k') :
    (w >>= f).run k = (f b).run k' := by
  change EStateM.bind w f k = f b k'
  unfold EStateM.bind
  rw [show w k = .ok b k' from h]

/-- Work stops where its first step stops, with what that has done. -/
theorem run_bind_of_error {w : Work α β} {f : β → Work α γ} (h : w.run k = .error e k') :
    (w >>= f).run k = .error e k' := by
  change EStateM.bind w f k = .error e k'
  unfold EStateM.bind
  rw [show w k = .error e k' from h]

theorem Ends.of_ok (h : w.run k = .ok () (k.after t)) (ht : t.leaves = false) :
    Ends k w (.ok t) := by
  change _ = EStateM.Result.ok t.leaves (k.after t)
  rw [ht, run_bind_of_ok h]
  rfl

theorem Ends.of_error (h : w.run k = .error e k) : Ends k w (.error e) :=
  run_bind_of_error h

/-- Work that looks at the console first. -/
theorem ends_get {f : Console α → Work α Unit} {x : Except LineError (Turn α)}
    (h : Ends k (f k) x) : Ends k (get >>= f) x := h

theorem run_get (k : Console α) : (get : Work α (Console α)).run k = .ok k k := rfl

theorem run_change (k : Console α) (f : Session α → Session α) :
    (change f).run k = .ok () ⟨f k.session, k.printed⟩ := rfl

theorem run_print (k : Console α) (line : String) :
    (print line).run k = .ok () ⟨k.session, k.printed ++ [line]⟩ := rfl

theorem run_printIf (k : Console α) (c : Prop) [Decidable c] (line : String) :
    (printIf c line).run k = .ok () ⟨k.session, k.printed ++ if c then [line] else []⟩ := by
  unfold printIf
  by_cases hc : c
  · rw [if_pos hc, if_pos hc, run_print]
  · rw [if_neg hc, if_neg hc, List.append_nil]
    rfl

theorem run_printAll (k : Console α) (lines : List String) :
    (printAll lines).run k = .ok () ⟨k.session, k.printed ++ lines⟩ := by
  induction lines generalizing k with
  | nil =>
    rw [List.append_nil]
    rfl
  | cons line lines ih =>
    unfold printAll
    rw [run_bind_of_ok (run_print k line), ih, List.append_assoc, List.singleton_append]

/-! ## The work for each kind of line -/

/-- Reply to the confirmation that waits: it is taken out, and put back while it still waits. -/
def reply (line : String) : Work α Unit := do
  let pending := (← get).session.pending
  change fun s => { s with pending := none }
  match pending with
  | none => pure ()
  | some r =>
    let r := r.apply (.text line)
    printAll r.outcomeLines
    if r.isPending then change fun s => { s with pending := some r }

/-- Move in the history, then print the move. -/
def travel (move : Timeline Snapshot → Timeline Snapshot × List Snapshot)
    (nothing opening : String) : Work α Unit := do
  let (history, moved) := move (← get).session.desk.history
  change fun s => { s with desk := { s.desk with history } }
  printIf (moved.isEmpty = true) nothing
  printAll (moved.map fun x => opening ++ x.command)

/-- Take a report of progress. -/
def report (words : List String) : Work α Unit :=
  match words[1]? with
  | none => throw .noPercentage
  | some w => match Decimal.count UInt32.size w with
    | .error e => throw (.badPercentage e)
    | .ok n => do
      change fun s => { s with progress := some (UInt32.ofNat (min n 100)) }
      print ("Progress set to " ++ Decimal.natString (min n 100) ++ "%.")

theorem ends_reply {r : Confirmation α} (hr : k.session.pending = some r) (line : String) :
    Ends k (reply line) (.ok (k.session.reply r line)) := by
  refine Ends.of_ok ?_ rfl
  unfold reply
  rw [run_bind_of_ok (run_get k), run_bind_of_ok (run_change k _), hr]
  dsimp only
  rw [run_bind_of_ok (run_printAll _ _)]
  unfold Session.reply after
  dsimp only
  -- it is put back, or left out
  split
  · rfl
  · rfl

theorem run_travel (k : Console α) (move : Timeline Snapshot → Timeline Snapshot × List Snapshot)
    (nothing opening : String) :
    (travel move nothing opening).run k =
      let (history, moved) := move k.session.desk.history
      .ok () ⟨{ k.session with desk := { k.session.desk with history } },
        k.printed ++ if moved.isEmpty then [nothing] else moved.map fun x => opening ++ x.command⟩ := by
  unfold travel
  rw [run_bind_of_ok (run_get k)]
  obtain ⟨history, moved⟩ := move k.session.desk.history
  dsimp only
  rw [run_bind_of_ok (run_change k _), run_bind_of_ok (run_printIf _ _ _), run_printAll]
  dsimp only
  rw [List.append_assoc]
  cases moved with
  | nil => simp
  | cons x moved => simp

/-- Work that first reads something stops with nothing done where that cannot be read, if all that
follows only goes on. -/
theorem ends_require {x : Except LineError β} {f : β → Work α Unit} {g : β → Turn α}
    (hf : ∀ b, (f b).run k = .ok () (k.after (g b))) (hg : ∀ b, (g b).leaves = false) :
    Ends k (require x >>= f) (x.map g) := by
  cases x with
  | error e => exact Ends.of_error rfl
  | ok b => exact Ends.of_ok (hf b) (hg b)

theorem ends_report (k : Console α) (words : List String) :
    Ends k (report words) (k.session.report words) := by
  unfold report Session.report
  cases words[1]? with
  | none => exact Ends.of_error rfl
  | some w =>
    dsimp only
    cases Decimal.count UInt32.size w with
    | error e => exact Ends.of_error rfl
    | ok n => exact Ends.of_ok rfl rfl

variable [Grade α]

/-- Carry out a command: print how it was mapped, change the desk, and wait for a reply where the
command needs one. -/
def execute (stamp : Stamp) (typed : Command) : Work α Unit := do
  let s := (← get).session
  let r := s.desk.resolve typed
  printIf (r.command.name ≠ typed.name) (Session.mappedLine r.mapping r.command.name)
  let (desk, o) := s.desk.enhance stamp r.command r.command.text (s.withProgress r.context)
  change fun s => { s with desk }
  printIf (o.appliedHacks.isEmpty = false) ("Hacks: " ++ ", ".intercalate o.appliedHacks)
  if o.response.triggered then
    print o.response.prompt
    change fun s => { s with pending := some o.response }
  else
    print ("Ready: `" ++ r.command.text ++ "`")

theorem run_execute (k : Console α) (stamp : Stamp) (typed : Command) :
    (execute stamp typed).run k = .ok () (k.after (k.session.commanded stamp typed)) := by
  unfold execute Session.commanded after
  rw [run_bind_of_ok (run_get k)]
  dsimp only
  rw [run_bind_of_ok (run_printIf _ _ _)]
  generalize k.session.desk.enhance _ _ _ _ = e
  obtain ⟨desk, o⟩ := e
  dsimp only
  rw [run_bind_of_ok (run_change _ _), run_bind_of_ok (run_printIf _ _ _)]
  by_cases htriggered : o.response.triggered = true
  · rw [if_pos htriggered, if_pos htriggered, if_pos htriggered]
    rw [run_bind_of_ok (run_print _ _), run_change]
    simp
  · rw [if_neg htriggered, if_neg htriggered, if_neg htriggered]
    rw [run_print]
    simp

/-- Read a command and carry it out. -/
def take (stamp : Stamp) (line : String) : Work α Unit := do
  execute stamp (← require (Command.ofLine line))

theorem ends_take (k : Console α) (stamp : Stamp) (line : String) :
    Ends k (take stamp line) (k.session.take stamp line) := by
  rw [Session.take_eq]
  exact ends_require (fun typed => run_execute k stamp typed) fun _ => rfl

/-! ## The work on a line -/

/-- Answer a line that does not leave the session. Its count is read at once, and only the keywords
that need it look at it. -/
def answer (stamp : Stamp) (line : String) : Work α Unit := do
  let words := Text.words line
  let keyword := words.headD ""
  let count := Session.countOf? words
  if keyword = "help" then printAll Session.helpLines
  else if (← get).session.pending.isSome then reply line
  else match keyword with
    | "undo" => do
      let n ← require count
      travel (·.undoMany (n.getD 1)) "Nothing to undo." "Undone: "
    | "redo" => do
      let n ← require count
      travel (·.redoMany (n.getD 1)) "Nothing to redo." "Redone: "
    | "history" => do
      let n ← require count
      printAll ((← get).session.historyLines n)
    | "status" => do printAll (← get).session.statusLines
    | "progress" => report words
    | _ => take stamp line

/-- Work a line off; whether it leaves the session. -/
def perform (stamp : Stamp) (line : String) : Work α Bool := do
  if line.isEmpty then return false
  let keyword := (Text.words line).headD ""
  if keyword = "quit" || keyword = "exit" then return true
  answer stamp line
  return false

/-- The words that a session understands as the first of a line. -/
def keywords : List String :=
  ["quit", "exit", "help", "undo", "redo", "history", "status", "progress"]

variable {stamp : Stamp} {keyword : String} {rest : List String}

theorem ends_answer (hwords : Text.words line = keyword :: rest)
    (hstays : (keyword = "quit" || keyword = "exit") = false) :
    Ends k (answer stamp line) (k.session.handle stamp line) := by
  unfold answer Session.handle
  dsimp only
  rw [hwords, List.head?_cons, List.headD_cons]
  dsimp only
  rw [hstays, if_neg Bool.false_ne_true]
  by_cases hhelp : keyword = "help"
  · rw [if_pos hhelp, if_pos hhelp]
    exact Ends.of_ok (run_printAll k _) rfl
  rw [if_neg hhelp, if_neg hhelp]
  refine ends_get ?_
  cases hpending : k.session.pending with
  | some r => exact ends_reply hpending line
  | none =>
    rw [if_neg (by simp)]
    dsimp only
    by_cases hkey : keyword ∈ keywords
    · simp only [keywords, List.mem_cons, List.not_mem_nil, or_false] at hkey
      rcases hkey with rfl | rfl | rfl | rfl | rfl | rfl | rfl | rfl
      · exact absurd hstays (by decide)
      · exact absurd hstays (by decide)
      · exact absurd rfl hhelp
      · exact ends_require (fun n => run_travel k _ _ _) fun _ => rfl
      · exact ends_require (fun n => run_travel k _ _ _) fun _ => rfl
      · exact ends_require (fun n => run_printAll k _) fun _ => rfl
      · exact Ends.of_ok (run_printAll k _) rfl
      · exact ends_report k _
    · -- no keyword, so the line is read as a command
      simp only [keywords, List.mem_cons, List.not_mem_nil, or_false, not_or] at hkey
      obtain ⟨-, -, -, hundo, hredo, hhistory, hstatus, hprogress⟩ := hkey
      simp only
      exact ends_take k stamp line

/-- **The work on a line ends as the session says**, on every line that is empty or has a word. -/
theorem run_perform (k : Console α) (stamp : Stamp) (h : line = "" ∨ Text.words line ≠ []) :
    (perform stamp line).run k = settle k (k.session.handle stamp line) := by
  rcases h with rfl | hwords
  · change EStateM.Result.ok false k = .ok false ⟨k.session, k.printed ++ []⟩
    rw [List.append_nil]
  obtain ⟨keyword, rest, hkeyword⟩ := List.exists_cons_of_ne_nil hwords
  have hempty : line.isEmpty = false := by
    rw [String.isEmpty_eq_false_iff]
    rintro rfl
    exact hwords rfl
  unfold perform
  dsimp only
  rw [hempty, if_neg Bool.false_ne_true, hkeyword, List.headD_cons]
  by_cases hleaves : (keyword = "quit" || keyword = "exit") = true
  · rw [if_pos hleaves]
    unfold Session.handle
    dsimp only
    rw [hkeyword, List.head?_cons]
    dsimp only
    rw [if_pos hleaves]
    change EStateM.Result.ok true k = .ok true ⟨k.session, k.printed ++ []⟩
    rw [List.append_nil]
  · rw [if_neg hleaves]
    exact ends_answer hkeyword (Bool.eq_false_iff.2 hleaves)

/-- With no blanks around it, a line is empty or has a word. -/
theorem empty_or_words_trim (line : String) :
    Text.trim line = "" ∨ Text.words (Text.trim line) ≠ [] := by
  have htrimmed := Text.trimmed_trimChars line.toList
  have hchars : (Text.trim line).toList = Text.trimChars line.toList := String.toList_ofList
  cases hhead : (Text.trim line).toList.head? with
  | none =>
    rw [List.head?_eq_none_iff, String.toList_eq_nil_iff] at hhead
    exact .inl hhead
  | some c =>
    refine .inr (Text.words_ne_nil hhead (htrimmed.front c ?_))
    rw [← hchars]
    exact hhead

/-- A line of blanks is taken for a reply or for a command without a name. -/
theorem run_perform_blank (k : Console α) (stamp : Stamp) (hne : line ≠ "")
    (hwords : Text.words line = []) :
    (perform stamp line).run k = settle k (match k.session.pending with
      | some r => .ok (k.session.reply r line)
      | none => .error .noCommand) := by
  have hempty : line.isEmpty = false := String.isEmpty_eq_false_iff.2 hne
  have hread : Command.ofLine line = .error .noCommand := by
    unfold Command.ofLine
    rw [hwords]
  unfold perform
  dsimp only
  rw [hempty, if_neg Bool.false_ne_true, hwords, List.headD_nil, if_neg (by decide)]
  unfold answer
  dsimp only
  rw [hwords, List.headD_nil, if_neg (by decide)]
  refine ends_get ?_
  cases hpending : k.session.pending with
  | some r => exact ends_reply hpending line
  | none =>
    have htake := ends_take k stamp line
    rw [Session.take_eq, hread] at htake
    exact htake

/-! ## Conversations -/

/-- Work off a line with blanks around it, going on from where the work has led. When it stops, the
reason is printed. -/
def advance (k : Console α) (l : Stamp × String) : Console α :=
  match (perform l.1 (Text.trim l.2)).run k with
  | .ok _ k => k
  | .error e k => ⟨k.session, k.printed ++ ["error: " ++ e.message]⟩

/-- Work off lines, one after the other. -/
def converse (k : Console α) (lines : List (Stamp × String)) : Console α := lines.foldl advance k

theorem advance_eq (k : Console α) (l : Stamp × String) :
    k.advance l = k.after (k.session.turn l.1 l.2) := by
  unfold advance Session.turn
  rw [run_perform k l.1 (empty_or_words_trim l.2)]
  cases k.session.handle l.1 (Text.trim l.2) with
  | ok t => rfl
  | error e => rfl

/-- **A conversation at a console is a run of its session.** -/
theorem session_converse (k : Console α) (lines : List (Stamp × String)) :
    (k.converse lines).session = k.session.run lines := by
  induction lines generalizing k with
  | nil => rfl
  | cons l lines ih =>
    have hfirst : k.converse (l :: lines) = (k.advance l).converse lines := rfl
    rw [hfirst, ih, advance_eq, Session.run_cons]
    unfold after
    dsimp only

end Console

end CommandDesk
