import CommandDesk.Proofs.Confirmation.Course
import CommandDesk.Proofs.Desk.Enhance
import CommandDesk.Session.Basic

/-!
# A confirmation blocks its session

What waits in a session was asked for and is still undecided: that is kept by
every turn (`isPending_turn`) and so by a whole run. While it waits, a line can
leave the session, ask for help, or reply (`answersPending_turn`); a reply either
leaves the session as it is or only takes the confirmation away. So the desk and
the progress stay what they are until the confirmation is decided
(`pending_blocks`).
-/

namespace CommandDesk

namespace Confirmation

variable {α : Type} {r : Confirmation α}

theorem isPending_iff : r.isPending = true ↔ r.triggered = true ∧ r.status = .pending := by
  simp [isPending]

/-- **A reply that leaves a confirmation pending changes nothing in it.** -/
theorem apply_of_pending {a : Reply} (h : (r.apply a).status = .pending) : r.apply a = r := by
  have hbecomes : r.Becomes (r.apply a) := becomes_step r (.reply a)
  generalize r.apply a = s at h hbecomes
  cases hbecomes with
  | unchanged => rfl
  | confirmed | modified | cancelled | timedOut => cases h

/-- The protocol hands out confirmations that are undecided. -/
theorem isPending_check [Grade α] {p : Protocol α} {command : Command} {c : Context α}
    (h : (p.check command c).triggered = true) : (p.check command c).isPending = true := by
  refine isPending_iff.2 ⟨h, ?_⟩
  rcases p.check_cases command c with ⟨-, hcheck⟩ | ⟨-, o, -, t, -, -, -, hcheck⟩
  · rw [hcheck]
    rfl
  · rw [hcheck]
    rfl

end Confirmation

namespace Session

variable {α : Type} [Grade α]

/-- The session after lines, each of them taken at its own time. -/
def run (s : Session α) (lines : List (Stamp × String)) : Session α :=
  lines.foldl (fun s l => (s.turn l.1 l.2).session) s

/-- What is known for checking a command, with the progress that was reported. -/
def withProgress (s : Session α) (c : Context α) : Context α :=
  match s.progress with
  | some _ => { c with reportedProgress := s.progress }
  | none => c

/-- What a command that has been read leads to. -/
def commanded (stamp : Stamp) (s : Session α) (typed : Command) : Turn α :=
  let r := s.desk.resolve typed
  let e := s.desk.enhance stamp r.command r.command.text (s.withProgress r.context)
  { session := if e.2.response.triggered
      then { s with desk := e.1, pending := some e.2.response }
      else { s with desk := e.1 }
    answer := (if r.command.name = typed.name then [] else [mappedLine r.mapping r.command.name])
      ++ (if e.2.appliedHacks.isEmpty then [] else ["Hacks: " ++ ", ".intercalate e.2.appliedHacks])
      ++ [if e.2.response.triggered then e.2.response.prompt
        else "Ready: `" ++ r.command.text ++ "`"] }

/-- A confirmation waits whenever one of the lines is taken. -/
def Blocked (s : Session α) (lines : List (Stamp × String)) : Prop :=
  ∀ before l after, lines = before ++ l :: after → (s.run before).pending.isSome = true

/-- What a line can lead to while a confirmation waits. -/
inductive AnswersPending (s : Session α) (r : Confirmation α) (line : String) : Turn α → Prop
  | idle : AnswersPending s r line { session := s }
  | leaves : AnswersPending s r line { session := s, leaves := true }
  | helps : AnswersPending s r line { session := s, answer := helpLines }
  | replies : AnswersPending s r line (s.reply r line)

variable {s : Session α} {r : Confirmation α} {t : Turn α} {stamp : Stamp} {line : String}
variable {l : Stamp × String} {lines : List (Stamp × String)}

/-! ## One line -/

omit [Grade α] in
/-- **A reply** leaves the session as it is, or decides the confirmation and only takes it away. -/
theorem reply_cases (hr : s.pending = some r) (hp : r.isPending = true) (line : String) :
    (s.reply r line).session = s ∨
      ((r.apply (.text line)).status ≠ .pending ∧
        (s.reply r line).session = { s with pending := none }) := by
  unfold reply
  dsimp only
  by_cases hstill : (r.apply (.text line)).isPending = true
  · have hsame := Confirmation.apply_of_pending (Confirmation.isPending_iff.1 hstill).2
    rw [if_pos hstill, hsame, ← hr]
    exact .inl rfl
  · have hquestion := (Confirmation.becomes_step r (.reply (.text line))).sameQuestion
    have htriggered : (r.apply (.text line)).triggered = true :=
      hquestion.triggered.symm.trans (Confirmation.isPending_iff.1 hp).1
    rw [if_neg hstill]
    exact .inr ⟨fun h => hstill (Confirmation.isPending_iff.2 ⟨htriggered, h⟩), rfl⟩

/-- **While a confirmation waits** no line is taken for anything but a reply to it. -/
theorem answersPending_turn (hr : s.pending = some r) (stamp : Stamp) (line : String) :
    AnswersPending s r (Text.trim line) (s.turn stamp line) := by
  unfold turn handle
  dsimp only
  rw [hr]
  cases (Text.words (Text.trim line)).head? with
  | none => exact .idle
  | some keyword =>
    dsimp only
    -- the words that are understood at any time come before the reply
    by_cases hleave : (keyword = "quit" || keyword = "exit") = true
    · rw [if_pos hleave]
      exact .leaves
    · rw [if_neg hleave]
      by_cases hhelp : keyword = "help"
      · rw [if_pos hhelp]
        exact .helps
      · rw [if_neg hhelp]
        exact .replies

/-- So a turn leaves the session as it is, or only takes the confirmation away. -/
theorem session_turn_cases (hr : s.pending = some r) (hp : r.isPending = true) (stamp : Stamp)
    (line : String) :
    (s.turn stamp line).session = s ∨
      ((r.apply (.text (Text.trim line))).status ≠ .pending ∧
        (s.turn stamp line).session = { s with pending := none }) := by
  have hturn := answersPending_turn hr stamp line
  generalize s.turn stamp line = t at hturn
  cases hturn with
  | idle | leaves | helps => exact .inl rfl
  | replies => exact reply_cases hr hp (Text.trim line)

/-! ## What waits is undecided -/

/-- A command is read, and nothing after that is refused. -/
theorem take_eq (stamp : Stamp) (s : Session α) (line : String) :
    s.take stamp line = (Command.ofLine line).map (s.commanded stamp) := by
  unfold take
  cases Command.ofLine line with
  | error e => rfl
  | ok typed =>
    unfold commanded withProgress
    dsimp only [bind, Except.bind, Except.map]
    generalize s.desk.enhance _ _ _ _ = e
    -- the command waits for a reply, or is ready
    by_cases htriggered : e.2.response.triggered = true
    · rw [if_pos htriggered, if_pos htriggered, if_pos htriggered]
      rfl
    · rw [if_neg htriggered, if_neg htriggered, if_neg htriggered]
      rfl

/-- **A command is mapped and checked**, and what comes of that waits where it asks for a reply. -/
theorem session_take (h : s.take stamp line = .ok t) :
    ∃ typed, Command.ofLine line = .ok typed ∧
      let r := s.desk.resolve typed
      let e := s.desk.enhance stamp r.command r.command.text (s.withProgress r.context)
      t.session = if e.2.response.triggered
        then { s with desk := e.1, pending := some e.2.response }
        else { s with desk := e.1 } := by
  rw [take_eq] at h
  cases htyped : Command.ofLine line with
  | error e =>
    rw [htyped] at h
    cases h
  | ok typed =>
    rw [htyped] at h
    have ht : s.commanded stamp typed = t := Except.ok.inj h
    refine ⟨typed, rfl, ?_⟩
    rw [← ht]
    unfold commanded
    dsimp only

/-- A command leaves behind what waited before it, or a confirmation that was asked for. -/
theorem pending_take (h : s.take stamp line = .ok t) :
    t.session.pending = s.pending ∨ ∀ r ∈ t.session.pending, r.isPending = true := by
  obtain ⟨typed, -, hsession⟩ := session_take h
  rw [hsession, Desk.enhance_eq]
  dsimp only
  split
  · rename_i htriggered
    refine .inr fun r hr => ?_
    obtain rfl := Option.some.inj hr
    exact Confirmation.isPending_check htriggered
  · exact .inl rfl

omit [Grade α] in
/-- A report of progress leaves behind what waited before it. -/
theorem pending_report {words : List String} (h : s.report words = .ok t) :
    t.session.pending = s.pending := by
  unfold report at h
  split at h
  · cases h
  · split at h
    · cases h
    · obtain rfl := Except.ok.inj h
      rfl

omit [Grade α] in
/-- A keyword with a count leaves behind what waited before it. -/
theorem pending_counted {words : List String} {f : Option Nat → Turn α}
    (hf : ∀ n, (f n).session.pending = s.pending) (h : (countOf? words).map f = .ok t) :
    t.session.pending = s.pending := by
  cases hcount : countOf? words with
  | error e =>
    rw [hcount] at h
    cases h
  | ok n =>
    rw [hcount] at h
    obtain rfl := Except.ok.inj h
    exact hf n

/-- Where nothing waits, only a command can make something wait. -/
theorem pending_handle (hs : s.pending = none) (h : s.handle stamp line = .ok t) :
    t.session.pending = s.pending ∨ s.take stamp line = .ok t := by
  unfold handle at h
  dsimp only at h
  rw [hs] at h
  split at h
  · obtain rfl := Except.ok.inj h
    exact .inl rfl
  · rename_i keyword hkeyword
    split_ifs at h
    · obtain rfl := Except.ok.inj h
      exact .inl rfl
    · obtain rfl := Except.ok.inj h
      exact .inl rfl
    · dsimp only at h
      split at h
      · exact .inl (pending_counted (fun _ => rfl) h)
      · exact .inl (pending_counted (fun _ => rfl) h)
      · exact .inl (pending_counted (fun _ => rfl) h)
      · obtain rfl := Except.ok.inj h
        exact .inl rfl
      · exact .inl (pending_report h)
      · exact .inr h

/-- **A turn keeps what waits undecided.** -/
theorem isPending_turn (h : ∀ r ∈ s.pending, r.isPending = true) (stamp : Stamp) (line : String) :
    ∀ r ∈ (s.turn stamp line).session.pending, r.isPending = true := by
  cases hs : s.pending with
  | some r =>
    rcases session_turn_cases hs (h r hs) stamp line with hsame | ⟨-, hgone⟩
    · rw [hsame]
      exact h
    · rw [hgone]
      intro r hr
      cases hr
  | none =>
    unfold turn
    cases hhandle : s.handle stamp (Text.trim line) with
    | error e => exact h
    | ok t =>
      dsimp only
      rcases pending_handle hs hhandle with hkept | htaken
      · rw [hkept]
        exact h
      · rcases pending_take htaken with hkept | hasked
        · rw [hkept]
          exact h
        · exact hasked

/-! ## Whole runs -/

theorem run_cons (s : Session α) (l : Stamp × String) (lines : List (Stamp × String)) :
    s.run (l :: lines) = (s.turn l.1 l.2).session.run lines := by
  unfold run
  rw [List.foldl_cons]

theorem blocked_nil (s : Session α) : s.Blocked [] := by
  intro before l after h
  simp at h

theorem blocked_cons_iff :
    s.Blocked (l :: lines) ↔
      s.pending.isSome = true ∧ (s.turn l.1 l.2).session.Blocked lines := by
  constructor
  · intro h
    refine ⟨h [] l lines rfl, fun before k after hlines => ?_⟩
    have hsplit : l :: lines = (l :: before) ++ k :: after := by rw [hlines, List.cons_append]
    have hwaits := h (l :: before) k after hsplit
    rwa [run_cons] at hwaits
  · rintro ⟨hs, hlater⟩ before k after hlines
    cases before with
    | nil => exact hs
    | cons b before =>
      rw [List.cons_append] at hlines
      obtain ⟨rfl, hrest⟩ := List.cons.inj hlines
      rw [run_cons]
      exact hlater before k after hrest

/-- **A run keeps what waits undecided.** -/
theorem isPending_run (h : ∀ r ∈ s.pending, r.isPending = true) (lines : List (Stamp × String)) :
    ∀ r ∈ (s.run lines).pending, r.isPending = true := by
  induction lines generalizing s with
  | nil => exact h
  | cons l lines ih =>
    rw [run_cons]
    exact ih (isPending_turn h l.1 l.2)

/-- **A blocked run** leaves the session as it is, or ends when the confirmation is decided. -/
theorem run_cases (hr : s.pending = some r) (hp : r.isPending = true) (h : s.Blocked lines) :
    s.run lines = s ∨ s.run lines = { s with pending := none } := by
  induction lines generalizing s with
  | nil => exact .inl rfl
  | cons l lines ih =>
    have htail := (blocked_cons_iff.1 h).2
    rw [run_cons]
    rcases session_turn_cases hr hp l.1 l.2 with hsame | ⟨-, hgone⟩
    · rw [hsame] at htail ⊢
      exact ih hr htail
    · -- nothing waits any more, so this was the last line
      rw [hgone] at htail ⊢
      cases lines with
      | nil => exact .inr rfl
      | cons k lines =>
        cases (blocked_cons_iff.1 htail).1

/-- **A pending confirmation blocks the session.** After any lines, whatever waits was asked for, is
undecided, and times out at the end of the input. A line is then only taken as one that leaves, asks
for help or replies; the session stays as it is, unless a reply decides the confirmation, which is
then taken away and nothing else. So over all lines that are taken while something waits the desk and
the progress stay the same. -/
theorem pending_blocks (d : Desk α) (lines : List (Stamp × String)) :
    let s := (start d).run lines
    ∀ r ∈ s.pending,
      (r.triggered = true ∧ r.status = .pending) ∧
      (r.expire = ({ r with status := .timeout }, true) ∧
        s.farewell = "\nConfirmation timed out.\n") ∧
      (∀ stamp line,
        let t := s.turn stamp line
        AnswersPending s r (Text.trim line) t ∧
          (t.session = s ∨ ((r.apply (.text (Text.trim line))).status ≠ .pending ∧
            t.session = { s with pending := none }))) ∧
      ∀ later, s.Blocked later →
        (s.run later = s ∨ s.run later = { s with pending := none }) := by
  intro s r hr
  have hstart : ∀ r ∈ (start d).pending, r.isPending = true := by
    intro r hr
    cases hr
  have hp : r.isPending = true := isPending_run hstart lines r hr
  have htimeout := Confirmation.expire_of_isPending hp
  have hfarewell : s.farewell = "\nConfirmation timed out.\n" := by
    have hs : s.pending = some r := hr
    unfold farewell
    rw [hs]
    exact if_pos (congrArg Prod.snd htimeout)
  refine ⟨Confirmation.isPending_iff.1 hp, ⟨htimeout, hfarewell⟩, fun stamp line => ?_,
    fun later hblocked => ?_⟩
  · exact ⟨answersPending_turn hr stamp line, session_turn_cases hr hp stamp line⟩
  · exact run_cases hr hp hblocked

/-- A desk that knows one command, which deletes. -/
def deletionDesk : Desk Float :=
  { Desk.standard with
    mapper := ⟨Vocabulary.empty.add "delete-file" "delete" 100.0, .standard, .standard⟩ }

/-- A command that deletes is waited on; what other keywords ask for is not done before it is
cancelled. -/
theorem pending_blocks_delete_file :
    let s := (start deletionDesk).run [(⟨1, 0⟩, "/delete-file @file:old.csv")]
    let later : List (Stamp × String) := [(⟨2, 0⟩, "undo"), (⟨3, 0⟩, "progress 40"), (⟨4, 0⟩, "no")]
    ∃ r, s.pending = some r ∧ r.triggered = true ∧ s.Blocked later ∧
      s.run later = { s with pending := none } := by
  dsimp only
  have hall := pending_blocks deletionDesk [(⟨1, 0⟩, "/delete-file @file:old.csv")]
  have hs : ((start deletionDesk).run
      [(⟨1, 0⟩, "/delete-file @file:old.csv")]).pending.isSome = true := by decide +kernel
  have hblocked : ((start deletionDesk).run [(⟨1, 0⟩, "/delete-file @file:old.csv")]).Blocked
      [(⟨2, 0⟩, "undo"), (⟨3, 0⟩, "progress 40"), (⟨4, 0⟩, "no")] := by
    refine blocked_cons_iff.2 ⟨hs, blocked_cons_iff.2 ⟨?_, blocked_cons_iff.2 ⟨?_, blocked_nil _⟩⟩⟩
    · decide +kernel
    · decide +kernel
  have hgone : (((start deletionDesk).run [(⟨1, 0⟩, "/delete-file @file:old.csv")]).run
      [(⟨2, 0⟩, "undo"), (⟨3, 0⟩, "progress 40"), (⟨4, 0⟩, "no")]).pending.isSome = false := by
    decide +kernel
  -- from here on it does not matter how the session came about
  generalize (start deletionDesk).run [(⟨1, 0⟩, "/delete-file @file:old.csv")] = s at *
  obtain ⟨r, hr⟩ := Option.isSome_iff_exists.1 hs
  obtain ⟨⟨htriggered, -⟩, -, -, hrun⟩ := hall r hr
  refine ⟨r, hr, htriggered, hblocked, ?_⟩
  rcases hrun _ hblocked with hsame | hdecided
  · rw [hsame, hs] at hgone
    cases hgone
  · exact hdecided

end Session

end CommandDesk
