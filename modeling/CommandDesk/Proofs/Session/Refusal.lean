import CommandDesk.Proofs.Session.Console

/-!
# A refused line leaves no trace

The reasons to refuse a line are in the line (`Refusal`), and a line is refused
for one of them exactly while nothing waits for a reply. Work on it then stops
before its first step that changes or prints anything (`run_perform_eq_error_iff`),
so the session and what has been printed are as they were, and a conversation goes
on as if the line had not been there (`refused_leaves_no_trace`).
-/

namespace CommandDesk

namespace Console

variable {α β γ : Type} {k k' : Console α} {stamp : Stamp} {line : String} {e : LineError}

/-- The reasons to refuse a line. -/
inductive Refusal (line : String) : LineError → Prop
  | count {e : LineError} (hkey : (Text.words line).headD "" ∈ ["undo", "redo", "history"])
      (h : Session.countOf? (Text.words line) = .error e) : Refusal line e
  | noPercentage (hkey : (Text.words line).headD "" = "progress")
      (h : (Text.words line)[1]? = none) : Refusal line .noPercentage
  | badPercentage {w : String} {e : Decimal.CountError}
      (hkey : (Text.words line).headD "" = "progress") (hw : (Text.words line)[1]? = some w)
      (h : Decimal.count UInt32.size w = .error e) : Refusal line (.badPercentage e)
  | command {e : LineError} (hne : line ≠ "") (hkey : (Text.words line).headD "" ∉ keywords)
      (h : Command.ofLine line = .error e) : Refusal line e

theorem map_eq_error_iff {x : Except LineError β} {f : β → γ} :
    x.map f = .error e ↔ x = .error e := by
  cases x with
  | error d => exact ⟨fun h => by cases h; rfl, fun h => by cases h; rfl⟩
  | ok b => exact iff_of_false (fun h => by cases h) (fun h => by cases h)

/-- A report of progress is refused for want of a number. -/
theorem refusal_of_report {s : Session α} (hkey : (Text.words line).headD "" = "progress")
    (h : s.report (Text.words line) = .error e) : Refusal line e := by
  unfold Session.report at h
  split at h
  · rename_i hnone
    cases h
    exact .noPercentage hkey hnone
  · rename_i w hw
    split at h
    · rename_i d hd
      cases h
      exact .badPercentage hkey hw hd
    · cases h

/-- A line without words is refused as a command without a name, unless it is empty. -/
theorem refusal_iff_of_no_words (hwords : Text.words line = []) :
    Refusal line e ↔ line ≠ "" ∧ e = .noCommand := by
  have hread : Command.ofLine line = .error .noCommand := by
    unfold Command.ofLine
    rw [hwords]
  constructor
  · intro hrefusal
    cases hrefusal with
    | count hkey h | noPercentage hkey h | badPercentage hkey hw h =>
      rw [hwords] at hkey
      exact absurd hkey (by decide)
    | command hne hkey h =>
      rw [hread] at h
      exact ⟨hne, (Except.error.inj h).symm⟩
  · rintro ⟨hne, rfl⟩
    refine .command hne ?_ hread
    rw [hwords]
    decide

theorem settle_eq_error_iff {x : Except LineError (Turn α)} :
    settle k x = .error e k' ↔ k' = k ∧ x = .error e := by
  cases x with
  | error d =>
    constructor
    · intro h
      cases h
      exact ⟨rfl, rfl⟩
    · rintro ⟨rfl, h⟩
      cases h
      rfl
  | ok t => exact iff_of_false (fun h => by cases h) (fun h => by cases h.2)

variable [Grade α]

/-- What a session refuses has a reason in the line, and nothing waits. -/
theorem refusal_of_handle {s : Session α} (hwords : Text.words line ≠ [])
    (h : s.handle stamp line = .error e) : s.pending = none ∧ Refusal line e := by
  obtain ⟨keyword, rest, hkeyword⟩ := List.exists_cons_of_ne_nil hwords
  have hhead : (Text.words line).headD "" = keyword := by rw [hkeyword, List.headD_cons]
  unfold Session.handle at h
  dsimp only at h
  rw [hkeyword, List.head?_cons] at h
  dsimp only at h
  split_ifs at h with hleaves hhelp
  cases hpending : s.pending with
  | some r =>
    rw [hpending] at h
    cases h
  | none =>
    rw [hpending, ← hkeyword] at h
    refine ⟨rfl, ?_⟩
    dsimp only at h
    split at h
    · exact .count (by rw [hhead]; decide) (map_eq_error_iff.1 h)
    · exact .count (by rw [hhead]; decide) (map_eq_error_iff.1 h)
    · exact .count (by rw [hhead]; decide) (map_eq_error_iff.1 h)
    · cases h
    · exact refusal_of_report hhead h
    · -- no keyword, so the line was read as a command
      rename_i hundo hredo hhistory hstatus hprogress
      rw [Session.take_eq] at h
      have hstays : keyword ≠ "quit" ∧ keyword ≠ "exit" := by simpa using hleaves
      have hne : line ≠ "" := by
        rintro rfl
        exact hwords rfl
      refine .command hne ?_ (map_eq_error_iff.1 h)
      rw [hhead]
      simp only [keywords, List.mem_cons, List.not_mem_nil, or_false, not_or]
      exact ⟨hstays.1, hstays.2, hhelp, hundo, hredo, hhistory, hstatus, hprogress⟩

/-- A reason in the line makes a session refuse it while nothing waits. -/
theorem Refusal.handle_eq_error {s : Session α} (hrefusal : Refusal line e)
    (hwords : Text.words line ≠ []) (hpending : s.pending = none) :
    s.handle stamp line = .error e := by
  obtain ⟨keyword, rest, hkeyword⟩ := List.exists_cons_of_ne_nil hwords
  have hhead : (Text.words line).headD "" = keyword := by rw [hkeyword, List.headD_cons]
  unfold Session.handle
  dsimp only
  rw [hkeyword, List.head?_cons]
  dsimp only
  rw [hpending, ← hkeyword]
  cases hrefusal with
  | count hkey h =>
    rw [hhead] at hkey
    simp only [List.mem_cons, List.not_mem_nil, or_false] at hkey
    rcases hkey with rfl | rfl | rfl
    · exact map_eq_error_iff.2 h
    · exact map_eq_error_iff.2 h
    · exact map_eq_error_iff.2 h
  | noPercentage hkey h =>
    obtain rfl : keyword = "progress" := hhead.symm.trans hkey
    change s.report (Text.words line) = _
    unfold Session.report
    rw [h]
  | badPercentage hkey hw h =>
    obtain rfl : keyword = "progress" := hhead.symm.trans hkey
    change s.report (Text.words line) = _
    unfold Session.report
    rw [hw]
    dsimp only
    rw [h]
  | command hne hkey h =>
    rw [hhead] at hkey
    simp only [keywords, List.mem_cons, List.not_mem_nil, or_false, not_or] at hkey
    obtain ⟨hquit, hexit, hhelp, hundo, hredo, hhistory, hstatus, hprogress⟩ := hkey
    rw [if_neg (by simp [hquit, hexit]), if_neg hhelp]
    simp only
    rw [Session.take_eq]
    exact map_eq_error_iff.2 h

/-- **Work on a line stops** for a reason in the line, while nothing waits, and with nothing done. -/
theorem run_perform_eq_error_iff :
    (perform stamp line).run k = .error e k' ↔
      k' = k ∧ k.session.pending = none ∧ Refusal line e := by
  by_cases hwords : Text.words line = []
  · rw [refusal_iff_of_no_words hwords]
    by_cases hne : line = ""
    · rw [run_perform k stamp (.inl hne), settle_eq_error_iff]
      subst hne
      exact iff_of_false (fun h => by cases h.2) (fun h => h.2.2.1 rfl)
    rw [run_perform_blank k stamp hne hwords, settle_eq_error_iff]
    refine and_congr_right fun _ => ?_
    cases k.session.pending with
    | some r => exact iff_of_false (fun h => by cases h) (fun h => by cases h.1)
    | none =>
      constructor
      · intro h
        exact ⟨rfl, hne, (Except.error.inj h).symm⟩
      · rintro ⟨-, -, rfl⟩
        rfl
  · rw [run_perform k stamp (.inr hwords), settle_eq_error_iff]
    refine and_congr_right fun _ => ⟨refusal_of_handle hwords, ?_⟩
    rintro ⟨hpending, hrefusal⟩
    exact hrefusal.handle_eq_error hwords hpending

/-- **A refused line leaves no trace.** Whatever the session has come to, work on a line stops
exactly for one of the reasons in the line, and only while nothing waits for a reply; it then leaves
the whole session and all that is printed as they were. So a conversation goes on after a line that
is refused as if the line had not been there. -/
theorem refused_leaves_no_trace (k : Console α) (stamp : Stamp) (line : String) :
    (∀ e k', (perform stamp line).run k = .error e k' ↔
        k' = k ∧ k.session.pending = none ∧ Refusal line e) ∧
      ∀ e k', (perform stamp (Text.trim line)).run k = .error e k' →
        k.session.turn stamp line = { session := k.session, answer := ["error: " ++ e.message] } ∧
          ∀ later, (k.converse ((stamp, line) :: later)).session = (k.converse later).session := by
  refine ⟨fun e k' => run_perform_eq_error_iff, fun e k' h => ?_⟩
  have hk : k' = k := (run_perform_eq_error_iff.1 h).1
  subst hk
  rw [run_perform _ stamp (empty_or_words_trim line), settle_eq_error_iff] at h
  have hturn : k'.session.turn stamp line =
      { session := k'.session, answer := ["error: " ++ e.message] } := by
    unfold Session.turn
    rw [h.2]
  refine ⟨hturn, fun later => ?_⟩
  rw [session_converse, session_converse, Session.run_cons, hturn]

/-- A count that is no number, after a command that was asked about and cancelled. -/
theorem refused_leaves_no_trace_undo_two :
    let k : Console Float := (⟨Session.start Session.deletionDesk, []⟩ : Console Float).converse
      [(⟨1, 0⟩, "/delete-file @file:old.csv"), (⟨2, 0⟩, "no")]
    k.session.desk.history.done.length = 1 ∧
      (perform ⟨3, 0⟩ "undo two").run k = .error (.badCount .notADigit) k ∧
      ∀ later, (k.converse ((⟨3, 0⟩, "undo two") :: later)).session = (k.converse later).session := by
  intro k
  have hstate : k.session.desk.history.done.length = 1 ∧ k.session.pending.isNone = true := by
    decide +kernel
  -- from here on it does not matter how the session came about
  clear_value k
  have hpending : k.session.pending = none := Option.isNone_iff_eq_none.1 hstate.2
  have hrefusal : Refusal "undo two" (.badCount .notADigit) :=
    .count (by decide +kernel) rfl
  have htrim : Text.trim "undo two" = "undo two" := by decide +kernel
  obtain ⟨hstops, hgone⟩ := refused_leaves_no_trace k ⟨3, 0⟩ "undo two"
  have hperform := (hstops (.badCount .notADigit) k).2 ⟨rfl, hpending, hrefusal⟩
  rw [htrim] at hgone
  exact ⟨hstate.1, hperform, (hgone _ k hperform).2⟩

end Console

end CommandDesk
