import CommandDesk.Timeline

/-!
# A history as a tape with a cursor

A tape lists what was done in the order in which it was done, with a cursor before
what was undone. A timeline keeps the two sides of the cursor apart and never looks
at their sum, yet whatever moves are made it answers as the tape does and shows its
two sides, within the limit (`run_ofLimit`). That the sum stays within the limit
is what the check in `push` rests on, so it is carried along (`Sound`).
-/

namespace CommandDesk

variable {σ : Type}

/-- What can be done with a history. -/
inductive Move (σ : Type) where
  | push (s : σ)
  | undo
  | redo
  | undoMany (n : Nat)
  | redoMany (n : Nat)
  | clear
  | clearUndone

/-- Make moves in turn, and what each of them gives back. -/
def Move.run {S : Type} (step : S → Move σ → S × List σ) (s : S) :
    List (Move σ) → S × List (List σ)
  | [] => (s, [])
  | m :: ms =>
    let (next, answer) := step s m
    let (last, answers) := run step next ms
    (last, answer :: answers)

/-- Two machines that answer every move alike, and stay related, answer every run alike. -/
theorem Move.run_simulates {S T : Type} {step : S → Move σ → S × List σ}
    {step' : T → Move σ → T × List σ} {R : S → T → Prop}
    (hstep : ∀ s t m, R s t → R (step s m).1 (step' t m).1 ∧ (step s m).2 = (step' t m).2)
    (ms : List (Move σ)) {s : S} {t : T} (h : R s t) :
    R (run step s ms).1 (run step' t ms).1 ∧ (run step s ms).2 = (run step' t ms).2 := by
  induction ms generalizing s t with
  | nil => exact ⟨h, rfl⟩
  | cons m ms ih =>
    obtain ⟨hnext, hanswer⟩ := hstep s t m h
    obtain ⟨hlast, hanswers⟩ := ih hnext
    refine ⟨hlast, ?_⟩
    change (step s m).2 :: _ = (step' t m).2 :: _
    rw [hanswer, hanswers]

/-- Entries, the oldest first, and how many of them are before the cursor. -/
structure Tape (σ : Type) where
  entries : List σ
  cursor : Nat

namespace Tape

/-- The tape without entries. -/
def empty : Tape σ := ⟨[], 0⟩

/-- Drop the oldest entry when there are more than the limit. -/
def dropOldest (limit : Nat) (es : List σ) : List σ := if limit < es.length then es.tail else es

/-- Cut the tape off at the cursor and append an entry. -/
def push (limit : Nat) (T : Tape σ) (s : σ) : Tape σ :=
  let es := dropOldest limit (T.entries.take T.cursor ++ [s])
  ⟨es, es.length⟩

/-- Make a move. Undoing and redoing move the cursor, and give back what it crosses. -/
def move (limit : Nat) (T : Tape σ) : Move σ → Tape σ × List σ
  | .push s => (T.push limit s, [])
  | .undo => ({ T with cursor := T.cursor - 1 },
      if T.cursor = 0 then [] else (T.entries[T.cursor - 1]?).toList)
  | .redo => ({ T with cursor := min (T.cursor + 1) T.entries.length },
      (T.entries[T.cursor]?).toList)
  | .undoMany n => ({ T with cursor := T.cursor - n },
      ((T.entries.take T.cursor).drop (T.cursor - n)).reverse)
  | .redoMany n => ({ T with cursor := min (T.cursor + n) T.entries.length },
      (T.entries.drop T.cursor).take n)
  | .clear => (empty, [])
  | .clearUndone => ({ T with entries := T.entries.take T.cursor }, [])

end Tape

namespace Timeline

/-- Make a move, and what it gives back. -/
def move (t : Timeline σ) : Move σ → Timeline σ × List σ
  | .push s => (t.push s, [])
  | .undo => (t.undo, t.nextUndo.toList)
  | .redo => (t.redo, t.nextRedo.toList)
  | .undoMany n => t.undoMany n
  | .redoMany n => t.redoMany n
  | .clear => (t.clear, [])
  | .clearUndone => (t.clearUndone, [])

/-- The tape that a timeline stands for. -/
def tape (t : Timeline σ) : Tape σ := ⟨t.done.reverse ++ t.undone, t.done.length⟩

/-- The two sides in each other's place, so that undoing becomes redoing. -/
def swap (t : Timeline σ) : Timeline σ := ⟨t.limit, t.undone, t.done⟩

/-- **Both sides together stay within the limit**, which allows for an entry. -/
structure Sound (t : Timeline σ) : Prop where
  limit_pos : 0 < t.limit
  size_le : t.done.length + t.undone.length ≤ t.limit

variable {t : Timeline σ}

/-! ## Several steps at once -/

/-- **Undoing several entries** moves them from one side to the other. -/
theorem undoMany_eq (t : Timeline σ) (n : Nat) :
    t.undoMany n =
      (⟨t.limit, t.done.drop n, (t.done.take n).reverse ++ t.undone⟩, t.done.take n) := by
  induction n generalizing t with
  | zero => rfl
  | succ n ih =>
    obtain ⟨limit, done, undone⟩ := t
    cases done with
    | nil => rfl
    | cons s ss => simp [undoMany, nextUndo, undo, ih]

theorem redoMany_eq_swap (t : Timeline σ) (n : Nat) :
    t.redoMany n = ((t.swap.undoMany n).1.swap, (t.swap.undoMany n).2) := by
  induction n generalizing t with
  | zero => rfl
  | succ n ih =>
    obtain ⟨limit, done, undone⟩ := t
    cases undone with
    | nil => rfl
    | cons s ss =>
      simp only [redoMany, nextRedo, List.head?_cons, redo, ih]
      rfl

theorem undoMany_eq_swap (t : Timeline σ) (n : Nat) :
    t.undoMany n = ((t.swap.redoMany n).1.swap, (t.swap.redoMany n).2) := by
  rw [redoMany_eq_swap]
  rfl

/-- **Redoing several entries** moves them back. -/
theorem redoMany_eq (t : Timeline σ) (n : Nat) :
    t.redoMany n =
      (⟨t.limit, (t.undone.take n).reverse ++ t.done, t.undone.drop n⟩, t.undone.take n) := by
  rw [redoMany_eq_swap, undoMany_eq]
  rfl

/-- **Redoing what was undone** restores the timeline, and gives the same entries in reverse. -/
theorem redoMany_undoMany (t : Timeline σ) (n : Nat) :
    (t.undoMany n).1.redoMany (t.undoMany n).2.length = (t, (t.undoMany n).2.reverse) := by
  have hlength : (t.done.take n).length = (t.done.take n).reverse.length :=
    List.length_reverse.symm
  rw [redoMany_eq, undoMany_eq]
  dsimp only
  rw [hlength, List.take_left, List.drop_left, List.reverse_reverse, List.take_append_drop]

/-- **Undoing what was redone** does too. -/
theorem undoMany_redoMany (t : Timeline σ) (n : Nat) :
    (t.redoMany n).1.undoMany (t.redoMany n).2.length = (t, (t.redoMany n).2.reverse) := by
  have hswap := redoMany_undoMany t.swap n
  rw [undoMany_eq_swap, redoMany_eq_swap t]
  change (((t.swap.undoMany n).1.redoMany (t.swap.undoMany n).2.length).1.swap,
    ((t.swap.undoMany n).1.redoMany (t.swap.undoMany n).2.length).2) = _
  rw [hswap]
  rfl

/-! ## The tape of a timeline -/

theorem take_tape (t : Timeline σ) : t.tape.entries.take t.tape.cursor = t.done.reverse :=
  List.take_left' List.length_reverse

theorem drop_tape (t : Timeline σ) : t.tape.entries.drop t.tape.cursor = t.undone :=
  List.drop_left' List.length_reverse

theorem length_tape (t : Timeline σ) :
    t.tape.entries.length = t.done.length + t.undone.length := by
  simp [tape]

/-- Within the limit, `push` drops the oldest entry just when there are too many. -/
theorem dropOldest_done (h : t.Sound) (s : σ) :
    Tape.dropOldest t.limit (t.done.reverse ++ [s]) = (t.push s).done.reverse := by
  have hsize := h.size_le
  have hpos := h.limit_pos
  have hlength : (t.done.reverse ++ [s]).length = t.done.length + 1 := by simp
  unfold Tape.dropOldest push
  rw [hlength]
  dsimp only
  by_cases hfull : t.done.length = t.limit
  · have hne : t.done.reverse ≠ [] := by
      rw [ne_eq, List.reverse_eq_nil_iff, ← List.length_eq_zero_iff]
      omega
    rw [if_pos hfull, if_pos (by omega), List.tail_append_of_ne_nil hne, List.tail_reverse,
      List.reverse_cons]
  · rw [if_neg hfull, if_neg (by omega), List.reverse_cons]

theorem tape_push (h : t.Sound) (s : σ) : (t.push s).tape = t.tape.push t.limit s := by
  unfold Tape.push
  rw [take_tape, dropOldest_done h]
  unfold tape
  dsimp only
  rw [List.length_reverse]
  congr 1
  exact List.append_nil _

theorem tape_undoMany (t : Timeline σ) (n : Nat) :
    (t.undoMany n).1.tape = { t.tape with cursor := t.tape.cursor - n } := by
  rw [undoMany_eq]
  unfold tape
  dsimp only
  rw [List.length_drop, ← List.append_assoc, ← List.reverse_append, List.take_append_drop]

theorem tape_redoMany (t : Timeline σ) (n : Nat) :
    (t.redoMany n).1.tape =
      { t.tape with cursor := min (t.tape.cursor + n) t.tape.entries.length } := by
  rw [redoMany_eq, length_tape]
  unfold tape
  dsimp only
  rw [List.reverse_append, List.reverse_reverse, List.append_assoc, List.take_append_drop,
    List.length_append, List.length_reverse, List.length_take]
  congr 1
  omega

theorem answer_undoMany (t : Timeline σ) (n : Nat) :
    (t.undoMany n).2 =
      ((t.tape.entries.take t.tape.cursor).drop (t.tape.cursor - n)).reverse := by
  rw [undoMany_eq, take_tape]
  change t.done.take n = (t.done.reverse.drop (t.done.length - n)).reverse
  rw [List.drop_reverse, List.reverse_reverse]
  rcases Nat.le_total n t.done.length with h | h
  · rw [Nat.sub_sub_self h]
  · rw [List.take_of_length_le h, List.take_of_length_le (by omega)]

theorem answer_redoMany (t : Timeline σ) (n : Nat) :
    (t.redoMany n).2 = (t.tape.entries.drop t.tape.cursor).take n := by
  rw [redoMany_eq, drop_tape]

/-! ## Moves -/

/-- One step back is several with the number one. -/
theorem undoMany_one (t : Timeline σ) : t.undoMany 1 = (t.undo, t.nextUndo.toList) := by
  obtain ⟨limit, done, undone⟩ := t
  cases done <;> rfl

theorem redoMany_one (t : Timeline σ) : t.redoMany 1 = (t.redo, t.nextRedo.toList) := by
  obtain ⟨limit, done, undone⟩ := t
  cases undone <;> rfl

/-- What is undone next stands just before the cursor. -/
theorem nextUndo_eq_tape (t : Timeline σ) :
    t.nextUndo.toList =
      if t.tape.cursor = 0 then [] else (t.tape.entries[t.tape.cursor - 1]?).toList := by
  obtain ⟨limit, done, undone⟩ := t
  cases done with
  | nil => rfl
  | cons s ss => simp [tape, nextUndo]

/-- What is redone next stands just behind it. -/
theorem nextRedo_eq_tape (t : Timeline σ) :
    t.nextRedo = t.tape.entries[t.tape.cursor]? := by
  rw [← List.head?_drop, drop_tape]
  rfl

/-- **Every move keeps both sides within the limit.** -/
theorem Sound.move (h : t.Sound) (m : Move σ) :
    (t.move m).1.Sound ∧ (t.move m).1.limit = t.limit := by
  have hsize := h.size_le
  have hpos := h.limit_pos
  -- a move of the cursor leaves the sum as it is
  have hcursor : ∀ n, ((t.undoMany n).1.Sound ∧ (t.undoMany n).1.limit = t.limit) ∧
      ((t.redoMany n).1.Sound ∧ (t.redoMany n).1.limit = t.limit) := by
    intro n
    rw [undoMany_eq, redoMany_eq]
    refine ⟨⟨⟨hpos, ?_⟩, rfl⟩, ⟨⟨hpos, ?_⟩, rfl⟩⟩ <;>
      simp only [List.length_append, List.length_reverse, List.length_take, List.length_drop] <;>
      omega
  cases m with
  | push s =>
    refine ⟨⟨hpos, ?_⟩, rfl⟩
    change (if t.done.length = t.limit then t.done.dropLast else t.done).length + 1 + 0 ≤ t.limit
    split
    · rw [List.length_dropLast]
      omega
    · omega
  | undo =>
    have hone := (hcursor 1).1
    rw [undoMany_one] at hone
    exact hone
  | redo =>
    have hone := (hcursor 1).2
    rw [redoMany_one] at hone
    exact hone
  | undoMany n => exact (hcursor n).1
  | redoMany n => exact (hcursor n).2
  | clear => exact ⟨⟨hpos, Nat.zero_le _⟩, rfl⟩
  | clearUndone => exact ⟨⟨hpos, Nat.le_trans (Nat.le_add_right _ _) hsize⟩, rfl⟩

/-- A timeline within a limit stands for the tape. -/
structure Represents (limit : Nat) (t : Timeline σ) (T : Tape σ) : Prop where
  sound : t.Sound
  limit_eq : t.limit = limit
  tape_eq : t.tape = T

/-- **The tape answers a move as the timeline does**, and becomes the tape of what the timeline
becomes. -/
theorem move_tape (h : t.Sound) (m : Move σ) :
    (t.move m).1.tape = (t.tape.move t.limit m).1 ∧
      (t.move m).2 = (t.tape.move t.limit m).2 := by
  cases m with
  | push s => exact ⟨tape_push h s, rfl⟩
  | undo =>
    have hone := tape_undoMany t 1
    rw [undoMany_one] at hone
    exact ⟨hone, nextUndo_eq_tape t⟩
  | redo =>
    have hone := tape_redoMany t 1
    rw [redoMany_one] at hone
    exact ⟨hone, congrArg Option.toList (nextRedo_eq_tape t)⟩
  | undoMany n => exact ⟨tape_undoMany t n, answer_undoMany t n⟩
  | redoMany n => exact ⟨tape_redoMany t n, answer_redoMany t n⟩
  | clear => exact ⟨rfl, rfl⟩
  | clearUndone =>
    refine ⟨?_, rfl⟩
    change (⟨t.done.reverse ++ [], t.done.length⟩ : Tape σ) =
      ⟨t.tape.entries.take t.tape.cursor, t.done.length⟩
    rw [take_tape, List.append_nil]

theorem Represents.move {limit : Nat} {T : Tape σ} (h : Represents limit t T) (m : Move σ) :
    Represents limit (t.move m).1 (T.move limit m).1 ∧ (t.move m).2 = (T.move limit m).2 := by
  obtain ⟨hsound, rfl, rfl⟩ := h
  obtain ⟨hnext, hlimit⟩ := hsound.move m
  obtain ⟨htape, hanswer⟩ := move_tape hsound m
  exact ⟨⟨hnext, hlimit, htape⟩, hanswer⟩

/-- A history begins as the empty tape. -/
theorem represents_ofLimit (limit : Nat) :
    Represents (max limit 1) (ofLimit limit : Timeline σ) Tape.empty :=
  ⟨⟨Nat.le_max_right limit 1, Nat.zero_le _⟩, rfl, rfl⟩

/-- **A history is a tape with a cursor.** Whatever moves are made, it answers as the tape does and
shows the two sides of the cursor; both together stay within the limit. What undoing several entries
would undo is what it then undoes, and redoing as many restores the history, and the other way
round. -/
theorem run_ofLimit (limit : Nat) (moves : List (Move σ)) :
    let (t, answers) := Move.run move (ofLimit limit : Timeline σ) moves
    let (T, expected) := Move.run (Tape.move (max limit 1)) Tape.empty moves
    answers = expected ∧
      (t.done = (T.entries.take T.cursor).reverse ∧ t.undone = T.entries.drop T.cursor) ∧
      (t.recent none = (T.entries.take T.cursor).reverse ∧ t.nextRedo = T.entries[T.cursor]?) ∧
      t.done.length + t.undone.length ≤ max limit 1 ∧
      (∀ n, t.preview n = (t.undoMany n).2 ∧ (t.preview n).length = min n t.done.length) ∧
      (∀ n, (t.undoMany n).1.redoMany (t.undoMany n).2.length = (t, (t.undoMany n).2.reverse)) ∧
      (∀ n, (t.redoMany n).1.undoMany (t.redoMany n).2.length = (t, (t.redoMany n).2.reverse)) := by
  obtain ⟨⟨hsound, hlimit, htape⟩, hanswers⟩ :=
    Move.run_simulates (R := Represents (max limit 1)) (fun _ _ m h => h.move m) moves
      (represents_ofLimit limit)
  dsimp only
  refine ⟨hanswers, ?_⟩
  generalize (Move.run move (ofLimit limit : Timeline σ) moves).1 = t at hsound hlimit htape
  rw [← htape, take_tape, drop_tape, List.reverse_reverse, ← hlimit]
  refine ⟨⟨rfl, rfl⟩, ⟨rfl, nextRedo_eq_tape t⟩, hsound.size_le, fun n => ⟨?_, ?_⟩,
    redoMany_undoMany t, undoMany_redoMany t⟩
  · rw [undoMany_eq]
    rfl
  · exact List.length_take

end Timeline

end CommandDesk
