/-!
# A bounded history with undo and redo

What was done is kept with the newest first, and what was undone with the next
to redo first. Doing something new forgets what was undone and, when the
history is full, the oldest entry.
-/

namespace CommandDesk

/-- A history of at least one entry at most. -/
structure Timeline (σ : Type) where
  limit : Nat
  /-- What can be undone, newest first. -/
  done : List σ
  /-- What can be redone, next first. -/
  undone : List σ
  deriving DecidableEq

namespace Timeline

variable {σ : Type}

/-- The number of entries that are kept unless something else is asked for. -/
def standardLimit : Nat := 100

/-- An empty history. -/
def ofLimit (limit : Nat) : Timeline σ := ⟨max limit 1, [], []⟩

/-- Add an entry. -/
def push (t : Timeline σ) (s : σ) : Timeline σ :=
  let kept := if t.done.length = t.limit then t.done.dropLast else t.done
  { t with done := s :: kept, undone := [] }

/-- Undo the newest entry. -/
def undo (t : Timeline σ) : Timeline σ :=
  match t.done with
  | [] => t
  | s :: ss => { t with done := ss, undone := s :: t.undone }

/-- Redo the entry that was undone last. -/
def redo (t : Timeline σ) : Timeline σ :=
  match t.undone with
  | [] => t
  | s :: ss => { t with done := s :: t.done, undone := ss }

/-- What would be undone next. -/
def nextUndo (t : Timeline σ) : Option σ := t.done.head?

/-- What would be redone next. -/
def nextRedo (t : Timeline σ) : Option σ := t.undone.head?

/-- Undo up to `n` entries, and what was undone, newest first. -/
def undoMany (t : Timeline σ) : Nat → Timeline σ × List σ
  | 0 => (t, [])
  | n + 1 => match t.nextUndo with
    | none => (t, [])
    | some s => let (u, ss) := t.undo.undoMany n; (u, s :: ss)

/-- Redo up to `n` entries, and what was redone, in order. -/
def redoMany (t : Timeline σ) : Nat → Timeline σ × List σ
  | 0 => (t, [])
  | n + 1 => match t.nextRedo with
    | none => (t, [])
    | some s => let (u, ss) := t.redo.redoMany n; (u, s :: ss)

/-- The newest entries, all of them if no number is given. -/
def recent (t : Timeline σ) (n : Option Nat) : List σ :=
  match n with
  | some n => t.done.take n
  | none => t.done

/-- What undoing `n` entries would undo. -/
def preview (t : Timeline σ) (n : Nat) : List σ := t.done.take n

/-- Forget everything. -/
def clear (t : Timeline σ) : Timeline σ := { t with done := [], undone := [] }

/-- Forget what was undone. -/
def clearUndone (t : Timeline σ) : Timeline σ := { t with undone := [] }

/-- The number of entries, done and undone. -/
def size (t : Timeline σ) : Nat := t.done.length + t.undone.length

end Timeline

end CommandDesk
