import CommandDesk.Proofs.Distance.Rows
import Mathlib.Order.Bounds.Basic

/-!
# Edits that turn one text into another

A character can be inserted, deleted or replaced, at any place and in any order.
One such edit brings a text closer to another one by one at most (`near_of_apply`),
so no list of edits is shorter than the distance (`recursive_le_length`). One that
is no longer is read off the recursion (`reaches_recursive`). The distance is
therefore the least number of edits (`isLeast_between`).
-/

namespace CommandDesk

namespace Distance

/-- An edit of one character. -/
inductive Edit where
  | insert (place : Nat) (c : Char)
  | delete (place : Nat)
  | substitute (place : Nat) (c : Char)

namespace Edit

/-- Make an edit, if the text has its place. -/
def apply : Edit → List Char → Option (List Char)
  | insert i c, s => if i ≤ s.length then some (s.take i ++ c :: s.drop i) else none
  | delete i, s => if i < s.length then some (s.take i ++ s.drop (i + 1)) else none
  | substitute i c, s => if i < s.length then some (s.take i ++ c :: s.drop (i + 1)) else none

/-- The edit one place further on. -/
def later : Edit → Edit
  | insert i c => insert (i + 1) c
  | delete i => delete (i + 1)
  | substitute i c => substitute (i + 1) c

end Edit

/-- Make edits one after the other. -/
def turn (edits : List Edit) (s : List Char) : Option (List Char) :=
  edits.foldlM (fun s e => e.apply s) s

theorem turn_cons (e : Edit) (edits : List Edit) (s : List Char) :
    turn (e :: edits) s = (e.apply s).bind (turn edits) := rfl

/-! ## No list of edits is shorter -/

/-- To any text the distance from `s` is at most one more than that from `s'`. -/
def Near (s s' : List Char) : Prop := ∀ t, recursive s t ≤ recursive s' t + 1

theorem near_cons_self (a : Char) (s : List Char) : Near (a :: s) s := by
  intro t
  cases t with
  | nil => simp
  | cons c t =>
    rw [recursive_cons]
    omega

theorem near_self_cons (a : Char) (s : List Char) : Near s (a :: s) := by
  intro t
  -- over the other text, since the recursion may insert its first character and go on
  induction t with
  | nil =>
    rw [recursive_nil_right, recursive_nil_right, List.length_cons]
    omega
  | cons c t ih =>
    have hinsert : recursive s (c :: t) ≤ recursive s t + 1 := by
      cases s with
      | nil => simp
      | cons b s =>
        rw [recursive_cons]
        omega
    rw [recursive_cons]
    omega

theorem near_replaced (a b : Char) (s : List Char) : Near (a :: s) (b :: s) := by
  intro t
  induction t with
  | nil => simp
  | cons c t ih =>
    have hcost := exchange_le_one a c
    rw [recursive_cons, recursive_cons]
    omega

/-- A character before both texts makes no difference. -/
theorem Near.cons {s s' : List Char} (h : Near s s') (a : Char) : Near (a :: s) (a :: s') := by
  intro t
  induction t with
  | nil =>
    have hnil := h []
    rw [recursive_nil_right, recursive_nil_right] at hnil ⊢
    rw [List.length_cons, List.length_cons]
    omega
  | cons c t ih =>
    have hdelete := h (c :: t)
    have hexchange := h t
    rw [recursive_cons, recursive_cons]
    omega

theorem Near.append {s s' : List Char} (h : Near s s') (p : List Char) :
    Near (p ++ s) (p ++ s') := by
  induction p with
  | nil => exact h
  | cons a p ih => exact ih.cons a

/-- **One edit** brings a text closer to another one by one at most. -/
theorem near_of_apply {e : Edit} {s s' : List Char} (h : e.apply s = some s') : Near s s' := by
  cases e with
  | insert i c =>
    obtain ⟨-, hs'⟩ := Option.ite_none_right_eq_some.1 h
    have hnear := (near_self_cons c (s.drop i)).append (s.take i)
    rw [List.take_append_drop, Option.some.inj hs'] at hnear
    exact hnear
  | delete i =>
    obtain ⟨hi, hs'⟩ := Option.ite_none_right_eq_some.1 h
    have hnear := (near_cons_self s[i] (s.drop (i + 1))).append (s.take i)
    rw [List.getElem_cons_drop, List.take_append_drop, Option.some.inj hs'] at hnear
    exact hnear
  | substitute i c =>
    obtain ⟨hi, hs'⟩ := Option.ite_none_right_eq_some.1 h
    have hnear := (near_replaced s[i] c (s.drop (i + 1))).append (s.take i)
    rw [List.getElem_cons_drop, List.take_append_drop, Option.some.inj hs'] at hnear
    exact hnear

theorem recursive_self (s : List Char) : recursive s s = 0 := by
  induction s with
  | nil => simp
  | cons a s ih =>
    have hfree : exchange a a = 0 := if_pos rfl
    rw [recursive_cons]
    omega

/-- **No list of edits is shorter than the distance.** -/
theorem recursive_le_length {edits : List Edit} {s t : List Char} (h : turn edits s = some t) :
    recursive s t ≤ edits.length := by
  induction edits generalizing s with
  | nil =>
    rw [Option.some.inj h, recursive_self]
    exact Nat.zero_le _
  | cons e edits ih =>
    rw [turn_cons] at h
    obtain ⟨s', he, hrest⟩ := Option.bind_eq_some_iff.1 h
    have hstep := near_of_apply he t
    have hrun := ih hrest
    rw [List.length_cons]
    omega

/-! ## One list of edits is no longer -/

/-- Some list of `n` edits turns `s` into `t`. -/
def Reaches (n : Nat) (s t : List Char) : Prop := ∃ edits, turn edits s = some t ∧ edits.length = n

theorem apply_later (e : Edit) (a : Char) (s : List Char) :
    e.later.apply (a :: s) = (e.apply s).map (a :: ·) := by
  cases e <;> simp [Edit.later, Edit.apply, apply_ite]

/-- Edits one place further on leave the first character alone. -/
theorem turn_map_later (edits : List Edit) (a : Char) (s : List Char) :
    turn (edits.map Edit.later) (a :: s) = (turn edits s).map (a :: ·) := by
  induction edits generalizing s with
  | nil => rfl
  | cons e edits ih =>
    rw [List.map_cons, turn_cons, turn_cons, apply_later]
    cases e.apply s with
    | none => rfl
    | some s' => exact ih s'

namespace Reaches

variable {n : Nat} {s t : List Char}

theorem keep (h : Reaches n s t) (a : Char) : Reaches n (a :: s) (a :: t) := by
  obtain ⟨edits, hturn, hlength⟩ := h
  refine ⟨edits.map Edit.later, ?_, (List.length_map _).trans hlength⟩
  rw [turn_map_later, hturn]
  rfl

/-- One more edit at the front, before the others. -/
theorem of_apply {e : Edit} {s' : List Char} (h : Reaches n s' t) (he : e.apply s = some s') :
    Reaches (n + 1) s t := by
  obtain ⟨edits, hturn, hlength⟩ := h
  refine ⟨e :: edits, ?_, congrArg (· + 1) hlength⟩
  rw [turn_cons, he]
  exact hturn

theorem delete (h : Reaches n s t) (a : Char) : Reaches (n + 1) (a :: s) t :=
  h.of_apply (e := .delete 0) rfl

theorem insert (h : Reaches n s t) (c : Char) : Reaches (n + 1) s (c :: t) :=
  (h.keep c).of_apply (e := .insert 0 c) rfl

theorem exchange (h : Reaches n s t) (a c : Char) :
    Reaches (n + Distance.exchange a c) (a :: s) (c :: t) := by
  unfold Distance.exchange
  split
  · rename_i hac
    subst hac
    exact h.keep a
  · exact (h.keep c).of_apply (e := .substitute 0 c) rfl

end Reaches

/-- **The recursion is a list of edits**: each of its ways is an edit at the front, or none. -/
theorem reaches_recursive (s t : List Char) : Reaches (recursive s t) s t := by
  fun_induction recursive s t with
  | case1 t =>
    induction t with
    | nil => exact ⟨[], rfl, rfl⟩
    | cons c t ih => exact ih.insert c
  | case2 a s =>
    have hempty : ∀ s : List Char, Reaches s.length s [] := by
      intro s
      induction s with
      | nil => exact ⟨[], rfl, rfl⟩
      | cons a s ih => exact ih.delete a
    exact hempty (a :: s)
  | case3 a s c t hdelete hinsert hexchange =>
    have hleast : ∀ x y z : Nat, min (min x y) z = x ∨ min (min x y) z = y ∨
        min (min x y) z = z := by omega
    rcases hleast (recursive s (c :: t) + 1) (recursive (a :: s) t + 1)
      (recursive s t + exchange a c) with h | h | h
    · rw [h]
      exact hdelete.delete a
    · rw [h]
      exact hinsert.insert c
    · rw [h]
      exact hexchange.exchange a c

/-- **The edit distance is the least number of edits** that turn the one text into the other. It
is computed row by row, by the recursion, and by two rows that are filled in place alike. -/
theorem isLeast_between (a b : String) :
    IsLeast {n | ∃ edits : List Edit, turn edits a.toList = some b.toList ∧ edits.length = n}
        (between a b) ∧
      between a b = recursive a.toList b.toList ∧
      inPlace a.toList b.toList = between a b := by
  have hrecursive : between a b = recursive a.toList b.toList :=
    ofChars_eq_recursive a.toList b.toList
  refine ⟨⟨?_, ?_⟩, hrecursive, inPlace_eq_ofChars a.toList b.toList⟩
  · rw [hrecursive]
    exact reaches_recursive a.toList b.toList
  · rintro n ⟨edits, hturn, rfl⟩
    rw [hrecursive]
    exact recursive_le_length hturn

/-- Two characters are replaced and one is inserted. -/
example : between "kitten" "sitting" = 3 := by decide

end Distance

end CommandDesk
