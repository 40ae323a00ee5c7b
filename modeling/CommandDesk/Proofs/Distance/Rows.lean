import CommandDesk.Synonym.Distance
import Mathlib.Order.Lattice

/-!
# Rows of distances

The edit distance can be read off by recursion on the first characters of two
texts (`recursive`), and the recursion works from the last characters as well
(`recursive_concat`). So a row of distances follows from the one above it, and
the last entry of the last row is the distance (`ofChars_eq_recursive`). Two rows
that are filled in place and take turns give the same: what is left in a row from
before is written over before it is read (`inPlace_eq_ofChars`).
-/

namespace CommandDesk

namespace Distance

/-- What it costs to let a character stand for another one. -/
def exchange (a c : Char) : Nat := if a = c then 0 else 1

theorem exchange_le_one (a c : Char) : exchange a c ≤ 1 := by
  unfold exchange
  split <;> decide

/-- **The edit distance by recursion.** Either the first character of the one text is deleted, or
that of the other is inserted, or the two stand for each other, at no cost if they are equal. -/
def recursive : List Char → List Char → Nat
  | [], t => t.length
  | a :: s, [] => (a :: s).length
  | a :: s, c :: t =>
    min (min (recursive s (c :: t) + 1) (recursive (a :: s) t + 1))
      (recursive s t + exchange a c)
termination_by s t => s.length + t.length

@[simp]
theorem recursive_nil_left (t : List Char) : recursive [] t = t.length := by
  rw [recursive]

@[simp]
theorem recursive_nil_right (s : List Char) : recursive s [] = s.length := by
  cases s with
  | nil => rw [recursive]
  | cons a s => rw [recursive]

theorem recursive_cons (a c : Char) (s t : List Char) :
    recursive (a :: s) (c :: t) =
      min (min (recursive s (c :: t) + 1) (recursive (a :: s) t + 1))
        (recursive s t + exchange a c) := by
  rw [recursive]

/-- The least of nine ways, taken by rows or by columns. -/
theorem min_rows_eq_min_columns (x₁ x₂ x₃ y₁ y₂ y₃ z₁ z₂ z₃ m n : Nat) :
    min (min (min (min (x₁ + 1) (x₂ + 1)) (x₃ + n) + 1) (min (min (y₁ + 1) (y₂ + 1)) (y₃ + n) + 1))
        (min (min (z₁ + 1) (z₂ + 1)) (z₃ + n) + m) =
      min (min (min (min (x₁ + 1) (y₁ + 1)) (z₁ + m) + 1)
          (min (min (x₂ + 1) (y₂ + 1)) (z₂ + m) + 1))
        (min (min (x₃ + 1) (y₃ + 1)) (z₃ + m) + n) := by
  simp only [← Nat.add_min_add_right, Nat.add_right_comm _ _ 1, Nat.add_right_comm _ n m]
  ac_rfl

/-- **The recursion works from the end**: a step at the front and one at the end can be taken in
either order. -/
theorem recursive_concat (s t : List Char) (a c : Char) :
    recursive (s ++ [a]) (t ++ [c]) =
      min (min (recursive s (t ++ [c]) + 1) (recursive (s ++ [a]) t + 1))
        (recursive s t + exchange a c) := by
  -- over both texts: each way of the recursion takes a character off the front of one or of both
  induction s generalizing t with
  | nil =>
    induction t with
    | nil => simp [recursive_cons]
    | cons e t ih =>
      have hfront := recursive_cons a e [] t
      simp only [List.nil_append, List.cons_append, recursive_cons, recursive_nil_left,
        List.length_append, List.length_cons, List.length_nil] at ih hfront ⊢
      rw [ih]
      omega
  | cons d s ihs =>
    induction t with
    | nil =>
      have hfront := ihs []
      simp only [List.nil_append, List.cons_append, recursive_cons, recursive_nil_right,
        List.length_append, List.length_cons, List.length_nil] at hfront ⊢
      rw [hfront]
      omega
    | cons e t iht =>
      have hdelete := ihs (e :: t)
      have hexchange := ihs t
      simp only [List.cons_append] at hdelete iht ⊢
      -- nine ways: three at the front, each followed by three at the end
      rw [recursive_cons d e (s ++ [a]), hdelete, iht, hexchange, recursive_cons d e s (t ++ [c]),
        recursive_cons d e (s ++ [a]) t, recursive_cons d e s t]
      exact min_rows_eq_min_columns _ _ _ _ _ _ _ _ _ _ _

/-! ## Row by row -/

/-- The distances from `s` to the initial parts of `q ++ t` that are longer than `q`. -/
def onward (s q : List Char) : List Char → List Nat
  | [] => []
  | c :: t => recursive s (q ++ [c]) :: onward s (q ++ [c]) t

theorem length_onward (s q t : List Char) : (onward s q t).length = t.length := by
  induction t generalizing q with
  | nil => rfl
  | cons c t ih => rw [onward, List.length_cons, ih, List.length_cons]

/-- The first row holds the lengths. -/
theorem range_eq_onward (t : List Char) :
    List.range (t.length + 1) = recursive [] [] :: onward [] [] t := by
  have hrest : ∀ q : List Char, List.range' (q.length + 1) t.length = onward [] q t := by
    induction t with
    | nil => exact fun _ => rfl
    | cons c t ih =>
      intro q
      have hq := ih (q ++ [c])
      rw [List.length_append] at hq
      rw [onward, ← hq, recursive_nil_left, List.length_append]
      rfl
  rw [List.range_eq_range', recursive_nil_left, ← hrest]
  rfl

theorem getLastD_onward (s q t : List Char) :
    (recursive s q :: onward s q t).getLastD 0 = recursive s (q ++ t) := by
  induction t generalizing q with
  | nil => rw [List.append_nil]; rfl
  | cons c t ih =>
    have hq := ih (q ++ [c])
    rw [List.append_assoc] at hq
    exact hq

/-- **One row from the one above it**, entry by entry. -/
theorem fillRow_onward (s q t : List Char) (a : Char) :
    fillRow a (recursive (s ++ [a]) q) (recursive s q) t (onward s q t) =
      onward (s ++ [a]) q t := by
  induction t generalizing q with
  | nil => rfl
  | cons c t ih =>
    rw [onward, fillRow, onward, recursive_concat]
    exact congrArg _ (recursive_concat s q a c ▸ ih (q ++ [c]))

theorem nextRow_onward (s t : List Char) (a : Char) :
    nextRow t (recursive s [] :: onward s [] t) a =
      recursive (s ++ [a]) [] :: onward (s ++ [a]) [] t := by
  have hfirst : recursive s [] + 1 = recursive (s ++ [a]) [] := by simp
  rw [nextRow, hfirst, fillRow_onward]

/-- The rows that follow one another hold the distances from longer and longer texts. -/
theorem foldl_nextRow (s p t : List Char) :
    p.foldl (nextRow t) (recursive s [] :: onward s [] t) =
      recursive (s ++ p) [] :: onward (s ++ p) [] t := by
  induction p generalizing s with
  | nil => rw [List.append_nil]; rfl
  | cons a p ih =>
    rw [List.foldl_cons, nextRow_onward, ih, List.append_assoc]
    rfl

/-- **The last entry of the last row** is the distance. -/
theorem ofChars_eq_recursive (s t : List Char) : ofChars s t = recursive s t := by
  unfold ofChars lastRow
  rw [range_eq_onward, foldl_nextRow, getLastD_onward]
  rfl

/-! ## Two rows in place -/

/-- Two rows that take turns: the upper one is complete, the lower one is being filled from the
left, and holds further on what was left there before. -/
structure Rows where
  above : List Nat
  below : List Nat

namespace Rows

/-- Fill the lower row after place `j`, for the character `a` and the characters that follow. -/
def fill (a : Char) (r : Rows) (j : Nat) : List Char → Rows
  | [] => r
  | c :: t =>
    let d := min (min (r.above.getD (j + 1) 0 + 1) (r.below.getD j 0 + 1))
      (r.above.getD j 0 + exchange a c)
    fill a { r with below := r.below.set (j + 1) d } (j + 1) t

/-- Fill the lower row for the character at place `i`, and let the rows take turns. -/
def next (t : List Char) (r : Rows) (i : Nat) (a : Char) : Rows :=
  let filled := fill a { r with below := r.below.set 0 (i + 1) } 0 t
  ⟨filled.below, filled.above⟩

/-- Go through the characters from place `i` on. -/
def run (t : List Char) (r : Rows) (i : Nat) : List Char → Rows
  | [] => r
  | a :: s => run t (r.next t i a) (i + 1) s

/-- The rows at the start. -/
def start (t : List Char) : Rows :=
  ⟨List.range (t.length + 1), List.replicate (t.length + 1) 0⟩

end Rows

/-- The distance from two rows that are filled in place. A text without characters needs none. -/
def inPlace (s t : List Char) : Nat :=
  if s.isEmpty then t.length
  else if t.isEmpty then s.length
  else ((Rows.start t).run t 0 s).above.getD t.length 0

namespace Rows

/-- **Filling in place** writes the row that follows over what was left there. -/
theorem fill_eq (a : Char) (t : List Char) (before above done stale : List Nat)
    (left diagonal : Nat) (hplace : before.length = done.length) (habove : above.length = t.length)
    (hstale : stale.length = t.length) :
    fill a ⟨before ++ diagonal :: above, done ++ left :: stale⟩ done.length t =
      ⟨before ++ diagonal :: above, done ++ left :: fillRow a left diagonal t above⟩ := by
  induction t generalizing before above done stale left diagonal with
  | nil =>
    rw [List.length_eq_zero_iff.1 hstale]
    cases above <;> rfl
  | cons c t ih =>
    obtain ⟨x, above, rfl⟩ := List.exists_cons_of_length_eq_add_one habove
    obtain ⟨y, stale, rfl⟩ := List.exists_cons_of_length_eq_add_one hstale
    -- what is read: the entry above, the one above it to the left, and the one just written
    have hx : (before ++ diagonal :: x :: above).getD (done.length + 1) 0 = x := by
      rw [← hplace]
      simp
    have hdiagonal : (before ++ diagonal :: x :: above).getD done.length 0 = diagonal := by
      rw [← hplace]
      simp
    have hleft : (done ++ left :: y :: stale).getD done.length 0 = left := by simp
    have hset : ∀ d, (done ++ left :: y :: stale).set (done.length + 1) d =
        done ++ left :: d :: stale := by
      intro d
      simp
    have hplace' : (before ++ [diagonal]).length = (done ++ [left]).length := by simp [hplace]
    have hrest := ih (before ++ [diagonal]) above (done ++ [left]) stale
      (min (min (x + 1) (left + 1)) (diagonal + exchange a c)) x hplace'
      (Nat.succ.inj habove) (Nat.succ.inj hstale)
    rw [fill]
    dsimp only
    rw [hx, hdiagonal, hleft, hset]
    simpa [fillRow, exchange] using hrest

theorem length_fillRow (a : Char) (left diagonal : Nat) (t : List Char) (above : List Nat)
    (h : above.length = t.length) : (fillRow a left diagonal t above).length = t.length := by
  induction t generalizing left diagonal above with
  | nil => rfl
  | cons c t ih =>
    obtain ⟨x, above, rfl⟩ := List.exists_cons_of_length_eq_add_one h
    rw [fillRow, List.length_cons, ih _ _ above (Nat.succ.inj h), List.length_cons]

/-- Rows that are ready for the character at place `i`: the upper row begins with the place, and
both are as long as the text asks for. -/
structure Ready (t : List Char) (i : Nat) (r : Rows) : Prop where
  upper : ∃ row, r.above = i :: row ∧ row.length = t.length
  lower : r.below.length = t.length + 1

/-- **One turn**: the lower row becomes the row that follows, and the rows change places. -/
theorem Ready.next {t : List Char} {i : Nat} {r : Rows} (h : r.Ready t i) (a : Char) :
    (r.next t i a).Ready t (i + 1) ∧ (r.next t i a).above = nextRow t r.above a := by
  obtain ⟨above, below⟩ := r
  obtain ⟨⟨row, habove, hrow⟩, hbelow⟩ := h
  obtain ⟨b, stale, rfl⟩ := List.exists_cons_of_length_eq_add_one hbelow
  dsimp only at habove
  subst habove
  have hnext : Rows.next t ⟨i :: row, b :: stale⟩ i a = ⟨nextRow t (i :: row) a, i :: row⟩ := by
    have hfill := fill_eq a t [] row [] stale (i + 1) i rfl hrow (Nat.succ.inj hbelow)
    unfold Rows.next
    dsimp only [List.nil_append, List.length_nil, List.set_cons_zero] at hfill ⊢
    rw [hfill]
    rfl
  rw [hnext]
  refine ⟨⟨⟨_, rfl, length_fillRow a _ _ t row hrow⟩, ?_⟩, rfl⟩
  rw [List.length_cons, hrow]

/-- **Taking turns** goes through the rows that follow one another. -/
theorem above_run {t : List Char} (s : List Char) {i : Nat} {r : Rows} (h : r.Ready t i) :
    (r.run t i s).above = s.foldl (nextRow t) r.above := by
  induction s generalizing i r with
  | nil => rfl
  | cons a s ih =>
    obtain ⟨hready, habove⟩ := h.next a
    rw [run, ih hready, habove, List.foldl_cons]

theorem ready_start (t : List Char) : (start t).Ready t 0 := by
  refine ⟨⟨List.range' 1 t.length, ?_, List.length_range'⟩, List.length_replicate⟩
  rw [start, List.range_eq_range']
  rfl

end Rows

/-- **Two rows are enough**: the distance from rows that are filled in place is that from rows of
their own. -/
theorem inPlace_eq_ofChars (s t : List Char) : inPlace s t = ofChars s t := by
  have hrun : ((Rows.start t).run t 0 s).above = recursive s [] :: onward s [] t := by
    have hstart : (Rows.start t).above = recursive [] [] :: onward [] [] t := range_eq_onward t
    rw [Rows.above_run s (Rows.ready_start t), hstart, foldl_nextRow]
    rfl
  have hlast : (recursive s [] :: onward s [] t).getD t.length 0 = recursive s t := by
    have h := getLastD_onward s [] t
    rw [List.nil_append] at h
    rw [← h, List.getLastD_eq_getLast?, List.getLast?_eq_getElem?, List.length_cons,
      length_onward, Nat.add_sub_cancel, List.getD_eq_getElem?_getD]
  rw [ofChars_eq_recursive, inPlace, hrun, hlast]
  cases s with
  | nil => simp
  | cons a s =>
    cases t with
    | nil => simp
    | cons c t => rfl

end Distance

end CommandDesk
