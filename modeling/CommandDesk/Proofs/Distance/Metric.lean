import CommandDesk.Proofs.Distance.Script

/-!
# The edit distance as a metric

A list of edits from one text to a second and one from there to a third make a
list from the first to the third, so the distance obeys the triangle inequality
(`recursive_triangle`); no edits at all leave a text as it is, so only equal texts
are at distance zero (`recursive_eq_zero_iff`). The recursion looks at both texts
alike, so the distance is the same in both directions (`recursive_comm`). An edit
changes a length by one at most, and the longer text can be written over the
shorter one: the distance lies between the difference of the lengths and the
greater length (`sub_le_recursive`, `recursive_le_max`).
-/

namespace CommandDesk

namespace Distance

variable {s t u : List Char} {m n : Nat}

/-! ## In both directions -/

theorem exchange_comm (a c : Char) : exchange a c = exchange c a :=
  if_congr eq_comm rfl rfl

/-- **The distance is the same in both directions.** -/
theorem recursive_comm (s t : List Char) : recursive s t = recursive t s := by
  -- over both texts: deleting from the one is inserting into the other
  fun_induction recursive s t with
  | case1 t => rw [recursive_nil_right]
  | case2 a s => rw [recursive_nil_left]
  | case3 a s c t hdelete hinsert hexchange =>
    rw [recursive_cons, hdelete, hinsert, hexchange, exchange_comm c a, Nat.min_comm
      (recursive t (a :: s) + 1)]

/-! ## By way of a third text -/

/-- One list of edits after another. -/
theorem turn_append (edits more : List Edit) (s : List Char) :
    turn (edits ++ more) s = (turn edits s).bind (turn more) := by
  unfold turn
  rw [List.foldlM_append]
  rfl

theorem Reaches.trans (h : Reaches m s t) (h' : Reaches n t u) : Reaches (m + n) s u := by
  obtain ⟨edits, hedits, rfl⟩ := h
  obtain ⟨more, hmore, rfl⟩ := h'
  refine ⟨edits ++ more, ?_, List.length_append⟩
  rw [turn_append, hedits]
  exact hmore

/-- The distance is at most the number of edits. -/
theorem Reaches.recursive_le (h : Reaches n s t) : recursive s t ≤ n := by
  obtain ⟨edits, hturn, rfl⟩ := h
  exact recursive_le_length hturn

/-- **The triangle inequality.** -/
theorem recursive_triangle (s t u : List Char) :
    recursive s u ≤ recursive s t + recursive t u :=
  ((reaches_recursive s t).trans (reaches_recursive t u)).recursive_le

/-! ## Equal texts -/

theorem eq_of_reaches_zero (h : Reaches 0 s t) : s = t := by
  obtain ⟨edits, hturn, hlength⟩ := h
  rw [List.length_eq_zero_iff.1 hlength] at hturn
  exact Option.some.inj hturn

/-- **Only equal texts are at distance zero.** -/
theorem recursive_eq_zero_iff : recursive s t = 0 ↔ s = t := by
  constructor
  · intro h
    have hreaches := reaches_recursive s t
    rw [h] at hreaches
    exact eq_of_reaches_zero hreaches
  · rintro rfl
    exact recursive_self s

/-! ## Lengths -/

/-- The distance is at least what the one text is longer by. -/
theorem sub_le_recursive (s t : List Char) : s.length - t.length ≤ recursive s t := by
  fun_induction recursive s t with
  | case1 t => simp
  | case2 a s => simp
  | case3 a s c t hdelete hinsert hexchange =>
    rw [List.length_cons, List.length_cons] at *
    omega

/-- The distance is at most the greater length. -/
theorem recursive_le_max (s t : List Char) : recursive s t ≤ max s.length t.length := by
  fun_induction recursive s t with
  | case1 t => simp
  | case2 a s => simp
  | case3 a s c t hdelete hinsert hexchange =>
    have hcost := exchange_le_one a c
    rw [List.length_cons, List.length_cons] at *
    omega

/-- **From an initial part** only the rest has to be inserted. -/
theorem recursive_of_initial (h : s <+: t) : recursive s t = t.length - s.length := by
  obtain ⟨rest, rfl⟩ := h
  have hle : recursive s (s ++ rest) ≤ rest.length := by
    induction s with
    | nil => simp
    | cons a s ih =>
      have hcost : exchange a a = 0 := if_pos rfl
      rw [List.cons_append, recursive_cons, hcost]
      omega
  have hge := sub_le_recursive (s ++ rest) s
  rw [recursive_comm, List.length_append] at hge
  rw [List.length_append]
  omega

/-! ## Texts -/

theorem between_eq_recursive (a b : String) : between a b = recursive a.toList b.toList :=
  ofChars_eq_recursive a.toList b.toList

theorem between_le_max (a b : String) : between a b ≤ max a.length b.length := by
  rw [between_eq_recursive, ← String.length_toList, ← String.length_toList]
  exact recursive_le_max a.toList b.toList

/-- Where one text is an initial part of the other, their lengths tell how far apart they are. -/
theorem between_of_initial {a b : String} (h : a.toList <+: b.toList ∨ b.toList <+: a.toList) :
    between a b = max a.length b.length - min a.length b.length := by
  rw [between_eq_recursive, ← String.length_toList, ← String.length_toList]
  rcases h with h | h
  · have hlength := h.length_le
    rw [recursive_of_initial h]
    omega
  · have hlength := h.length_le
    rw [recursive_comm, recursive_of_initial h]
    omega

/-- **The edit distance is a metric** on texts, it lies between the difference of their lengths and
the greater length, and it is that difference where one text is an initial part of the other. -/
theorem metric_between (a b c : String) :
    (between a b = 0 ↔ a = b) ∧
      between a b = between b a ∧
      between a c ≤ between a b + between b c ∧
      max a.length b.length - min a.length b.length ≤ between a b ∧
      between a b ≤ max a.length b.length ∧
      (a.toList <+: b.toList ∨ b.toList <+: a.toList →
        between a b = max a.length b.length - min a.length b.length) := by
  refine ⟨?_, ?_, ?_, ?_, between_le_max a b, between_of_initial⟩
  · rw [between_eq_recursive, recursive_eq_zero_iff]
    exact String.toList_inj
  · rw [between_eq_recursive, between_eq_recursive]
    exact recursive_comm a.toList b.toList
  · rw [between_eq_recursive, between_eq_recursive a b, between_eq_recursive b c]
    exact recursive_triangle a.toList b.toList c.toList
  · -- the longer text is the one or the other
    have hleft := sub_le_recursive a.toList b.toList
    have hright := sub_le_recursive b.toList a.toList
    rw [recursive_comm] at hright
    rw [between_eq_recursive, ← String.length_toList, ← String.length_toList]
    omega

/-- What is missing at the end of a word is inserted. -/
theorem between_list_listing :
    "list".toList <+: "listing".toList ∧ between "list" "listing" = 3 := by
  have h : "list".toList <+: "listing".toList := ⟨"ing".toList, rfl⟩
  exact ⟨h, (metric_between "list" "listing" "listing").2.2.2.2.2 (.inl h)⟩

end Distance

end CommandDesk
