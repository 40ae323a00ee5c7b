import CommandDesk.Grade

/-!
# The order of a ranking

`Grade.ranked` inserts its entries one by one. Where the order of grades is
total and transitive this is the stable merge sort (`ranked_eq_mergeSort`), so
what the library knows of that sort holds of a ranking: it has the entries it
was given, best first, and entries of one grade stand as they were given.
-/

namespace CommandDesk

/-- Grades whose order of ranking is total and transitive. -/
class LawfulGrade (α : Type) [Grade α] : Prop where
  rankLe_total : ∀ a b : α, (Grade.rankLe a b || Grade.rankLe b a) = true
  rankLe_trans : ∀ a b c : α, Grade.rankLe a b = true → Grade.rankLe b c = true →
    Grade.rankLe a c = true

namespace Grade

theorem rankLe_float {a b : Float} : rankLe a b = true ↔ floatRank a ≤ floatRank b :=
  decide_eq_true_iff

theorem rankLe_rat {a b : Rat} : rankLe a b = true ↔ a ≤ b :=
  decide_eq_true_iff

/-- Floating-point numbers are ranked by an integer each. -/
instance : LawfulGrade Float where
  rankLe_total a b := by
    rw [Bool.or_eq_true, rankLe_float, rankLe_float]
    exact Int.le_total _ _
  rankLe_trans a b c := by
    simp only [rankLe_float]
    exact Int.le_trans

instance : LawfulGrade Rat where
  rankLe_total a b := by
    rw [Bool.or_eq_true, rankLe_rat, rankLe_rat]
    exact Rat.le_total
  rankLe_trans a b c := by
    simp only [rankLe_rat]
    exact Rat.le_trans

variable {α β : Type} [Grade α] {grade : β → α}

/-- Whether the first entry may stand before the second in a ranking. -/
def before (grade : β → α) (x y : β) : Bool := rankLe (grade y) (grade x)

theorem before_total [LawfulGrade α] (grade : β → α) (x y : β) :
    (before grade x y || before grade y x) = true :=
  LawfulGrade.rankLe_total (grade y) (grade x)

theorem before_trans [LawfulGrade α] (grade : β → α) (x y z : β) (hxy : before grade x y = true)
    (hyz : before grade y z = true) : before grade x z = true :=
  LawfulGrade.rankLe_trans _ _ _ hyz hxy

/-- A new entry passes those that it may not stand before, and no other. -/
theorem insertRanked_append {x : β} {front back : List β}
    (hfront : ∀ y ∈ front, before grade x y = false)
    (hback : ∀ y ∈ back, before grade x y = true) :
    insertRanked grade x (front ++ back) = front ++ x :: back := by
  induction front with
  | nil =>
    cases back with
    | nil => rfl
    | cons y ys =>
      have hy : rankLe (grade y) (grade x) = true := hback y List.mem_cons_self
      rw [List.nil_append, insertRanked, if_pos hy]
      rfl
  | cons y ys ih =>
    have hy : ¬ rankLe (grade y) (grade x) = true := by
      have := hfront y List.mem_cons_self
      simpa [before] using this
    rw [List.cons_append, insertRanked, if_neg hy,
      ih fun z hz => hfront z (List.mem_cons_of_mem _ hz)]
    rfl

/-- **A ranking is the stable merge sort** by descending grade. -/
theorem ranked_eq_mergeSort [LawfulGrade α] (grade : β → α) (xs : List β) :
    ranked grade xs = xs.mergeSort (before grade) := by
  induction xs with
  | nil => simp [ranked]
  | cons x xs ih =>
    -- sorting puts `x` behind `front`, the entries that it may not stand before
    obtain ⟨front, back, hcons, htail, hfront⟩ :=
      List.mergeSort_cons (before_trans grade) (before_total grade) x xs
    have hsorted : (front ++ x :: back).Pairwise (before grade · ·) :=
      hcons ▸ List.pairwise_mergeSort (before_trans grade) (before_total grade) (x :: xs)
    have hback : ∀ y ∈ back, before grade x y = true :=
      (List.pairwise_cons.1 (List.pairwise_append.1 hsorted).2.1).1
    have hunfold : ranked grade (x :: xs) = insertRanked grade x (ranked grade xs) := rfl
    rw [hunfold, ih, htail, hcons]
    exact insertRanked_append (fun y hy => by simpa using hfront y hy) hback

variable [LawfulGrade α] {xs : List β}

/-- A ranking has the entries that it was given. -/
theorem ranked_perm : (ranked grade xs).Perm xs := by
  rw [ranked_eq_mergeSort]
  exact List.mergeSort_perm xs _

@[simp] theorem mem_ranked {x : β} : x ∈ ranked grade xs ↔ x ∈ xs :=
  ranked_perm.mem_iff

/-- The best entries come first. -/
theorem pairwise_ranked (grade : β → α) (xs : List β) :
    (ranked grade xs).Pairwise fun x y => rankLe (grade y) (grade x) := by
  rw [ranked_eq_mergeSort]
  exact List.pairwise_mergeSort (before_trans grade) (before_total grade) xs

/-- What is in order already stays as it is. -/
theorem ranked_of_pairwise (h : xs.Pairwise fun x y => rankLe (grade y) (grade x)) :
    ranked grade xs = xs := by
  rw [ranked_eq_mergeSort]
  exact List.mergeSort_of_pairwise h

omit [LawfulGrade α] in
/-- Ranking looks at nothing but the grades. -/
theorem map_ranked {γ : Type} {grade' : γ → α} {f : β → γ} (hf : ∀ b, grade' (f b) = grade b)
    (xs : List β) : (ranked grade xs).map f = ranked grade' (xs.map f) := by
  have hinsert : ∀ x ys, (insertRanked grade x ys).map f =
      insertRanked grade' (f x) (ys.map f) := by
    intro x ys
    induction ys with
    | nil => rfl
    | cons y ys ih =>
      rw [List.map_cons, insertRanked, insertRanked, hf, hf, ← ih]
      split <;> rfl
  induction xs with
  | nil => rfl
  | cons x xs ih =>
    have hcons : ranked grade (x :: xs) = insertRanked grade x (ranked grade xs) := rfl
    rw [hcons, hinsert, ih]
    rfl

/-- An entry that is inserted among others is left out with them, or finds the same place among
those that are kept. -/
theorem filter_insertRanked (p : β → Bool) {x : β} {ys : List β}
    (hys : ys.Pairwise fun a b => rankLe (grade b) (grade a)) :
    (insertRanked grade x ys).filter p =
      if p x then insertRanked grade x (ys.filter p) else ys.filter p := by
  induction ys with
  | nil => exact List.filter_cons
  | cons y ys ih =>
    obtain ⟨hy, hrest⟩ := List.pairwise_cons.1 hys
    rw [insertRanked]
    by_cases hle : rankLe (grade y) (grade x) = true
    · -- the new entry stands before all, so before those that are kept
      have hfront : insertRanked grade x ((y :: ys).filter p) = x :: (y :: ys).filter p := by
        have hall : ∀ z ∈ (y :: ys).filter p, before grade x z = true := by
          intro z hz
          rcases List.mem_cons.1 (List.mem_filter.1 hz).1 with rfl | hz
          · exact hle
          · exact LawfulGrade.rankLe_trans _ _ _ (hy z hz) hle
        exact @insertRanked_append _ _ _ _ _ [] _ (fun z hz => absurd hz List.not_mem_nil) hall
      rw [if_pos hle, hfront, List.filter_cons (x := x)]
    · rw [if_neg hle, List.filter_cons, ih hrest, List.filter_cons]
      by_cases hpy : p y = true
      · rw [if_pos hpy, if_pos hpy, insertRanked, if_neg hle]
        split <;> rfl
      · rw [if_neg hpy, if_neg hpy]

/-- **Leaving entries out** before a ranking or after it comes to the same. -/
theorem filter_ranked (p : β → Bool) (xs : List β) :
    (ranked grade xs).filter p = ranked grade (xs.filter p) := by
  induction xs with
  | nil => rfl
  | cons x xs ih =>
    have hcons : ranked grade (x :: xs) = insertRanked grade x (ranked grade xs) := rfl
    rw [hcons, filter_insertRanked p (pairwise_ranked grade xs), ih, List.filter_cons]
    split <;> rfl

omit [LawfulGrade α] in
theorem mem_insertRanked {x z : β} {ys : List β} (h : z ∈ insertRanked grade x ys) :
    z = x ∨ z ∈ ys := by
  induction ys with
  | nil => exact .inl (List.mem_singleton.1 h)
  | cons y ys ih =>
    unfold insertRanked at h
    split at h
    · exact List.mem_cons.1 h
    · rcases List.mem_cons.1 h with rfl | h
      · exact .inr List.mem_cons_self
      · exact (ih h).imp_right (List.mem_cons_of_mem _)

/-- Where a ranking of entries that were given in an order `R` puts `x` before `y`: `x` is ranked as
high at least, and was given first if both are ranked the same. -/
def RankedBefore (grade : β → α) (R : β → β → Prop) (x y : β) : Prop :=
  rankLe (grade y) (grade x) = true ∧ (rankLe (grade x) (grade y) = true → R x y)

/-- A new entry that comes before all that are given finds its place among them. -/
theorem pairwise_insertRanked {R : β → β → Prop} {x : β} {ys : List β} (hx : ∀ y ∈ ys, R x y)
    (hys : ys.Pairwise (RankedBefore grade R)) :
    (insertRanked grade x ys).Pairwise (RankedBefore grade R) := by
  induction ys with
  | nil => exact List.pairwise_singleton _ _
  | cons y ys ih =>
    obtain ⟨hy, hrest⟩ := List.pairwise_cons.1 hys
    unfold insertRanked
    split
    · rename_i hle
      refine List.pairwise_cons.2 ⟨fun z hz => ⟨?_, fun _ => hx z hz⟩, hys⟩
      rcases List.mem_cons.1 hz with rfl | hz
      · exact hle
      · exact LawfulGrade.rankLe_trans _ _ _ (hy z hz).1 hle
    · rename_i hlt
      refine List.pairwise_cons.2
        ⟨fun z hz => ?_, ih (fun z hz => hx z (List.mem_cons_of_mem _ hz)) hrest⟩
      rcases mem_insertRanked hz with rfl | hz
      · have htotal := LawfulGrade.rankLe_total (grade y) (grade z)
        rw [Bool.or_eq_true] at htotal
        exact ⟨htotal.resolve_left hlt, fun hle => absurd hle hlt⟩
      · exact hy z hz

/-- **Entries of one grade keep the order in which they were given**, whatever that order is. -/
theorem pairwise_ranked_stable {R : β → β → Prop} (h : xs.Pairwise R) :
    (ranked grade xs).Pairwise (RankedBefore grade R) := by
  induction xs with
  | nil => exact List.Pairwise.nil
  | cons x xs ih =>
    obtain ⟨hx, hxs⟩ := List.pairwise_cons.1 h
    have hcons : ranked grade (x :: xs) = insertRanked grade x (ranked grade xs) := rfl
    rw [hcons]
    exact pairwise_insertRanked (fun y hy => hx y (mem_ranked.1 hy)) (ih hxs)

/-- An entry that is not among the first `n` is ranked no higher than one that is. -/
theorem rankLe_of_not_mem_take {n : Nat} {x y : β} (hx : x ∈ (ranked grade xs).take n)
    (hy : y ∈ xs) (hout : y ∉ (ranked grade xs).take n) :
    rankLe (grade y) (grade x) = true := by
  have hall : (ranked grade xs).take n ++ (ranked grade xs).drop n = ranked grade xs :=
    List.take_append_drop n _
  have hdrop : y ∈ (ranked grade xs).drop n := by
    have hmem : y ∈ (ranked grade xs).take n ++ (ranked grade xs).drop n := by
      rw [hall]
      exact mem_ranked.2 hy
    exact (List.mem_append.1 hmem).resolve_left hout
  have hsorted := pairwise_ranked grade xs
  rw [← hall] at hsorted
  exact (List.pairwise_append.1 hsorted).2.2 x hx y hdrop

/-- The first entry of a ranking is ranked as high as any. -/
theorem rankLe_head {best : β} {rest : List β} (h : ranked grade xs = best :: rest) {y : β}
    (hy : y ∈ xs) : rankLe (grade y) (grade best) = true := by
  have hmem : y ∈ best :: rest := h ▸ mem_ranked.2 hy
  have hsorted := pairwise_ranked grade xs
  rw [h] at hsorted
  rcases List.mem_cons.1 hmem with rfl | hmem
  · simpa using LawfulGrade.rankLe_total (grade y) (grade y)
  · exact (List.pairwise_cons.1 hsorted).1 y hmem

/-! ## The first entry -/

/-- The first of the best: what is listed before it is ranked lower, and nothing after it is ranked
higher. -/
def FirstBest (grade : β → α) (xs : List β) (x : β) : Prop :=
  ∃ front back, xs = front ++ x :: back ∧ (∀ y ∈ front, rankLe (grade x) (grade y) = false) ∧
    ∀ y ∈ back, rankLe (grade y) (grade x) = true

variable {x : β}

/-- **A ranking begins with the first of the best.** -/
theorem FirstBest.head?_ranked (h : FirstBest grade xs x) : (ranked grade xs).head? = some x := by
  obtain ⟨front, back, rfl, hfront, hback⟩ := h
  induction front with
  | nil =>
    have hcons : ranked grade ([] ++ x :: back) = insertRanked grade x (ranked grade back) := rfl
    rw [hcons]
    cases hrest : ranked grade back with
    | nil => rfl
    | cons y ys =>
      have hy : y ∈ back := mem_ranked.1 (hrest ▸ List.mem_cons_self)
      rw [insertRanked, if_pos (hback y hy)]
      rfl
  | cons y front ih =>
    have hcons : ranked grade (y :: front ++ x :: back) =
        insertRanked grade y (ranked grade (front ++ x :: back)) := rfl
    obtain ⟨ys, hrest⟩ := List.head?_eq_some_iff.1
      (ih fun z hz => hfront z (List.mem_cons_of_mem _ hz))
    -- the new entry may not stand before the best of the rest
    rw [hcons, hrest, insertRanked, if_neg (by rw [hfront y List.mem_cons_self]; decide)]
    rfl

/-- Nothing else begins a ranking. -/
theorem firstBest_of_head?_ranked (h : (ranked grade xs).head? = some x) :
    FirstBest grade xs x := by
  induction xs generalizing x with
  | nil => cases h
  | cons a as ih =>
    have hcons : ranked grade (a :: as) = insertRanked grade a (ranked grade as) := rfl
    rw [hcons] at h
    cases hrest : ranked grade as with
    | nil =>
      rw [hrest] at h
      obtain rfl : a = x := Option.some.inj h
      refine ⟨[], as, rfl, by simp, fun y hy => ?_⟩
      have hmem : y ∈ ranked grade as := mem_ranked.2 hy
      rw [hrest] at hmem
      exact absurd hmem List.not_mem_nil
    | cons b bs =>
      rw [hrest, insertRanked] at h
      by_cases hba : rankLe (grade b) (grade a) = true
      · -- the new entry is ranked as high as the best of the rest
        rw [if_pos hba] at h
        obtain rfl : a = x := Option.some.inj h
        exact ⟨[], as, rfl, by simp,
          fun y hy => LawfulGrade.rankLe_trans _ _ _ (rankLe_head hrest hy) hba⟩
      · rw [if_neg hba] at h
        obtain rfl : b = x := Option.some.inj h
        obtain ⟨front, back, rfl, hfront, hback⟩ := ih (by rw [hrest]; rfl)
        refine ⟨a :: front, back, rfl, fun y hy => ?_, hback⟩
        rcases List.mem_cons.1 hy with rfl | hy
        · simpa using hba
        · exact hfront y hy

end Grade

end CommandDesk
