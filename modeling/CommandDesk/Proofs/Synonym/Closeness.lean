import CommandDesk.Proofs.Distance.Metric
import CommandDesk.Proofs.Synonym.Guess
import CommandDesk.Proofs.Table
import CommandDesk.Proofs.Text.Normal
import CommandDesk.Proofs.Text.Split
import Mathlib.Order.Bounds.Basic
import Mathlib.Tactic.Positivity
import Mathlib.Tactic.Ring

/-!
# The score in closed form

Over exact grades. Every synonym is tried as an initial part and by its edits, and
the best score of all is kept. Where one text is an initial part of the other, the
edits leave just the share of the longer one that the shorter one covers
(`likeness_of_nested`), at the heavier discount: so a synonym counts for one of the
two ways only (`closeness`). The score of a verb that is no synonym is the greatest
closeness (`isGreatest_guessIn`), in whatever order the synonyms are tried
(`scoreIn_eq_ofVerb`).
-/

namespace CommandDesk

namespace Score

/-! ## How close a verb comes to a synonym -/

/-- Of two texts one is an initial part of the other. -/
def Nested (s t : String) : Prop := s.toList <+: t.toList ∨ t.toList <+: s.toList

instance (s t : String) : Decidable (Nested s t) := inferInstanceAs (Decidable (_ ∨ _))

/-- The share of the longer of two texts that the shorter one covers. -/
def share (s t : String) : Rat :=
  ((min s.length t.length : Nat) : Rat) / ((max s.length t.length : Nat) : Rat)

/-- The share of the longer of two texts that is left unedited. -/
def likeness (s t : String) : Rat :=
  1 - ((Distance.between s t : Nat) : Rat) / ((max s.length t.length : Nat) : Rat)

/-- **What a verb scores by resemblance to one synonym**, as an initial part if it can, else by few
edits. -/
def closeness (verb : String) (e : String × Rat) : Rat :=
  if Nested verb e.1 then 0.7 * e.2 * share verb e.1
  else if 0.7 < likeness verb e.1 then 0.6 * e.2 * likeness verb e.1
  else 0

variable {verb synonym : String} {w w' x : Rat} {e : String × Rat}

theorem share_nonneg (s t : String) : 0 ≤ share s t := by
  unfold share
  positivity

theorem share_le (s t : String) : share s t ≤ 1 := share_le_one s.length t.length

/-- Two empty texts cover nothing of each other. -/
theorem share_of_longer_eq_zero {s t : String} (h : max s.length t.length = 0) :
    share s t = 0 := by
  unfold share
  rw [h, Nat.cast_zero, div_zero]

theorem similarity_eq_likeness (s t : String) :
    (similarity s.toList t.toList : Rat) = likeness s t := by
  have hone : (1.0 : Rat) = 1 := by norm_num
  unfold similarity likeness
  rw [hone, String.length_toList, String.length_toList]
  rfl

theorem likeness_le_one (s t : String) : likeness s t ≤ 1 := by
  rw [← similarity_eq_likeness]
  exact similarity_le_one s.toList t.toList

/-- **Edits leave what an initial part covers**, and nothing else of the longer text. -/
theorem likeness_of_nested {s t : String} (h : Nested s t) (hlonger : max s.length t.length ≠ 0) :
    likeness s t = share s t := by
  have hdistance : Distance.between s t + min s.length t.length = max s.length t.length := by
    rw [Distance.between_of_initial h]
    omega
  have hcast : ((Distance.between s t : Nat) : Rat) + ((min s.length t.length : Nat) : Rat) =
      ((max s.length t.length : Nat) : Rat) := by exact_mod_cast hdistance
  have hpos : ((max s.length t.length : Nat) : Rat) ≠ 0 := by exact_mod_cast hlonger
  unfold likeness share
  rw [eq_div_iff hpos, sub_mul, one_mul, div_mul_cancel₀ _ hpos]
  linarith

theorem closeness_of_nested (h : Nested verb e.1) :
    closeness verb e = 0.7 * e.2 * share verb e.1 := if_pos h

theorem closeness_nonneg (hw : 0 ≤ e.2) : 0 ≤ closeness verb e := by
  have hshare := share_nonneg verb e.1
  unfold closeness
  split_ifs with hnested hlike
  · positivity
  · have hpos : 0 ≤ likeness verb e.1 := by linarith
    positivity
  · exact le_refl 0

/-- A closeness is at most seven tenths of the weight. -/
theorem closeness_le (verb : String) (hw : 0 ≤ e.2) : closeness verb e ≤ 0.7 * e.2 := by
  unfold closeness
  split_ifs with hnested hlike
  · exact mul_le_of_le_one_right (by positivity) (share_le verb e.1)
  · have hle := mul_le_of_le_one_right (a := 0.6 * e.2) (by positivity) (likeness_le_one verb e.1)
    linarith
  · positivity

/-- **A greater weight brings a synonym no less close.** -/
theorem closeness_mono (verb synonym : String) (h : w ≤ w') :
    closeness verb (synonym, w) ≤ closeness verb (synonym, w') := by
  have hshare := share_nonneg verb synonym
  unfold closeness
  split_ifs with hnested hlike
  · exact mul_le_mul_of_nonneg_right (by linarith) hshare
  · exact mul_le_mul_of_nonneg_right (by linarith) (by linarith)
  · exact le_refl 0

/-- **At equal likeness** an initial part brings a verb no less close than edits do. -/
theorem closeness_le_of_nested {u b : String} (hw : 0 ≤ w) (h : Nested verb synonym)
    (hlonger : max verb.length synonym.length ≠ 0) (hlike : likeness u b = likeness verb synonym) :
    closeness u (b, w) ≤ closeness verb (synonym, w) := by
  have hverb : closeness verb (synonym, w) = 0.7 * w * likeness u b := by
    rw [closeness_of_nested h, hlike, likeness_of_nested h hlonger]
  have hpos : 0 ≤ likeness u b := by
    rw [hlike, likeness_of_nested h hlonger]
    exact share_nonneg verb synonym
  have hcovered := mul_nonneg hw hpos
  rw [hverb]
  unfold closeness
  split_ifs with hnested hfew
  · by_cases hempty : max u.length b.length = 0
    · rw [share_of_longer_eq_zero hempty]
      linarith
    · rw [likeness_of_nested hnested hempty]
  · linarith
  · linarith

/-! ## Both ways are tried -/

theorem byInitial_eq (verb synonym : String) (w : Rat) :
    byInitial verb.toList synonym.toList w =
      if Nested verb synonym then [w * share verb synonym * 0.7] else [] := by
  have hnested : (Text.isInitial verb.toList synonym.toList ||
      Text.isInitial synonym.toList verb.toList) = true ↔ Nested verb synonym := by
    rw [Bool.or_eq_true, Text.isInitial_iff, Text.isInitial_iff]
    rfl
  unfold byInitial
  rw [String.length_toList, String.length_toList]
  exact if_congr hnested rfl rfl

theorem byEdits_eq (verb synonym : String) (w : Rat) :
    byEdits verb.toList synonym.toList w =
      if 0.7 < likeness verb synonym then [w * likeness verb synonym * 0.6] else [] := by
  unfold byEdits
  rw [similarity_eq_likeness]
  rfl

theorem resemblances_eq (verb : String) (e : String × Rat) :
    resemblances verb.toList e =
      if max verb.length e.1.length = 0 then []
      else (if Nested verb e.1 then [e.2 * share verb e.1 * 0.7] else []) ++
        if 0.7 < likeness verb e.1 then [e.2 * likeness verb e.1 * 0.6] else [] := by
  have hempty : (verb.toList.isEmpty && e.1.isEmpty) = true ↔
      max verb.length e.1.length = 0 := by
    rw [Nat.max_eq_zero_iff, Bool.and_eq_true, List.isEmpty_iff, String.isEmpty_iff,
      String.toList_eq_nil_iff, String.length_eq_zero_iff, String.length_eq_zero_iff]
  unfold resemblances
  rw [byInitial_eq, byEdits_eq]
  exact if_congr hempty rfl rfl

/-- **Neither way scores more than the closeness**: few edits of an initial part score less. -/
theorem le_closeness (hw : 0 ≤ e.2) (h : x ∈ resemblances verb.toList e) :
    x ≤ closeness verb e := by
  rw [resemblances_eq, List.mem_ite_nil_left, List.mem_append, List.mem_ite_nil_right,
    List.mem_ite_nil_right, List.mem_singleton, List.mem_singleton] at h
  obtain ⟨hlonger, ⟨hnested, rfl⟩ | ⟨hfew, rfl⟩⟩ := h
  · rw [closeness_of_nested hnested]
    linarith
  · unfold closeness
    rw [if_pos hfew]
    split_ifs with hnested
    · have hcovered := mul_nonneg hw (share_nonneg verb e.1)
      rw [likeness_of_nested hnested hlonger]
      linarith
    · linarith

/-- One way scores the closeness, unless that is zero. -/
theorem closeness_mem (verb : String) (e : String × Rat) :
    closeness verb e ∈ (0 : Rat) :: resemblances verb.toList e := by
  rw [List.mem_cons, resemblances_eq]
  unfold closeness
  by_cases hlonger : max verb.length e.1.length = 0
  · left
    have hverb : verb.toList = [] := by
      rw [← List.length_eq_zero_iff, String.length_toList]
      exact (Nat.max_eq_zero_iff.1 hlonger).1
    have hnested : Nested verb e.1 := .inl (hverb ▸ List.nil_prefix)
    rw [if_pos hnested, share_of_longer_eq_zero hlonger, mul_zero]
  · rw [if_neg hlonger, List.mem_append]
    split_ifs with hnested hfew
    · exact .inr (.inl (List.mem_singleton.2 (by ring)))
    · exact .inr (.inl (List.mem_singleton.2 (by ring)))
    · exact .inr (.inr (List.mem_singleton.2 (by ring)))
    · exact .inl rfl

/-! ## The best of all synonyms -/

/-- The best score by resemblance to synonyms that are tried in this order. -/
def guessIn (verb : String) (es : List (String × Rat)) : Rat :=
  (es.flatMap (resemblances verb.toList)).foldl Grade.larger 0.0

/-- The score of a verb against synonyms that are listed in this order. -/
def scoreIn (fuzzy : Bool) (verb : String) (es : List (String × Rat)) : Rat :=
  match es.find? (·.1 = Text.normalize verb) with
  | some e => e.2
  | none => if fuzzy then guessIn (Text.normalize verb) es else 0.0

theorem zero_eq : (0.0 : Rat) = 0 := by norm_num

/-- **The best score is the greatest closeness.** -/
theorem isGreatest_guessIn (verb : String) {es : List (String × Rat)} (hes : es ≠ [])
    (hw : ∀ e ∈ es, 0 ≤ e.2) :
    IsGreatest {x | ∃ e ∈ es, closeness verb e = x} (guessIn verb es) := by
  have hupper : ∀ e ∈ es, closeness verb e ≤ guessIn verb es := by
    intro e he
    refine Grade.le_foldl_larger ?_
    rw [zero_eq]
    rcases List.mem_cons.1 (closeness_mem verb e) with hzero | hmem
    · exact List.mem_cons.2 (.inl hzero)
    · exact List.mem_cons_of_mem _ (List.mem_flatMap.2 ⟨e, he, hmem⟩)
  refine ⟨?_, ?_⟩
  · rcases List.mem_cons.1 (Grade.foldl_larger_mem 0.0 (es.flatMap (resemblances verb.toList)))
      with hzero | hmem
    · -- nothing is closer than zero, and no closeness is less
      obtain ⟨e, he⟩ := List.exists_mem_of_ne_nil es hes
      have hbest : guessIn verb es = 0 := hzero.trans zero_eq
      refine ⟨e, he, le_antisymm (hupper e he) ?_⟩
      rw [hbest]
      exact closeness_nonneg (hw e he)
    · obtain ⟨e, he, hx⟩ := List.mem_flatMap.1 hmem
      exact ⟨e, he, le_antisymm (hupper e he) (le_closeness (hw e he) hx)⟩
  · rintro x ⟨e, he, rfl⟩
    exact hupper e he

theorem guessIn_nil (verb : String) : guessIn verb [] = 0 := zero_eq

theorem guessIn_nonneg (verb : String) (es : List (String × Rat)) : 0 ≤ guessIn verb es := by
  have hstart : (0.0 : Rat) ≤ guessIn verb es := Grade.le_foldl_larger List.mem_cons_self
  rwa [zero_eq] at hstart

/-- Against one synonym the best score is its closeness. -/
theorem guessIn_singleton (hw : 0 ≤ e.2) : guessIn verb [e] = closeness verb e := by
  obtain ⟨⟨d, hd, hbest⟩, -⟩ := isGreatest_guessIn verb (List.cons_ne_nil e [])
    fun d hd => (List.mem_singleton.1 hd) ▸ hw
  rw [← hbest, List.mem_singleton.1 hd]

/-- The order in which synonyms are tried makes no difference. -/
theorem guessIn_of_perm {es es' : List (String × Rat)} (h : es.Perm es')
    (hw : ∀ e ∈ es, 0 ≤ e.2) : guessIn verb es = guessIn verb es' := by
  by_cases hes : es = []
  · subst hes
    rw [List.nil_perm.1 h]
  · have hes' : es' ≠ [] := by
      rintro rfl
      exact hes (List.perm_nil.1 h)
    have hleft := isGreatest_guessIn verb hes hw
    have hright := isGreatest_guessIn verb hes' fun e he => hw e (h.mem_iff.2 he)
    simp only [h.mem_iff] at hleft
    exact hleft.unique hright

/-- **Nor does the order in which they are listed.** -/
theorem scoreIn_of_perm {es es' : List (String × Rat)} (h : es.Perm es')
    (hnodup : (es.map (·.1)).Nodup) (hw : ∀ e ∈ es, 0 ≤ e.2) (fuzzy : Bool) :
    scoreIn fuzzy verb es = scoreIn fuzzy verb es' := by
  unfold scoreIn
  rw [Table.find?_of_perm h hnodup, guessIn_of_perm h hw]

/-! ## The score of a verb -/

variable {synonyms : Synonyms Rat}

/-- The synonyms of a command are listed in the order of their table. -/
theorem ofVerb_eq_scoreIn (fuzzy : Bool) (verb : String) (synonyms : Synonyms Rat) :
    ofVerb fuzzy verb synonyms = scoreIn fuzzy verb synonyms.entries := by
  unfold ofVerb scoreIn Table.get?
  dsimp only
  cases synonyms.entries.find? (·.1 = Text.normalize verb) with
  | none => rfl
  | some e => rfl

/-- **A score is between zero and a hundred** where weights are. -/
theorem ofVerb_bounds (hbounds : ∀ e ∈ synonyms.entries, 0 ≤ e.2 ∧ e.2 ≤ 100) (fuzzy : Bool)
    (verb : String) : 0 ≤ ofVerb fuzzy verb synonyms ∧ ofVerb fuzzy verb synonyms ≤ 100 := by
  have hnormal := Text.normalize_normalize verb
  rw [← ofVerb_normalize]
  cases hget : synonyms.get? (Text.normalize verb) with
  | some w =>
    rw [ofVerb_of_get?_eq_some hnormal hget]
    exact hbounds _ (Table.mem_of_get? hget)
  | none =>
    have hguess : guess (Text.normalize verb) synonyms ≤ 70 := guess_le hbounds
    rw [ofVerb_of_get?_eq_none hnormal hget, zero_eq]
    split_ifs
    · exact ⟨guessIn_nonneg _ _, by linarith⟩
    · norm_num

/-- A synonym by itself. -/
def alone (e : String × Rat) : Synonyms Rat := Table.empty.insert e.1 e.2

theorem ofVerb_alone_self (hnormal : Text.normalize e.1 = e.1) (fuzzy : Bool) :
    ofVerb fuzzy e.1 (alone e) = e.2 := by
  have hget : (alone e).get? e.1 = some e.2 := by
    unfold alone
    rw [Table.get?_insert, if_pos rfl]
  exact ofVerb_of_get?_eq_some hnormal hget fuzzy

/-- Any other verb scores its closeness against a synonym by itself. -/
theorem ofVerb_alone (hw : 0 ≤ e.2) (hne : Text.normalize verb ≠ e.1) :
    ofVerb true verb (alone e) = closeness (Text.normalize verb) e := by
  have hget : (alone e).get? (Text.normalize verb) = none := by
    unfold alone
    rw [Table.get?_insert, if_neg hne, Table.get?_empty]
  rw [← ofVerb_normalize, ofVerb_of_get?_eq_none (Text.normalize_normalize verb) hget, if_pos rfl]
  exact guessIn_singleton hw

/-- **The score in closed form.** A verb that is a synonym scores its weight. Any other scores the
greatest closeness to a synonym if resemblance counts, and nothing if it does not. A score is
between zero and a hundred and does not depend on the order of the synonyms. The score by
resemblance to one synonym is at most seven tenths of its weight, and at equal likeness an initial
part scores no less than few edits. -/
theorem ofVerb_closed_form (verb : String) (synonyms : Synonyms Rat)
    (hnormal : ∀ e ∈ synonyms.entries, Text.normalize e.1 = e.1)
    (hbounds : ∀ e ∈ synonyms.entries, 0 ≤ e.2 ∧ e.2 ≤ 100) :
    let v := Text.normalize verb
    (∀ fuzzy w, synonyms.get? v = some w → ofVerb fuzzy verb synonyms = w) ∧
      (synonyms.get? v = none →
        ofVerb false verb synonyms = 0 ∧
          (synonyms.entries = [] → ofVerb true verb synonyms = 0) ∧
          (synonyms.entries ≠ [] →
            IsGreatest {x | ∃ e ∈ synonyms.entries, closeness v e = x}
              (ofVerb true verb synonyms))) ∧
      (∀ fuzzy, 0 ≤ ofVerb fuzzy verb synonyms ∧ ofVerb fuzzy verb synonyms ≤ 100 ∧
        ∀ es, es.Perm synonyms.entries → scoreIn fuzzy verb es = ofVerb fuzzy verb synonyms) ∧
      ∀ e ∈ synonyms.entries, v ≠ e.1 →
        ofVerb true verb (alone e) = closeness v e ∧ closeness v e ≤ 0.7 * e.2 ∧
          (∀ fuzzy, ofVerb true verb (alone e) ≤ ofVerb fuzzy e.1 (alone e)) ∧
          (Nested v e.1 → likeness v e.1 = share v e.1 ∧
            ∀ u b, likeness u b = likeness v e.1 → closeness u (b, e.2) ≤ closeness v e) := by
  intro v
  have hv : Text.normalize v = v := Text.normalize_normalize verb
  have hweights : ∀ e ∈ synonyms.entries, 0 ≤ e.2 := fun e he => (hbounds e he).1
  refine ⟨fun fuzzy w hget => ?_, fun hget => ?_, fun fuzzy => ?_, fun e he hne => ?_⟩
  · rw [← ofVerb_normalize]
    exact ofVerb_of_get?_eq_some hv hget fuzzy
  · have hscore : ∀ fuzzy, ofVerb fuzzy verb synonyms =
        if fuzzy then guessIn v synonyms.entries else 0 := by
      intro fuzzy
      rw [← ofVerb_normalize, ofVerb_of_get?_eq_none hv hget, zero_eq]
      rfl
    refine ⟨hscore false, fun hnone => ?_, fun hsome => ?_⟩
    · rw [hscore, hnone]
      exact guessIn_nil v
    · rw [hscore]
      exact isGreatest_guessIn v hsome hweights
  · obtain ⟨hlow, hhigh⟩ := ofVerb_bounds hbounds fuzzy verb
    refine ⟨hlow, hhigh, fun es hes => ?_⟩
    rw [ofVerb_eq_scoreIn]
    exact scoreIn_of_perm hes ((hes.map _).nodup_iff.2 synonyms.nodup_keys)
      (fun e he => hweights e (hes.mem_iff.1 he)) fuzzy
  · have hw := hweights e he
    have hself := ofVerb_alone_self (hnormal e he)
    have hclose := ofVerb_alone hw hne
    have hle := closeness_le v hw
    refine ⟨hclose, hle, fun fuzzy => ?_, fun hnested => ?_⟩
    · rw [hclose, hself]
      linarith
    · have hlonger : max v.length e.1.length ≠ 0 := by
        intro hzero
        obtain ⟨hleft, hright⟩ := Nat.max_eq_zero_iff.1 hzero
        refine hne ?_
        rw [String.length_eq_zero_iff.1 hleft, String.length_eq_zero_iff.1 hright]
      exact ⟨likeness_of_nested hnested hlonger,
        fun u b hlike => closeness_le_of_nested hw hnested hlonger hlike⟩

/-- A verb without its last letter is an initial part, and one edit away as well. -/
theorem ofVerb_closed_form_analyz :
    let synonyms : Synonyms Rat := Table.ofList [("inspect", 95), ("analyze", 100)]
    (∀ e ∈ synonyms.entries, Text.normalize e.1 = e.1) ∧
      (∀ e ∈ synonyms.entries, 0 ≤ e.2 ∧ e.2 ≤ 100) ∧
      synonyms.get? (Text.normalize " Analyz") = none ∧
      IsGreatest {x | ∃ e ∈ synonyms.entries, closeness (Text.normalize " Analyz") e = x}
        (ofVerb true " Analyz" synonyms) ∧
      ofVerb true " Analyz" (alone ("analyze", 100)) = 60 := by
  intro synonyms
  have hnormal : ∀ e ∈ synonyms.entries, Text.normalize e.1 = e.1 := by decide +kernel
  have hbounds : ∀ e ∈ synonyms.entries, 0 ≤ e.2 ∧ e.2 ≤ 100 := by decide +kernel
  have hget : synonyms.get? (Text.normalize " Analyz") = none := by decide +kernel
  have h := ofVerb_closed_form " Analyz" synonyms hnormal hbounds
  have halone := (h.2.2.2 ("analyze", 100) (by decide +kernel) (by decide +kernel)).1
  refine ⟨hnormal, hbounds, hget, (h.2.1 hget).2.2 (by decide +kernel), halone.trans ?_⟩
  decide +kernel

end Score

end CommandDesk
