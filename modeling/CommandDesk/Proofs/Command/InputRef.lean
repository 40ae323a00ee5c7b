import CommandDesk.Command.InputRef
import CommandDesk.Proofs.Text.Normal
import CommandDesk.Proofs.Text.Split
import Mathlib.Data.List.Basic

/-!
# References that are read from text

What is read from a text is well formed: neither part is empty, the kind has no
colon in it and no blank ends the id. Such a reference is read back from its
written form (`WellFormed.parse?_text`). A text is read exactly if its body, what
it is without the blanks around it and without one sign in front, names a
reference (`parse_eq_ok_iff`), so two texts with one body are read alike.
-/

namespace CommandDesk

namespace InputRef

/-- What every reference that was read from a text has. -/
structure WellFormed (r : InputRef) : Prop where
  kind_ne_empty : r.kind ≠ ""
  id_ne_empty : r.id ≠ ""
  no_colon : ':' ∉ r.kind.toList
  id_end : ∀ c ∈ r.id.toList.getLast?, Text.isBlank c = false

variable {s t : String} {r : InputRef}

theorem toList_text (r : InputRef) :
    r.text.toList = '@' :: (r.kind.toList ++ ':' :: r.id.toList) := by
  simp [text]

/-- What a reference is read from: its two parts around the first colon. -/
theorem parts_of_parse? (h : parse? s = some r) :
    Text.dropInitial '@' (Text.trimChars s.toList) = r.kind.toList ++ ':' :: r.id.toList ∧
      r.kind ≠ "" ∧ r.id ≠ "" ∧ ':' ∉ r.kind.toList := by
  unfold parse? ofChars? at h
  split at h
  · rename_i kind id hsplit
    obtain ⟨hbody, hcolon⟩ := Text.eq_append_of_splitFirst? hsplit
    split at h
    · cases h
    · rename_i hempty
      obtain rfl := Option.some.inj h
      simp only [Bool.or_eq_true, List.isEmpty_iff, not_or] at hempty
      simpa [hbody] using ⟨hempty.1, hempty.2, hcolon⟩
  · cases h

/-- A text with the parts of a reference is read as it. -/
theorem parse?_of_parts
    (hparts : Text.dropInitial '@' (Text.trimChars s.toList) = r.kind.toList ++ ':' :: r.id.toList)
    (hcolon : ':' ∉ r.kind.toList) (hkind : r.kind ≠ "") (hid : r.id ≠ "") :
    parse? s = some r := by
  unfold parse? ofChars?
  rw [hparts, Text.splitFirst?_append hcolon]
  simp [hkind, hid]

/-- **What is read from a text is well formed.** -/
theorem wellFormed_of_parse? (h : parse? s = some r) : r.WellFormed := by
  obtain ⟨hbody, hkind, hid, hcolon⟩ := parts_of_parse? h
  refine ⟨hkind, hid, hcolon, fun c hc => ?_⟩
  -- the id ends as the trimmed text does
  have hsuffix : r.id.toList <:+ Text.trimChars s.toList := by
    refine List.IsSuffix.trans ?_ (Text.dropInitial_suffix '@' _)
    rw [hbody]
    exact (List.suffix_cons ':' _).trans (List.suffix_append _ _)
  obtain ⟨front, hfront⟩ := hsuffix
  refine (Text.trimmed_trimChars s.toList).back c ?_
  rw [← hfront, List.getLast?_append, show r.id.toList.getLast? = some c from hc]
  rfl

/-- A reference has no characters but those it was read from. -/
theorem mem_of_parse? (h : parse? s = some r) {c : Char}
    (hc : c ∈ r.kind.toList ++ ':' :: r.id.toList) : c ∈ s.toList := by
  rw [← (parts_of_parse? h).1] at hc
  exact Text.mem_of_mem_trimChars ((Text.dropInitial_suffix '@' _).subset hc)

/-- No blank ends the written form. -/
theorem WellFormed.trimmed_text (h : r.WellFormed) : Text.Trimmed r.text.toList := by
  have hid : r.id.toList ≠ [] := by simpa using h.id_ne_empty
  rw [toList_text]
  refine ⟨fun c hc => ?_, fun c hc => h.id_end c ?_⟩
  · obtain rfl : '@' = c := Option.some.inj hc
    decide
  · have hsplit : '@' :: (r.kind.toList ++ ':' :: r.id.toList) =
        ('@' :: (r.kind.toList ++ [':'])) ++ r.id.toList := by simp
    rwa [hsplit, List.getLast?_append_of_ne_nil _ hid] at hc

/-- **A well-formed reference is read back from its written form.** -/
theorem WellFormed.parse?_text (h : r.WellFormed) : parse? r.text = some r := by
  refine parse?_of_parts ?_ h.no_colon h.kind_ne_empty h.id_ne_empty
  rw [Text.trimChars_eq_self h.trimmed_text, toList_text, Text.dropInitial, if_pos rfl]

/-! ## What a text must have to be read -/

/-- What a reference is read from: the text without the blanks around it and without one sign in
front of it. -/
def body (s : String) : List Char := Text.dropInitial '@' (Text.trim s).toList

/-- A text that names a reference: its kind, the first colon, and its id, neither of them empty. -/
structure Names (body : List Char) (r : InputRef) : Prop where
  parts : body = r.kind.toList ++ ':' :: r.id.toList
  no_colon : ':' ∉ r.kind.toList
  kind_ne_empty : r.kind ≠ ""
  id_ne_empty : r.id ≠ ""

theorem parse_eq_ok_iff_parse? : parse s = .ok r ↔ parse? s = some r := by
  unfold parse
  cases parse? s <;> simp

/-- **A reference is read from a text exactly if the text names it.** -/
theorem parse_eq_ok_iff : parse s = .ok r ↔ Names (body s) r := by
  have hbody : body s = Text.dropInitial '@' (Text.trimChars s.toList) := by
    unfold body Text.trim
    rw [String.toList_ofList]
  rw [parse_eq_ok_iff_parse?, hbody]
  constructor
  · intro h
    obtain ⟨hparts, hkind, hid, hcolon⟩ := parts_of_parse? h
    exact ⟨hparts, hcolon, hkind, hid⟩
  · rintro ⟨hparts, hcolon, hkind, hid⟩
    exact parse?_of_parts hparts hcolon hkind hid

/-- A text is read as a reference exactly if it has a colon with something on either side of the
first one. -/
theorem exists_parse_iff :
    (∃ r, parse s = .ok r) ↔
      ∃ kind id, body s = kind ++ ':' :: id ∧ ':' ∉ kind ∧ kind ≠ [] ∧ id ≠ [] := by
  simp only [parse_eq_ok_iff]
  constructor
  · rintro ⟨r, hparts, hcolon, hkind, hid⟩
    exact ⟨r.kind.toList, r.id.toList, hparts, hcolon, by simpa using hkind, by simpa using hid⟩
  · rintro ⟨kind, id, hparts, hcolon, hkind, hid⟩
    refine ⟨⟨String.ofList kind, String.ofList id⟩, ?_, ?_, ?_, ?_⟩
    · simpa using hparts
    · simpa using hcolon
    · simpa using hkind
    · simpa using hid

/-- What is read depends only on the body. -/
theorem parse_congr (h : body s = body t) : parse s = .ok r ↔ parse t = .ok r := by
  rw [parse_eq_ok_iff, parse_eq_ok_iff, h]

theorem body_append_blank {front back : String} (hfront : ∀ c ∈ front.toList, Text.isBlank c = true)
    (hback : ∀ c ∈ back.toList, Text.isBlank c = true) : body (front ++ s ++ back) = body s := by
  unfold body Text.trim
  rw [String.toList_append, String.toList_append, Text.trimChars_append_blank _ hfront hback]

/-- A sign in front of a trimmed text that has none of its own does not count. -/
theorem body_sign (htrim : Text.trim s = s) (hsign : s.toList.head? ≠ some '@') :
    body ("@" ++ s) = body s := by
  have hs : Text.trimChars s.toList = s.toList := by
    have hlist := congrArg String.toList htrim
    rwa [Text.trim, String.toList_ofList] at hlist
  have htrimmed : Text.Trimmed ('@' :: s.toList) :=
    Text.Trimmed.cons (hs ▸ Text.trimmed_trimChars s.toList) (by decide)
  have hkeep : Text.dropInitial '@' s.toList = s.toList := by
    cases h : s.toList with
    | nil => rfl
    | cons c cs =>
      rw [h] at hsign
      exact if_neg fun hc => hsign (congrArg some hc)
  have hdrop : (Text.trim ("@" ++ s)).toList = '@' :: s.toList := by
    unfold Text.trim
    rw [String.toList_ofList, String.toList_append]
    exact Text.trimChars_eq_self htrimmed
  unfold body
  rw [hdrop, htrim, hkeep, Text.dropInitial, if_pos rfl]

/-- **Which texts are read as references, and as which.** The body decides: it must have something
before its first colon and something after it, and these are the kind and the id. What was read is
read again from its written form. Blanks around a text do not count, and neither does a sign in
front of a trimmed text, unless there is one already: then that one belongs to the kind. -/
theorem parse_round_trip (s : String) :
    (∀ r, parse s = .ok r ↔ Names (body s) r) ∧
      ((∃ r, parse s = .ok r) ↔
        ∃ kind id, body s = kind ++ ':' :: id ∧ ':' ∉ kind ∧ kind ≠ [] ∧ id ≠ []) ∧
      (∀ r, parse s = .ok r → parse r.text = .ok r ∧ (parse r.text).map text = .ok r.text) ∧
      (∀ front back : String, (∀ c ∈ front.toList ++ back.toList, Text.isBlank c = true) →
        ∀ r, parse (front ++ s ++ back) = .ok r ↔ parse s = .ok r) ∧
      (Text.trim s = s → s.toList.head? ≠ some '@' →
        ∀ r, parse ("@" ++ s) = .ok r ↔ parse s = .ok r) := by
  refine ⟨fun _ => parse_eq_ok_iff, exists_parse_iff, fun r h => ?_, fun front back hblank r => ?_,
    fun htrim hsign r => ?_⟩
  · have hwell : r.WellFormed := wellFormed_of_parse? (parse_eq_ok_iff_parse?.1 h)
    have hagain : parse r.text = .ok r := parse_eq_ok_iff_parse?.2 hwell.parse?_text
    rw [hagain]
    exact ⟨rfl, rfl⟩
  · exact parse_congr (body_append_blank (fun c hc => hblank c (List.mem_append_left _ hc))
      fun c hc => hblank c (List.mem_append_right _ hc))
  · exact parse_congr (body_sign htrim hsign)

/-- A second colon and a blank inside are parts of the id, and what is around the text is not. -/
theorem parse_round_trip_sales :
    parse "data:q1 2:sales" = .ok ⟨"data", "q1 2:sales"⟩ ∧
      parse "@data:q1 2:sales" = .ok ⟨"data", "q1 2:sales"⟩ ∧
      parse "\t data:q1 2:sales\n" = .ok ⟨"data", "q1 2:sales"⟩ := by
  obtain ⟨-, -, -, hblank, hsign⟩ := parse_round_trip "data:q1 2:sales"
  have hread : parse "data:q1 2:sales" = .ok ⟨"data", "q1 2:sales"⟩ := by rfl
  have hall : ("\t ".toList ++ "\n".toList).all Text.isBlank = true := by decide +kernel
  exact ⟨hread, (hsign (by decide) (by decide) _).2 hread,
    (hblank "\t " "\n" (List.all_eq_true.1 hall) _).2 hread⟩

end InputRef

end CommandDesk
