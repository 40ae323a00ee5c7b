import CommandDesk.Proofs.Command.Name
import CommandDesk.Proofs.Mapping.Reference
import Mathlib.Computability.RegularExpressions

/-!
# The grammar of command names

A text is accepted as a command name exactly if it is short enough and made of
words of lowercase letters joined by single hyphens (`validate_eq_ok_iff`), that is,
if the pattern of names matches it (`validate_eq_ok_iff_pattern`). An accepted name
is its own normal form, so the command that is made from it, its entry in the catalog
and the mapper split it alike; and its noun, if it has one, is a name again, since
what follows a hyphen is joined words, too (`noun_cases`).
-/

namespace CommandDesk

namespace Name

variable {s n : String} {cs : List Char}

open RegularExpression (matches'_add matches'_mul matches'_star)

/-! ## Acceptance -/

theorem LetterWord.no_hyphen {w : List Char} (h : LetterWord w) : '-' ∉ w := fun hmem =>
  absurd (h.letters '-' hmem) (by decide)

/-- Characters are joined words exactly if some words give them when they are joined. -/
theorem isJoinedWords_iff :
    isJoinedWords cs = true ↔
      ∃ words, words ≠ [] ∧ (∀ w ∈ words, LetterWord w) ∧ cs = ['-'].intercalate words := by
  rw [isJoinedWords_iff_pieces]
  constructor
  · intro h
    refine ⟨Text.pieces '-' cs, Text.pieces_ne_nil '-' cs, h, ?_⟩
    rw [Text.pieces_eq_splitOn, List.intercalate_splitOn]
  · rintro ⟨words, hne, hwords, rfl⟩
    rwa [Text.pieces_eq_splitOn,
      List.splitOn_intercalate '-' (fun w hw => (hwords w hw).no_hyphen) hne]

/-- **A text is accepted exactly if it fits the grammar.** -/
theorem validate_eq_ok_iff :
    validate s = .ok () ↔
      s.utf8ByteSize ≤ 64 ∧
        ∃ words : List String, words ≠ [] ∧ (∀ w ∈ words, LetterWord w.toList) ∧
          s = "-".intercalate words := by
  rw [validate_eq_ok, isValid_iff, isJoinedWords_iff]
  refine and_congr_right fun _ => ⟨?_, ?_⟩
  · rintro ⟨words, hne, hwords, hs⟩
    have hid : String.toList ∘ String.ofList = id := funext fun _ => String.toList_ofList
    refine ⟨words.map String.ofList, by simpa using hne, ?_, ?_⟩
    · intro w hw
      obtain ⟨cs, hcs, rfl⟩ := List.mem_map.1 hw
      rw [String.toList_ofList]
      exact hwords cs hcs
    · apply String.toList_inj.1
      rw [String.toList_intercalate, List.map_map, hid, List.map_id, hs]
      rfl
  · rintro ⟨words, hne, hwords, rfl⟩
    refine ⟨words.map String.toList, by simpa using hne, by simpa using hwords, ?_⟩
    rw [String.toList_intercalate]
    rfl

/-! ## The pattern -/

/-- One of the lowercase letters, `[a-z]`. -/
def letter : RegularExpression Char :=
  ((List.range 26).map fun i => RegularExpression.char (Char.ofNat ('a'.toNat + i))).sum

/-- Letters, one at least, `[a-z]+`. -/
def word : RegularExpression Char := letter * letter.star

/-- **The pattern of names**, `[a-z]+(?:-[a-z]+)*`. -/
def pattern : RegularExpression Char := word * (.char '-' * word).star

theorem mem_matches_sum {ps : List (RegularExpression Char)} :
    cs ∈ ps.sum.matches' ↔ ∃ p ∈ ps, cs ∈ p.matches' := by
  induction ps with
  | nil => simp
  | cons p ps ih =>
    rw [List.sum_cons, matches'_add, Language.mem_add, ih, List.exists_mem_cons_iff]

theorem isLetter_iff {c : Char} :
    isLetter c = true ↔ ∃ i < 26, Char.ofNat ('a'.toNat + i) = c := by
  constructor
  · intro h
    simp only [isLetter, Bool.and_eq_true, decide_eq_true_eq] at h
    have hlow : 'a'.toNat ≤ c.toNat := h.1
    have hhigh : c.toNat ≤ 'z'.toNat := h.2
    simp only [Char.reduceToNat] at hlow hhigh ⊢
    refine ⟨c.toNat - 97, by omega, ?_⟩
    rw [Nat.add_sub_cancel' hlow, Char.ofNat_toNat]
  · rintro ⟨i, hi, rfl⟩
    have hall : (List.range 26).all (fun i => isLetter (Char.ofNat ('a'.toNat + i))) = true := by
      decide +kernel
    exact List.all_eq_true.1 hall i (List.mem_range.2 hi)

theorem mem_matches_letter : cs ∈ letter.matches' ↔ ∃ c, isLetter c = true ∧ cs = [c] := by
  unfold letter
  rw [mem_matches_sum]
  constructor
  · rintro ⟨p, hp, hcs⟩
    obtain ⟨i, hi, rfl⟩ := List.mem_map.1 hp
    exact ⟨_, isLetter_iff.2 ⟨i, List.mem_range.1 hi, rfl⟩, hcs⟩
  · rintro ⟨c, hc, rfl⟩
    obtain ⟨i, hi, rfl⟩ := isLetter_iff.1 hc
    exact ⟨_, List.mem_map_of_mem (List.mem_range.2 hi), rfl⟩

theorem mem_matches_word : cs ∈ word.matches' ↔ LetterWord cs := by
  unfold word
  rw [matches'_mul, matches'_star, Language.mem_mul]
  constructor
  · rintro ⟨first, hfirst, rest, hrest, rfl⟩
    obtain ⟨c, hc, rfl⟩ := mem_matches_letter.1 hfirst
    obtain ⟨pieces, rfl, hpieces⟩ := Language.mem_kstar.1 hrest
    refine ⟨List.cons_ne_nil c _, fun d hd => ?_⟩
    rcases List.mem_cons.1 hd with rfl | hd
    · exact hc
    · obtain ⟨piece, hpiece, hmem⟩ := List.mem_flatten.1 hd
      obtain ⟨e, he, rfl⟩ := mem_matches_letter.1 (hpieces piece hpiece)
      rwa [List.mem_singleton.1 hmem]
  · rintro ⟨hne, hletters⟩
    obtain ⟨c, rest, rfl⟩ := List.exists_cons_of_ne_nil hne
    obtain ⟨hc, hrest⟩ := List.forall_mem_cons.1 hletters
    refine ⟨[c], mem_matches_letter.2 ⟨c, hc, rfl⟩, rest, Language.mem_kstar.2 ?_, rfl⟩
    refine ⟨rest.map fun d => [d], ?_, fun piece hpiece => ?_⟩
    · rw [← List.flatMap_def, List.flatMap_singleton']
    · obtain ⟨d, hd, rfl⟩ := List.mem_map.1 hpiece
      exact mem_matches_letter.2 ⟨d, hrest d hd, rfl⟩

theorem mem_matches_hyphen_word :
    cs ∈ (.char '-' * word : RegularExpression Char).matches' ↔
      ∃ w, LetterWord w ∧ '-' :: w = cs := by
  rw [matches'_mul, Language.mem_mul]
  constructor
  · rintro ⟨_, rfl, w, hw, rfl⟩
    exact ⟨w, mem_matches_word.1 hw, rfl⟩
  · rintro ⟨w, hw, rfl⟩
    exact ⟨['-'], rfl, w, mem_matches_word.2 hw, rfl⟩

/-- Words are joined by putting a hyphen in front of every word but the first. -/
theorem intercalate_hyphen (w : List Char) (words : List (List Char)) :
    ['-'].intercalate (w :: words) = w ++ (words.map ('-' :: ·)).flatten := by
  induction words generalizing w with
  | nil => simp
  | cons v words ih =>
    rw [List.intercalate_cons_of_ne_nil (List.cons_ne_nil v words), ih]
    simp

/-- **The pattern accepts exactly the joined words.** -/
theorem mem_matches_pattern : cs ∈ pattern.matches' ↔ isJoinedWords cs = true := by
  unfold pattern
  rw [isJoinedWords_iff, matches'_mul, matches'_star, Language.mem_mul]
  constructor
  · rintro ⟨first, hfirst, rest, hrest, rfl⟩
    obtain ⟨pieces, rfl, hpieces⟩ := Language.mem_kstar.1 hrest
    have hwords : ∀ piece ∈ pieces, LetterWord piece.tail ∧ '-' :: piece.tail = piece := by
      intro piece hpiece
      obtain ⟨w, hw, rfl⟩ := mem_matches_hyphen_word.1 (hpieces piece hpiece)
      exact ⟨hw, rfl⟩
    refine ⟨first :: pieces.map List.tail, List.cons_ne_nil _ _, ?_, ?_⟩
    · simpa [mem_matches_word.1 hfirst] using fun piece hpiece => (hwords piece hpiece).1
    · have hsame : (pieces.map List.tail).map ('-' :: ·) = pieces := by
        rw [List.map_map]
        exact (List.map_congr_left fun piece hpiece => (hwords piece hpiece).2).trans
          (List.map_id _)
      rw [intercalate_hyphen, hsame]
  · rintro ⟨words, hne, hwords, rfl⟩
    obtain ⟨w, words, rfl⟩ := List.exists_cons_of_ne_nil hne
    obtain ⟨hw, hwords⟩ := List.forall_mem_cons.1 hwords
    rw [intercalate_hyphen]
    refine ⟨w, mem_matches_word.2 hw, _, Language.join_mem_kstar fun piece hpiece => ?_, rfl⟩
    obtain ⟨v, hv, rfl⟩ := List.mem_map.1 hpiece
    exact mem_matches_hyphen_word.2 ⟨v, hwords v hv, rfl⟩

theorem validate_eq_ok_iff_pattern :
    validate s = .ok () ↔ s.utf8ByteSize ≤ 64 ∧ s.toList ∈ pattern.matches' := by
  rw [validate_eq_ok, isValid_iff, mem_matches_pattern]
  rfl

/-! ## The parts of a name -/

/-- A valid name is its verb alone, or its verb and its noun, which is a valid name then. -/
theorem noun_cases (h : isValid n = true) :
    (noun n = "" ∧ verb n = n) ∨
      (noun n ≠ "" ∧ n = verb n ++ "-" ++ noun n ∧ isValid (noun n) = true) := by
  rcases split_cases n with ⟨-, hverb, hnoun⟩ | ⟨hn, hhyphen⟩
  · exact .inl ⟨hnoun, hverb⟩
  · obtain ⟨hbytes, hjoined⟩ := isValid_iff.1 h
    have hwords : ∀ w ∈ Text.pieces '-' (noun n).toList, LetterWord w := by
      intro w hw
      refine isJoinedWords_iff_pieces.1 hjoined w ?_
      rw [hn, Text.pieces_append hhyphen]
      exact List.mem_cons_of_mem _ hw
    have hjoin : n = verb n ++ "-" ++ noun n := by
      apply String.toList_inj.1
      simpa using hn
    have hsize : (noun n).utf8ByteSize ≤ n.utf8ByteSize := by
      conv_rhs => rw [hjoin, String.utf8ByteSize_append]
      exact Nat.le_add_left _ _
    refine .inr ⟨?_, hjoin, ?_⟩
    · intro hempty
      rw [hempty] at hwords
      exact (hwords [] List.mem_cons_self).ne_nil rfl
    · exact isValid_iff.2 ⟨Nat.le_trans hsize hbytes, isJoinedWords_iff_pieces.2 hwords⟩

theorem no_hyphen_verb (n : String) : '-' ∉ (verb n).toList := by
  rcases split_cases n with ⟨hhyphen, hverb, -⟩ | ⟨-, hhyphen⟩
  · rwa [hverb]
  · exact hhyphen

/-- A command, an entry of the catalog and the mapper see the same parts of a name, and the parts
make up the name. -/
structure Alike (n : String) (c : Command) : Prop where
  name : c.name = n
  spec : ∀ s : Spec, s.name = n → s.verb = c.verb ∧ s.noun = c.noun
  penalty : ∀ given, Mapper.nounDiffers (some given) n = true ↔
    Text.trim given ≠ "" ∧ c.noun ≠ "" ∧ Text.trim given ≠ c.noun
  verb_ne_empty : c.verb ≠ ""
  verb_no_hyphen : '-' ∉ c.verb.toList
  parts : n = if c.noun = "" then c.verb else c.verb ++ "-" ++ c.noun
  noun : c.noun ≠ "" → validate c.noun = .ok ()

theorem nounDiffers_some_iff {given : String} :
    Mapper.nounDiffers (some given) n = true ↔
      Text.trim given ≠ "" ∧ noun n ≠ "" ∧ Text.trim given ≠ noun n := by
  rw [← Bool.not_eq_false, Mapper.nounDiffers_eq_false]
  simp [Mapper.NounAgrees, not_or]

/-- **Names are accepted exactly by the grammar and split in the same way everywhere.** An accepted
name is the name of the command that is made from it. That command, its entry in the catalog and
the mapper, which reduces the score of commands with another noun, agree on its verb and its noun;
the two are the name again, with a hyphen between them if there is a noun, and then the noun is
accepted itself. -/
theorem accepted_iff_and_alike (s : String) :
    (validate s = .ok () ↔
        s.utf8ByteSize ≤ 64 ∧
          ∃ words : List String, words ≠ [] ∧ (∀ w ∈ words, LetterWord w.toList) ∧
            s = "-".intercalate words) ∧
      (validate s = .ok () → Alike s (Command.ofName s)) := by
  refine ⟨validate_eq_ok_iff, fun h => ?_⟩
  have hvalid : isValid s = true := validate_eq_ok.1 h
  have hcommand : Command.ofName s = ⟨s, verb s, noun s, none, .empty⟩ := by
    unfold Command.ofName
    rw [normalize_of_isValid hvalid]
  rw [hcommand]
  refine ⟨rfl, ?_, fun _ => nounDiffers_some_iff, verb_ne_empty hvalid, no_hyphen_verb s, ?_, ?_⟩
  · rintro spec rfl
    exact ⟨rfl, rfl⟩
  · rcases noun_cases hvalid with ⟨hnoun, hverb⟩ | ⟨hnoun, hjoin, -⟩
    · rw [if_pos hnoun, hverb]
    · rw [if_neg hnoun]
      exact hjoin
  · intro hnoun
    rcases noun_cases hvalid with ⟨hempty, -⟩ | ⟨-, -, hname⟩
    · exact absurd hempty hnoun
    · exact validate_eq_ok.2 hname

/-- In a name of three words the noun has a hyphen. -/
theorem accepted_iff_and_alike_work :
    validate "full-work-flow" = .ok () ∧
      Alike "full-work-flow" (Command.ofName "full-work-flow") := by
  have hname : validate "full-work-flow" = .ok () := by rfl
  exact ⟨hname, (accepted_iff_and_alike "full-work-flow").2 hname⟩

end Name

end CommandDesk
