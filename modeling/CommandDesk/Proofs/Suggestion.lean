import CommandDesk.Protocol

/-!
# The numbers of suggestions

Whatever the occasion, the options come out of `Suggestion.numbered`
(`exists_options_eq_numbered`). A list that comes out of it is no longer than
the limit, and every suggestion in it carries its place, counted from one.
-/

namespace CommandDesk

namespace Suggestion

variable {α : Type} {limit : UInt64} {drafts : List (Draft α)} {s : Suggestion α} {k : Nat}

theorem length_numbered_le (limit : UInt64) (drafts : List (Draft α)) :
    (numbered limit drafts).length ≤ limit.toNat := by
  simp only [numbered, List.length_map, List.length_zipIdx, List.length_take]
  omega

/-- A suggestion is the draft in its place, with the number of that place. -/
theorem getElem?_numbered (limit : UInt64) (drafts : List (Draft α)) (k : Nat) :
    (numbered limit drafts)[k]? = (drafts.take limit.toNat)[k]?.map (·.number k) := by
  simp [numbered, Function.comp_def]

/-- **The number of a suggestion is its place**, counted from one. No list is too long for that. -/
theorem toNat_index_of_getElem? (h : (numbered limit drafts)[k]? = some s) :
    s.index.toNat = k + 1 := by
  have hlt : k < (numbered limit drafts).length := (List.getElem?_eq_some_iff.1 h).1
  have hlimit := length_numbered_le limit drafts
  have hfits : k + 1 < 2 ^ 64 := by
    have := limit.toNat_lt
    omega
  rw [getElem?_numbered] at h
  obtain ⟨d, -, rfl⟩ := Option.map_eq_some_iff.1 h
  exact UInt64.toNat_ofNat_of_lt' hfits

/-- The number stands in front of the printed suggestion. -/
theorem text_eq (s : Suggestion α) :
    s.text = Decimal.natString s.index.toNat ++
      (". " ++ (s.description ++ ("\n   `" ++ (s.command ++ "`")))) := by
  simp only [text, String.append_assoc]

end Suggestion

/-- **Every list of options is numbered.** -/
theorem Protocol.exists_options_eq_numbered {α : Type} [Grade α] (p : Protocol α) (mode : Mode)
    (command : Command) (c : Context α) :
    ∃ drafts, p.options mode command c = Suggestion.numbered p.maxSuggestions drafts := by
  cases mode with
  | highRiskConfirm | ambiguousRepair | inputMissing | errorRecovery | largeTaskConfirm =>
    exact ⟨_, rfl⟩

end CommandDesk
