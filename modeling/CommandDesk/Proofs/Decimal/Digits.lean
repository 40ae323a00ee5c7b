import CommandDesk.Decimal.Notation
import CommandDesk.Decimal.Reader
import CommandDesk.Proofs.Text.Plain

/-!
# Digits that are read back

The digits of a natural number are digits to the reader as well, and it finds
the number that they were written for (`nat?_natText`).
-/

namespace CommandDesk

namespace Decimal

variable {c : Char} {s : List Char} {n : Nat}

theorem bounds_of_isDigit (h : c.isDigit = true) : 48 ≤ c.toNat ∧ c.toNat ≤ 57 :=
  Char.isDigit_iff_toNat.1 h

theorem plain_of_isDigit (h : c.isDigit = true) : Text.Plain c := by
  have hrange := bounds_of_isDigit h
  exact ⟨by omega, by omega, by omega⟩

theorem isSome_digit? (c : Char) : (digit? c).isSome = c.isDigit := by
  have hrange : ('0' ≤ c && c ≤ '9') = c.isDigit := rfl
  unfold digit?
  rw [hrange]
  cases c.isDigit <;> rfl

/-- The reader and the library agree on what is written in digits. -/
theorem allDigits_iff : allDigits s = true ↔ ∀ c ∈ s, c.isDigit = true := by
  unfold allDigits
  simp only [isSome_digit?, List.all_eq_true]

theorem digitIn?_of_isDigit (h : c.isDigit = true) : digitIn? 10 c = some (c.toNat - 48) := by
  have hrange := bounds_of_isDigit h
  have hlt : c.toNat - 48 < 10 := by omega
  simp [digitIn?, hrange, hlt]

/-- The reader takes the value of digits as the library does. -/
theorem digitsFrom?_of_isDigit (h : ∀ c ∈ s, c.isDigit = true) (acc : Nat) :
    digitsFrom? 10 acc s = some (Nat.ofDigitChars 10 s acc) := by
  induction s generalizing acc with
  | nil => rfl
  | cons c s ih =>
    have hc : digitIn? 10 c = some (c.toNat - 48) := digitIn?_of_isDigit (h c List.mem_cons_self)
    have hrest := ih (fun d hd => h d (List.mem_cons_of_mem _ hd)) (acc * 10 + (c.toNat - 48))
    unfold digitsFrom?
    rw [hc, Nat.ofDigitChars_cons, Nat.mul_comm 10 acc]
    exact hrest

theorem isDigit_of_mem_natText (h : c ∈ natText n) : c.isDigit = true :=
  Nat.isDigit_of_mem_toDigits (by decide) (by decide) h

theorem natText_ne_nil (n : Nat) : natText n ≠ [] := Nat.toDigits_ne_nil

/-- **Digits read as the number that the library takes them for**, zeros at the front or not. -/
theorem nat?_of_isDigit (hne : s ≠ []) (h : ∀ c ∈ s, c.isDigit = true) :
    nat? s = some (Nat.ofDigitChars 10 s 0) := by
  have hread := digitsFrom?_of_isDigit h 0
  obtain ⟨c, ds, rfl⟩ := List.exists_cons_of_ne_nil hne
  exact hread

/-- **The digits of a number read back as the number.** -/
@[simp] theorem nat?_natText (n : Nat) : nat? (natText n) = some n := by
  rw [nat?_of_isDigit (natText_ne_nil n) (fun _ => isDigit_of_mem_natText)]
  exact congrArg some Nat.ofDigitChars_ten_toDigits

@[simp] theorem toList_natString (n : Nat) : (natString n).toList = natText n :=
  String.toList_ofList

end Decimal

end CommandDesk
