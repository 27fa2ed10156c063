import Mathlib.Data.List.TakeWhile

/-!
# Numbers in texts

Numbers stand in texts as decimal digits. They are told apart by them, also if more text stands
behind that does not begin with a digit.
-/

namespace SealedTx.Text

variable {m n : Nat} {c d : Char} {x y : List Char}

theorem isDigit_of_mem_toString (h : c ∈ (toString n).toList) : c.isDigit = true := by
  rw [Nat.toString_eq_repr, Nat.toList_repr] at h
  exact Nat.isDigit_of_mem_toDigits (by decide) (by decide) h

theorem ofDigitChars_toString (n : Nat) : Nat.ofDigitChars 10 (toString n).toList 0 = n := by
  rw [Nat.toString_eq_repr, Nat.toList_repr, Nat.ofDigitChars_ten_toDigits]

theorem toString_toList_inj (h : (toString m).toList = (toString n).toList) : m = n := by
  rw [← ofDigitChars_toString m, h, ofDigitChars_toString]

/-- A number ends where the digits do. -/
theorem toString_append_inj (hc : c.isDigit = false) (hd : d.isDigit = false)
    (h : (toString m).toList ++ c :: x = (toString n).toList ++ d :: y) :
    m = n ∧ c :: x = d :: y := by
  have hdigits : ∀ n : Nat, ∀ c ∈ (toString n).toList, c.isDigit = true :=
    fun _ _ => isDigit_of_mem_toString
  have htake := congrArg (List.takeWhile Char.isDigit) h
  rw [List.takeWhile_append_of_pos (hdigits m), List.takeWhile_append_of_pos (hdigits n),
    List.takeWhile_cons_of_neg (by simp [hc]), List.takeWhile_cons_of_neg (by simp [hd]),
    List.append_nil, List.append_nil] at htake
  have hdrop := congrArg (List.dropWhile Char.isDigit) h
  rw [List.dropWhile_append_of_pos (hdigits m), List.dropWhile_append_of_pos (hdigits n),
    List.dropWhile_cons_of_neg (by simp [hc]), List.dropWhile_cons_of_neg (by simp [hd])] at hdrop
  exact ⟨toString_toList_inj htake, hdrop⟩

end SealedTx.Text
