import Mathlib.Data.List.DropRight
import SealedTx.Text.Blank

/-!
# Texts and the blanks at their ends

A trim takes blanks off both ends of a text and nothing else (`exists_eq_append_trimChars`), and it
does not matter how many stand there (`trimChars_append`).
-/

namespace SealedTx.Text

/-- A trim is one from the left and one from the right. -/
theorem trimChars_eq (cs : List Char) : trimChars cs = (cs.dropWhile isBlank).rdropWhile isBlank :=
  rfl

/-- What a trim takes off are blanks. -/
theorem exists_eq_append_trimChars (cs : List Char) : ∃ left right,
    cs = left ++ trimChars cs ++ right ∧ (∀ c ∈ left, isBlank c = true) ∧
      ∀ c ∈ right, isBlank c = true := by
  refine ⟨cs.takeWhile isBlank, (cs.dropWhile isBlank).rtakeWhile isBlank, ?_,
    fun c hc => List.mem_takeWhile_imp hc, fun c hc => List.mem_rtakeWhile_imp hc⟩
  rw [trimChars_eq, List.append_assoc, List.rdropWhile_append_rtakeWhile,
    List.takeWhile_append_dropWhile]

theorem dropWhile_isBlank_append {left : List Char} (h : ∀ c ∈ left, isBlank c = true)
    (cs : List Char) : (left ++ cs).dropWhile isBlank = cs.dropWhile isBlank := by
  rw [List.dropWhile_append_of_pos h]

theorem rdropWhile_isBlank_append {right : List Char} (h : ∀ c ∈ right, isBlank c = true)
    (cs : List Char) : (cs ++ right).rdropWhile isBlank = cs.rdropWhile isBlank := by
  rw [List.rdropWhile, List.reverse_append, dropWhile_isBlank_append (by simpa using h),
    List.rdropWhile]

/-- A character that is not blank keeps all that stands before it. -/
theorem rdropWhile_append_cons {c : Char} (h : isBlank c = false) (cs rest : List Char) :
    (cs ++ c :: rest).rdropWhile isBlank = cs ++ c :: rest.rdropWhile isBlank := by
  induction rest using List.reverseRecOn with
  | nil => rw [List.rdropWhile_concat_neg _ _ _ (by simp [h]), List.rdropWhile_nil]
  | append_singleton rest d ih =>
    rw [← List.cons_append, ← List.append_assoc, List.rdropWhile_concat, List.rdropWhile_concat]
    split
    · exact ih
    · simp

/-- At the end of a text without blanks nothing is taken off. -/
theorem rdropWhile_append_of_not_blank {tail : List Char} (hne : tail ≠ [])
    (h : ∀ c ∈ tail, isBlank c = false) (cs : List Char) :
    (cs ++ tail).rdropWhile isBlank = cs ++ tail := by
  refine List.rdropWhile_eq_self_iff.2 fun hl => ?_
  rw [List.getLast_append_of_ne_nil hl hne, h _ (List.getLast_mem hne)]
  exact Bool.false_ne_true

/-- **Blanks at the ends do not count.** -/
theorem trimChars_append {left right : List Char} (hleft : ∀ c ∈ left, isBlank c = true)
    (hright : ∀ c ∈ right, isBlank c = true) (cs : List Char) :
    trimChars (left ++ cs ++ right) = trimChars cs := by
  rw [trimChars_eq, trimChars_eq, List.append_assoc, dropWhile_isBlank_append hleft,
    List.dropWhile_append]
  by_cases hcs : (cs.dropWhile isBlank).isEmpty = true
  · -- then nothing is left of either
    rw [if_pos hcs, List.dropWhile_eq_nil_iff.2 hright, List.isEmpty_iff.1 hcs]
  · rw [if_neg hcs, rdropWhile_isBlank_append hright]

end SealedTx.Text
