import Mathlib.Data.List.Basic

/-! # Texts

Numbers written in digits, and parts with separators between them.
-/

namespace Text

/-! ## Digits -/

/-- Every digit of a number is a digit of its radix. -/
theorem exists_digitChar_of_mem_toDigits {radix n : Nat} {c : Char} (hradix : 1 < radix)
    (hmem : c ∈ Nat.toDigits radix n) : ∃ digit < radix, c = Nat.digitChar digit := by
  induction n using Nat.strongRecOn with
  | ind n ih =>
      rw [Nat.toDigits_eq_if hradix] at hmem
      split at hmem
      next hsmall => exact ⟨n, hsmall, List.mem_singleton.mp hmem⟩
      next hlarge =>
        rcases List.mem_append.mp hmem with hfront | hlast
        · exact ih (n / radix) (Nat.div_lt_self (by omega) hradix) hfront
        · exact ⟨n % radix, Nat.mod_lt n (by omega), List.mem_singleton.mp hlast⟩

/-- The decimal text of a natural number is the text of no other integer. -/
theorem toString_int_eq_iff (value : Int) (n : Nat) : toString value = toString n ↔ value = n := by
  constructor
  · intro htext
    cases value with
    | ofNat m =>
        have hdigits : Nat.toDigits 10 m = Nat.toDigits 10 n := by
          have hlist := congrArg String.toList htext
          simpa [Int.toString_eq_repr, Int.repr_eq_if, Nat.toString_eq_repr,
            Nat.toList_repr] using hlist
        -- the digits are read back
        have hread := congrArg (Nat.ofDigitChars 10 · 0) hdigits
        rw [Nat.ofDigitChars_ten_toDigits, Nat.ofDigitChars_ten_toDigits] at hread
        exact congrArg Int.ofNat hread
    | negSucc m =>
        -- a sign is not a digit
        have hsign : '-' ∈ Nat.toDigits 10 n := by
          rw [← Nat.toList_repr, ← Nat.toString_eq_repr, ← htext]
          simp [Int.toString_eq_repr, Int.repr_eq_if]
        have hdigit := Nat.isDigit_of_mem_toDigits (by decide) (by decide) hsign
        simp at hdigit
  · rintro rfl
    rfl

/-! ## Separators -/

section Separators

variable {α : Type*} {a separator : α} {text part : List α} {parts : List (List α)}

theorem mem_intercalate {between : List α} (hmem : a ∈ between.intercalate parts) :
    a ∈ between ∨ ∃ part ∈ parts, a ∈ part := by
  induction parts with
  | nil => simp at hmem
  | cons first rest ih =>
      by_cases hrest : rest = []
      · subst hrest
        exact .inr ⟨first, List.mem_cons_self, by simpa using hmem⟩
      · rw [List.intercalate_cons_of_ne_nil hrest, List.mem_append, List.mem_append] at hmem
        rcases hmem with (hfirst | hbetween) | hmem
        · exact .inr ⟨first, List.mem_cons_self, hfirst⟩
        · exact .inl hbetween
        · rcases ih hmem with hbetween | ⟨other, hother, hmem⟩
          · exact .inl hbetween
          · exact .inr ⟨other, List.mem_cons_of_mem first hother, hmem⟩

theorem mem_intercalate_of_mem (between : List α) (hpart : part ∈ parts) (hmem : a ∈ part) :
    a ∈ between.intercalate parts := by
  induction parts with
  | nil => simp at hpart
  | cons first rest ih =>
      by_cases hrest : rest = []
      · subst hrest
        simpa [List.mem_singleton.mp hpart] using hmem
      · rw [List.intercalate_cons_of_ne_nil hrest, List.mem_append, List.mem_append]
        rcases List.mem_cons.mp hpart with rfl | hpart
        · exact .inl (.inl hmem)
        · exact .inr (ih hpart)

/-- The parts of a text have no characters of their own. -/
theorem mem_of_mem_splitOn [BEq α] [LawfulBEq α] (hpart : part ∈ text.splitOn separator)
    (hmem : a ∈ part) : a ∈ text := by
  have htext := mem_intercalate_of_mem [separator] hpart hmem
  rwa [List.intercalate_splitOn] at htext

end Separators

end Text
