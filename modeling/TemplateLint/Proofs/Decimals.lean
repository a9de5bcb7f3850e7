import Mathlib.Data.List.Basic
import TemplateLint.Text.Basic

/-!
# Decimal numbers

The digits of a number are read back whatever follows them, as long as that is no further digit.
-/

namespace TemplateLint

theorem isDigit_of_mem_decimal {n : Nat} {c : Char} (h : c ∈ decimal n) : c.isDigit :=
  Nat.isDigit_of_mem_toDigits (by decide) (by decide) h

theorem decimal_ne_nil (n : Nat) : decimal n ≠ [] := Nat.toDigits_ne_nil

theorem exists_decimal_eq_cons (n : Nat) : ∃ c t, decimal n = c :: t ∧ c.isDigit := by
  obtain ⟨c, t, h⟩ := List.exists_cons_of_ne_nil (decimal_ne_nil n)
  exact ⟨c, t, h, isDigit_of_mem_decimal (n := n) (by simp [h])⟩

theorem not_mem_decimal {c : Char} (hc : c.isDigit = false) (n : Nat) : c ∉ decimal n := by
  intro h
  simp [isDigit_of_mem_decimal h] at hc

/-- Whether a text goes on with a digit. -/
def startsWithDigit (s : Text) : Bool := s.head?.any Char.isDigit

/-- The number whose digits, without leading zeros, are all those at the start of a text, and what
follows them. -/
def readDecimal? (s : Text) : Option (Nat × Text) :=
  let digits := s.takeWhile Char.isDigit
  let n := Nat.ofDigitChars 10 digits 0
  if digits = decimal n then some (n, s.dropWhile Char.isDigit) else none

theorem span_decimal_append (n : Nat) {rest : Text} (h : startsWithDigit rest = false) :
    (decimal n ++ rest).takeWhile Char.isDigit = decimal n ∧
      (decimal n ++ rest).dropWhile Char.isDigit = rest := by
  have hdigits : ∀ c ∈ decimal n, c.isDigit := fun c hc => isDigit_of_mem_decimal hc
  rw [List.takeWhile_append_of_pos hdigits, List.dropWhile_append_of_pos hdigits]
  cases rest with
  | nil => simp
  | cons c rest =>
    have hc : c.isDigit = false := by simpa [startsWithDigit] using h
    simp [hc]

theorem readDecimal?_decimal_append (n : Nat) {rest : Text} (h : startsWithDigit rest = false) :
    readDecimal? (decimal n ++ rest) = some (n, rest) := by
  obtain ⟨htake, hdrop⟩ := span_decimal_append n h
  have hvalue : Nat.ofDigitChars 10 (decimal n) 0 = n := Nat.ofDigitChars_ten_toDigits
  simp [readDecimal?, htake, hdrop, hvalue]

theorem readDecimal?_eq_some_iff {s rest : Text} {n : Nat} :
    readDecimal? s = some (n, rest) ↔ s = decimal n ++ rest ∧ startsWithDigit rest = false := by
  constructor
  · intro h
    simp only [readDecimal?, Option.ite_none_right_eq_some, Option.some.injEq, Prod.mk.injEq] at h
    obtain ⟨hdigits, rfl, rfl⟩ := h
    refine ⟨by rw [← hdigits, List.takeWhile_append_dropWhile], ?_⟩
    have hhead := List.head?_dropWhile_not Char.isDigit s
    cases h : (s.dropWhile Char.isDigit).head? with
    | none => simp [startsWithDigit, h]
    | some c => simpa [startsWithDigit, h] using hhead
  · rintro ⟨rfl, h⟩
    exact readDecimal?_decimal_append n h

end TemplateLint
