import Mathlib.Algebra.Ring.Nat
import Mathlib.Data.List.Basic
import ResolverWiring.Decimal.DigitLimit
import ResolverWiring.Decimal.Reading
import ResolverWiring.Text.Hex

/-!
# `Proofs.Text.Numeral` — numbers are read from their digits

The digits of a number, in base ten or sixteen, denote this number (`hexValue?_upperHex`,
`readNat?_toDigits`). Both are an induction on the number along its digits.
-/

namespace ResolverWiring.Text

open Decimal

/-! ## Base sixteen -/

theorem hexDigit?_toUpper : ∀ digit : Fin 16,
    hexDigit? digit.val.digitChar.toUpper = some digit.val ∧ ' ' ≤ digit.val.digitChar.toUpper ∧
      digit.val.digitChar.toUpper ≤ '~' := by
  decide

theorem toDigits_mem {base n : Nat} (hbase : 1 < base) {c : Char} (h : c ∈ Nat.toDigits base n) :
    ∃ digit < base, c = digit.digitChar := by
  induction n using Nat.base_induction base hbase with
  | single m hm =>
    rw [Nat.toDigits_of_lt_base hm] at h
    exact ⟨m, hm, List.mem_singleton.mp h⟩
  | digit m k hk hm ih =>
    rw [← Nat.toDigits_append_toDigits hbase hm hk, Nat.toDigits_of_lt_base hk] at h
    rcases List.mem_append.mp h with h | h
    · exact ih h
    · exact ⟨k, hk, List.mem_singleton.mp h⟩

/-- Hexadecimal digits are digits, and show as themselves. -/
theorem upperHex_mem {width n : Nat} {c : Char} (h : c ∈ upperHex width n) :
    (hexDigit? c).isSome = true ∧ ' ' ≤ c ∧ c ≤ '~' := by
  rcases List.mem_append.mp h with h | h
  · rw [List.eq_of_mem_replicate h]
    decide
  · obtain ⟨d, hd, rfl⟩ := List.mem_map.mp h
    obtain ⟨digit, hdigit, rfl⟩ := toDigits_mem (by decide) hd
    obtain ⟨hvalue, hlow, hhigh⟩ := hexDigit?_toUpper ⟨digit, hdigit⟩
    exact ⟨by rw [hvalue]; rfl, hlow, hhigh⟩

theorem length_upperHex {width n : Nat} (hwidth : 0 < width) (h : n < 16 ^ width) :
    (upperHex width n).length = width := by
  have hdigits := (Nat.length_toDigits_le_iff (by decide) hwidth).mpr h
  rw [upperHex, List.length_append, List.length_replicate, List.length_map]
  omega

theorem hexValue?_append (cs : List Char) {c : Char} {n digit : Nat} (hcs : hexValue? cs = some n)
    (hc : hexDigit? c = some digit) : hexValue? (cs ++ [c]) = some (16 * n + digit) := by
  rw [hexValue?, List.foldlM_append, ← hexValue?, hcs]
  show ((hexDigit? c).map (16 * n + ·)).bind _ = _
  rw [hc]
  rfl

theorem hexValue?_toDigits (n : Nat) : hexValue? ((Nat.toDigits 16 n).map Char.toUpper) = some n := by
  induction n using Nat.base_induction 16 (by decide) with
  | single m hm =>
    rw [Nat.toDigits_of_lt_base hm]
    have hvalue := (hexDigit?_toUpper ⟨m, hm⟩).1
    have happend := hexValue?_append [] (n := 0) rfl hvalue
    rw [Nat.mul_zero, Nat.zero_add] at happend
    exact happend
  | digit m k hk hm ih =>
    rw [← Nat.toDigits_append_toDigits (by decide) hm hk, Nat.toDigits_of_lt_base hk, List.map_append]
    exact hexValue?_append _ ih (hexDigit?_toUpper ⟨k, hk⟩).1

/-- A number is read from its hexadecimal digits. -/
theorem hexValue?_upperHex (width n : Nat) : hexValue? (upperHex width n) = some n := by
  have hzeros : ∀ count : Nat, hexValue? (List.replicate count '0') = some 0 := by
    intro count
    induction count with
    | zero => rfl
    | succ count ih =>
      rw [List.replicate_succ']
      exact hexValue?_append _ ih (show hexDigit? '0' = some 0 by decide)
  have hvalue := hexValue?_toDigits n
  unfold upperHex
  rw [hexValue?, List.foldlM_append, ← hexValue?, hzeros]
  exact hvalue

/-! ## Base ten -/

theorem digitValue?_digitChar : ∀ digit : Fin 10,
    Decimal.digitValue? digit.val.digitChar = some digit.val := by
  decide

theorem foldlM_toDigits (n : Nat) : (Nat.toDigits 10 n).foldlM
    (fun n c => ((Decimal.digitValue? c).filter (· < 10)).map (10 * n + ·)) 0 = some n := by
  have hstep : ∀ {k : Nat} (m : Nat), k < 10 →
      ((Decimal.digitValue? k.digitChar).filter (· < 10)).map (10 * m + ·) = some (10 * m + k) := by
    intro k m hk
    rw [digitValue?_digitChar ⟨k, hk⟩]
    simp [hk]
  induction n using Nat.base_induction 10 (by decide) with
  | single m hm =>
    rw [Nat.toDigits_of_lt_base hm, List.foldlM_cons, hstep 0 hm]
    simp
  | digit m k hk hm ih =>
    rw [← Nat.toDigits_append_toDigits (by decide) hm hk, Nat.toDigits_of_lt_base hk, List.foldlM_append, ih]
    rw [Option.bind_eq_bind, Option.bind_some, List.foldlM_cons, hstep m hk]
    rfl

/-- A number is read from its decimal digits. -/
theorem readNat?_toDigits (n : Nat) : readNat? 10 (Nat.toDigits 10 n) = some n := by
  rw [readNat?, if_neg (by simp [Nat.toDigits_ne_nil])]
  exact foldlM_toDigits n

end ResolverWiring.Text
