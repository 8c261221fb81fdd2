import ProtocolTests.Library.CString
import Mathlib.Data.Int.Log
import Mathlib.Data.Rat.Floor
import Mathlib.Tactic.Linarith

/-! Doubles as `printf` writes them, with the exact value in place of the nearest double:
`%f` with six places, and `%g` with six digits, which is what streams write too. -/
namespace ProtocolTests.Library.Printf
open CString

/-- The nearest integer, and of two the even one. -/
def nearest (value : ℚ) : Int :=
  let below := ⌊value⌋
  if value - below < 1/2 then below
  else if 1/2 < value - below then below + 1
  else below + below % 2

/-- At least so many digits, with zeros in front. -/
def padded (places n : Nat) : Text :=
  List.replicate (places - (Nat.toDigits 10 n).length) '0' ++ Nat.toDigits 10 n

def sign (value : ℚ) : Text := if value < 0 then ['-'] else []

def fixed (value : ℚ) : Text :=
  let digits := (nearest (|value| * 10^6)).toNat
  sign value ++ (Nat.toDigits 10 (digits / 10^6) ++ '.' :: padded 6 (digits % 10^6))

/-- The decimal exponent of a positive number and its first six digits. -/
def significant (value : ℚ) : Int × Nat :=
  let exponent := Int.log 10 value
  let digits := (nearest (value * 10^(5 - exponent))).toNat
  if digits = 10^6 then (exponent + 1,10^5) else (exponent,digits)

/-- A fraction loses the zeros at its end, and the point when nothing is left. -/
def fraction (digits : Text) : Text :=
  match (digits.reverse.dropWhile (· = '0')).reverse with
  | [] => []
  | kept => '.' :: kept

def general (value : ℚ) : Text :=
  if value = 0 then ['0'] else
  let (exponent,digits) := significant |value|
  if -4 ≤ exponent ∧ exponent < 6 then
    let places := (5 - exponent).toNat
    sign value ++ Nat.toDigits 10 (digits / 10^places) ++ fraction (padded places (digits % 10^places))
  else
    sign value ++ Nat.toDigits 10 (digits / 10^5) ++ fraction (padded 5 (digits % 10^5)) ++
      'e' :: (if exponent < 0 then '-' else '+') :: padded 2 exponent.natAbs

theorem nearest_nonneg {value : ℚ} (nonnegative : 0 ≤ value) : 0 ≤ nearest value := by
  have below := Int.floor_nonneg.mpr nonnegative
  simp only [nearest]
  split <;> (try split) <;> omega

theorem padded_digit {places n : Nat} {c : Char} (member : c ∈ padded places n) : c.isDigit = true := by
  rcases List.mem_append.mp member with zero | digit
  · rw [List.eq_of_mem_replicate zero]
    decide
  · exact toDigits_digit digit

theorem padded_length {places n : Nat} (some_place : 0 < places) (fits : n < 10^places) :
    (padded places n).length = places := by
  have short := (Nat.length_toDigits_le_iff (by decide) some_place).mpr fits
  rw [padded,List.length_append,List.length_replicate]
  omega

theorem padded_value (places n : Nat) : Nat.ofDigitChars 10 (padded places n) 0 = n := by
  rw [padded,Nat.ofDigitChars_append,Nat.ofDigitChars_replicate_zero,Nat.mul_zero,Nat.ofDigitChars_ten_toDigits]

theorem leadingDecimal_pointed (places n : Nat) (some_place : 0 < places) :
    leadingDecimal (Nat.toDigits 10 (n / 10^places) ++ '.' :: padded places (n % 10^places)) = n / 10^places := by
  have digits : ∀ c ∈ Nat.toDigits 10 (n / 10^places), c.isDigit = true := fun c member => toDigits_digit member
  have fractional : ∀ c ∈ padded places (n % 10^places), c.isDigit = true := fun c member => padded_digit member
  have size := padded_length some_place (Nat.mod_lt n (Nat.pow_pos (by decide : 0 < 10)))
  have whole : Nat.ofDigitChars 10 (Nat.toDigits 10 (n / 10^places) ++ padded places (n % 10^places)) 0 = n := by
    rw [Nat.ofDigitChars_append,Nat.ofDigitChars_ten_toDigits,Nat.ofDigitChars_eq_ofDigitChars_zero,padded_value,size]
    exact Nat.div_add_mod n _
  have point : ('.').isDigit = false := by decide
  simp only [leadingDecimal,List.takeWhile_append_of_pos digits,List.dropWhile_append_of_pos digits,
    List.takeWhile_cons,List.dropWhile_cons,point,Bool.false_eq_true,if_false,List.append_nil,
    List.takeWhile_eq_self_iff.mpr fractional,List.dropWhile_eq_nil_iff.mpr fractional,whole,size,exponent]
  rw [if_neg (by simp [Nat.toDigits_ne_nil]),Int.zero_sub,zpow_neg,zpow_natCast]
  rfl

theorem atof_fixed {value : ℚ} (nonnegative : 0 ≤ value) : atof (fixed value) = nearest (value * 10^6) / 10^6 := by
  have plus : sign value = [] := if_neg (not_lt.mpr nonnegative)
  have digits := nearest_nonneg (mul_nonneg nonnegative (by norm_num : (0 : ℚ) ≤ 10^6))
  have whole : ((nearest (value * 10^6)).toNat : ℚ) = nearest (value * 10^6) := by
    exact_mod_cast Int.toNat_of_nonneg digits
  have read := leadingDecimal_pointed 6 (nearest (value * 10^6)).toNat (by decide)
  obtain ⟨d,rest,shape,digit⟩ := toDigits_head ((nearest (value * 10^6)).toNat / 10^6)
  rw [whole,shape,List.cons_append] at read
  rw [fixed,plus,abs_of_nonneg nonnegative,List.nil_append,shape,List.cons_append,atof]
  simp only [List.dropWhile_cons,digit_not_space digit,Bool.false_eq_true,if_false]
  split
  next tail equal => simp_all [Char.isDigit]
  next tail equal => simp_all [Char.isDigit]
  next => exact read

/-- The letters of a number. -/
def Numeral (c : Char) : Prop := c.isDigit = true ∨ c ∈ ".-+e".toList

instance : DecidablePred Numeral := fun _ => inferInstanceAs (Decidable (_ ∨ _))

theorem fraction_letters {digits : Text} (all : ∀ c ∈ digits, c.isDigit = true) : ∀ c ∈ fraction digits, Numeral c := by
  have kept : ∀ c ∈ (digits.reverse.dropWhile (· = '0')).reverse, c.isDigit = true := fun c member =>
    all c (List.mem_reverse.mp ((List.dropWhile_suffix _).mem (List.mem_reverse.mp member)))
  rw [fraction]
  split
  next => simp
  next =>
    intro c member
    rcases List.mem_cons.mp member with rfl | digit
    · exact Or.inr (by decide)
    · exact Or.inl (kept c digit)

theorem general_nonempty (value : ℚ) : general value ≠ [] := by
  have digits (n : Nat) : Nat.toDigits 10 n ≠ [] := by
    obtain ⟨c,tail,shape,_⟩ := toDigits_head n
    rw [shape]
    exact List.cons_ne_nil _ _
  unfold general
  split
  next => exact List.cons_ne_nil _ _
  next =>
    dsimp only
    split <;> simp [digits]

theorem general_letters {value : ℚ} : ∀ c ∈ general value, Numeral c := by
  have signed : ∀ c ∈ sign value, Numeral c := by
    rw [sign]
    split <;> simp [Numeral]
  have whole (n : Nat) : ∀ c ∈ Nat.toDigits 10 n, Numeral c := fun c member => Or.inl (toDigits_digit member)
  have part (places n : Nat) := @fraction_letters (padded places n) fun c member => padded_digit member
  have last (n : Nat) : ∀ c ∈ padded 2 n, Numeral c := fun c member => Or.inl (padded_digit member)
  rw [general]
  split
  next => simp [Numeral]
  next =>
    split
    next exponent digits _ =>
      intro c
      split
      next =>
        simp only [List.mem_append]
        rintro ((here | here) | here)
        · exact signed c here
        · exact whole _ c here
        · exact part _ _ c here
      next =>
        simp only [List.mem_append,List.mem_cons]
        rintro (((here | here) | here) | here | here | here)
        · exact signed c here
        · exact whole _ c here
        · exact part _ _ c here
        · exact Or.inr (by rw [here]; decide)
        · refine Or.inr ?_
          rw [here]
          split <;> decide
        · exact last _ c here

example : general 2097152 = "2.09715e+06".toList := by decide +kernel
example : general (-1/3) = "-0.333333".toList := by decide +kernel

end ProtocolTests.Library.Printf
