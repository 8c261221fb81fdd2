import Mathlib.Data.List.TakeWhile
import Mathlib.Data.Rat.Init
import Mathlib.Algebra.Order.Field.Rat

/-! C strings as lists of characters: the words that a stream extraction sees,
decimal output of integers and the conversions that read it back.
The terminating NUL is not part of a text. -/
namespace ProtocolTests.Library.CString

abbrev Text := List Char

/-- The white space of the C locale. -/
def isSpace (c : Char) : Bool :=
  c = ' ' || c = '\t' || c = '\n' || c = '\x0b' || c = '\x0c' || c = '\r'

def words (line : Text) : List Text := (line.splitOnP isSpace).filter (fun word => !word.isEmpty)

def decimal (value : Int) : Text :=
  if value < 0 then '-' :: Nat.toDigits 10 value.natAbs else Nat.toDigits 10 value.natAbs

def leadingNat (text : Text) : Nat := Nat.ofDigitChars 10 (text.takeWhile Char.isDigit) 0

/-- `strtol` in base ten, before the result is limited to a `long`. -/
def leadingInt (text : Text) : Int :=
  match text.dropWhile isSpace with
  | '-' :: rest => -(leadingNat rest : Int)
  | '+' :: rest => leadingNat rest
  | rest => leadingNat rest

/-- `atoi`: the `long` that `strtol` returns, saturated at its bounds, cut to an `int`. -/
def atoi (text : Text) : Int32 := Int32.ofInt (max (-2^63) (min (2^63-1) (leadingInt text)))

/-- The exponent part of a decimal number: nothing, or a letter, a sign and digits. -/
def exponent : Text → Int
  | 'e' :: '-' :: rest | 'E' :: '-' :: rest => -(leadingNat rest : Int)
  | 'e' :: '+' :: rest | 'E' :: '+' :: rest => leadingNat rest
  | 'e' :: rest | 'E' :: rest => leadingNat rest
  | _ => 0

/-- The value of an unsigned decimal number at the start of a text, zero without a digit. -/
def leadingDecimal (text : Text) : ℚ :=
  let whole := text.takeWhile Char.isDigit
  let (fraction,rest) := match text.dropWhile Char.isDigit with
    | '.' :: after => (after.takeWhile Char.isDigit,after.dropWhile Char.isDigit)
    | after => ([],after)
  if whole ++ fraction = [] then 0
  else Nat.ofDigitChars 10 (whole ++ fraction) 0 * (10 : ℚ)^(exponent rest - fraction.length)

/-- What `atof` below leaves out: hexadecimal numbers, infinities and NaNs. -/
def unusual (text : Text) : Bool :=
  let unsigned := match text.dropWhile isSpace with
    | '-' :: rest | '+' :: rest => rest
    | rest => rest
  match unsigned.map Char.toLower with
  | '0' :: 'x' :: _ | 'i' :: 'n' :: 'f' :: _ | 'n' :: 'a' :: 'n' :: _ => true
  | _ => false

/-- `atof` on decimal numbers, with the exact value for the nearest double. -/
def atof (text : Text) : ℚ :=
  match text.dropWhile isSpace with
  | '-' :: rest => -leadingDecimal rest
  | '+' :: rest => leadingDecimal rest
  | rest => leadingDecimal rest

/-- The conversion of a double to an `int`: the fraction is dropped. A value that does not
fit is undefined in the language; the least `int` is what the x86 instruction gives. -/
def truncate (value : ℚ) : Int32 :=
  let whole := Int.tdiv value.num value.den
  if -2^31 ≤ whole ∧ whole < 2^31 then Int32.ofInt whole else Int32.minValue

theorem digit_not_space {c : Char} (digit : c.isDigit = true) : isSpace c = false := by
  simp only [isSpace,Bool.or_eq_false_iff,decide_eq_false_iff_not]
  refine ⟨⟨⟨⟨⟨?_,?_⟩,?_⟩,?_⟩,?_⟩,?_⟩ <;> rintro rfl <;> simp [Char.isDigit] at digit

theorem toDigits_digit {n : Nat} {c : Char} (member : c ∈ Nat.toDigits 10 n) : c.isDigit = true :=
  Nat.isDigit_of_mem_toDigits (by decide) (by decide) member

theorem leadingNat_toDigits (n : Nat) : leadingNat (Nat.toDigits 10 n) = n := by
  have all : (Nat.toDigits 10 n).takeWhile Char.isDigit = Nat.toDigits 10 n :=
    List.takeWhile_eq_self_iff.mpr fun c member => toDigits_digit member
  rw [leadingNat,all,Nat.ofDigitChars_ten_toDigits]

theorem toDigits_head (n : Nat) : ∃ d rest, Nat.toDigits 10 n = d :: rest ∧ d.isDigit = true := by
  cases shape : Nat.toDigits 10 n with
  | nil => exact absurd shape Nat.toDigits_ne_nil
  | cons d rest => exact ⟨d,rest,rfl,toDigits_digit (n := n) (by simp [shape])⟩

theorem leadingInt_decimal (value : Int) : leadingInt (decimal value) = value := by
  unfold decimal
  split
  next negative =>
    have skipped : ('-' :: Nat.toDigits 10 value.natAbs).dropWhile isSpace =
        '-' :: Nat.toDigits 10 value.natAbs := by simp [isSpace]
    simp only [leadingInt,skipped,leadingNat_toDigits]
    omega
  next nonnegative =>
    obtain ⟨d,rest,shape,digit⟩ := toDigits_head value.natAbs
    have read := leadingNat_toDigits value.natAbs
    rw [shape] at read ⊢
    simp only [leadingInt,List.dropWhile_cons,digit_not_space digit,Bool.false_eq_true,if_false]
    split
    next tail equal => simp_all [Char.isDigit]
    next tail equal => simp_all [Char.isDigit]
    next => omega

theorem decimal_injective : Function.Injective decimal := Function.LeftInverse.injective leadingInt_decimal

theorem decimal_letters {value : Int} {c : Char} (member : c ∈ decimal value) : c = '-' ∨ c.isDigit = true := by
  unfold decimal at member
  split at member
  · exact (List.mem_cons.mp member).imp_right toDigits_digit
  · exact Or.inr (toDigits_digit member)

theorem decimal_natCast_digit {n : Nat} {c : Char} (member : c ∈ decimal n) : c.isDigit = true := by
  have nonnegative : ¬(n : Int) < 0 := by omega
  rw [decimal,if_neg nonnegative] at member
  exact toDigits_digit member

/-- Two texts are cut in the same way at the first occurrence of a character. -/
theorem joined_iff {c : Char} (first second rest other : Text) (a : c ∉ first) (b : c ∉ second) :
    first ++ c :: rest = second ++ c :: other ↔ first = second ∧ rest = other := by
  induction first generalizing second with
  | nil =>
    cases second with
    | nil => simp
    | cons d second =>
      have apart : c ≠ d := List.ne_of_not_mem_cons b
      simp [apart]
  | cons d first ih =>
    cases second with
    | nil =>
      have apart : c ≠ d := List.ne_of_not_mem_cons a
      simp [apart.symm]
    | cons d' second =>
      have rest_iff := ih second (fun member => a (List.mem_cons_of_mem _ member))
        (fun member => b (List.mem_cons_of_mem _ member))
      simp only [List.cons_append,List.cons.injEq,rest_iff,and_assoc]

theorem mem_intercalate {separator : Text} {parts : List Text} {c : Char}
    (member : c ∈ separator.intercalate parts) : c ∈ separator ∨ ∃ part ∈ parts, c ∈ part := by
  induction parts with
  | nil => simp [List.intercalate] at member
  | cons part parts ih =>
    cases parts with
    | nil => exact Or.inr ⟨part,List.mem_cons_self,by simpa [List.intercalate] using member⟩
    | cons next parts =>
      rw [List.intercalate_cons_cons] at member
      rcases List.mem_append.mp member with front | rest
      · rcases List.mem_append.mp front with inside | between
        · exact Or.inr ⟨part,List.mem_cons_self,inside⟩
        · exact Or.inl between
      · exact (ih rest).imp_right fun ⟨other,among,inside⟩ => ⟨other,List.mem_cons_of_mem _ among,inside⟩

/-- Every `int` survives being printed and read back. -/
theorem atoi_decimal (value : Int32) : atoi (decimal value.toInt) = value := by
  have lower := value.le_toInt
  have upper := value.toInt_lt
  rw [atoi,leadingInt_decimal,min_eq_right (by omega),max_eq_right (by omega),Int32.ofInt_toInt]

theorem atof_toDigits (n : Nat) : atof (Nat.toDigits 10 n) = n := by
  obtain ⟨d,rest,shape,digit⟩ := toDigits_head n
  have whole : (Nat.toDigits 10 n).takeWhile Char.isDigit = Nat.toDigits 10 n :=
    List.takeWhile_eq_self_iff.mpr fun c member => toDigits_digit member
  have after : (Nat.toDigits 10 n).dropWhile Char.isDigit = [] :=
    List.dropWhile_eq_nil_iff.mpr fun c member => toDigits_digit member
  have value : leadingDecimal (Nat.toDigits 10 n) = n := by
    simp [leadingDecimal,whole,after,Nat.toDigits_ne_nil,exponent]
  rw [shape] at value ⊢
  simp only [atof,List.dropWhile_cons,digit_not_space digit,Bool.false_eq_true,if_false]
  split
  next tail equal => simp_all [Char.isDigit]
  next tail equal => simp_all [Char.isDigit]
  next => exact value

theorem truncate_natCast (n : Nat) (fits : n < 2^31) : (truncate n).toInt = n := by
  have whole : Int.tdiv (n : ℚ).num (n : ℚ).den = n := by simp
  have lower : -2^31 ≤ (n : Int) := by omega
  have upper : (n : Int) < 2^31 := by omega
  rw [truncate,whole,if_pos ⟨lower,upper⟩,Int32.toInt_ofInt,Int32.size]
  exact Int.bmod_eq_of_le (by omega) (by omega)

@[simp] theorem words_nil : words [] = [] := rfl

theorem words_append (first second : Text) (c : Char) (space : isSpace c = true) :
    words (first ++ c :: second) = words first ++ words second := by
  rw [words,List.splitOnP_append_cons first second space,List.filter_append]
  rfl

theorem words_single (word : Text) (nonempty : word ≠ []) (letters : ∀ c ∈ word, isSpace c = false) :
    words word = [word] := by
  rw [words,List.splitOnP_eq_singleton letters]
  simp [nonempty]

private theorem splitOnP_letters (line : Text) :
    ∀ piece ∈ line.splitOnP isSpace, ∀ c ∈ piece, isSpace c = false := by
  induction line with
  | nil => simp [List.splitOnP_nil]
  | cons x rest ih =>
    rw [List.splitOnP_cons_eq_if_modifyHead]
    cases space : isSpace x with
    | true =>
      intro piece member
      rcases List.mem_cons.mp (by simpa using member) with rfl | later
      · simp
      · exact ih piece later
    | false =>
      intro piece member
      cases pieces : rest.splitOnP isSpace with
      | nil => exact absurd pieces (List.splitOnP_ne_nil _ _)
      | cons first later =>
        rw [pieces] at ih
        rcases List.mem_cons.mp (by simpa [pieces] using member) with rfl | tail
        · simp only [List.mem_cons,forall_eq_or_imp]
          exact ⟨space,ih first (by simp)⟩
        · exact ih piece (by simp [tail])

theorem words_letters (line : Text) : ∀ word ∈ words line, ∀ c ∈ word, isSpace c = false :=
  fun word member => splitOnP_letters line word (List.mem_filter.mp member).1

example : atoi " -12 bytes".toList = -12 := by decide

end ProtocolTests.Library.CString
