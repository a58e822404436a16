import Mathlib.Data.List.Basic
import Mathlib.Tactic.IntervalCases

/-! Decimal conversions of printf, the numerals they print, and digits. -/
namespace Ostest.Lib.Decimal

/-- `%d` of a number that is not negative. -/
def decimal (n : Nat) : List Char := Nat.toDigits 10 n

def isOctDigit (c : Char) : Bool := '0' ≤ c && c ≤ '7'

def isHexDigit (c : Char) : Bool := c.isDigit || ('a' ≤ c && c ≤ 'f') || ('A' ≤ c && c ≤ 'F')

def hexDigit (c : Char) : Nat :=
  if c.isDigit then c.toNat - '0'.toNat
  else if 'a' ≤ c ∧ c ≤ 'f' then c.toNat - 'a'.toNat + 10
  else c.toNat - 'A'.toNat + 10

def padLeft (fill : Char) (width : Nat) (text : List Char) : List Char :=
  List.replicate (width-text.length) fill ++ text

def padRight (fill : Char) (width : Nat) (text : List Char) : List Char :=
  text ++ List.replicate (width-text.length) fill

def numeral (text : List Char) : Nat := Nat.ofDigitChars 10 text 0

theorem numeral_decimal (n : Nat) : numeral (decimal n) = n := Nat.ofDigitChars_ten_toDigits

theorem decimal_digits (n : Nat) (c : Char) (member : c ∈ decimal n) : c.isDigit = true :=
  Nat.isDigit_of_mem_toDigits (by decide) (by decide) member

theorem decimal_without (n : Nat) (c : Char) (notDigit : c.isDigit = false) : c ∉ decimal n :=
  fun member => Bool.false_ne_true (notDigit.symm.trans (decimal_digits n c member))

theorem decimal_inj (a b : Nat) (same : decimal a = decimal b) : a = b := by
  rw [← numeral_decimal a,same,numeral_decimal]

theorem isDigit_mem (c : Char) (digit : c.isDigit = true) : c ∈ "0123456789".toList := by
  simp only [Char.isDigit,Bool.and_eq_true,decide_eq_true_eq] at digit
  have low : 48 ≤ c.toNat := digit.1
  have high : c.toNat ≤ 57 := digit.2
  rw [(Char.ofNat_toNat c).symm]
  generalize c.toNat = n at low high
  interval_cases n <;> decide

theorem decimal_ne_nil (n : Nat) : decimal n ≠ [] := Nat.toDigits_ne_nil

theorem decimal_length (n digits : Nat) (positive : 0 < digits) (bound : n < 10^digits) :
    (decimal n).length ≤ digits := (Nat.length_toDigits_le_iff (by decide) positive).mpr bound

theorem decimal_head (n : Nat) (positive : 0 < n) : (decimal n).head? ≠ some '0' := by
  induction n using Nat.strongRecOn with
  | ind n ih =>
    rw [decimal,Nat.toDigits_eq_if (by decide)]
    split
    · rename_i small
      interval_cases n <;> decide
    · have higher := ih (n/10) (by omega) (by omega)
      rw [List.head?_append_of_ne_nil _ Nat.toDigits_ne_nil]
      exact higher

/-- A numeral as C and the shell read it when they are to find the base: a 0 in
front makes it octal, and 8 and 9 are then an error. -/
def cNumeral : List Char → Option Nat
  | '0' :: digits => if digits.all isOctDigit then some (Nat.ofDigitChars 8 digits 0) else none
  | text => some (numeral text)

theorem cNumeral_plain (text : List Char) (plain : text.head? ≠ some '0') :
    cNumeral text = some (numeral text) := by
  unfold cNumeral
  split
  · contradiction
  · rfl

theorem cNumeral_decimal (n : Nat) : cNumeral (decimal n) = some n := by
  rcases Nat.eq_zero_or_pos n with zero | positive
  · subst zero
    rfl
  · rw [cNumeral_plain _ (decimal_head n positive),numeral_decimal]

def integer (n : Int) : List Char := if n < 0 then '-' :: decimal n.natAbs else decimal n.natAbs

theorem integer_without (n : Int) (c : Char) (notDigit : c.isDigit = false) (notSign : c ≠ '-') :
    c ∉ integer n := by
  have digits := decimal_without n.natAbs c notDigit
  unfold integer
  split
  · simp [digits,notSign]
  · exact digits

def cInteger : List Char → Option Int
  | '-' :: digits => (cNumeral digits).map (fun n : Nat => -(n : Int))
  | text => (cNumeral text).map Int.ofNat

/-- An integer that is always decimal. -/
def signedNumeral : List Char → Int
  | '-' :: digits => -(numeral digits)
  | text => numeral text

theorem decimal_unsigned (n : Nat) : (decimal n).head? ≠ some '-' := by
  intro sign
  have digit := decimal_digits n '-' (List.mem_of_mem_head? sign)
  contradiction

theorem cInteger_integer (n : Int) : cInteger (integer n) = some n := by
  unfold integer
  split
  · rename_i negative
    rw [cInteger,cNumeral_decimal,Option.map_some]
    congr 1
    omega
  · have unsigned := decimal_unsigned n.natAbs
    unfold cInteger
    split
    · rename_i digits same
      simp [same] at unsigned
    · rw [cNumeral_decimal,Option.map_some]
      congr 1
      exact Int.natAbs_of_nonneg (by omega)

theorem signedNumeral_decimal (n : Nat) : signedNumeral (decimal n) = n := by
  have unsigned := decimal_unsigned n
  unfold signedNumeral
  split
  · rename_i digits same
    simp [same] at unsigned
  · rw [numeral_decimal]

/-- `%03d` and the like lose nothing. -/
theorem numeral_padLeft_zero (width n : Nat) : numeral (padLeft '0' width (decimal n)) = n := by
  rw [numeral,padLeft,Nat.ofDigitChars_append,Nat.ofDigitChars_replicate_zero,Nat.mul_zero]
  exact numeral_decimal n

theorem padLeft_zero_digits (width n : Nat) (c : Char) (member : c ∈ padLeft '0' width (decimal n)) :
    c.isDigit = true := by
  rcases List.mem_append.mp member with zeros | digits
  · rw [List.eq_of_mem_replicate zeros]
    rfl
  · exact decimal_digits n c digits

end Ostest.Lib.Decimal
