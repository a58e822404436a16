import Mathlib.Data.List.TakeWhile
import Ostest.Lib.Decimal
import Ostest.Lib.Words

/-! strtoll and strtoul of the C library when they are to find the base
themselves. -/
namespace Ostest.Lib.Strtoll
open Decimal
open Words (isSpace)

def hexNumeral (digits : List Char) : Nat := digits.foldl (fun n c => 16*n + hexDigit c) 0

/-- What follows `0x` or `0X`; without a digit only the 0 is a number. -/
def hexadecimal (mark : Char) (rest : List Char) : Nat × List Char :=
  if rest.takeWhile isHexDigit = [] then (0,mark :: rest)
  else (hexNumeral (rest.takeWhile isHexDigit),rest.dropWhile isHexDigit)

/-- The number at the start of a text without a sign, and what follows it. -/
def magnitude : List Char → Option (Nat × List Char)
  | '0' :: 'x' :: rest => some (hexadecimal 'x' rest)
  | '0' :: 'X' :: rest => some (hexadecimal 'X' rest)
  | '0' :: rest => some (Nat.ofDigitChars 8 (rest.takeWhile isOctDigit) 0,rest.dropWhile isOctDigit)
  | text =>
    if text.takeWhile Char.isDigit = [] then none
    else some (numeral (text.takeWhile Char.isDigit),text.dropWhile Char.isDigit)

def number (text : List Char) : Option (Int × List Char) :=
  match text.dropWhile isSpace with
  | '-' :: rest => (magnitude rest).map (fun (n,rest) => (-(n : Int),rest))
  | '+' :: rest => (magnitude rest).map (fun (n,rest) => ((n : Int),rest))
  | rest => (magnitude rest).map (fun (n,rest) => ((n : Int),rest))

/-- The value, the text at the end pointer, and whether errno became ERANGE. -/
structure Conversion where
  value : Int
  endptr : List Char
  erange : Bool
  deriving DecidableEq

def strtoll (text : List Char) : Conversion :=
  match number text with
  | none => ⟨0,text,false⟩
  | some (n,rest) =>
    if n < -2^63 then ⟨-2^63,rest,true⟩
    else if 2^63 ≤ n then ⟨2^63-1,rest,true⟩
    else ⟨n,rest,false⟩

/-- A number with a minus sign is negated in the unsigned type. -/
def strtoul (text : List Char) : Conversion :=
  match number text with
  | none => ⟨0,text,false⟩
  | some (n,rest) =>
    if 2^64 ≤ n.natAbs then ⟨2^64-1,rest,true⟩ else ⟨n % 2^64,rest,false⟩

/-! A number takes characters, so the end pointer moves. -/

theorem dropWhile_length_lt (p : Char → Bool) (text : List Char) (some : text.takeWhile p ≠ []) :
    (text.dropWhile p).length < text.length := by
  have split := congrArg List.length (List.takeWhile_append_dropWhile (p := p) (l := text))
  have positive := List.length_pos_iff.mpr some
  rw [List.length_append] at split
  omega

theorem hexadecimal_length (mark : Char) (rest : List Char) :
    (hexadecimal mark rest).2.length ≤ rest.length + 1 := by
  unfold hexadecimal
  split
  · exact Nat.le_refl _
  · rename_i digits
    have := dropWhile_length_lt isHexDigit rest digits
    simp only
    omega

theorem magnitude_length (text rest : List Char) (n : Nat) (found : magnitude text = some (n,rest)) :
    rest.length < text.length := by
  unfold magnitude at found
  split at found
  case h_1 digits =>
    have short := hexadecimal_length 'x' digits
    rw [Option.some.inj found] at short
    exact Nat.lt_succ_of_le short
  case h_2 digits =>
    have short := hexadecimal_length 'X' digits
    rw [Option.some.inj found] at short
    exact Nat.lt_succ_of_le short
  case h_3 digits _ _ =>
    obtain ⟨_,rfl⟩ := Prod.mk.inj (Option.some.inj found)
    exact Nat.lt_succ_of_le (List.dropWhile_suffix isOctDigit).length_le
  case h_4 _ _ _ =>
    split at found
    · contradiction
    · rename_i digits
      obtain ⟨_,rfl⟩ := Prod.mk.inj (Option.some.inj found)
      exact dropWhile_length_lt Char.isDigit _ digits

theorem signed_length (sign : Nat → Int) (text rest : List Char) (n : Int)
    (found : (magnitude text).map (fun (n,rest) => (sign n,rest)) = some (n,rest)) :
    rest.length < text.length := by
  obtain ⟨⟨m,_⟩,same,pair⟩ := Option.map_eq_some_iff.mp found
  obtain ⟨_,rfl⟩ := Prod.mk.inj pair
  exact magnitude_length text _ m same

theorem number_length (text rest : List Char) (n : Int) (found : number text = some (n,rest)) :
    rest.length < text.length := by
  have spaces := (List.dropWhile_suffix (l := text) isSpace).length_le
  unfold number at found
  split at found
  case h_1 digits start =>
    have short := signed_length (fun n => -(n : Int)) digits rest n found
    rw [start,List.length_cons] at spaces
    omega
  case h_2 digits start =>
    have short := signed_length Int.ofNat digits rest n found
    rw [start,List.length_cons] at spaces
    omega
  case h_3 _ _ => exact Nat.lt_of_lt_of_le (signed_length Int.ofNat _ rest n found) spaces

/-! Numbers as printf writes them. -/

def hex (n : Nat) : List Char := '0' :: 'x' :: Nat.toDigits 16 n

theorem hexNumeral_append (digits : List Char) (c : Char) :
    hexNumeral (digits ++ [c]) = 16 * hexNumeral digits + hexDigit c := by
  rw [hexNumeral,List.foldl_append]
  rfl

theorem digitChar_hex (n : Nat) (small : n < 16) :
    hexDigit n.digitChar = n ∧ isHexDigit n.digitChar = true := by
  interval_cases n <;> decide

theorem toDigits_hex (n : Nat) :
    hexNumeral (Nat.toDigits 16 n) = n ∧ ∀ c ∈ Nat.toDigits 16 n, isHexDigit c = true := by
  induction n using Nat.strongRecOn with
  | ind n ih =>
    rw [Nat.toDigits_eq_if (by decide)]
    split
    · rename_i small
      obtain ⟨value,digit⟩ := digitChar_hex n small
      refine ⟨?_,by simpa using digit⟩
      rw [hexNumeral,List.foldl_cons,List.foldl_nil,value]
      omega
    · obtain ⟨higher,digits⟩ := ih (n/16) (by omega)
      obtain ⟨value,digit⟩ := digitChar_hex (n%16) (Nat.mod_lt _ (by decide))
      rw [hexNumeral_append,higher,value]
      refine ⟨by omega,?_⟩
      intro c member
      rcases List.mem_append.mp member with front | last
      · exact digits c front
      · rw [List.mem_singleton.mp last]
        exact digit

theorem takeWhile_all (p : Char → Bool) (text : List Char) (all : ∀ c ∈ text, p c = true) :
    text.takeWhile p = text ∧ text.dropWhile p = [] :=
  ⟨List.takeWhile_eq_self_iff.mpr all,List.dropWhile_eq_nil_iff.mpr all⟩

theorem isDigit_not_space (c : Char) (digit : c.isDigit = true) : isSpace c = false := by
  simp only [Char.isDigit,Bool.and_eq_true,decide_eq_true_eq] at digit
  have low : 48 ≤ c.toNat := digit.1
  have notBlank : c ≠ ' ' := by
    rintro rfl
    exact absurd low (by decide)
  have notControl : ¬ c ≤ '\r' := by
    intro high
    have bound : c.toNat ≤ 13 := high
    omega
  simp [isSpace,notBlank,notControl]

theorem number_digits (text : List Char) (c : Char) (head : text.head? = some c)
    (digit : c.isDigit = true) : number text = (magnitude text).map (fun (n,rest) => ((n : Int),rest)) := by
  obtain ⟨rest,rfl⟩ := List.head?_eq_some_iff.mp head
  have start : (c :: rest).dropWhile isSpace = c :: rest :=
    List.dropWhile_cons_of_neg (by simp [isDigit_not_space c digit])
  rw [number,start]
  split
  · rename_i sign
    obtain ⟨rfl,_⟩ := List.cons.inj sign
    contradiction
  · rename_i sign
    obtain ⟨rfl,_⟩ := List.cons.inj sign
    contradiction
  · rfl

theorem number_hex (n : Nat) : number (hex n) = some ((n : Int),[]) := by
  obtain ⟨value,digits⟩ := toDigits_hex n
  obtain ⟨taken,left⟩ := takeWhile_all isHexDigit _ digits
  rw [number_digits (hex n) '0' rfl rfl,hex,magnitude,hexadecimal,taken,left,
    if_neg Nat.toDigits_ne_nil,value]
  rfl

theorem magnitude_decimal (n : Nat) : magnitude (decimal n) = some (n,[]) := by
  rcases Nat.eq_zero_or_pos n with zero | positive
  · subst zero
    rfl
  · have head := decimal_head n positive
    have value := numeral_decimal n
    have nonempty := decimal_ne_nil n
    obtain ⟨taken,left⟩ := takeWhile_all Char.isDigit _ (decimal_digits n)
    generalize decimal n = text at *
    unfold magnitude
    split
    · exact absurd rfl head
    · exact absurd rfl head
    · exact absurd rfl head
    · rw [taken,left,value,if_neg nonempty]

theorem number_decimal (n : Nat) : number (decimal n) = some ((n : Int),[]) := by
  obtain ⟨c,head⟩ := Option.ne_none_iff_exists'.mp (mt List.head?_eq_none_iff.mp (decimal_ne_nil n))
  rw [number_digits (decimal n) c head (decimal_digits n c (List.mem_of_mem_head? head)),
    magnitude_decimal]
  rfl

theorem strtoul_value (text rest : List Char) (n : Nat) (found : number text = some ((n : Int),rest))
    (small : n < 2^64) : (strtoul text).value = n := by
  have fits : ¬ 2^64 ≤ (n : Int).natAbs := by
    rw [Int.natAbs_natCast]
    omega
  simp only [strtoul,found,if_neg fits]
  omega

end Ostest.Lib.Strtoll
