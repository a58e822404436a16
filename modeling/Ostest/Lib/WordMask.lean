import Mathlib.Data.BitVec

/-! Sets of numbers as bit masks over lists of machine words of `w` bits. -/
namespace Ostest.Lib.WordMask

variable {w : Nat}

def bit (words : List (BitVec w)) (n : Nat) : Bool := ((words[n/w]?).getD 0).getLsbD (n%w)

/-- Among the bits of the words, exactly the first `count` are set. -/
def Exact (words : List (BitVec w)) (count : Nat) : Prop :=
  ∀ n < w * words.length, bit words n = decide (n < count)

instance (words : List (BitVec w)) (count : Nat) : Decidable (Exact words count) :=
  inferInstanceAs (Decidable (∀ n < w * words.length, bit words n = decide (n < count)))

def lowMask (w count : Nat) : BitVec w := BitVec.ofNat w (2^count-1)

theorem getLsbD_lowMask (count i : Nat) (inside : i < w) :
    (lowMask w count).getLsbD i = decide (i < count) := by
  rw [lowMask,BitVec.getLsbD_ofNat,Nat.testBit_two_pow_sub_one]
  simp [inside]

theorem lowMask_full : lowMask w w = BitVec.allOnes w := by
  ext i inside
  rw [← BitVec.getLsbD_eq_getElem,getLsbD_lowMask w i inside]
  simp [inside]

theorem toNat_shiftLeft_one (shift : Nat) (bound : shift < w) : (1#w <<< shift).toNat = 2^shift := by
  have power : 2^shift < 2^w := Nat.pow_lt_pow_right (by decide) bound
  rw [BitVec.toNat_shiftLeft,Nat.shiftLeft_eq,BitVec.toNat_one (by omega),Nat.one_mul,
    Nat.mod_eq_of_lt power]

theorem toNat_lowMask (count : Nat) (bound : count ≤ w) : (lowMask w count).toNat = 2^count - 1 := by
  have power := Nat.pow_le_pow_right (by decide : 0 < 2) bound
  have positive := Nat.two_pow_pos count
  rw [lowMask,BitVec.toNat_ofNat,Nat.mod_eq_of_lt (by omega)]

theorem lowMask_inj (first second : Nat) (one : first ≤ w) (other : second ≤ w) :
    lowMask w first = lowMask w second ↔ first = second := by
  constructor
  · intro same
    have equal := congrArg BitVec.toNat same
    rw [toNat_lowMask first one,toNat_lowMask second other] at equal
    have positive := Nat.two_pow_pos first
    have positive' := Nat.two_pow_pos second
    exact (Nat.pow_right_inj (by decide : 1 < 2)).mp (by omega)
  · intro same
    rw [same]

theorem bit_word (words : List (BitVec w)) (i j : Nat) (inside : j < w) :
    bit words (w*i+j) = ((words[i]?).getD 0).getLsbD j := by
  have quotient : (w*i+j)/w = i := by
    rw [Nat.mul_add_div (by omega),Nat.div_eq_of_lt inside,Nat.add_zero]
  have rest : (w*i+j)%w = j := by
    rw [Nat.mul_add_mod,Nat.mod_eq_of_lt inside]
  rw [bit,quotient,rest]

theorem bit_singleton (word : BitVec w) (n : Nat) : bit [word] n = word.getLsbD n := by
  by_cases inside : n < w
  · have read := bit_word [word] 0 n inside
    simpa using read
  · have outside : word.getLsbD n = false := BitVec.getLsbD_of_ge word n (by omega)
    rw [outside,bit]
    rcases Nat.eq_zero_or_pos w with rfl | positive
    · exact BitVec.getLsbD_of_ge _ _ (Nat.zero_le _)
    · have beyond : 1 ≤ n/w := (Nat.le_div_iff_mul_le positive).mpr (by omega)
      rw [List.getElem?_eq_none (by simpa using beyond)]
      exact BitVec.getLsbD_zero

/-- The words of an exact mask are full ones, one with its low bits, and zeros. -/
theorem exact_iff (words : List (BitVec w)) (count : Nat) :
    Exact words count ↔
      ∀ i (inside : i < words.length), words[i] = lowMask w (min w (count-w*i)) := by
  constructor
  · intro exact i inside
    ext j bound
    have low : w*i+j < w * words.length := by
      have more : w*(i+1) ≤ w * words.length := Nat.mul_le_mul_left w inside
      rw [Nat.mul_succ] at more
      omega
    have read := exact (w*i+j) low
    rw [bit_word words i j bound,List.getElem?_eq_getElem inside,Option.getD_some] at read
    rw [← BitVec.getLsbD_eq_getElem,← BitVec.getLsbD_eq_getElem,read,getLsbD_lowMask _ _ bound]
    exact decide_eq_decide.mpr (by omega)
  · intro each n low
    have positive : 0 < w := Nat.pos_of_mul_pos_right (Nat.zero_lt_of_lt low)
    have inside : n/w < words.length := (Nat.div_lt_iff_lt_mul positive).mpr (by rwa [Nat.mul_comm])
    have bound := Nat.mod_lt n positive
    have whole := Nat.div_add_mod n w
    rw [bit,List.getElem?_eq_getElem inside,Option.getD_some,each _ inside,getLsbD_lowMask _ _ bound]
    exact decide_eq_decide.mpr (by omega)

theorem exact_unique (first second : List (BitVec w)) (count : Nat) (length : first.length = second.length)
    (one : Exact first count) (other : Exact second count) : first = second := by
  apply List.ext_getElem length
  intro i left right
  rw [(exact_iff first count).mp one i left,(exact_iff second count).mp other i right]

/-! One word as a set. The machine takes the count of a shift modulo the width, so
numbers with the same remainder share a bit. -/

def setBit (word : BitVec w) (n : Nat) : BitVec w := word ||| 1#w <<< (n%w)

def shiftedBit (word : BitVec w) (n : Nat) : BitVec w := word.sshiftRight (n%w) &&& 1#w

theorem getLsbD_setBit (word : BitVec w) (n i : Nat) (inside : i < w) :
    (setBit word n).getLsbD i = (word.getLsbD i || decide (n%w = i)) := by
  have bound := Nat.mod_lt n (Nat.zero_lt_of_lt inside)
  have shifted : (1#w <<< (n%w)).getLsbD i = decide (n%w = i) := by
    rw [BitVec.getLsbD_shiftLeft,BitVec.getLsbD_one]
    by_cases same : n%w = i
    · simp [same,inside,Nat.zero_lt_of_lt inside]
    · by_cases less : i < n%w
      · simp [less,same]
      · have above : i-n%w ≠ 0 := by omega
        simp [same,above]
  rw [setBit,BitVec.getLsbD_or,shifted]

theorem getLsbD_setBits (list : List Nat) (word : BitVec w) (i : Nat) (inside : i < w) :
    (list.foldl setBit word).getLsbD i = (word.getLsbD i || list.any (fun n => n%w = i)) := by
  induction list generalizing word with
  | nil => simp
  | cons n list ih =>
    rw [List.foldl_cons,ih,getLsbD_setBit word n i inside,List.any_cons,Bool.or_assoc]

theorem shiftedBit_eq (word : BitVec w) (n : Nat) (positive : 0 < w) :
    shiftedBit word n = if word.getLsbD (n%w) then 1#w else 0#w := by
  have bound := Nat.mod_lt n positive
  apply BitVec.eq_of_getLsbD_eq
  intro i inside
  rw [shiftedBit,BitVec.getLsbD_and,BitVec.getLsbD_one,BitVec.getLsbD_sshiftRight]
  by_cases first : i = 0
  · subst first
    cases word.getLsbD (n%w) with
    | false => simp [bound]
    | true => simp [bound,positive,Nat.ne_of_gt positive]
  · cases word.getLsbD (n%w) <;> simp [first]

theorem shiftedBit_zero_iff (word : BitVec w) (n : Nat) (positive : 0 < w) :
    shiftedBit word n = 0#w ↔ word.getLsbD (n%w) = false := by
  have other : 1#w ≠ 0#w := by simp [Nat.ne_of_gt positive]
  rw [shiftedBit_eq word n positive]
  cases word.getLsbD (n%w) <;> simp [other]

theorem shiftedBit_one_iff (word : BitVec w) (n : Nat) (positive : 0 < w) :
    shiftedBit word n = 1#w ↔ word.getLsbD (n%w) = true := by
  have other : 0#w ≠ 1#w := by simp [Nat.ne_of_gt positive]
  rw [shiftedBit_eq word n positive]
  cases word.getLsbD (n%w) <;> simp [other]

end Ostest.Lib.WordMask
