import Mathlib.Data.BitVec

/-! Test mem_stack_limits/000: the size in units, and the recursion that uses
them up. The stack is taken to be large enough; that the functions touch the
pages of their frames is left out. -/
namespace Ostest.TestMck.MemStackLimits

/-- The globals `gib_count`, `mib_count` and `kib_count`, ints. -/
structure Counts where
  gib : BitVec 32
  mib : BitVec 32
  kib : BitVec 32
  deriving DecidableEq

def subGib : Nat → BitVec 64 → BitVec 64
  | 0, tmpSize => tmpSize
  | left+1, tmpSize => subGib left (tmpSize - 0x40000000)

/-- The quotients are cut to ints, and the product with `mib` is one of ints. -/
def valueToUnit (value : BitVec 64) : Counts :=
  let gib := (value / 0x40000000).setWidth 32
  let tmpSize := subGib gib.toInt.toNat value
  let mib := (tmpSize / 0x100000).setWidth 32
  let tmpSize := tmpSize - (mib * 0x100000).signExtend 64
  let kib := (tmpSize / 0x400).setWidth 32
  ⟨gib,mib,kib⟩

inductive StackFunc where
  | gib
  | mib
  | kib
  deriving DecidableEq

/-- `stack_limit_func`: the calls of the three functions, and the counters in
the end. `none` when `fuel` rounds are not enough. -/
def stackLimitFunc : (fuel : Nat) → Counts → Option (List StackFunc × Counts)
  | 0, _ => none
  | fuel+1, counts =>
    let call (func : StackFunc) (counts : Counts) :=
      (stackLimitFunc fuel counts).map fun (calls,final) => (func :: calls,final)
    if counts.gib ≠ 0 then call .gib {counts with gib := counts.gib - 1}
    else if counts.mib ≠ 0 then call .mib {counts with mib := counts.mib - 1}
    else if counts.kib ≠ 0 then call .kib {counts with kib := counts.kib - 1}
    else some ([],counts)

theorem subGib_toNat (left : Nat) (tmpSize : BitVec 64) (enough : 0x40000000 * left ≤ tmpSize.toNat) :
    (subGib left tmpSize).toNat = tmpSize.toNat - 0x40000000 * left := by
  induction left generalizing tmpSize with
  | zero => simp [subGib]
  | succ left ih =>
    have bound := tmpSize.isLt
    have taken : (tmpSize - 0x40000000).toNat = tmpSize.toNat - 0x40000000 := by
      have unit : (0x40000000 : BitVec 64).toNat = 0x40000000 := rfl
      rw [BitVec.toNat_sub,unit]
      omega
    rw [subGib]
    generalize tmpSize - 0x40000000 = rest at taken ⊢
    rw [ih rest (by omega),taken]
    omega

theorem cut_toNat (value : BitVec 64) (small : value.toNat < 2^31) :
    (value.setWidth 32).toNat = value.toNat ∧ (value.setWidth 32).toInt = value.toNat := by
  have same : (value.setWidth 32).toNat = value.toNat := by
    rw [BitVec.toNat_setWidth,Nat.mod_eq_of_lt (by omega)]
  refine ⟨same,?_⟩
  rw [BitVec.toInt_eq_toNat_cond,same]
  omega

theorem valueToUnit_eq (value : BitVec 64) (small : value.toNat < 2^61) :
    (valueToUnit value).gib.toNat = value.toNat / 2^30 ∧
      (valueToUnit value).mib.toNat = value.toNat % 2^30 / 2^20 ∧
      (valueToUnit value).kib.toNat = value.toNat % 2^20 / 2^10 := by
  have giga : (value / 0x40000000).toNat = value.toNat / 2^30 := BitVec.toNat_udiv
  obtain ⟨gib,gibInt⟩ := cut_toNat (value / 0x40000000) (by omega)
  rw [giga] at gib gibInt
  have afterGib : (subGib ((value / 0x40000000).setWidth 32).toInt.toNat value).toNat =
      value.toNat % 2^30 := by
    rw [gibInt,Int.toNat_natCast,subGib_toNat _ _ (by omega)]
    omega
  unfold valueToUnit
  dsimp only
  -- what is left is below 2^30, so the product of ints does not overflow
  generalize subGib ((value / 0x40000000).setWidth 32).toInt.toNat value = tmpSize at afterGib ⊢
  have mega : (tmpSize / 0x100000).toNat = value.toNat % 2^30 / 2^20 := by
    rw [← afterGib]
    exact BitVec.toNat_udiv
  obtain ⟨mib,_⟩ := cut_toNat (tmpSize / 0x100000) (by omega)
  rw [mega] at mib
  refine ⟨gib,mib,?_⟩
  generalize (tmpSize / 0x100000).setWidth 32 = mibs at mib ⊢
  have product : (mibs * 0x100000).toNat = value.toNat % 2^30 / 2^20 * 2^20 := by
    have unit : (0x100000 : BitVec 32).toNat = 2^20 := rfl
    rw [BitVec.toNat_mul,unit,mib]
    omega
  have extended : ((mibs * 0x100000).signExtend 64).toNat = value.toNat % 2^30 / 2^20 * 2^20 := by
    have positive : (mibs * 0x100000).msb = false := by
      rw [BitVec.msb_eq_decide,product]
      simp only [decide_eq_false_iff_not]
      omega
    rw [BitVec.signExtend_eq_setWidth_of_msb_false positive,BitVec.toNat_setWidth,product]
    omega
  have rest : (tmpSize - (mibs * 0x100000).signExtend 64).toNat = value.toNat % 2^20 := by
    rw [BitVec.toNat_sub,extended,afterGib]
    omega
  generalize tmpSize - (mibs * 0x100000).signExtend 64 = left at rest ⊢
  have kilo : (left / 0x400).toNat = value.toNat % 2^20 / 2^10 := by
    rw [← rest]
    exact BitVec.toNat_udiv
  rw [(cut_toNat (left / 0x400) (by omega)).1,kilo]

/-! The recursion. -/

def allCalls (gib mib kib : Nat) : List StackFunc :=
  List.replicate gib .gib ++ (List.replicate mib .mib ++ List.replicate kib .kib)

theorem ofNat_succ (count : Nat) (small : count + 1 < 2^32) :
    BitVec.ofNat 32 (count+1) ≠ 0 ∧ BitVec.ofNat 32 (count+1) - 1 = BitVec.ofNat 32 count := by
  constructor
  · intro zero
    have value := congrArg BitVec.toNat zero
    rw [BitVec.toNat_ofNat,Nat.mod_eq_of_lt small] at value
    contradiction
  · rw [BitVec.ofNat_add]
    exact BitVec.add_sub_cancel _ _

theorem stackLimitFunc_eq (gib mib kib fuel : Nat) (smallGib : gib < 2^32) (smallMib : mib < 2^32)
    (smallKib : kib < 2^32) (enough : gib + mib + kib < fuel) :
    stackLimitFunc fuel ⟨BitVec.ofNat 32 gib,BitVec.ofNat 32 mib,BitVec.ofNat 32 kib⟩ =
      some (allCalls gib mib kib,⟨0,0,0⟩) := by
  induction fuel generalizing gib mib kib with
  | zero => contradiction
  | succ fuel ih =>
    have none : ¬(BitVec.ofNat 32 0 ≠ 0) := by decide
    unfold stackLimitFunc
    dsimp only
    cases gib with
    | succ gib =>
      obtain ⟨more,fewer⟩ := ofNat_succ gib smallGib
      rw [if_pos more,fewer,ih gib mib kib (by omega) smallMib smallKib (by omega)]
      rfl
    | zero =>
      rw [if_neg none]
      cases mib with
      | succ mib =>
        obtain ⟨more,fewer⟩ := ofNat_succ mib smallMib
        rw [if_pos more,fewer,ih 0 mib kib smallGib (by omega) smallKib (by omega)]
        rfl
      | zero =>
        rw [if_neg none]
        cases kib with
        | succ kib =>
          obtain ⟨more,fewer⟩ := ofNat_succ kib smallKib
          rw [if_pos more,fewer,ih 0 0 kib smallGib smallMib (by omega) (by omega)]
          rfl
        | zero =>
          rw [if_neg none]
          rfl

def Counts.Exact (counts : Counts) (value : BitVec 64) : Prop :=
  0 ≤ counts.gib.toInt ∧ (0 ≤ counts.mib.toInt ∧ counts.mib.toInt < 1024) ∧
    (0 ≤ counts.kib.toInt ∧ counts.kib.toInt < 1024) ∧
    ∃ r : Int, 0 ≤ r ∧ r < 1024 ∧ (value.toNat : Int) =
      counts.gib.toInt * 2^30 + counts.mib.toInt * 2^20 + counts.kib.toInt * 2^10 + r

/-- The recursion ends, after as many calls as the counters say, and leaves them 0. -/
def Counts.UsedUp (counts : Counts) : Prop :=
  ∀ fuel : Nat, counts.gib.toInt + counts.mib.toInt + counts.kib.toInt < fuel →
    ∃ calls, stackLimitFunc fuel counts = some (calls,⟨0,0,0⟩) ∧
      (calls.length : Int) = counts.gib.toInt + counts.mib.toInt + counts.kib.toInt

theorem valueToUnit_exact (value : BitVec 64) (small : value.toNat < 2^61) :
    (valueToUnit value).Exact value := by
  obtain ⟨gib,mib,kib⟩ := valueToUnit_eq value small
  simp only [Counts.Exact,BitVec.toInt_eq_toNat_cond,gib,mib,kib]
  refine ⟨by omega,by omega,by omega,value.toNat % 2^10,by omega,by omega,?_⟩
  omega

theorem valueToUnit_usedUp (value : BitVec 64) (small : value.toNat < 2^61) :
    (valueToUnit value).UsedUp := by
  obtain ⟨gib,mib,kib⟩ := valueToUnit_eq value small
  intro fuel enough
  have same : valueToUnit value = ⟨BitVec.ofNat 32 (value.toNat / 2^30),
      BitVec.ofNat 32 (value.toNat % 2^30 / 2^20),BitVec.ofNat 32 (value.toNat % 2^20 / 2^10)⟩ := by
    rw [← gib,← mib,← kib]
    simp
  simp only [BitVec.toInt_eq_toNat_cond,gib,mib,kib] at enough ⊢
  refine ⟨allCalls (value.toNat / 2^30) (value.toNat % 2^30 / 2^20) (value.toNat % 2^20 / 2^10),?_,?_⟩
  · rw [same]
    exact stackLimitFunc_eq _ _ _ fuel (by omega) (by omega) (by omega) (by omega)
  · simp only [allCalls,List.length_append,List.length_replicate]
    omega

/-- Units and recursion are right exactly for the sizes whose gibibytes an int
can count. -/
theorem value_to_unit_right_iff (value : BitVec 64) :
    (valueToUnit value).Exact value ∧ (valueToUnit value).UsedUp ↔ value.toNat < 2^61 := by
  constructor
  · rintro ⟨⟨_,⟨_,_⟩,⟨_,_⟩,r,_,_,sum⟩,_⟩
    have bound := (valueToUnit value).gib.toInt_lt
    omega
  · intro small
    exact ⟨valueToUnit_exact value small,valueToUnit_usedUp value small⟩

/-- 2^61 bytes are 2^31 gibibytes, which an int holds as -2^31. -/
theorem value_to_unit_wrong :
    (valueToUnit 0x2000000000000000).gib.toInt = -2^31 ∧
      ¬(valueToUnit 0x2000000000000000).Exact 0x2000000000000000 := by
  have negative : (valueToUnit 0x2000000000000000).gib.toInt = -2^31 := rfl
  refine ⟨negative,?_⟩
  rintro ⟨positive,_⟩
  rw [negative] at positive
  contradiction

end Ostest.TestMck.MemStackLimits
