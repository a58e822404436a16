import Ostest.Lib.WordMask

/-! Pages that are mapped and unmapped by ranges of addresses, and addresses that
are rounded up to a power of two. -/
namespace Ostest.Lib.Pages
open WordMask

/-- The pages of a range that starts at a page boundary; the last one may be
covered in part. -/
def covers (size start length page : Nat) : Bool :=
  decide (start ≤ page*size ∧ page*size < start+length)

def map (size start length : Nat) (mapped : Nat → Bool) : Nat → Bool :=
  fun page => covers size start length page || mapped page

def unmap (size start length : Nat) (mapped : Nat → Bool) : Nat → Bool :=
  fun page => !covers size start length page && mapped page

theorem covers_iff (size start length page : Nat) :
    covers size start length page = true ↔ start ≤ page*size ∧ page*size < start+length := by
  rw [covers,decide_eq_true_iff]

theorem covers_append (size start first second page : Nat) :
    covers size start (first+second) page =
      (covers size start first page || covers size (start+first) second page) := by
  rw [Bool.eq_iff_iff,Bool.or_eq_true]
  simp only [covers_iff]
  omega

theorem unmap_append (size start first second : Nat) (mapped : Nat → Bool) :
    unmap size (start+first) second (unmap size start first mapped) =
      unmap size start (first+second) mapped := by
  funext page
  rw [unmap,unmap,unmap,covers_append,Bool.not_or,← Bool.and_assoc,
    Bool.and_comm (!covers size (start+first) second page)]

theorem unmap_map (size start length inner part : Nat) (mapped : Nat → Bool) (low : start ≤ inner)
    (high : inner+part ≤ start+length) :
    unmap size start length (map size inner part mapped) = unmap size start length mapped := by
  funext page
  cases inside : covers size inner part page with
  | false => simp [unmap,map,inside]
  | true =>
    have outer : covers size start length page = true := by
      rw [covers_iff] at inside ⊢
      omega
    simp [unmap,outer]

/-! The mask form of rounding up. -/

def alignUp {w : Nat} (address size : BitVec w) : BitVec w :=
  (address + size - 1) &&& ~~~(size - 1)

theorem shiftLeft_one_sub_one (w shift : Nat) (bound : shift < w) :
    1#w <<< shift - 1 = lowMask w shift := by
  have word := toNat_shiftLeft_one shift bound
  have one : (1 : BitVec w) ≤ 1#w <<< shift := by
    rw [BitVec.le_def,word]
    exact Nat.le_trans (Nat.mod_le _ _) Nat.one_le_two_pow
  apply BitVec.eq_of_toNat_eq
  rw [BitVec.toNat_sub_of_le one,word,toNat_lowMask shift bound.le]
  congr 1
  exact BitVec.toNat_one (by omega)

theorem toNat_and_not_lowMask {w : Nat} (word : BitVec w) (shift : Nat) :
    (word &&& ~~~lowMask w shift).toNat = word.toNat / 2^shift * 2^shift := by
  have cut : word &&& ~~~lowMask w shift = word >>> shift <<< shift := by
    apply BitVec.eq_of_getLsbD_eq
    intro i inside
    rw [BitVec.getLsbD_and,BitVec.getLsbD_not,getLsbD_lowMask _ _ inside,BitVec.getLsbD_shiftLeft,
      BitVec.getLsbD_ushiftRight]
    by_cases low : i < shift
    · simp [low]
    · simp [low,inside,Nat.add_sub_cancel' (Nat.le_of_not_lt low)]
  have bound : word.toNat / 2^shift * 2^shift < 2^w :=
    Nat.lt_of_le_of_lt (Nat.div_mul_le_self _ _) word.isLt
  rw [cut,BitVec.toNat_shiftLeft,BitVec.toNat_ushiftRight,Nat.shiftRight_eq_div_pow,Nat.shiftLeft_eq,
    Nat.mod_eq_of_lt bound]

/-- A rounded address lies less than one unit above the address. -/
theorem alignUp_spec {w : Nat} (address : BitVec w) (shift : Nat) (bound : shift < w)
    (room : address.toNat + 2^shift ≤ 2^w) :
    let aligned := (alignUp address (1#w <<< shift)).toNat
    address.toNat ≤ aligned ∧ aligned < address.toNat + 2^shift ∧ 2^shift ∣ aligned := by
  intro aligned
  have positive : 0 < 2^shift := Nat.two_pow_pos shift
  have value : aligned = (address.toNat + (2^shift - 1)) / 2^shift * 2^shift := by
    have mask := shiftLeft_one_sub_one w shift bound
    have small := toNat_lowMask shift bound.le
    simp only [aligned,alignUp]
    rw [add_sub_assoc,mask,toNat_and_not_lowMask,BitVec.toNat_add_of_lt (by omega),small]
  have remainder := Nat.div_add_mod' (address.toNat + (2^shift - 1)) (2^shift)
  have rest := Nat.mod_lt (address.toNat + (2^shift - 1)) positive
  rw [← value] at remainder
  refine ⟨by omega,by omega,?_⟩
  rw [value]
  exact Nat.dvd_mul_left _ _

end Ostest.Lib.Pages
