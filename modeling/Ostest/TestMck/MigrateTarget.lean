import Mathlib.Data.BitVec
import Mathlib.Order.Bounds.Basic

/-! The CPU to which sched_setaffinity/008, sched_setaffinity/009 and fpregs/005
move their child. CPU numbers are ints. -/
namespace Ostest.TestMck.MigrateTarget

/-- `get_migrate_target_cpuid`, with the conversion of a target to the return
type and back to an int. `none` when `fuel` calls inside each other are not enough. -/
def migrateTarget (converted back : Int → Int) : (fuel : Nat) → (parent child target : Int) → Option Int
  | 0, _, _, _ => none
  | fuel+1, parent, child, target =>
    let lower (target : Int) := (migrateTarget converted back fuel parent child (target-1)).map back
    (if child = target then lower target else some target).bind fun target =>
      (if 0 ≤ target ∧ parent = target then lower target else some target).map converted

/-- The function of sched_setaffinity/008, which returns an int. -/
def getMigrateTargetCpuid : (fuel : Nat) → (parent child target : Int) → Option Int :=
  migrateTarget id id

/-- The function of fpregs/005, which returns an unsigned int. -/
def getMigrateTargetCpuidUnsigned : (fuel : Nat) → (parent child target : Int) → Option Int :=
  migrateTarget (fun target => target % 2^32) (fun returned => returned.bmod (2^32))

/-- The choice of sched_setaffinity/009. -/
def migrateCpu (numCpus parentCpu childCpu : Int) : Int :=
  if numCpus - 1 = childCpu then
    if numCpus - 1 - 1 = parentCpu then numCpus - 1 - 1 - 1 else numCpus - 1 - 1
  else numCpus - 1

/-- The CPUs up to `target` that neither of the two processes runs on. -/
def freeCpus (parent child target : Int) : Set Int :=
  {cpu | 0 ≤ cpu ∧ cpu ≤ target ∧ cpu ≠ parent ∧ cpu ≠ child}

/-- The greatest of the free CPUs, or -1 if there is none. -/
def Found (parent child target cpu : Int) : Prop :=
  IsGreatest (freeCpus parent child target) cpu ∨ (cpu = -1 ∧ freeCpus parent child target = ∅)

theorem found_self (parent child target : Int) (free : target ≠ child)
    (bound : -1 ≤ target) (other : ¬(0 ≤ target ∧ parent = target)) : Found parent child target target := by
  by_cases negative : target < 0
  · refine .inr ⟨by omega,Set.eq_empty_of_forall_notMem ?_⟩
    rintro cpu ⟨low,high,_⟩
    omega
  · refine .inl ⟨⟨by omega,Int.le_refl _,by omega,free⟩,?_⟩
    rintro cpu ⟨_,high,_⟩
    exact high

theorem found_below (parent child target cpu : Int) (taken : target = parent ∨ target = child)
    (found : Found parent child (target-1) cpu) : Found parent child target cpu := by
  have same : freeCpus parent child target = freeCpus parent child (target-1) := by
    ext cpu
    constructor
    · rintro ⟨low,high,notParent,notChild⟩
      exact ⟨low,by omega,notParent,notChild⟩
    · rintro ⟨low,high,notParent,notChild⟩
      exact ⟨low,by omega,notParent,notChild⟩
  unfold Found
  rwa [same]

theorem found_range (parent child target cpu : Int) (found : Found parent child target cpu) :
    -1 ≤ cpu ∧ (0 ≤ cpu → cpu ≤ target ∧ cpu ≠ parent ∧ cpu ≠ child) := by
  rcases found with ⟨⟨low,high,notParent,notChild⟩,_⟩ | ⟨rfl,_⟩
  · exact ⟨by omega,fun _ => ⟨high,notParent,notChild⟩⟩
  · exact ⟨Int.le_refl _,fun low => by omega⟩

section
variable (converted back : Int → Int)
  (lossless : ∀ target : Int, -1 ≤ target → target < 2^31 → back (converted target) = target)
include lossless

/-- Every call lowers the target by one, so as many as there are CPUs suffice. -/
theorem migrateTarget_found (fuel : Nat) (parent child target : Int) (natural : 0 ≤ child)
    (bound : -1 ≤ target) (int : target < 2^31) (deep : target + 1 < fuel) :
    ∃ cpu, migrateTarget converted back fuel parent child target = some (converted cpu) ∧
      Found parent child target cpu := by
  induction fuel generalizing target with
  | zero => omega
  | succ fuel ih =>
    unfold migrateTarget
    dsimp only
    by_cases taken : child = target ∨ (0 ≤ target ∧ parent = target)
    · obtain ⟨cpu,computed,found⟩ := ih (target-1) (by omega) (by omega) (by omega)
      obtain ⟨low,range⟩ := found_range _ _ _ _ found
      have high : cpu < 2^31 := by
        by_cases natural : 0 ≤ cpu
        · have inside := (range natural).1
          omega
        · omega
      have returned : (migrateTarget converted back fuel parent child (target-1)).map back = some cpu := by
        rw [computed,Option.map_some,lossless cpu low high]
      refine ⟨cpu,?_,found_below _ _ _ _ (by omega) found⟩
      by_cases onChild : child = target
      · -- the nested call has already kept away from the parent
        have away : ¬(0 ≤ cpu ∧ parent = cpu) := by
          rintro ⟨natural,same⟩
          exact (range natural).2.1 same.symm
        rw [if_pos onChild,returned,Option.bind_some,if_neg away,Option.map_some]
      · have onParent := taken.resolve_left onChild
        rw [if_neg onChild,Option.bind_some,if_pos onParent,returned,Option.map_some]
    · obtain ⟨offChild,offParent⟩ := not_or.mp taken
      refine ⟨target,?_,found_self _ _ _ (Ne.symm offChild) bound offParent⟩
      rw [if_neg offChild,Option.bind_some,if_neg offParent,Option.map_some]
end

theorem found_unique (parent child target first second : Int) (one : Found parent child target first)
    (other : Found parent child target second) : first = second := by
  rcases one with greatest | ⟨rfl,empty⟩
  · rcases other with greatest' | ⟨_,empty⟩
    · exact greatest.unique greatest'
    · have member := greatest.1
      rw [empty] at member
      exact absurd member (Set.notMem_empty _)
  · rcases other with ⟨member,_⟩ | ⟨rfl,_⟩
    · rw [empty] at member
      exact absurd member (Set.notMem_empty _)
    · rfl

theorem found_of_three (numCpus parent child cpu : Int) (enough : 3 ≤ numCpus)
    (found : Found parent child (numCpus-1) cpu) :
    0 ≤ cpu ∧ cpu < numCpus ∧ cpu ≠ parent ∧ cpu ≠ child := by
  rcases found with ⟨⟨low,high,notParent,notChild⟩,_⟩ | ⟨_,empty⟩
  · exact ⟨low,by omega,notParent,notChild⟩
  · -- one of 0, 1 and 2 is free
    have taken : ∀ cpu ∉ freeCpus parent child (numCpus-1), 0 ≤ cpu → cpu < numCpus →
        cpu = parent ∨ cpu = child := by
      intro cpu outside low high
      by_contra free
      exact outside ⟨low,by omega,by omega,by omega⟩
    rw [empty] at taken
    have zero := taken 0 (Set.notMem_empty _) (by omega) (by omega)
    have one := taken 1 (Set.notMem_empty _) (by omega) (by omega)
    have two := taken 2 (Set.notMem_empty _) (by omega) (by omega)
    omega

theorem unsigned_lossless (target : Int) (low : -1 ≤ target) (high : target < 2^31) :
    (target % 2^32).bmod (2^32) = target := by
  rw [Int.bmod_def]
  omega

/-- With three CPUs the recursion ends, in as many calls as there are CPUs, at
one that is free. The parent may be anywhere. -/
theorem migrate_target_free (numCpus parent child : Int) (enough : 3 ≤ numCpus) (int : numCpus < 2^31)
    (natural : 0 ≤ child) (fuel : Nat) (deep : numCpus < fuel) :
    ∃ cpu, getMigrateTargetCpuid fuel parent child (numCpus-1) = some cpu ∧
      getMigrateTargetCpuidUnsigned fuel parent child (numCpus-1) = some cpu ∧
      0 ≤ cpu ∧ cpu < numCpus ∧ cpu ≠ parent ∧ cpu ≠ child := by
  obtain ⟨cpu,computed,found⟩ := migrateTarget_found id id (fun _ _ _ => rfl) fuel parent child
    (numCpus-1) natural (by omega) (by omega) (by omega)
  obtain ⟨cpu',computed',found'⟩ := migrateTarget_found (fun target => target % 2^32)
    (fun returned => returned.bmod (2^32)) unsigned_lossless fuel parent child (numCpus-1) natural
    (by omega) (by omega) (by omega)
  obtain rfl := found_unique _ _ _ _ _ found found'
  obtain ⟨low,high,free⟩ := found_of_three numCpus parent child cpu enough found
  have same : cpu % 2^32 = cpu := Int.emod_eq_of_lt low (by omega)
  refine ⟨cpu,computed,?_,low,high,free⟩
  rw [getMigrateTargetCpuidUnsigned,computed',same]

theorem migrate_target_free_four :
    ∃ cpu, getMigrateTargetCpuid 5 2 3 (4-1) = some cpu ∧
      getMigrateTargetCpuidUnsigned 5 2 3 (4-1) = some cpu ∧
      0 ≤ cpu ∧ cpu < 4 ∧ cpu ≠ 2 ∧ cpu ≠ 3 :=
  migrate_target_free 4 2 3 (by decide) (by decide) (by decide) 5 (by decide)

/-! The choice of 009. -/

theorem migrateCpu_found (numCpus parent child : Int) (enough : 3 ≤ numCpus)
    (covered : ¬(parent = numCpus-1 ∧ child ≠ numCpus-1)) :
    Found parent child (numCpus-1) (migrateCpu numCpus parent child) := by
  unfold migrateCpu
  split
  · rename_i onChild
    apply found_below _ _ _ _ (.inr onChild)
    split
    · rename_i onParent
      apply found_below _ _ _ _ (.inl onParent)
      exact found_self _ _ _ (by omega) (by omega) (by omega)
    · rename_i offParent
      exact found_self _ _ _ (by omega) (by omega) (by omega)
  · exact found_self _ _ _ (by omega) (by omega) (by omega)

/-- 009 looks for the parent only below the CPU of the child: it agrees with 008
unless the parent runs on the last CPU and the child does not. -/
theorem migrate_cpu_agrees_iff (numCpus parent child : Int) (enough : 3 ≤ numCpus)
    (int : numCpus < 2^31) (natural : 0 ≤ child) (fuel : Nat) (deep : numCpus < fuel) :
    (getMigrateTargetCpuid fuel parent child (numCpus-1) = some (migrateCpu numCpus parent child) ∧
        migrateCpu numCpus parent child ≠ parent) ↔
      ¬(parent = numCpus-1 ∧ child ≠ numCpus-1) := by
  obtain ⟨cpu,computed,found⟩ := migrateTarget_found id id (fun _ _ _ => rfl) fuel parent child
    (numCpus-1) natural (by omega) (by omega) (by omega)
  constructor
  · rintro ⟨_,away⟩ ⟨onParent,offChild⟩
    apply away
    rw [migrateCpu,if_neg (Ne.symm offChild),onParent]
  · intro covered
    have chosen := migrateCpu_found numCpus parent child enough covered
    obtain rfl := found_unique _ _ _ _ _ found chosen
    exact ⟨computed,(found_of_three numCpus parent child _ enough found).2.2.1⟩

theorem migrate_cpu_agrees_iff_four :
    (getMigrateTargetCpuid 5 2 3 (4-1) = some (migrateCpu 4 2 3) ∧ migrateCpu 4 2 3 ≠ 2) ↔
      ¬((2 : Int) = 4-1 ∧ (3 : Int) ≠ 4-1) :=
  migrate_cpu_agrees_iff 4 2 3 (by decide) (by decide) (by decide) 5 (by decide)

/-- Three CPUs, the parent on the last and the child on the first. -/
theorem migrate_cpu_on_parent :
    getMigrateTargetCpuid 4 2 0 (3-1) = some 1 ∧ migrateCpu 3 2 0 = 2 := by
  decide

end Ostest.TestMck.MigrateTarget
