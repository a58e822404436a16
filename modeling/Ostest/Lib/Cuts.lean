import Mathlib.Data.Nat.Init
import Mathlib.Order.Monotone.Basic

/-! Consecutive intervals between cut points, and the cut points `i * n / parts`
that divide a range evenly. -/
namespace Ostest.Lib.Cuts

def interval (start stop : Nat) : List Nat := List.range' start (stop-start)

theorem intervals_cover (cut : Nat → Nat) (count x : Nat) (low : cut 0 ≤ x) (high : x < cut count) :
    ∃ i < count, cut i ≤ x ∧ x < cut (i+1) := by
  induction count with
  | zero => omega
  | succ count ih =>
    by_cases earlier : x < cut count
    · obtain ⟨i,bound,inside⟩ := ih earlier
      exact ⟨i,by omega,inside⟩
    · exact ⟨count,Nat.lt_succ_self count,by omega,high⟩

/-- The intervals side by side are one interval. -/
theorem intervals_flatten (cut : Nat → Nat) (grows : Monotone cut) (count : Nat) :
    ((List.range count).map (fun i => interval (cut i) (cut (i+1)))).flatten = interval (cut 0) (cut count) := by
  induction count with
  | zero => simp [interval]
  | succ count ih =>
    have before := grows (Nat.zero_le count)
    have next : cut count ≤ cut (count+1) := grows (Nat.le_succ count)
    have start : cut 0 + (cut count - cut 0) = cut count := by omega
    have length : cut (count+1) - cut 0 = (cut count - cut 0) + (cut (count+1) - cut count) := by omega
    rw [List.range_succ,List.map_append,List.flatten_append,ih,List.map_singleton,List.flatten_singleton]
    simp only [interval]
    rw [length,← List.range'_append_1,start]

theorem even_monotone (n parts : Nat) : Monotone (fun i => i*n/parts) := by
  intro i j order
  exact Nat.div_le_div_right (Nat.mul_le_mul_right n order)

/-- Two neighbouring cut points are `n / parts` or one more apart. -/
theorem even_gap (n parts : Nat) (positive : 0 < parts) (i : Nat) :
    n/parts ≤ (i+1)*n/parts - i*n/parts ∧ (i+1)*n/parts - i*n/parts ≤ n/parts + 1 := by
  rw [Nat.succ_mul,Nat.add_div positive]
  generalize i*n/parts = start
  generalize n/parts = share
  split <;> omega

end Ostest.Lib.Cuts
