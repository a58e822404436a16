import Mathlib.Data.List.Basic
import Mathlib.Logic.Function.Basic

/-! Runs of a system that takes one action after the other, whoever chooses the
actions. -/
namespace Ostest.Lib.Runs

variable {σ α : Type} (step : σ → α → Option σ)

/-- The state after the actions, `none` when one of them is not possible. -/
def run : List α → σ → Option σ
  | [], s => some s
  | action :: rest, s => (step s action).bind (run rest)

def Stuck (s : σ) : Prop := ∀ action, step s action = none

theorem run_invariant (invariant : σ → Prop)
    (keeps : ∀ s action next, invariant s → step s action = some next → invariant next)
    (actions : List α) (s final : σ) (initial : invariant s)
    (computed : run step actions s = some final) : invariant final := by
  induction actions generalizing s with
  | nil =>
    cases Option.some.inj computed
    exact initial
  | cons action rest ih =>
    obtain ⟨next,taken,rest⟩ := Option.bind_eq_some_iff.mp computed
    exact ih next (keeps s action next initial taken) rest

theorem run_append (first second : List α) (s : σ) :
    run step (first ++ second) s = (run step first s).bind (run step second) := by
  induction first generalizing s with
  | nil => rfl
  | cons action rest ih =>
    simp only [List.cons_append,run,Option.bind_assoc]
    congr 1
    funext next
    exact ih next

theorem run_stuck (actions : List α) (s final : σ) (stuck : Stuck step s)
    (computed : run step actions s = some final) : final = s := by
  cases actions with
  | nil => exact (Option.some.inj computed).symm
  | cons action rest => simp [run,stuck action] at computed

/-- Two stages of a run: it stays in the first as long as no action diverts it,
and no action leads back from the second. -/
theorem run_diverted (on off : σ → Prop) (diverts : α → Prop)
    (stays : ∀ s action next, on s → ¬diverts action → step s action = some next → on next)
    (leaves : ∀ s action next, on s → diverts action → step s action = some next → off next)
    (keeps : ∀ s action next, off s → step s action = some next → off next)
    (actions : List α) (s final : σ) (initial : on s)
    (computed : run step actions s = some final) :
    ((∀ action ∈ actions, ¬diverts action) → on final) ∧
      ((∃ action ∈ actions, diverts action) → off final) := by
  induction actions generalizing s with
  | nil =>
    cases Option.some.inj computed
    refine ⟨fun _ => initial,?_⟩
    rintro ⟨action,member,_⟩
    contradiction
  | cons action rest ih =>
    obtain ⟨next,taken,computed⟩ := Option.bind_eq_some_iff.mp computed
    by_cases diverted : diverts action
    · have after : off final :=
        run_invariant step off keeps rest next final (leaves s action next initial diverted taken) computed
      refine ⟨fun none => ?_,fun _ => after⟩
      exact absurd diverted (none action List.mem_cons_self)
    · obtain ⟨staying,leaving⟩ := ih next (stays s action next initial diverted taken) computed
      constructor
      · intro none
        apply staying
        intro later member
        exact none later (List.mem_cons_of_mem action member)
      · intro some
        obtain ⟨later,member,diverting⟩ := some
        apply leaving
        rcases List.mem_cons.mp member with same | member
        · exact absurd (same ▸ diverting) diverted
        · exact ⟨later,member,diverting⟩

/-- No run is longer than a rank that every step lowers. -/
theorem run_bounded (invariant : σ → Prop) (rank : σ → Nat)
    (keeps : ∀ s action next, invariant s → step s action = some next → invariant next)
    (falls : ∀ s action next, invariant s → step s action = some next → rank next < rank s)
    (actions : List α) (s final : σ) (initial : invariant s)
    (computed : run step actions s = some final) : actions.length + rank final ≤ rank s := by
  induction actions generalizing s with
  | nil =>
    cases Option.some.inj computed
    simp
  | cons action rest ih =>
    obtain ⟨next,taken,rest⟩ := Option.bind_eq_some_iff.mp computed
    have lower := falls s action next initial taken
    have bound := ih next (keeps s action next initial taken) rest
    rw [List.length_cons]
    omega

/-! Totals over the first parties of a system with numbered parties. -/

variable {π : Type} (weight : π → Nat) (parties : Nat → π)

def total : Nat → Nat
  | 0 => 0
  | count+1 => total count + weight (parties count)

theorem total_congr (others : Nat → π) (count : Nat)
    (same : ∀ who < count, weight (others who) = weight (parties who)) :
    total weight others count = total weight parties count := by
  induction count with
  | zero => rfl
  | succ count ih =>
    rw [total,total,ih (fun who bound => same who (by omega)),same count (by omega)]

theorem total_update (who : Nat) (party : π) (count : Nat) (inside : who < count) :
    total weight (Function.update parties who party) count + weight (parties who) =
      total weight parties count + weight party := by
  induction count with
  | zero => contradiction
  | succ count ih =>
    rw [total,total]
    by_cases last : who = count
    · subst last
      have before : total weight (Function.update parties who party) who = total weight parties who := by
        apply total_congr
        intro other bound
        rw [Function.update_of_ne (by omega)]
      rw [before,Function.update_self]
      omega
    · have rest := ih (by omega)
      rw [Function.update_of_ne (Ne.symm last)]
      omega

theorem total_const (party : π) (count : Nat) :
    total weight (fun _ => party) count = weight party * count := by
  induction count with
  | zero => rfl
  | succ count ih => rw [total,ih,Nat.mul_succ]

theorem total_le (bound count : Nat) (each : ∀ party, weight party ≤ bound) :
    total weight parties count ≤ bound * count := by
  induction count with
  | zero => simp [total]
  | succ count ih =>
    have last := each (parties count)
    rw [total,Nat.mul_succ]
    omega

theorem total_full (count : Nat) (each : ∀ party, weight party ≤ 1)
    (full : count ≤ total weight parties count) : ∀ who < count, weight (parties who) = 1 := by
  induction count with
  | zero => intro who inside; contradiction
  | succ count ih =>
    have before := total_le weight parties 1 count each
    have last := each (parties count)
    rw [total] at full
    intro who inside
    by_cases same : who = count
    · rw [same]
      omega
    · exact ih (by omega) who (by omega)

end Ostest.Lib.Runs
