import Mathlib.Data.BitVec

/-! Signed arithmetic of C on numbers that are not negative: an operation whose
value does not fit its type is undefined. Code that can also return early is in
`ExceptT ε Option`, with `none` for what is undefined. -/
namespace Ostest.Lib.Signed

def signed (width value : Nat) : Option Nat := if value < 2^(width-1) then some value else none

abbrev int (value : Nat) : Option Nat := signed 32 value

abbrev long (value : Nat) : Option Nat := signed 64 value

theorem signed_fits (width value : Nat) (fits : value < 2^(width-1)) : signed width value = some value :=
  if_pos fits

theorem signed_eq_some_iff (width value result : Nat) :
    signed width value = some result ↔ value < 2^(width-1) ∧ result = value := by
  unfold signed
  split
  · rename_i fits
    simp [fits,eq_comm]
  · rename_i exceeds
    simp [exceeds]

variable {ε : Type}

@[simp]
theorem liftM_some {α : Type} (value : α) :
    (liftM (some value) : ExceptT ε Option α) = pure value := rfl

/-- `count` rounds of a loop whose counter has the given width and starts at `i`. -/
def forUp (width : Nat) (body : Nat → ExceptT ε Option Unit) : Nat → Nat → ExceptT ε Option Unit
  | 0, _ => return
  | count+1, i => do
    body i
    let i ← signed width (i+1)
    forUp width body count i

/-- `for (i = start; i < bound; i++)` -/
def forBelow (width start bound : Nat) (body : Nat → ExceptT ε Option Unit) : ExceptT ε Option Unit :=
  forUp width body (bound-start) start

/-- The code got to its end. -/
def Done (code : ExceptT ε Option Unit) : Prop := code = (pure () : ExceptT ε Option Unit)

theorem done_bind_iff {α : Type} (first : ExceptT ε Option α) (next : α → ExceptT ε Option Unit) :
    Done (do let a ← first; next a) ↔ ∃ a, first = pure a ∧ Done (next a) := by
  unfold Done
  constructor
  · intro both
    cases first with
    | none => contradiction
    | some result =>
      cases result with
      | error e =>
        have returned : some (Except.error e) = some (.ok ()) := both
        simp at returned
      | ok value => exact ⟨value,rfl,both⟩
  · rintro ⟨a,rfl,rest⟩
    exact rest

theorem done_seq_iff (first second : ExceptT ε Option Unit) :
    Done (do first; second) ↔ Done first ∧ Done second := by
  rw [done_bind_iff]
  constructor
  · rintro ⟨_,done,rest⟩
    exact ⟨done,rest⟩
  · rintro ⟨done,rest⟩
    exact ⟨(),done,rest⟩

theorem done_option_iff {α : Type} (value : Option α) (next : α → ExceptT ε Option Unit) :
    Done (do let a ← value; next a) ↔ ∃ a, value = some a ∧ Done (next a) := by
  cases value with
  | none =>
    refine ⟨?_,by simp⟩
    intro done
    contradiction
  | some a =>
    simp only [liftM_some,pure_bind,Option.some.injEq,exists_eq_left']

theorem done_signed_iff (width value : Nat) (next : Nat → ExceptT ε Option Unit) :
    Done (do let i ← signed width value; next i) ↔ value < 2^(width-1) ∧ Done (next value) := by
  rw [done_option_iff]
  simp only [signed_eq_some_iff,and_assoc,exists_and_left,exists_eq_left]

/-- A loop gets to its end if every round does and the counter can be counted
past the last one. -/
theorem done_forUp_iff (width : Nat) (body : Nat → ExceptT ε Option Unit) (count i : Nat) :
    Done (forUp width body count i) ↔
      (∀ k < count, Done (body (i+k))) ∧ (0 < count → i+count < 2^(width-1)) := by
  induction count generalizing i with
  | zero => simp [forUp,Done]
  | succ count ih =>
    rw [forUp,done_seq_iff,done_signed_iff,ih]
    constructor
    · rintro ⟨first,fits,rest,last⟩
      refine ⟨?_,?_⟩
      · intro k bound
        cases k with
        | zero => exact first
        | succ k =>
          have later := rest k (by omega)
          rwa [Nat.add_right_comm] at later
      · intro _
        rcases Nat.eq_zero_or_pos count with rfl | more
        · exact fits
        · have := last more
          omega
    · rintro ⟨rounds,last⟩
      have fits := last (Nat.succ_pos count)
      refine ⟨rounds 0 (Nat.succ_pos count),by omega,?_,fun _ => by omega⟩
      intro k bound
      have later := rounds (k+1) (by omega)
      rwa [← Nat.add_assoc,Nat.add_right_comm] at later

theorem done_forBelow_iff (width start bound : Nat) (body : Nat → ExceptT ε Option Unit) :
    Done (forBelow width start bound body) ↔
      (∀ i, start ≤ i → i < bound → Done (body i)) ∧ (start < bound → bound < 2^(width-1)) := by
  rw [forBelow,done_forUp_iff]
  constructor
  · rintro ⟨rounds,last⟩
    refine ⟨?_,?_⟩
    · intro i low high
      obtain ⟨k,rfl⟩ := Nat.exists_eq_add_of_le low
      exact rounds k (by omega)
    · intro some
      have := last (by omega)
      omega
  · rintro ⟨rounds,last⟩
    refine ⟨fun k inside => rounds _ (by omega) (by omega),?_⟩
    intro some
    have := last (by omega)
    omega

end Ostest.Lib.Signed
