import Mathlib.Data.List.Perm.Subperm
import Ostest.Lib.Runs

/-! Test waitid/001: a parent that waits for its process group while half of its
children leave the group, under every interleaving. All forks and setpgid calls
succeed. The sleep of a child is any delay before its exit: its length, computed in
an int, overflows for child 21474 and those after it, and nothing here rests on it. -/
namespace Ostest.TestMck.Waitid
open Lib.Runs

abbrev Msg := Option String

inductive Stage where
  | absent
  /-- In `sem_wait`. -/
  | waiting
  | woken
  /-- Past the place where a first-half child calls `setpgid`. -/
  | placed
  | exited
  | reaped
  deriving DecidableEq

/-- `away` is set when the child has left the group of the parent. -/
structure Child where
  stage : Stage
  away : Bool
  deriving DecidableEq

inductive Parent where
  | forking (i : Nat)
  | posting (i : Nat)
  | waiting (i : Nat)
  | returned (msg : Msg)
  deriving DecidableEq

/-- `reaped` lists the children that the calls of waitid() returned so far. -/
structure State where
  parent : Parent
  sem : Nat
  children : Nat → Child
  reaped : List Nat

inductive Action where
  | child (i : Nat)
  /-- `pick` is the child that a waitid() of this step returns. -/
  | parent (pick : Nat)

def start (procNum : Int) (mapped : Bool) : State where
  parent :=
    if ¬1 < procNum then .returned (some "-p <child proc num> invalid argument.")
    else if procNum.tmod 2 ≠ 0 then .returned (some "-p <child proc num> invalid argument.")
    else if !mapped then .returned (some "semaphore mmap failed.")
    else .forking 0
  sem := 0
  children _ := ⟨.absent,false⟩
  reaped := []

def childStep (procNum : Nat) (s : State) (i : Nat) : Option State :=
  let child := s.children i
  match child.stage with
  | .waiting =>
    if 0 < s.sem then
      some {s with sem := s.sem - 1, children := Function.update s.children i ⟨.woken,child.away⟩}
    else none
  | .woken =>
    let away := if i < procNum / 2 then true else child.away
    some {s with children := Function.update s.children i ⟨.placed,away⟩}
  | .placed => some {s with children := Function.update s.children i ⟨.exited,child.away⟩}
  | _ => none

/-- A child that waitid() can still return, now or after its exit. -/
def Child.inGroup (child : Child) : Prop :=
  child.stage ≠ .absent ∧ child.stage ≠ .reaped ∧ child.away = false

instance (child : Child) : Decidable child.inGroup := inferInstanceAs (Decidable (_ ∧ _ ∧ _))

inductive Outcome where
  | returned (i : Nat)
  | echild
  | blocked

/-- `waitid(P_PGID, pgid, &info, WEXITED)`. -/
def waitid (procNum : Nat) (children : Nat → Child) (pick : Nat) : Outcome :=
  if (children pick).stage = .exited ∧ (children pick).away = false then .returned pick
  else if ∀ i < procNum, ¬(children i).inGroup then .echild
  else .blocked

theorem waitid_returned (procNum : Nat) (children : Nat → Child) (pick i : Nat)
    (computed : waitid procNum children pick = .returned i) :
    i = pick ∧ (children pick).stage = .exited ∧ (children pick).away = false := by
  unfold waitid at computed
  split at computed
  · rename_i ended
    cases computed
    exact ⟨rfl,ended⟩
  · split at computed <;> contradiction

theorem waitid_echild (procNum : Nat) (children : Nat → Child) (pick : Nat)
    (computed : waitid procNum children pick = .echild) :
    ∀ i < procNum, ¬(children i).inGroup := by
  unfold waitid at computed
  split at computed
  · contradiction
  · split at computed
    · assumption
    · contradiction

def parentStep (procNum : Nat) (s : State) (pick : Nat) : Option State :=
  match s.parent with
  | .forking i =>
    if i < procNum then
      some {s with children := Function.update s.children i ⟨.waiting,false⟩, parent := .forking (i+1)}
    else some {s with parent := .posting 0}
  | .posting i =>
    if i < procNum then some {s with sem := s.sem + 1, parent := .posting (i+1)}
    else some {s with parent := .waiting 0}
  | .waiting i =>
    if i < procNum / 2 then
      match waitid procNum s.children pick with
      | .returned child =>
        some {s with
          children := Function.update s.children child ⟨.reaped,(s.children child).away⟩,
          reaped := s.reaped ++ [child], parent := .waiting (i+1)}
      | .echild => some {s with parent := .returned (some "waitid failed.")}
      | .blocked => none
    else some {s with parent := .returned none}
  | .returned _ => none

def step (procNum : Nat) (s : State) : Action → Option State
  | .child i => childStep procNum s i
  | .parent pick => parentStep procNum s pick

/-! The invariant. -/

/-- The group a child is in, at each of its stages. -/
def Child.Placed (procNum i : Nat) (child : Child) : Prop :=
  match child.stage with
  | .absent => child.away = false
  | .waiting | .woken => i < procNum ∧ child.away = false
  | .placed | .exited => i < procNum ∧ child.away = decide (i < procNum / 2)
  | .reaped => i < procNum ∧ procNum / 2 ≤ i ∧ child.away = false

/-- 1 for a child that has taken its token of the semaphore. -/
def Child.passed (child : Child) : Nat :=
  match child.stage with
  | .absent | .waiting => 0
  | _ => 1

def Parent.posted (procNum : Nat) : Parent → Nat
  | .forking _ => 0
  | .posting i => i
  | _ => procNum

def Phase (procNum : Nat) (s : State) : Prop :=
  match s.parent with
  | .forking i => i ≤ procNum ∧ (∀ c, (s.children c).stage = .absent ↔ i ≤ c) ∧ s.reaped = []
  | .posting i => i ≤ procNum ∧ (∀ c < procNum, (s.children c).stage ≠ .absent) ∧ s.reaped = []
  | .waiting i => i ≤ procNum / 2 ∧ (∀ c < procNum, (s.children c).stage ≠ .absent) ∧ s.reaped.length = i
  | .returned msg => msg = none ∧ s.reaped.length = procNum / 2

structure Invariant (procNum : Nat) (s : State) : Prop where
  placed : ∀ i, (s.children i).Placed procNum i
  reaped : ∀ i, i ∈ s.reaped ↔ (s.children i).stage = .reaped
  nodup : s.reaped.Nodup
  tokens : s.sem + total Child.passed s.children procNum = s.parent.posted procNum
  phase : Phase procNum s

def Child.left (child : Child) : Nat :=
  match child.stage with
  | .absent | .waiting => 3
  | .woken => 2
  | .placed => 1
  | .exited | .reaped => 0

theorem childStep_spec (procNum : Nat) (s next : State) (i : Nat)
    (taken : childStep procNum s i = some next) :
    ∃ child sem, next = {s with sem, children := Function.update s.children i child} ∧
      ((s.children i).Placed procNum i → i < procNum ∧ child.Placed procNum i) ∧
      sem + child.passed = s.sem + (s.children i).passed ∧ child.left < (s.children i).left ∧
      ((s.children i).stage ≠ .absent ∧ (s.children i).stage ≠ .reaped) ∧
      child.stage ≠ .absent ∧ child.stage ≠ .reaped := by
  unfold childStep at taken
  generalize s.children i = old at taken ⊢
  rcases old with ⟨stage,away⟩
  cases stage with
  | waiting =>
    dsimp only at taken
    split at taken
    · rename_i positive
      cases Option.some.inj taken
      refine ⟨_,_,rfl,fun placed => ⟨placed.1,placed⟩,?_,?_,?_⟩
      · simp only [Child.passed]
        omega
      · simp [Child.left]
      · simp
    · contradiction
  | woken =>
    cases Option.some.inj taken
    refine ⟨_,s.sem,rfl,?_,rfl,?_,?_⟩
    · intro placed
      refine ⟨placed.1,placed.1,?_⟩
      have inside : away = false := placed.2
      by_cases first : i < procNum / 2 <;> simp [first,inside]
    · simp [Child.left]
    · simp
  | placed =>
    cases Option.some.inj taken
    refine ⟨_,s.sem,rfl,fun placed => ⟨placed.1,placed⟩,rfl,?_,?_⟩
    · simp [Child.left]
    · simp
  | absent | exited | reaped => contradiction

theorem placed_update (procNum : Nat) (children : Nat → Child) (i : Nat) (child : Child)
    (placed : ∀ c, (children c).Placed procNum c) (own : child.Placed procNum i) (c : Nat) :
    (Function.update children i child c).Placed procNum c := by
  by_cases same : c = i
  · subst same
    rwa [Function.update_self]
  · rw [Function.update_of_ne same]
    exact placed c

theorem childStep_invariant (procNum : Nat) (s next : State) (i : Nat) (holds : Invariant procNum s)
    (taken : childStep procNum s i = some next) : Invariant procNum next := by
  obtain ⟨child,sem,rfl,placed,tokens,_,⟨oldPresent,oldKept⟩,present,kept⟩ :=
    childStep_spec procNum s next i taken
  obtain ⟨inside,placed⟩ := placed (holds.placed i)
  have stages : ∀ c stage, stage = .absent ∨ stage = .reaped →
      ((Function.update s.children i child c).stage = stage ↔ (s.children c).stage = stage) := by
    intro c stage either
    by_cases same : c = i
    · subst same
      rw [Function.update_self]
      rcases either with rfl | rfl
      · exact iff_of_false present oldPresent
      · exact iff_of_false kept oldKept
    · rw [Function.update_of_ne same]
  constructor
  · exact placed_update procNum s.children i child holds.placed placed
  · intro c
    rw [holds.reaped c]
    exact (stages c _ (.inr rfl)).symm
  · exact holds.nodup
  · have moved := total_update Child.passed s.children i child procNum inside
    have before := holds.tokens
    dsimp only
    omega
  · have phase := holds.phase
    unfold Phase at phase ⊢
    simpa only [stages _ _ (.inl rfl),ne_eq] using phase

theorem placed_inGroup (procNum i : Nat) (child : Child) (placed : child.Placed procNum i)
    (second : procNum / 2 ≤ i) (present : child.stage ≠ .absent) (kept : child.stage ≠ .reaped) :
    child.inGroup := by
  refine ⟨present,kept,?_⟩
  unfold Child.Placed at placed
  split at placed
  · exact placed
  · exact placed.2
  · exact placed.2
  · simpa [Nat.not_lt.mpr second] using placed.2
  · simpa [Nat.not_lt.mpr second] using placed.2
  · exact placed.2.2

/-- As long as the parent has not reaped as many children as half of them, one
of the second half is still in its group. -/
theorem exists_inGroup (procNum : Nat) (even : procNum % 2 = 0) (s : State)
    (holds : Invariant procNum s) (i : Nat) (place : s.parent = .waiting i) (more : i < procNum / 2) :
    ∃ c < procNum, (s.children c).inGroup := by
  have phase := holds.phase
  simp only [Phase,place] at phase
  obtain ⟨_,present,counted⟩ := phase
  have left : ∃ c, procNum / 2 ≤ c ∧ c < procNum ∧ (s.children c).stage ≠ .reaped := by
    by_contra none
    push Not at none
    have subset : List.range' (procNum / 2) (procNum / 2) ⊆ s.reaped := by
      intro c member
      obtain ⟨lower,upper⟩ := List.mem_range'_1.mp member
      exact (holds.reaped c).mpr (none c lower (by omega))
    have distinct : (List.range' (procNum / 2) (procNum / 2)).Nodup := List.nodup_range'
    have fits := (distinct.subperm subset).length_le
    rw [List.length_range'] at fits
    omega
  obtain ⟨c,second,inside,kept⟩ := left
  exact ⟨c,inside,placed_inGroup procNum c _ (holds.placed c) second (present c inside) kept⟩

theorem exited_second_half (procNum i : Nat) (child : Child) (placed : child.Placed procNum i)
    (exited : child.stage = .exited) (inside : child.away = false) :
    i < procNum ∧ procNum / 2 ≤ i := by
  simp only [Child.Placed,exited,inside] at placed
  exact ⟨placed.1,by simpa using placed.2⟩

theorem fork_invariant (procNum : Nat) (s : State) (i : Nat) (holds : Invariant procNum s)
    (place : s.parent = .forking i) (more : i < procNum) :
    Invariant procNum
      {s with children := Function.update s.children i ⟨.waiting,false⟩, parent := .forking (i+1)} := by
  have phase := holds.phase
  simp only [Phase,place] at phase
  obtain ⟨_,absent,none⟩ := phase
  have fresh : (s.children i).stage = .absent := (absent i).mpr (Nat.le_refl i)
  constructor
  · exact placed_update procNum s.children i _ holds.placed ⟨more,rfl⟩
  · intro c
    by_cases same : c = i
    · subst same
      simp [none]
    · simpa [same] using holds.reaped c
  · exact holds.nodup
  · have moved := total_update Child.passed s.children i ⟨.waiting,false⟩ procNum more
    have before := holds.tokens
    rw [place] at before
    simp only [Child.passed,fresh,Parent.posted] at moved before ⊢
    omega
  · refine ⟨more,?_,none⟩
    intro c
    by_cases same : c = i
    · subst same
      simp
    · have other := absent c
      simp only [Function.update_of_ne same,other]
      omega

theorem reap_invariant (procNum : Nat) (s : State) (i pick : Nat) (holds : Invariant procNum s)
    (place : s.parent = .waiting i) (more : i < procNum / 2)
    (exited : (s.children pick).stage = .exited) (inside : (s.children pick).away = false) :
    Invariant procNum
      {s with
        children := Function.update s.children pick ⟨.reaped,(s.children pick).away⟩,
        reaped := s.reaped ++ [pick], parent := .waiting (i+1)} := by
  have phase := holds.phase
  simp only [Phase,place] at phase
  obtain ⟨_,present,counted⟩ := phase
  obtain ⟨bound,second⟩ := exited_second_half procNum pick _ (holds.placed pick) exited inside
  have fresh : pick ∉ s.reaped := by
    rw [holds.reaped pick,exited]
    simp
  constructor
  · exact placed_update procNum s.children pick _ holds.placed ⟨bound,second,inside⟩
  · intro c
    by_cases same : c = pick
    · subst same
      simp
    · simpa [same] using holds.reaped c
  · simpa [List.nodup_append,holds.nodup] using fun c member => ne_of_mem_of_not_mem member fresh
  · have moved := total_update Child.passed s.children pick ⟨.reaped,(s.children pick).away⟩ procNum bound
    have before := holds.tokens
    rw [place] at before
    simp only [Child.passed,exited,Parent.posted] at moved before ⊢
    omega
  · refine ⟨more,?_,by simp [counted]⟩
    intro c inside
    by_cases same : c = pick
    · subst same
      simp
    · simpa [same] using present c inside

theorem parentStep_invariant (procNum : Nat) (even : procNum % 2 = 0) (s next : State) (pick : Nat)
    (holds : Invariant procNum s) (taken : parentStep procNum s pick = some next) :
    Invariant procNum next := by
  have phase := holds.phase
  have tokens := holds.tokens
  unfold parentStep at taken
  unfold Phase at phase
  split at taken
  · rename_i i place
    split at taken
    · rename_i more
      cases Option.some.inj taken
      exact fork_invariant procNum s i holds place more
    · rename_i done
      cases Option.some.inj taken
      simp only [place] at phase tokens
      refine ⟨holds.placed,holds.reaped,holds.nodup,tokens,Nat.zero_le _,?_,phase.2.2⟩
      intro c inside absent
      have bound := (phase.2.1 c).mp absent
      omega
  · rename_i i place
    simp only [place,Parent.posted] at phase tokens
    split at taken
    · rename_i more
      cases Option.some.inj taken
      refine ⟨holds.placed,holds.reaped,holds.nodup,?_,more,phase.2⟩
      simp only [Parent.posted]
      omega
    · rename_i done
      cases Option.some.inj taken
      refine ⟨holds.placed,holds.reaped,holds.nodup,?_,Nat.zero_le _,phase.2.1,?_⟩
      · simp only [Parent.posted]
        omega
      · simp [phase.2.2]
  · rename_i i place
    simp only [place] at phase
    split at taken
    · rename_i more
      split at taken
      · rename_i child found
        obtain ⟨rfl,exited,inside⟩ := waitid_returned _ _ _ _ found
        cases Option.some.inj taken
        exact reap_invariant procNum s i child holds place more exited inside
      · rename_i none
        -- ECHILD would need a group without children, but one of the second half is there
        obtain ⟨c,inside,member⟩ := exists_inGroup procNum even s holds i place more
        exact absurd member (waitid_echild _ _ _ none c inside)
      · contradiction
    · rename_i done
      cases Option.some.inj taken
      refine ⟨holds.placed,holds.reaped,holds.nodup,?_,rfl,?_⟩
      · rw [place] at tokens
        exact tokens
      · have bound := phase.1
        have counted := phase.2.2
        dsimp only
        omega
  · contradiction

theorem step_invariant (procNum : Nat) (even : procNum % 2 = 0) (s : State) (action : Action)
    (next : State) (holds : Invariant procNum s) (taken : step procNum s action = some next) :
    Invariant procNum next := by
  cases action with
  | child i => exact childStep_invariant procNum s next i holds taken
  | parent pick => exact parentStep_invariant procNum even s next pick holds taken

/-! Progress. -/

def Parent.left (procNum : Nat) : Parent → Nat
  | .forking i => (procNum - i) + procNum + procNum / 2 + 3
  | .posting i => (procNum - i) + procNum / 2 + 2
  | .waiting i => (procNum / 2 - i) + 1
  | .returned _ => 0

def State.left (procNum : Nat) (s : State) : Nat :=
  s.parent.left procNum + total Child.left s.children procNum

theorem parentStep_left (procNum : Nat) (s next : State) (pick : Nat) (holds : Invariant procNum s)
    (taken : parentStep procNum s pick = some next) : next.left procNum < s.left procNum := by
  have phase := holds.phase
  unfold parentStep at taken
  unfold Phase at phase
  unfold State.left
  split at taken
  · rename_i i place
    simp only [place] at phase
    split at taken
    · rename_i more
      cases Option.some.inj taken
      have moved := total_update Child.left s.children i ⟨.waiting,false⟩ procNum more
      simp only [Child.left,(phase.2.1 i).mpr (Nat.le_refl i)] at moved
      simp only [place,Parent.left]
      omega
    · cases Option.some.inj taken
      simp only [place,Parent.left]
      omega
  · rename_i i place
    split at taken <;> cases Option.some.inj taken <;> simp only [place,Parent.left] <;> omega
  · rename_i i place
    split at taken
    · split at taken
      · rename_i child found
        obtain ⟨rfl,exited,inside⟩ := waitid_returned _ _ _ _ found
        obtain ⟨bound,_⟩ := exited_second_half procNum child _ (holds.placed child) exited inside
        cases Option.some.inj taken
        have moved := total_update Child.left s.children child ⟨.reaped,(s.children child).away⟩
          procNum bound
        simp only [Child.left,exited] at moved
        simp only [place,Parent.left]
        omega
      · cases Option.some.inj taken
        simp only [place,Parent.left]
        omega
      · contradiction
    · cases Option.some.inj taken
      simp only [place,Parent.left]
      omega
  · contradiction

theorem step_left (procNum : Nat) (s : State) (action : Action) (next : State)
    (holds : Invariant procNum s) (taken : step procNum s action = some next) :
    next.left procNum < s.left procNum := by
  cases action with
  | parent pick => exact parentStep_left procNum s next pick holds taken
  | child i =>
    obtain ⟨child,sem,rfl,placed,_,lower,_⟩ := childStep_spec procNum s next i taken
    obtain ⟨inside,_⟩ := placed (holds.placed i)
    have moved := total_update Child.left s.children i child procNum inside
    simp only [State.left]
    omega

theorem child_enabled (procNum : Nat) (s : State) (holds : Invariant procNum s)
    (posted : s.parent.posted procNum = procNum) (i : Nat) (inside : i < procNum)
    (present : (s.children i).stage ≠ .absent) (kept : (s.children i).stage ≠ .reaped)
    (blocked : childStep procNum s i = none) : (s.children i).stage = .exited := by
  unfold childStep at blocked
  cases stage : (s.children i).stage with
  | absent => exact absurd stage present
  | reaped => exact absurd stage kept
  | exited => rfl
  | woken | placed => simp [stage] at blocked
  | waiting =>
    -- all tokens are posted and none is left, so every child has taken one
    have empty : s.sem = 0 := by simpa [stage] using blocked
    have tokens := holds.tokens
    have each : ∀ child : Child, child.passed ≤ 1 := by
      intro child
      unfold Child.passed
      split <;> omega
    have all := total_full Child.passed s.children procNum each (by omega) i inside
    simp [Child.passed,stage] at all

theorem stuck_returned (procNum : Nat) (even : procNum % 2 = 0) (s : State)
    (holds : Invariant procNum s) (stuck : Stuck (step procNum) s) : s.parent = .returned none := by
  have parent := fun pick => stuck (.parent pick)
  cases place : s.parent with
  | forking i =>
    have blocked := parent 0
    simp only [step,parentStep,place] at blocked
    split at blocked <;> contradiction
  | posting i =>
    have blocked := parent 0
    simp only [step,parentStep,place] at blocked
    split at blocked <;> contradiction
  | waiting i =>
    by_cases more : i < procNum / 2
    · obtain ⟨c,inside,present,kept,group⟩ := exists_inGroup procNum even s holds i place more
      have exited := child_enabled procNum s holds (by rw [place]; rfl) c inside present kept
        (stuck (.child c))
      have blocked := parent c
      simp [step,parentStep,place,more,waitid,exited,group] at blocked
    · have blocked := parent 0
      simp [step,parentStep,place,more] at blocked
  | returned msg =>
    have phase := holds.phase
    simp only [Phase,place] at phase
    rw [phase.1]

theorem start_forking (procNum : Nat) (large : 2 ≤ procNum) (even : procNum % 2 = 0) :
    (start procNum true).parent = .forking 0 := by
  have two : (1 : Int) < procNum := by omega
  have rest : (procNum : Int).tmod 2 = 0 := by
    rw [Int.tmod_eq_emod_of_nonneg (Int.natCast_nonneg procNum)]
    omega
  simp [start,two,rest]

theorem start_invariant (procNum : Nat) (large : 2 ≤ procNum) (even : procNum % 2 = 0) :
    Invariant procNum (start procNum true) := by
  have place := start_forking procNum large even
  refine ⟨fun _ => rfl,?_,List.nodup_nil,?_,?_⟩
  · intro i
    simp [start]
  · rw [place]
    simp [start,total_const,Child.passed,Parent.posted]
  · unfold Phase
    rw [place]
    exact ⟨Nat.zero_le _,fun i => by simp [start],rfl⟩

/-- Every call of waitid() returns a child of the second half that no call
before it returned, and the parent ends after it has had them all. -/
theorem second_half_reaped (procNum : Nat) (large : 2 ≤ procNum) (even : procNum % 2 = 0)
    (actions : List Action) (s : State)
    (computed : run (step procNum) actions (start procNum true) = some s) :
    s.reaped.Nodup ∧ (∀ i ∈ s.reaped, procNum / 2 ≤ i ∧ i < procNum) ∧
      (∀ msg, s.parent = .returned msg →
        msg = none ∧ s.reaped.length = procNum / 2 ∧ ∀ i, procNum / 2 ≤ i → i < procNum → i ∈ s.reaped) ∧
      (Stuck (step procNum) s → s.parent = .returned none) ∧
      actions.length ≤ 5 * procNum + procNum / 2 + 3 := by
  have initial := start_invariant procNum large even
  have holds := run_invariant (step procNum) (Invariant procNum) (step_invariant procNum even)
    actions _ s initial computed
  have second : ∀ i ∈ s.reaped, procNum / 2 ≤ i ∧ i < procNum := by
    intro i member
    have placed := holds.placed i
    rw [Child.Placed,(holds.reaped i).mp member] at placed
    exact ⟨placed.2.1,placed.1⟩
  refine ⟨holds.nodup,second,?_,stuck_returned procNum even s holds,?_⟩
  · intro msg place
    have phase := holds.phase
    simp only [Phase,place] at phase
    refine ⟨phase.1,phase.2,?_⟩
    have subset : s.reaped ⊆ List.range' (procNum / 2) (procNum / 2) := by
      intro i member
      have bounds := second i member
      exact List.mem_range'_1.mpr ⟨bounds.1,by omega⟩
    have all : s.reaped.Perm (List.range' (procNum / 2) (procNum / 2)) :=
      (holds.nodup.subperm subset).perm_of_length_le (by simp [phase.2])
    intro i lower upper
    exact all.mem_iff.mpr (List.mem_range'_1.mpr ⟨lower,by omega⟩)
  · have bound := run_bounded (step procNum) (Invariant procNum) (State.left procNum)
      (step_invariant procNum even) (step_left procNum) actions _ s initial computed
    have full : (start procNum true).left procNum = 5 * procNum + procNum / 2 + 3 := by
      rw [State.left,start_forking procNum large even]
      simp only [start,total_const,Child.left,Parent.left]
      omega
    omega

def twoChildren : List Action :=
  [.parent 0,.parent 0,.parent 0,.parent 0,.child 0,.parent 0,.parent 0,.child 1,.child 1,.child 1,
    .parent 1,.child 0,.child 0,.parent 0]

theorem second_half_reaped_two :
    ∃ s, run (step 2) twoChildren (start 2 true) = some s ∧ s.parent = .returned none ∧
      s.reaped.Nodup ∧ (∀ i ∈ s.reaped, 2 / 2 ≤ i ∧ i < 2) ∧
      (∀ msg, s.parent = .returned msg →
        msg = none ∧ s.reaped.length = 2 / 2 ∧ ∀ i, 2 / 2 ≤ i → i < 2 → i ∈ s.reaped) ∧
      (Stuck (step 2) s → s.parent = .returned none) ∧ twoChildren.length ≤ 5 * 2 + 2 / 2 + 3 := by
  refine ⟨_,rfl,?_,second_half_reaped 2 (by decide) (by decide) twoChildren _ rfl⟩
  decide

end Ostest.TestMck.Waitid
