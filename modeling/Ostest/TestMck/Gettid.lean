import Ostest.Lib.Calls
import Ostest.TestMck.Main

/-! Test gettid/002: threads that are moved to one CPU keep their process and
thread ids. -/
namespace Ostest.TestMck.Gettid
open Lib.Calls Lib.Signed

structure Child where
  prePid : Int
  postPid : Int
  preTid : Int
  postTid : Int
  preCpu : Int
  postCpu : Int
  deriving DecidableEq

/-! What a child records. -/

inductive Request where
  | schedGetcpu
  | getpid
  | gettid
  | semPost
  | setaffinity (cpu : Int)
  | semWait

abbrev Request.Answer : Request → Type
  | .schedGetcpu => Int
  | .getpid => Int
  | .gettid => Int
  | .semPost => Unit
  | .setaffinity _ => Int
  | .semWait => Unit

abbrev Code := Prog Request Request.Answer

def ask (asked : Request) : Code asked.Answer := request asked

/-- The thread function, from the value of child_cpu that it finds: what it leaves
there, in its record, which calloc has cleared, and as its result. -/
def func (childCpu : Int) : Code (Int × Child × Option String) := do
  let preCpu ← ask .schedGetcpu
  let prePid ← ask .getpid
  let preTid ← ask .gettid
  let mut cpu := childCpu
  if childCpu = -1 then
    cpu ← ask .schedGetcpu
    ask .semPost
  else
    ask .semPost
    let stat ← ask (.setaffinity childCpu)
    if stat ≠ 0 then
      return (childCpu,⟨prePid,0,preTid,0,preCpu,0⟩,some "pthread_setaffinity_np error.")
  ask .semWait
  let postCpu ← ask .schedGetcpu
  let postPid ← ask .getpid
  let postTid ← ask .gettid
  return (cpu,⟨prePid,postPid,preTid,postTid,preCpu,postCpu⟩,none)

/-! What the test makes of the records. -/

def checkPair (first second : Child) : ExceptT String Option Unit := do
  tpAssert (first.prePid = second.postPid) "PID is not match."
  tpAssert (first.preTid ≠ second.postTid) "Detected TID collision."

/-- The last loops of the test, over the records of `count` children. -/
def checks (count : Nat) (children : Nat → Child) : ExceptT String Option Unit :=
  forBelow 32 0 (count-1) fun i => do
    tpAssert ((children i).prePid = (children i).postPid) "PID is not match."
    tpAssert ((children i).preTid = (children i).postTid) "TID is not match."
    let j ← int (i+1)
    forBelow 32 j count fun j => checkPair (children i) (children j)

/-- The test, with what calloc and each pthread_create answer and what the children
have recorded when they are joined. -/
def run (childCount : Int) (allocated : Bool) (state : Nat → Int) (children : Nat → Child) :
    ExceptT String Option Unit := do
  let count := childCount.toNat
  tpAssert (0 < childCount) "mandatory parameter '-t <child_thread_count>'\n"
  tpAssert allocated "calloc error."
  forBelow 32 0 count fun _ => pure () -- sem_init
  forBelow 32 0 count fun i => tpAssert (state i = 0) "pthread_create error."
  forBelow 32 0 count fun _ => pure () -- sem_post
  forBelow 32 0 count fun _ => pure () -- pthread_join
  checks count children

/-- What the checks compare: a child with itself and with those behind it. -/
def Compared (first second : Child) : Prop :=
  first.prePid = first.postPid ∧ first.preTid = first.postTid ∧
    first.prePid = second.postPid ∧ first.preTid ≠ second.postTid

theorem done_checks_iff (count : Nat) (children : Nat → Child) :
    Done (checks count children) ↔
      (2 ≤ count → count < 2^31) ∧ ∀ i j, i < j → j < count → Compared (children i) (children j) := by
  simp only [checks,checkPair,done_forBelow_iff,done_seq_iff,done_signed_iff,done_tpAssert_iff,
    decide_eq_true_eq]
  constructor
  · rintro ⟨rounds,_⟩
    refine ⟨?_,?_⟩
    · intro two
      have first := rounds 0 (Nat.le_refl 0) (by omega)
      exact first.2.2.2.2 (by omega)
    · intro i j before inside
      obtain ⟨pid,tid,_,pairs,_⟩ := rounds i (Nat.zero_le i) (by omega)
      obtain ⟨samePid,otherTid⟩ := pairs j before inside
      exact ⟨pid,tid,samePid,otherTid⟩
  · rintro ⟨fits,pairs⟩
    refine ⟨?_,?_⟩
    · intro i _ inside
      obtain ⟨pid,tid,_,_⟩ := pairs i (i+1) (Nat.lt_succ_self i) (by omega)
      refine ⟨pid,tid,?_,?_,?_⟩
      · have := fits (by omega)
        omega
      · intro j before inside
        exact (pairs i j before inside).2.2
      · intro _
        exact fits (by omega)
    · intro some
      have := fits (by omega)
      omega

/-! What the test is to find out. -/

structure Consistent (count : Nat) (children : Nat → Child) : Prop where
  pids : ∀ i < count, ∀ j < count, (children i).prePid = (children j).prePid ∧
    (children i).prePid = (children j).postPid
  tids : ∀ i < count, (children i).preTid = (children i).postTid
  distinct : ∀ i < count, ∀ j < count, i ≠ j → (children i).preTid ≠ (children j).preTid

theorem compared_of_consistent (count : Nat) (children : Nat → Child)
    (consistent : Consistent count children) (i j : Nat) (before : i < j) (inside : j < count) :
    Compared (children i) (children j) := by
  have below : i < count := before.trans inside
  refine ⟨(consistent.pids i below i below).2,consistent.tids i below,(consistent.pids i below j inside).2,?_⟩
  rw [← consistent.tids j inside]
  exact consistent.distinct i below j inside before.ne

/-- The last child is compared with the others only by what it has recorded last. -/
theorem consistent_of_compared (last : Nat) (children : Nat → Child)
    (compared : ∀ i j, i < j → j < last+1 → Compared (children i) (children j))
    (pid : (children last).prePid = (children last).postPid)
    (tid : (children last).preTid = (children last).postTid) : Consistent (last+1) children := by
  have own (i : Nat) (inside : i < last+1) :
      (children i).prePid = (children i).postPid ∧ (children i).preTid = (children i).postTid := by
    rcases Nat.lt_succ_iff_lt_or_eq.mp inside with earlier | rfl
    · obtain ⟨samePid,sameTid,_,_⟩ := compared i last earlier (Nat.lt_succ_self last)
      exact ⟨samePid,sameTid⟩
    · exact ⟨pid,tid⟩
  have reported (i : Nat) (inside : i < last+1) : (children i).prePid = (children last).postPid := by
    rcases Nat.lt_succ_iff_lt_or_eq.mp inside with earlier | rfl
    · exact (compared i last earlier (Nat.lt_succ_self last)).2.2.1
    · exact pid
  refine ⟨?_,fun i inside => (own i inside).2,?_⟩
  · intro i left j right
    have same := (reported i left).trans (reported j right).symm
    exact ⟨same,same.trans (own j right).1⟩
  · intro i left j right other same
    rcases Nat.lt_or_gt_of_ne other with before | after
    · exact (compared i j before right).2.2.2 (same.trans (own j right).2)
    · exact (compared j i after left).2.2.2 (same.symm.trans (own i left).2)

theorem consistent_iff (last : Nat) (children : Nat → Child) :
    Consistent (last+1) children ↔
      ((children last).prePid = (children last).postPid ∧ (children last).preTid = (children last).postTid) ∧
        ∀ i j, i < j → j < last+1 → Compared (children i) (children j) := by
  constructor
  · intro consistent
    have inside := Nat.lt_succ_self last
    exact ⟨⟨(consistent.pids last inside last inside).2,consistent.tids last inside⟩,
      compared_of_consistent _ children consistent⟩
  · rintro ⟨⟨pid,tid⟩,compared⟩
    exact consistent_of_compared last children compared pid tid

/-- Two records that the checks tell apart from those of two threads of one process. -/
def Unlike (first second : Child) : Prop :=
  first.prePid ≠ first.postPid ∨ first.preTid ≠ first.postTid ∨
    first.prePid ≠ second.postPid ∨ first.preTid = second.postTid

theorem exists_unlike_iff (count : Nat) (children : Nat → Child) :
    (∃ i j, i < j ∧ j < count ∧ Unlike (children i) (children j)) ↔
      ¬∀ i j, i < j → j < count → Compared (children i) (children j) := by
  have unlike (first second : Child) : Unlike first second ↔ ¬Compared first second := by
    simp only [Unlike,Compared,not_and_or,not_not]
  push Not
  simp only [unlike]

/-- The checks miss what the last child has recorded before the move: they say
what they should exactly when it has kept its ids, or an earlier child gives the
others away. From 2^31 children on the counters overflow, and no records pass. -/
theorem gettid_checks_iff (count : Nat) (children : Nat → Child) (some : 1 ≤ count) :
    (Done (checks count children) ↔ Consistent count children) ↔
      if count = 1 ∨ count < 2^31 then
        ((children (count-1)).prePid = (children (count-1)).postPid ∧
          (children (count-1)).preTid = (children (count-1)).postTid) ∨
        ∃ i j, i < j ∧ j < count ∧ Unlike (children i) (children j)
      else
        (children (count-1)).prePid ≠ (children (count-1)).postPid ∨
        (children (count-1)).preTid ≠ (children (count-1)).postTid ∨
        ∃ i j, i < j ∧ j < count ∧ Unlike (children i) (children j) := by
  obtain ⟨last,rfl⟩ := Nat.exists_eq_add_of_le' some
  have fits : (2 ≤ last+1 → last+1 < 2^31) ↔ last+1 = 1 ∨ last+1 < 2^31 := by omega
  rw [Nat.add_sub_cancel,done_checks_iff,consistent_iff,exists_unlike_iff,fits]
  split <;> tauto

/-- Two children that keep their ids. -/
def moved : Nat → Child
  | 0 => ⟨100,100,100,100,0,0⟩
  | _ => ⟨100,100,101,101,1,0⟩

theorem gettid_checks_iff_two : Done (checks 2 moved) ↔ Consistent 2 moved :=
  (gettid_checks_iff 2 moved (by decide)).mpr (.inl ⟨rfl,rfl⟩)

/-- The last of these children has other ids after the move. -/
def renamed : Nat → Child
  | 0 => ⟨100,100,100,100,0,0⟩
  | _ => ⟨200,100,100,101,1,0⟩

theorem last_child_unchecked :
    (Done (checks 2 renamed) ∧ ¬ Consistent 2 renamed) ∧
    Done (checks 1 (fun _ => renamed 1)) ∧ ¬ Consistent 1 (fun _ => renamed 1) := by
  refine ⟨⟨rfl,?_⟩,rfl,?_⟩
  · intro consistent
    exact absurd (consistent.tids 1 (by decide)) (by decide)
  · intro consistent
    exact absurd (consistent.tids 0 (by decide)) (by decide)

/-- The test passes if it gets to the checks and they do. -/
theorem done_run_iff (childCount : Int) (allocated : Bool) (state : Nat → Int) (children : Nat → Child) :
    Done (run childCount allocated state children) ↔
      0 < childCount ∧ allocated = true ∧ childCount < 2^31 ∧ (∀ i < childCount.toNat, state i = 0) ∧
        Done (checks childCount.toNat children) := by
  have passes : Done (pure () : ExceptT String Option Unit) := rfl
  simp only [run,done_seq_iff,done_forBelow_iff,done_tpAssert_iff,decide_eq_true_eq,passes,implies_true,
    true_and,Nat.zero_le,true_implies]
  constructor
  · rintro ⟨some,enough,fits,⟨created,_⟩,_,_,checked⟩
    exact ⟨some,enough,by omega,created,checked⟩
  · rintro ⟨some,enough,fits,created,checked⟩
    have bound : 0 < childCount.toNat → childCount.toNat < 2^(32-1) := by omega
    exact ⟨some,enough,bound,⟨created,bound⟩,bound,bound,checked⟩

/-- A child can leave any record, whichever child_cpu it finds. -/
theorem func_records (childCpu : Int) (child : Child) :
    ∃ trace cpu, Runs (func childCpu) trace (cpu,child,none) := by
  by_cases first : childCpu = -1
  · refine ⟨[⟨.schedGetcpu,child.preCpu⟩,⟨.getpid,child.prePid⟩,⟨.gettid,child.preTid⟩,
      ⟨.schedGetcpu,child.preCpu⟩,⟨.semPost,()⟩,⟨.semWait,()⟩,⟨.schedGetcpu,child.postCpu⟩,
      ⟨.getpid,child.postPid⟩,⟨.gettid,child.postTid⟩],child.preCpu,?_⟩
    subst first
    exact .call _ _ _ _ _ (.call _ _ _ _ _ (.call _ _ _ _ _ (.call _ _ _ _ _ (.call _ _ _ _ _
      (.call _ _ _ _ _ (.call _ _ _ _ _ (.call _ _ _ _ _ (.call _ _ _ _ _ (.ret _)))))))))
  · refine ⟨[⟨.schedGetcpu,child.preCpu⟩,⟨.getpid,child.prePid⟩,⟨.gettid,child.preTid⟩,
      ⟨.semPost,()⟩,⟨.setaffinity childCpu,(0 : Int)⟩,⟨.semWait,()⟩,⟨.schedGetcpu,child.postCpu⟩,
      ⟨.getpid,child.postPid⟩,⟨.gettid,child.postTid⟩],childCpu,?_⟩
    simp only [func,if_neg first,ask,runs_request_cons]
    exact .call _ _ _ _ _ (.call _ _ _ _ _ (.call _ _ _ _ _ (.call _ _ _ _ _ (.ret _))))

end Ostest.TestMck.Gettid
