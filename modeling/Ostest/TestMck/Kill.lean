import Ostest.Lib.Calls
import Ostest.Lib.Memory

/-! Tests kill/000, kill/001 and kill/002, as their parent runs them: the
children it creates and the process ids it uses, for every result of its calls.
`heap` is what the memory of `child_pids` holds when malloc() returns it. -/
namespace Ostest.TestMck.Kill
open Lib.Calls Lib.Memory

abbrev Msg := Option String

abbrev Pid := {pid : Int // 0 < pid}

inductive Request where
  | getCpuId
  | fork
  | getpgid (pid : Int)
  | setpgid (pid pgid : Int)
  | signal
  | kill (pid : Int)
  | waitpid (pid : Int)

/-- `signal` is answered by whether it failed. -/
abbrev Request.Answer : Request → Type
  | .fork => Option Pid
  | .signal => Bool
  | _ => Int

abbrev Code := Prog Request Request.Answer

abbrev Trace := List (Event Request.Answer)

def ask (asked : Request) : Code asked.Answer := request asked

inductive Ending where
  | returned (msg : Msg)
  | exited (status : Nat)

/-- The fork loop with `left` rounds to go: `cnt` after it, the array, and
`fork_error_flag`. -/
def forkLoop : (left cnt : Nat) → (childPids : Nat → Int) → Code (Nat × (Nat → Int) × Nat)
  | 0, cnt, childPids => return (cnt,childPids,0)
  | left+1, cnt, childPids => do
    match ← ask .fork with
    | none => return (cnt,childPids,1)
    | some child =>
      let _ ← ask (.getpgid child.val)
      forkLoop left (cnt+1) (store childPids cnt [child.val])

def waitLoop (childPids : Nat → Int) : (left cnt : Nat) → Code Ending
  | 0, _ => return .returned none
  | left+1, cnt => do
    let _ ← ask (.waitpid (childPids cnt))
    waitLoop childPids left (cnt+1)

def regroupLoop (childPids : Nat → Int) (childPgid : Int) : (left cnt : Nat) → Code Unit
  | 0, _ => return ()
  | left+1, cnt => do
    let _ ← ask (.getpgid (childPids cnt))
    let _ ← ask (.setpgid (childPids cnt) childPgid)
    regroupLoop childPids childPgid left (cnt+1)

/-- What kill/000 and kill/001 do once the children exist; `target` is whom
they signal. -/
def signalAndWait (target : Int) (childPids : Nat → Int) (procNum : Int) : Code Ending := do
  if ← ask .signal then return .exited 1
  let _ ← ask (.kill target)
  waitLoop childPids procNum.toNat 0

def forkAndSignal (target : Int) (heap : Nat → Int) (procNum : Int) : Code Ending := do
  let (cnt,childPids,_) ← forkLoop procNum.toNat 0 heap
  if cnt = 0 then return .returned (some "child process nothing.")
  signalAndWait target childPids procNum

def kill000 (heap : Nat → Int) (procNum : Int) : Code Ending := do
  if ¬procNum > 0 then return .returned (some "mandatory parameter '-p <num_of_child_procs>'")
  let _ ← ask (.setpgid 0 0)
  forkAndSignal 0 heap procNum

def kill001 (heap : Nat → Int) (procNum : Int) : Code Ending := do
  if ¬procNum > 0 then return .returned (some "mandatory parameter '-p <num_of_child_procs>'")
  if (← ask .getCpuId) = -1 then return .returned (some "Don't run this TP on HostLinux!!")
  forkAndSignal (-1) heap procNum

def kill002 (heap : Nat → Int) (procNum : Int) : Code Ending := do
  if ¬procNum > 0 then return .returned (some "mandatory parameter '-p <num_of_child_procs>'")
  let (cnt,childPids,forkErrorFlag) ← forkLoop procNum.toNat 0 heap
  if cnt = 0 then return .returned (some "child process nothing.")
  let childPgid := childPids 0
  regroupLoop childPids childPgid (procNum - forkErrorFlag).toNat 0
  let _ ← ask (.kill (-childPgid))
  waitLoop childPids procNum.toNat 0

inductive Test where
  | kill000
  | kill001
  | kill002

def Test.runFunc : Test → (heap : Nat → Int) → (procNum : Int) → Code Ending
  | .kill000 => Kill.kill000
  | .kill001 => Kill.kill001
  | .kill002 => Kill.kill002

/-! What a run shows. -/

def forked (trace : Trace) : List Int := trace.filterMap fun
  | ⟨.fork,some pid⟩ => some pid.val
  | _ => none

/-- The pids given to getpgid, setpgid and waitpid. In `setpgid(0, 0)` the zeros
stand for the caller. -/
def given (trace : Trace) : List Int := trace.flatMap fun
  | ⟨.getpgid pid,_⟩ | ⟨.waitpid pid,_⟩ => [pid]
  | ⟨.setpgid pid pgid,_⟩ => if pid = 0 ∧ pgid = 0 then [] else [pid,pgid]
  | _ => []

def waited (trace : Trace) : List Int := trace.filterMap fun
  | ⟨.waitpid pid,_⟩ => some pid
  | _ => none

def forkFails (trace : Trace) : Bool := trace.any fun
  | ⟨.fork,none⟩ => true
  | _ => false

def signalFails (trace : Trace) : Bool := trace.any fun
  | ⟨.signal,true⟩ => true
  | _ => false

def Sound (trace : Trace) : Prop :=
  (∀ pid ∈ given trace, pid ∈ forked trace) ∧ ∀ pid ∈ forked trace, pid ∈ waited trace

instance (trace : Trace) : Decidable (Sound trace) := inferInstanceAs (Decidable (_ ∧ _))

@[simp]
theorem forked_append (first second : Trace) : forked (first ++ second) = forked first ++ forked second :=
  List.filterMap_append

@[simp]
theorem given_append (first second : Trace) : given (first ++ second) = given first ++ given second :=
  List.flatMap_append

@[simp]
theorem waited_append (first second : Trace) : waited (first ++ second) = waited first ++ waited second :=
  List.filterMap_append

@[simp]
theorem forkFails_append (first second : Trace) :
    forkFails (first ++ second) = (forkFails first || forkFails second) :=
  List.any_append

@[simp]
theorem signalFails_append (first second : Trace) :
    signalFails (first ++ second) = (signalFails first || signalFails second) :=
  List.any_append

theorem waited_given (trace : Trace) : waited trace ⊆ given trace := by
  intro pid member
  obtain ⟨⟨asked,reply⟩,present,same⟩ := List.mem_filterMap.mp member
  refine List.mem_flatMap.mpr ⟨_,present,?_⟩
  cases asked <;> simp_all

/-- A stretch that creates no child, names nothing but `entries` and waits for
all of them. -/
structure WaitsFor (entries : List Int) (trace : Trace) : Prop where
  forked : forked trace = []
  waited : waited trace = entries
  given : given trace ⊆ entries
  forkFails : forkFails trace = false
  signalFails : signalFails trace = false

theorem waitLoop_waitsFor (childPids : Nat → Int) (left cnt : Nat) (trace : Trace) (ending : Ending)
    (runs : Runs (waitLoop childPids left cnt) trace ending) :
    WaitsFor (load childPids cnt left) trace := by
  induction left generalizing cnt trace with
  | zero =>
    obtain ⟨rfl,_⟩ := (runs_pure _ _ _).mp runs
    exact ⟨rfl,rfl,List.Subset.refl _,rfl,rfl⟩
  | succ left ih =>
    obtain ⟨reply,rest,rfl,later⟩ := (runs_request_bind _ _ _ _).mp runs
    have holds := ih (cnt+1) rest later
    rw [load_succ]
    refine ⟨holds.forked,?_,?_,holds.forkFails,holds.signalFails⟩
    · rw [← holds.waited]
      rfl
    · exact List.cons_subset_cons _ holds.given

theorem regroupLoop_trace (childPids : Nat → Int) (childPgid : Int) (left cnt : Nat) (trace : Trace)
    (runs : Runs (regroupLoop childPids childPgid left cnt) trace ()) :
    forked trace = [] ∧ (∀ pid ∈ given trace, pid = childPgid ∨ pid ∈ load childPids cnt left) ∧
      waited trace = [] ∧ forkFails trace = false ∧ signalFails trace = false := by
  induction left generalizing cnt trace with
  | zero =>
    obtain ⟨rfl,_⟩ := (runs_pure _ _ _).mp runs
    exact ⟨rfl,by simp [given],rfl,rfl,rfl⟩
  | succ left ih =>
    obtain ⟨reply,rest,rfl,later⟩ := (runs_request_bind _ _ _ _).mp runs
    obtain ⟨reply',rest,rfl,last⟩ := (runs_request_bind _ _ _ _).mp later
    obtain ⟨forks,gives,waits,failsFork,failsSignal⟩ := ih (cnt+1) rest last
    refine ⟨forks,?_,waits,failsFork,failsSignal⟩
    intro pid member
    rw [load_succ]
    obtain ⟨event,present,named⟩ := List.mem_flatMap.mp member
    rcases List.mem_cons.mp present with rfl | present
    · exact .inr (List.mem_cons.mpr (.inl (List.mem_singleton.mp named)))
    · rcases List.mem_cons.mp present with rfl | present
      · have either : pid = childPids cnt ∨ pid = childPgid := by
          dsimp only at named
          split at named
          · contradiction
          · simpa using named
        rcases either with same | same
        · exact .inr (List.mem_cons.mpr (.inl same))
        · exact .inl same
      · rcases gives pid (List.mem_flatMap.mpr ⟨event,present,named⟩) with same | inside
        · exact .inl same
        · exact .inr (List.mem_cons_of_mem _ inside)

theorem forkLoop_trace (left cnt : Nat) (childPids : Nat → Int) (trace : Trace) (cnt' flag : Nat)
    (childPids' : Nat → Int) (runs : Runs (forkLoop left cnt childPids) trace (cnt',childPids',flag)) :
    cnt' = cnt + (forked trace).length ∧ childPids' = store childPids cnt (forked trace) ∧
      (forked trace).length ≤ left ∧ (forkFails trace = false → (forked trace).length = left) ∧
      given trace = forked trace ∧ waited trace = [] ∧ signalFails trace = false := by
  induction left generalizing cnt childPids trace with
  | zero =>
    obtain ⟨rfl,same⟩ := (runs_pure _ _ _).mp runs
    cases same
    refine ⟨rfl,?_,Nat.le_refl _,fun _ => rfl,rfl,rfl,rfl⟩
    funext address
    simp [store,forked]
  | succ left ih =>
    obtain ⟨child,rest,rfl,later⟩ := (runs_request_bind _ _ _ _).mp runs
    cases child with
    | none =>
      obtain ⟨rfl,same⟩ := (runs_pure _ _ _).mp later
      cases same
      refine ⟨rfl,?_,Nat.zero_le _,fun passed => ?_,rfl,rfl,rfl⟩
      · funext address
        simp [store,forked]
      · simp [forkFails] at passed
    | some child =>
      obtain ⟨reply,rest,rfl,last⟩ := (runs_request_bind _ _ _ _).mp later
      obtain ⟨count,stored,bound,full,gives,waits,failsSignal⟩ := ih (cnt+1) _ rest last
      have created : forked (⟨.fork,some child⟩ :: ⟨.getpgid child.val,reply⟩ :: rest) =
          child.val :: forked rest := rfl
      rw [created]
      refine ⟨?_,?_,?_,?_,?_,waits,failsSignal⟩
      · rw [count,List.length_cons]
        omega
      · rw [stored,store_cons]
      · rw [List.length_cons]
        omega
      · intro passed
        rw [List.length_cons,full passed]
      · rw [← gives]
        rfl

/-- The part of `child_pids` that no fork filled happens to hold pids of
children of the run, if a fork failed after others had not. -/
def Covered (heap : Nat → Int) (procNum : Int) (trace : Trace) : Prop :=
  forkFails trace = true → forked trace ≠ [] →
    ∀ i, (forked trace).length ≤ i → i < procNum.toNat → heap i ∈ forked trace

structure Quiet (trace : Trace) : Prop where
  forked : forked trace = []
  given : given trace = []
  waited : waited trace = []
  forkFails : forkFails trace = false
  signalFails : signalFails trace = false

/-- The end of kill/002, after its fork loop. -/
def regroupAndWait (procNum : Int) (childPids : Nat → Int) (flag : Nat) : Code Ending := do
  regroupLoop childPids (childPids 0) (procNum - flag).toNat 0
  let _ ← ask (.kill (-childPids 0))
  waitLoop childPids procNum.toNat 0

section
variable (heap : Nat → Int) (procNum : Int) (before loop : Trace) (cnt flag : Nat)
  (childPids : Nat → Int) (quiet : Quiet before)
  (runs : Runs (forkLoop procNum.toNat 0 heap) loop (cnt,childPids,flag))
include quiet runs

theorem no_child_sound (none : cnt = 0) :
    Sound (before ++ loop) ∧ Covered heap procNum (before ++ loop) ∧
      signalFails (before ++ loop) = false := by
  obtain ⟨count,_,_,_,gives,_,failsSignal⟩ := forkLoop_trace _ _ _ _ _ _ _ runs
  have empty : forked loop = [] := List.eq_nil_of_length_eq_zero (by omega)
  refine ⟨?_,?_,?_⟩
  · simp [Sound,quiet.forked,quiet.given,gives,empty]
  · simp [Covered,quiet.forked,empty]
  · simp [quiet.signalFails,failsSignal]

theorem signal_failed_unsound (some : cnt ≠ 0) : ¬Sound (before ++ loop ++ [⟨.signal,true⟩]) := by
  obtain ⟨count,_,_,_,_,waits,_⟩ := forkLoop_trace _ _ _ _ _ _ _ runs
  obtain ⟨pid,member⟩ := List.exists_mem_of_length_pos (l := forked loop) (by omega)
  rintro ⟨_,all⟩
  have missed := all pid (by simp [member])
  simp [quiet.waited,waits] at missed
  simp [waited] at missed

theorem complete_sound_iff (some : cnt ≠ 0) (after : Trace)
    (waits : WaitsFor (load childPids 0 procNum.toNat) after) :
    Sound (before ++ loop ++ after) ↔
      Covered heap procNum (before ++ loop ++ after) ∧ signalFails (before ++ loop ++ after) = false := by
  obtain ⟨count,rfl,bound,full,loopGives,loopWaits,loopSignal⟩ := forkLoop_trace _ _ _ _ _ _ _ runs
  have created : forked (before ++ loop ++ after) = forked loop := by simp [quiet.forked,waits.forked]
  have passed : signalFails (before ++ loop ++ after) = false := by
    simp [quiet.signalFails,loopSignal,waits.signalFails]
  have member := mem_load_store heap (forked loop) procNum.toNat bound
  have present : forked loop ≠ [] := by
    intro empty
    simp [empty] at count
    omega
  have covered : Covered heap procNum (before ++ loop ++ after) ↔
      ∀ i, (forked loop).length ≤ i → i < procNum.toNat → heap i ∈ forked loop := by
    simp only [Covered,created,forkFails_append,quiet.forkFails,waits.forkFails,Bool.false_or,
      Bool.or_false]
    constructor
    · intro covered i low high
      apply covered _ present i low high
      by_contra passed
      have length := full (by simpa using passed)
      omega
    · intro covered _ _
      exact covered
  rw [and_iff_left passed,covered]
  simp only [Sound,created,given_append,waited_append,quiet.given,quiet.waited,loopGives,loopWaits,
    waits.waited,List.nil_append]
  constructor
  · rintro ⟨known,_⟩ i low high
    apply known
    apply List.mem_append_right
    apply waited_given
    rw [waits.waited,member]
    exact .inr ⟨i,low,high,rfl⟩
  · intro covered
    constructor
    · intro pid named
      rcases List.mem_append.mp named with own | named
      · exact own
      · rcases (member pid).mp (waits.given named) with own | ⟨i,low,high,rfl⟩
        · exact own
        · exact covered i low high
    · intro pid own
      exact (member pid).mpr (.inl own)

theorem signalAndWait_sound_iff (some : cnt ≠ 0) (target : Int) (after : Trace) (ending : Ending)
    (tail : Runs (signalAndWait target childPids procNum) after ending) :
    Sound (before ++ loop ++ after) ↔
      Covered heap procNum (before ++ loop ++ after) ∧ signalFails (before ++ loop ++ after) = false := by
  obtain ⟨failed,rest,rfl,later⟩ := (runs_request_bind _ _ _ _).mp tail
  cases failed with
  | true =>
    obtain ⟨rfl,_⟩ := (runs_pure _ _ _).mp later
    have unsound := signal_failed_unsound heap procNum before loop cnt flag childPids quiet runs some
    refine iff_of_false unsound ?_
    simp [signalFails]
  | false =>
    obtain ⟨reply,rest,rfl,last⟩ := (runs_request_bind _ _ _ _).mp later
    have waits := waitLoop_waitsFor _ _ _ _ _ last
    exact complete_sound_iff heap procNum before loop cnt flag childPids quiet runs some _
      ⟨waits.forked,waits.waited,waits.given,waits.forkFails,waits.signalFails⟩

theorem regroup_sound_iff (some : cnt ≠ 0) (after : Trace) (ending : Ending)
    (tail : Runs (regroupAndWait procNum childPids flag) after ending) :
    Sound (before ++ loop ++ after) ↔
      Covered heap procNum (before ++ loop ++ after) ∧ signalFails (before ++ loop ++ after) = false := by
  obtain ⟨regroups,⟨⟩,rest,rfl,regroup,later⟩ := (runs_bind _ _ _ _).mp tail
  obtain ⟨reply,rest,rfl,last⟩ := (runs_request_bind _ _ _ _).mp later
  obtain ⟨count,_,bound,_,_,_,_⟩ := forkLoop_trace _ _ _ _ _ _ _ runs
  obtain ⟨forks,gives,waited,failsFork,failsSignal⟩ := regroupLoop_trace _ _ _ _ _ regroup
  have waits := waitLoop_waitsFor _ _ _ _ _ last
  refine complete_sound_iff heap procNum before loop cnt flag childPids quiet runs some _
    ⟨?_,?_,?_,?_,?_⟩
  · rw [forked_append,forks]
    exact waits.forked
  · rw [waited_append,waited]
    exact waits.waited
  · intro pid member
    rw [given_append] at member
    rcases List.mem_append.mp member with named | named
    · rw [mem_load]
      rcases gives pid named with rfl | inside
      · exact ⟨0,by omega,rfl⟩
      · obtain ⟨offset,low,same⟩ := (mem_load _ _ _ _).mp inside
        exact ⟨offset,by omega,same⟩
    · exact waits.given named
  · rw [forkFails_append,failsFork]
    exact waits.forkFails
  · rw [signalFails_append,failsSignal]
    exact waits.signalFails
end

theorem forks_sound_iff (heap : Nat → Int) (procNum : Int) (body : (Nat → Int) → Nat → Code Ending)
    (complete : ∀ before loop cnt flag childPids, Quiet before →
      Runs (forkLoop procNum.toNat 0 heap) loop (cnt,childPids,flag) → cnt ≠ 0 →
      ∀ after ending, Runs (body childPids flag) after ending →
        (Sound (before ++ loop ++ after) ↔ Covered heap procNum (before ++ loop ++ after) ∧
          signalFails (before ++ loop ++ after) = false))
    (before rest : Trace) (quiet : Quiet before) (ending : Ending)
    (runs : Runs (do
      let (cnt,childPids,flag) ← forkLoop procNum.toNat 0 heap
      if cnt = 0 then return .returned (some "child process nothing.")
      body childPids flag) rest ending) :
    Sound (before ++ rest) ↔
      Covered heap procNum (before ++ rest) ∧ signalFails (before ++ rest) = false := by
  obtain ⟨loop,⟨cnt,childPids,flag⟩,after,rfl,forks,tail⟩ := (runs_bind _ _ _ _).mp runs
  dsimp only at tail
  split at tail
  · rename_i none
    obtain ⟨rfl,_⟩ := (runs_pure _ _ _).mp tail
    have done := no_child_sound heap procNum before loop cnt flag childPids quiet forks none
    rw [List.append_nil]
    exact iff_of_true done.1 done.2
  · rename_i some
    rw [← List.append_assoc]
    exact complete before loop cnt flag childPids quiet forks some after ending tail

theorem forkAndSignal_sound_iff (target : Int) (heap : Nat → Int) (procNum : Int)
    (before rest : Trace) (quiet : Quiet before) (ending : Ending)
    (runs : Runs (forkAndSignal target heap procNum) rest ending) :
    Sound (before ++ rest) ↔
      Covered heap procNum (before ++ rest) ∧ signalFails (before ++ rest) = false := by
  refine forks_sound_iff heap procNum (fun childPids _ => signalAndWait target childPids procNum) ?_
    before rest quiet ending runs
  intro before loop cnt flag childPids quiet forks some after ending tail
  exact signalAndWait_sound_iff heap procNum before loop cnt flag childPids quiet forks some target
    after ending tail

theorem kill002_sound_iff (heap : Nat → Int) (procNum : Int) (positive : procNum > 0) (trace : Trace)
    (ending : Ending) (runs : Runs (kill002 heap procNum) trace ending) :
    Sound trace ↔ Covered heap procNum trace ∧ signalFails trace = false := by
  rw [kill002,if_neg (not_not.mpr positive)] at runs
  refine forks_sound_iff heap procNum (regroupAndWait procNum) ?_ [] trace ⟨rfl,rfl,rfl,rfl,rfl⟩ ending runs
  intro before loop cnt flag childPids quiet forks some after ending tail
  exact regroup_sound_iff heap procNum before loop cnt flag childPids quiet forks some after ending tail

/-- The children of a run are the processes it names and waits for exactly when
no fork fails after another one succeeded, unless the array holds them by
chance where it was never filled, and the handler could be installed. -/
theorem sound_iff_covered (test : Test) (heap : Nat → Int) (procNum : Int) (positive : 1 ≤ procNum)
    (trace : Trace) (ending : Ending) (runs : Runs (test.runFunc heap procNum) trace ending) :
    Sound trace ↔ Covered heap procNum trace ∧ signalFails trace = false := by
  have more : procNum > 0 := by omega
  cases test with
  | kill000 =>
    rw [Test.runFunc,kill000,if_neg (not_not.mpr more)] at runs
    obtain ⟨reply,rest,rfl,later⟩ := (runs_request_bind _ _ _ _).mp runs
    exact forkAndSignal_sound_iff 0 heap procNum [⟨.setpgid 0 0,reply⟩] rest
      ⟨rfl,rfl,rfl,rfl,rfl⟩ ending later
  | kill001 =>
    rw [Test.runFunc,kill001,if_neg (not_not.mpr more)] at runs
    obtain ⟨cpu,rest,rfl,later⟩ := (runs_request_bind _ _ _ _).mp runs
    have quiet : Quiet [⟨.getCpuId,cpu⟩] := ⟨rfl,rfl,rfl,rfl,rfl⟩
    split at later
    · obtain ⟨rfl,_⟩ := (runs_pure _ _ _).mp later
      simp [Sound,Covered,quiet.forked,quiet.given,quiet.signalFails]
    · exact forkAndSignal_sound_iff (-1) heap procNum [⟨.getCpuId,cpu⟩] rest quiet ending later
  | kill002 => exact kill002_sound_iff heap procNum more trace ending runs

/-- Answers to the calls of a run whose forks succeed as long as fewer than
`calls` calls came before. -/
def forksUntil (calls count : Nat) : (asked : Request) → asked.Answer
  | .fork => if count < calls then some ⟨count + 7,by omega⟩ else none
  | .signal => false
  | .getCpuId | .getpgid _ | .setpgid _ _ | .kill _ | .waitpid _ => (0 : Int)

theorem sound_iff_covered_two :
    ∃ trace ending, Runs (Test.runFunc .kill002 (fun _ => 0) 2) trace ending ∧
      (Sound trace ↔ Covered (fun _ => 0) 2 trace ∧ signalFails trace = false) := by
  have runs := runs_play (forksUntil 9) 0 (Test.runFunc .kill002 (fun _ => 0) 2)
  exact ⟨_,_,runs,sound_iff_covered .kill002 (fun _ => 0) 2 (by decide) _ _ runs⟩

/-- Two children are asked for and the second fork fails: each of the tests
goes on to wait for the pid 0 it finds in the unused entry. -/
theorem unfilled_waited (test : Test) :
    ∃ trace ending, Runs (test.runFunc (fun _ => 0) 2) trace ending ∧
      0 ∈ waited trace ∧ 0 ∉ forked trace ∧ ¬Sound trace := by
  refine ⟨_,_,runs_play (forksUntil 2) 0 (test.runFunc (fun _ => 0) 2),?_⟩
  cases test <;> decide

theorem unfilled_entry_used :
    ∃ trace ending, Runs (Test.runFunc .kill002 (fun _ => 0) 2) trace ending ∧
      0 ∈ waited trace ∧ 0 ∉ forked trace ∧ ¬Sound trace :=
  unfilled_waited .kill002

end Ostest.TestMck.Kill
