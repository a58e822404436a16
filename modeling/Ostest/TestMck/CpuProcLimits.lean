import Mathlib.Data.BitVec
import Ostest.Lib.Calls
import Ostest.Lib.Decimal
import Ostest.Lib.Ledger

/-! Test cpu_proc_limits/000: the children it creates, and the descriptors of the
pipes to them. -/
namespace Ostest.TestMck.CpuProcLimits
open Lib.Calls hiding Event play
open Lib.Decimal Lib.Ledger

abbrev Msg := Option String

abbrev Fd := Int

/-- `struct cpu_proc_limits_args`. -/
structure Args where
  procNum : Int
  cpuNum : Int

/-- `proc_pipes_t`. A pipe is its read end and its write end. -/
structure ProcPipes where
  p2c : Fd × Fd
  c2p : Fd × Fd

inductive Request where
  | getrlimit
  | setrlimit (rlimCur rlimMax : BitVec 64)
  | calloc (count : Nat)
  | pipe
  | fork
  | close (fd : Fd)
  | read (fd : Fd) (count : Nat)
  | write (fd : Fd) (text : String) (count : Nat)
  | getpid
  | usleep (usec : Nat)
  | printf (text : String)
  | free

/-- getrlimit is answered by the hard limit, calloc by whether there is memory,
and a pipe that fails by `none`. -/
abbrev Request.Answer : Request → Type
  | .getrlimit => BitVec 64
  | .calloc _ => Bool
  | .pipe => Option (Fd × Fd)
  | .usleep _ | .printf _ | .free => Unit
  | _ => Int

abbrev Code := Prog Request Request.Answer

abbrev Trace := List (Lib.Calls.Event Request.Answer)

def ask (asked : Request) : Code asked.Answer := request asked

inductive Ending where
  | returned (msg : Msg)
  | exited (status : Nat)

def pipeBufSize : Nat := 0x10
def childSleepUsec : Nat := 100000

def percent010d (n : Int) : String := String.ofList (padLeft '0' 10 (integer n))

def childFn (readFd writeFd : Fd) : Code Unit := do
  let got ← ask (.read readFd pipeBufSize)
  if got ≤ 0 then return
  ask (.usleep childSleepUsec)
  let pid ← ask .getpid
  let _ ← ask (.write writeFd (percent010d pid) pipeBufSize)

/-- The ends that the parent talks to a child through. -/
def closeKept (pipes : ProcPipes) : Code Unit := do
  let _ ← ask (.close pipes.p2c.2)
  let _ ← ask (.close pipes.c2p.1)

def closeIf (opened : Bool) (ends : Fd × Fd) : Code Unit := do
  if opened then
    let _ ← ask (.close ends.1)
    let _ ← ask (.close ends.2)

def child (pipes : ProcPipes) : Code Ending := do
  closeKept pipes
  childFn pipes.p2c.1 pipes.c2p.2
  let _ ← ask (.close pipes.p2c.1)
  let _ ← ask (.close pipes.c2p.2)
  ask .free
  return .exited 0

def kick (pipes : ProcPipes) : Code Unit := do
  -- six bytes more than the literal has are written
  let _ ← ask (.write pipes.p2c.2 "1234567890" (pipeBufSize+1))

def collect (pipes : ProcPipes) : Code Unit := do
  let _ ← ask (.read pipes.c2p.1 pipeBufSize)
  closeKept pipes

/-- What comes after the label `forkone` is left, in the parent. -/
def finish (procNum : Nat) (pp : Nat → ProcPipes) : Code Ending := do
  let _ ← ask .getpid
  (List.range procNum).forM (fun i => kick (pp i))
  ask (.printf "Wait children's process will be finished. (about 100msec...)\n")
  (List.range procNum).forM (fun i => collect (pp i))
  ask .free
  return .returned none

/-- The code from the label `forkone` on. `pp` is the array from calloc. -/
def forkone (procNum : Nat) (pp : Nat → ProcPipes) (forks : Nat) : Code Ending := do
  let p2c ← ask .pipe
  let c2p ← ask .pipe
  let pipes : ProcPipes := ⟨Option.getD p2c (pp forks).p2c,Option.getD c2p (pp forks).c2p⟩
  let pp := Function.update pp forks pipes
  if Option.isNone p2c || Option.isNone c2p then
    (List.range forks).forM (fun i => closeKept (pp i))
    -- i is forks after the loop
    closeIf (Option.isSome p2c) pipes.p2c
    closeIf (Option.isSome c2p) pipes.c2p
    ask .free
    return .returned (some "pipe open faild!!\n")
  let pid1 ← ask .fork
  if pid1 = 0 then child pipes
  else if again : pid1 ≠ -1 ∧ forks+1 < procNum then
    let _ ← ask (.close pipes.p2c.1)
    let _ ← ask (.close pipes.c2p.2)
    forkone procNum pp (forks+1)
  else if pid1 < 0 then
    (List.range (forks+1)).forM (fun i => closeKept (pp i))
    ask .free
    return .returned (some "fork() Failed.")
  else finish procNum pp
termination_by procNum - forks

def runFunc (tcArg : Option Args) : Code Ending := do
  let some args := tcArg | return .returned (some "internal error.")
  if ¬0 < args.procNum then return .returned (some "-p <child proc num> invalid argument.")
  if ¬0 < args.cpuNum then return .returned (some "-c <num cpus> invalid argument.")
  let rlimMax ← ask .getrlimit
  let rlimCur := BitVec.ofInt 64 args.cpuNum
  if ¬rlimCur ≤ rlimMax then return .returned (some "-c <num cpus> is larger than hard limit")
  if (← ask (.setrlimit rlimCur rlimMax)) ≠ 0 then return .returned (some "setrlimit error")
  match ← ask (.calloc args.procNum.toNat) with
  | false => return .returned (some "calloc error.")
  | true => forkone args.procNum.toNat (fun _ => ⟨(0,0),(0,0)⟩) 0

/-! The descriptors of the pipes. -/

def entry : Lib.Calls.Event Request.Answer → List (Event Fd)
  | ⟨.pipe,some (readEnd,writeEnd)⟩ => [.acquire readEnd,.acquire writeEnd]
  | ⟨.close fd,_⟩ => [.release fd]
  | _ => []

def ledger (trace : Trace) : List (Event Fd) := trace.flatMap entry

def opened (table : Fd → Bool) : Lib.Calls.Event Request.Answer → Fd → Bool
  | ⟨.pipe,some (readEnd,writeEnd)⟩ => Function.update (Function.update table readEnd true) writeEnd true
  | ⟨.close fd,_⟩ => Function.update table fd false
  | _ => table

def Unused (table : Fd → Bool) : Lib.Calls.Event Request.Answer → Prop
  | ⟨.pipe,some (readEnd,writeEnd)⟩ => readEnd ≠ writeEnd ∧ table readEnd = false ∧ table writeEnd = false
  | _ => True

/-- A pipe gets two descriptors that are not open. A closed one may come again. -/
def Fresh : (Fd → Bool) → Trace → Prop
  | _, [] => True
  | table, event :: rest => Unused table event ∧ Fresh (opened table event) rest

@[simp]
theorem ledger_cons (event : Lib.Calls.Event Request.Answer) (trace : Trace) :
    ledger (event :: trace) = entry event ++ ledger trace := List.flatMap_cons

@[simp]
theorem ledger_append (first second : Trace) : ledger (first ++ second) = ledger first ++ ledger second :=
  List.flatMap_append

@[simp]
theorem ledger_nil : ledger [] = [] := rfl

def ends : Option (Fd × Fd) → List Fd
  | none => []
  | some (readEnd,writeEnd) => [readEnd,writeEnd]

def kept (pp : Nat → ProcPipes) (count : Nat) : List Fd :=
  (List.range count).flatMap (fun i => [(pp i).p2c.2,(pp i).c2p.1])

theorem kept_succ (pp : Nat → ProcPipes) (count : Nat) :
    kept pp (count+1) = kept pp count ++ [(pp count).p2c.2,(pp count).c2p.1] := by
  simp [kept,List.range_succ]

theorem kept_update (pp : Nat → ProcPipes) (pipes : ProcPipes) (count : Nat) :
    kept (Function.update pp count pipes) count = kept pp count := by
  apply List.flatMap_congr
  intro i member
  rw [Function.update_of_ne (Nat.ne_of_lt (List.mem_range.mp member))]

theorem entry_pipe (answer : Option (Fd × Fd)) : entry ⟨.pipe,answer⟩ = (ends answer).map .acquire := by
  rcases answer with none | ⟨readEnd,writeEnd⟩ <;> rfl

theorem closeKept_ledger (pipes : ProcPipes) (trace : Trace) (value : Unit)
    (runs : Runs (closeKept pipes) trace value) :
    ledger trace = [pipes.p2c.2,pipes.c2p.1].map .release := by
  obtain ⟨_,_,rfl,afterWriteEnd⟩ := (runs_request_bind _ _ _ _).mp runs
  obtain ⟨⟨_,rfl⟩,_⟩ := runs_last _ _ _ _ afterWriteEnd
  rfl

theorem closeIf_ledger (answer : Option (Fd × Fd)) (old : Fd × Fd) (trace : Trace) (value : Unit)
    (runs : Runs (closeIf answer.isSome (answer.getD old)) trace value) :
    ledger trace = (ends answer).map .release := by
  rcases answer with none | ⟨readEnd,writeEnd⟩
  · obtain ⟨rfl,_⟩ := (runs_pure _ _ _).mp runs
    rfl
  · obtain ⟨_,_,rfl,afterReadEnd⟩ := (runs_request_bind _ _ _ _).mp runs
    obtain ⟨⟨_,rfl⟩,_⟩ := runs_last _ _ _ _ afterReadEnd
    rfl

theorem kick_ledger (pipes : ProcPipes) (trace : Trace) (value : Unit) (runs : Runs (kick pipes) trace value) :
    ledger trace = [] := by
  obtain ⟨⟨_,rfl⟩,_⟩ := runs_last _ _ _ _ runs
  rfl

theorem collect_ledger (pipes : ProcPipes) (trace : Trace) (value : Unit)
    (runs : Runs (collect pipes) trace value) :
    ledger trace = [pipes.p2c.2,pipes.c2p.1].map .release := by
  obtain ⟨_,rest,rfl,closing⟩ := (runs_request_bind _ _ _ _).mp runs
  exact closeKept_ledger pipes rest value closing

/-- A loop that closes the two kept ends of every entry, as three loops do. -/
theorem closing_ledger (body : ProcPipes → Code Unit)
    (closes : ∀ pipes trace value, Runs (body pipes) trace value →
      ledger trace = [pipes.p2c.2,pipes.c2p.1].map .release)
    (pp : Nat → ProcPipes) (count : Nat) (trace : Trace) (value : Unit)
    (runs : Runs ((List.range count).forM (fun i => body (pp i))) trace value) :
    ledger trace = (kept pp count).map .release := by
  have each := runs_forM entry (fun i => body (pp i)) _ (fun i => closes (pp i)) _ _ _ runs
  rw [ledger,each,kept,List.map_flatMap]

theorem runs_freed (ending result : Ending) (trace : Trace)
    (runs : Runs (do ask .free; return ending) trace result) : ledger trace = [] ∧ result = ending := by
  obtain ⟨⟨_,rfl⟩,same⟩ := runs_last _ _ _ _ runs
  exact ⟨rfl,same⟩

theorem finish_ledger (procNum : Nat) (pp : Nat → ProcPipes) (trace : Trace) (ending : Ending)
    (runs : Runs (finish procNum pp) trace ending) :
    ledger trace = (kept pp procNum).map .release ∧ ending = .returned none := by
  obtain ⟨_,_,rfl,afterPid⟩ := (runs_request_bind _ _ _ _).mp runs
  obtain ⟨kicks,_,_,rfl,kicking,afterKicks⟩ := (runs_bind _ _ _ _).mp afterPid
  obtain ⟨_,_,rfl,afterText⟩ := (runs_request_bind _ _ _ _).mp afterKicks
  obtain ⟨collects,_,_,rfl,collecting,afterCollects⟩ := (runs_bind _ _ _ _).mp afterText
  obtain ⟨freed,same⟩ := runs_freed _ _ _ afterCollects
  have kicked : ledger kicks = [] := by
    have each := runs_forM entry (fun i => kick (pp i)) _ (fun i => kick_ledger (pp i)) _ _ _ kicking
    rw [ledger,each]
    simp
  have collected := closing_ledger collect collect_ledger pp procNum collects _ collecting
  refine ⟨?_,same⟩
  simp [kicked,collected,freed,entry]

theorem child_exits (pipes : ProcPipes) (trace : Trace) (msg : Msg) :
    ¬Runs (child pipes) trace (.returned msg) := by
  intro runs
  obtain ⟨_,_,_,rfl,_,afterClosing⟩ := (runs_bind _ _ _ _).mp runs
  obtain ⟨_,_,_,rfl,_,afterChildFn⟩ := (runs_bind _ _ _ _).mp afterClosing
  obtain ⟨_,_,rfl,afterReadEnd⟩ := (runs_request_bind _ _ _ _).mp afterChildFn
  obtain ⟨_,_,rfl,afterWriteEnd⟩ := (runs_request_bind _ _ _ _).mp afterReadEnd
  obtain ⟨_,same⟩ := runs_freed _ _ _ afterWriteEnd
  cases same

/-! The code behind the last pipe asks for no other one. -/

theorem closeKept_only (pipes : ProcPipes) : Only (· ≠ Request.pipe) (closeKept pipes) :=
  only_request_bind nofun fun _ => only_request_bind nofun fun _ => only_pure _

theorem collect_only (pipes : ProcPipes) : Only (· ≠ Request.pipe) (collect pipes) :=
  only_request_bind nofun fun _ => closeKept_only pipes

theorem freed_only (ending : Ending) : Only (· ≠ Request.pipe) (do ask .free; return ending) :=
  only_request_bind nofun fun _ => only_pure ending

theorem finish_only (procNum : Nat) (pp : Nat → ProcPipes) : Only (· ≠ Request.pipe) (finish procNum pp) :=
  only_request_bind nofun fun _ =>
    only_bind (only_forM (fun _ => only_request_bind nofun fun _ => only_pure _) _) fun _ =>
      only_request_bind nofun fun _ =>
        only_bind (only_forM (fun i => collect_only (pp i)) _) fun _ => freed_only _

theorem forkFailed_only (count : Nat) (pp : Nat → ProcPipes) (ending : Ending) :
    Only (· ≠ Request.pipe) (do
      (List.range count).forM (fun i => closeKept (pp i))
      ask .free
      return ending) :=
  only_bind (only_forM (fun i => closeKept_only (pp i)) _) fun _ => freed_only ending

/-- One pass of the label `forkone`, as the parent takes it. -/
inductive Round (procNum : Nat) (pp : Nat → ProcPipes) (forks : Nat) : Trace → Msg → Prop
  | pipeFailed (p2c c2p : Option (Fd × Fd)) (rest : Trace) (failed : p2c = none ∨ c2p = none)
      (closed : ledger rest = (kept pp forks ++ (ends p2c ++ ends c2p)).map .release) :
      Round procNum pp forks (⟨.pipe,p2c⟩ :: ⟨.pipe,c2p⟩ :: rest) (some "pipe open faild!!\n")
  | again (p2c c2p : Fd × Fd) (pid readEnd writeEnd : Int) (rest : Trace) (msg : Msg)
      (more : forks+1 < procNum)
      (runs : Runs (forkone procNum (Function.update pp forks ⟨p2c,c2p⟩) (forks+1)) rest (.returned msg)) :
      Round procNum pp forks (⟨.pipe,some p2c⟩ :: ⟨.pipe,some c2p⟩ :: ⟨.fork,pid⟩ ::
        ⟨.close p2c.1,readEnd⟩ :: ⟨.close c2p.2,writeEnd⟩ :: rest) msg
  | last (p2c c2p : Fd × Fd) (pid : Int) (rest : Trace) (msg : Msg)
      (closed : ledger rest = (kept pp forks ++ [p2c.2,c2p.1]).map .release)
      (unpiped : ∀ event ∈ rest, event.1 ≠ Request.pipe) :
      Round procNum pp forks (⟨.pipe,some p2c⟩ :: ⟨.pipe,some c2p⟩ :: ⟨.fork,pid⟩ :: rest) msg

theorem kept_with (pp : Nat → ProcPipes) (forks : Nat) (p2c c2p : Fd × Fd) :
    kept (Function.update pp forks ⟨p2c,c2p⟩) (forks+1) = kept pp forks ++ [p2c.2,c2p.1] := by
  rw [kept_succ,kept_update,Function.update_self]

theorem pipeFailed_round (procNum : Nat) (pp : Nat → ProcPipes) (forks : Nat) (p2c c2p : Option (Fd × Fd))
    (failed : p2c = none ∨ c2p = none) (trace : Trace) (msg : Msg)
    (runs : Runs (do
      (List.range forks).forM (fun i => closeKept (Function.update pp forks
        ⟨p2c.getD (pp forks).p2c,c2p.getD (pp forks).c2p⟩ i))
      closeIf p2c.isSome (p2c.getD (pp forks).p2c)
      closeIf c2p.isSome (c2p.getD (pp forks).c2p)
      ask .free
      return Ending.returned (some "pipe open faild!!\n")) trace (.returned msg)) :
    Round procNum pp forks (⟨.pipe,p2c⟩ :: ⟨.pipe,c2p⟩ :: trace) msg := by
  obtain ⟨closing,_,_,rfl,keptClosed,afterKept⟩ := (runs_bind _ _ _ _).mp runs
  obtain ⟨first,_,_,rfl,firstClosed,afterFirst⟩ := (runs_bind _ _ _ _).mp afterKept
  obtain ⟨second,_,_,rfl,secondClosed,afterSecond⟩ := (runs_bind _ _ _ _).mp afterFirst
  obtain ⟨freed,same⟩ := runs_freed _ _ _ afterSecond
  cases same
  apply Round.pipeFailed _ _ _ failed
  rw [ledger_append,ledger_append,ledger_append,freed,
    closing_ledger closeKept closeKept_ledger _ _ _ _ keptClosed,kept_update,
    closeIf_ledger p2c _ _ _ firstClosed,closeIf_ledger c2p _ _ _ secondClosed]
  simp

theorem forkone_round (procNum : Nat) (pp : Nat → ProcPipes) (forks : Nat) (inside : forks < procNum)
    (trace : Trace) (msg : Msg) (runs : Runs (forkone procNum pp forks) trace (.returned msg)) :
    Round procNum pp forks trace msg := by
  rw [forkone] at runs
  obtain ⟨p2c,_,rfl,afterP2c⟩ := (runs_request_bind _ _ _ _).mp runs
  obtain ⟨c2p,_,rfl,afterC2p⟩ := (runs_request_bind _ _ _ _).mp afterP2c
  match p2c, c2p with
  | none, c2p => exact pipeFailed_round procNum pp forks none c2p (.inl rfl) _ msg afterC2p
  | some p2c, none => exact pipeFailed_round procNum pp forks (some p2c) none (.inr rfl) _ msg afterC2p
  | some p2c, some c2p =>
    obtain ⟨pid,_,rfl,afterFork⟩ := (runs_request_bind _ _ _ _).mp afterC2p
    by_cases isChild : (pid : Int) = 0
    · rw [if_pos isChild] at afterFork
      exact absurd afterFork (child_exits _ _ _)
    rw [if_neg isChild] at afterFork
    by_cases again : (pid : Int) ≠ -1 ∧ forks+1 < procNum
    · rw [dif_pos again] at afterFork
      obtain ⟨_,_,rfl,afterReadEnd⟩ := (runs_request_bind _ _ _ _).mp afterFork
      obtain ⟨_,_,rfl,afterWriteEnd⟩ := (runs_request_bind _ _ _ _).mp afterReadEnd
      exact .again p2c c2p pid _ _ _ msg again.2 afterWriteEnd
    rw [dif_neg again] at afterFork
    by_cases failed : (pid : Int) < 0
    · rw [if_pos failed] at afterFork
      have unpiped := afterFork.only (forkFailed_only _ _ _)
      obtain ⟨closing,_,_,rfl,keptClosed,afterKept⟩ := (runs_bind _ _ _ _).mp afterFork
      obtain ⟨freed,same⟩ := runs_freed _ _ _ afterKept
      cases same
      refine .last p2c c2p pid _ _ ?_ unpiped
      rw [ledger_append,freed,List.append_nil,
        closing_ledger closeKept closeKept_ledger _ _ _ _ keptClosed]
      exact congrArg _ (kept_with pp forks p2c c2p)
    · rw [if_neg failed] at afterFork
      have forked : (pid : Int) ≠ -1 := by
        intro minus
        exact failed (by rw [minus]; decide)
      have count : procNum = forks+1 := by
        have whole : ¬forks+1 < procNum := fun more => again ⟨forked,more⟩
        omega
      obtain ⟨closed,same⟩ := finish_ledger _ _ _ _ afterFork
      refine .last p2c c2p pid _ _ ?_ (afterFork.only (finish_only _ _))
      rw [closed,count]
      exact congrArg _ (kept_with pp forks p2c c2p)

/-- The descriptors that the test holds, each one once, among those that are open. -/
structure Held (table : Fd → Bool) (held : List Fd) : Prop where
  distinct : held.Nodup
  isOpen : ∀ fd ∈ held, table fd = true

theorem pipe_held (table : Fd → Bool) (answer : Option (Fd × Fd)) (rest : Trace) (held : List Fd)
    (holds : Held table held) (fresh : Fresh table (⟨.pipe,answer⟩ :: rest)) :
    ∃ next, Held next (held ++ ends answer) ∧ Fresh next rest := by
  obtain ⟨unused,later⟩ := fresh
  refine ⟨_,?_,later⟩
  rcases answer with none | ⟨readEnd,writeEnd⟩
  · simpa [ends,opened] using holds
  · obtain ⟨apart,readFree,writeFree⟩ := unused
    have new : ∀ fd ∈ held, fd ≠ readEnd ∧ fd ≠ writeEnd := by
      intro fd member
      have used := holds.isOpen fd member
      constructor
      · rintro rfl
        rw [readFree] at used
        contradiction
      · rintro rfl
        rw [writeFree] at used
        contradiction
    constructor
    · refine List.nodup_append.mpr ⟨holds.distinct,by simp [ends,apart],?_⟩
      intro fd member other joined same
      subst same
      obtain ⟨notRead,notWrite⟩ := new fd member
      simp [ends,notRead,notWrite] at joined
    · intro fd member
      simp only [opened,Function.update_apply]
      split
      · rfl
      · split
        · rfl
        · rename_i notWrite notRead
          rcases List.mem_append.mp member with old | joined
          · exact holds.isOpen fd old
          · simp [ends,notRead,notWrite] at joined

theorem close_held (table : Fd → Bool) (fd : Fd) (ret : Int) (rest : Trace) (held stay : List Fd)
    (holds : Held table held) (parts : held.Perm (fd :: stay))
    (fresh : Fresh table (⟨.close fd,ret⟩ :: rest)) :
    ∃ next, Held next stay ∧ Fresh next rest := by
  obtain ⟨absent,distinct⟩ := List.nodup_cons.mp (parts.nodup_iff.mp holds.distinct)
  refine ⟨_,⟨distinct,?_⟩,fresh.2⟩
  intro other member
  simp only [opened]
  rw [Function.update_of_ne (ne_of_mem_of_not_mem member absent)]
  exact holds.isOpen other (parts.mem_iff.mpr (List.mem_cons_of_mem _ member))

theorem ends_parts (held : List Fd) (p2c c2p : Fd × Fd) :
    (held ++ ends (some p2c) ++ ends (some c2p)).Perm ((held ++ [p2c.2,c2p.1]) ++ [p2c.1,c2p.2]) := by
  rw [List.perm_iff_count]
  intro fd
  simp only [ends,List.count_append,List.count_cons,List.count_nil]
  omega

theorem pipes_played (table : Fd → Bool) (p2c c2p : Option (Fd × Fd)) (rest : Trace) (held : List Fd)
    (holds : Held table held) (fresh : Fresh table (⟨.pipe,p2c⟩ :: ⟨.pipe,c2p⟩ :: rest)) :
    ∃ next, Held next (held ++ ends p2c ++ ends c2p) ∧ Fresh next rest ∧
      play (ledger (⟨.pipe,p2c⟩ :: ⟨.pipe,c2p⟩ :: rest)) (holding held) =
        play (ledger rest) (holding (held ++ ends p2c ++ ends c2p)) := by
  obtain ⟨_,first,freshFirst⟩ := pipe_held table p2c _ _ holds fresh
  obtain ⟨next,second,freshSecond⟩ := pipe_held _ c2p _ _ first freshFirst
  refine ⟨next,second,freshSecond,?_⟩
  rw [ledger_cons,ledger_cons,entry_pipe,entry_pipe,play_append,play_acquire_more _ _ first.distinct,
    Option.bind_some,play_append,play_acquire_more _ _ second.distinct,Option.bind_some]

/-- Exactly when no pipe fails, the read end of the last `p2c` and the write end of the
last `c2p` stay open in the parent. -/
theorem forkone_leaves (procNum : Nat) (pp : Nat → ProcPipes) (forks : Nat) (inside : forks < procNum)
    (table : Fd → Bool) (trace : Trace) (msg : Msg)
    (runs : Runs (forkone procNum pp forks) trace (.returned msg))
    (holds : Held table (kept pp forks)) (fresh : Fresh table trace) :
    ∃ left, play (ledger trace) (holding (kept pp forks)) = some (holding left) ∧
      (left = [] ↔ ⟨.pipe,(none : Option (Fd × Fd))⟩ ∈ trace) := by
  -- on the number of children that are still to come
  induction rounds : procNum - forks generalizing pp forks table trace with
  | zero => omega
  | succ rounds ih =>
    cases forkone_round procNum pp forks inside trace msg runs with
    | pipeFailed p2c c2p rest failed closed =>
      obtain ⟨_,piped,_,played⟩ := pipes_played table p2c c2p rest _ holds fresh
      refine ⟨[],?_,iff_of_true rfl ?_⟩
      rotate_left
      · rcases failed with rfl | rfl <;> simp
      rw [played,closed]
      exact play_release_some _ _ [] piped.distinct (by simp)
    | again p2c c2p pid readEnd writeEnd rest _ more runs =>
      obtain ⟨_,piped,freshPiped,played⟩ := pipes_played table (some p2c) (some c2p) _ _ holds fresh
      have parts := (ends_parts (kept pp forks) p2c c2p).trans List.perm_append_comm
      obtain ⟨_,one,freshOne⟩ := close_held _ _ _ _ _ _ piped parts freshPiped.2
      obtain ⟨_,two,freshTwo⟩ := close_held _ _ _ _ _ _ one (.refl _) freshOne
      rw [← kept_with] at two parts
      obtain ⟨left,later,settled⟩ := ih _ (forks+1) more _ rest runs two freshTwo (by omega)
      refine ⟨left,?_,by simpa using settled⟩
      rw [played]
      change play ([p2c.1,c2p.2].map .release ++ ledger rest) _ = _
      rw [play_append,play_release_some _ _ _ piped.distinct parts,Option.bind_some,later]
    | last p2c c2p pid rest _ closed unpiped =>
      obtain ⟨_,piped,_,played⟩ := pipes_played table (some p2c) (some c2p) _ _ holds fresh
      have absent : ⟨.pipe,(none : Option (Fd × Fd))⟩ ∉ rest := fun member => unpiped _ member rfl
      refine ⟨[p2c.1,c2p.2],?_,by simp [absent]⟩
      rw [played,ledger_cons,closed]
      exact play_release_some _ _ _ piped.distinct (ends_parts _ p2c c2p)

/-- The arguments or the first answers end the test before it asks for a pipe. -/
inductive Refused : Option Args → Trace → Prop
  | noArgs (trace) : Refused none trace
  | procNum (args) (trace) (few : args.procNum ≤ 0) : Refused (some args) trace
  | cpuNum (args) (trace) (few : args.cpuNum ≤ 0) : Refused (some args) trace
  | hardLimit (args : Args) (rlimMax : BitVec 64) (rest : Trace)
      (low : ¬BitVec.ofInt 64 args.cpuNum ≤ rlimMax) : Refused (some args) (⟨.getrlimit,rlimMax⟩ :: rest)
  | setrlimit (args) (rlimMax rlimCur : BitVec 64) (ret : Int) (rest : Trace) (failed : ret ≠ 0) :
      Refused (some args) (⟨.getrlimit,rlimMax⟩ :: ⟨.setrlimit rlimCur rlimMax,ret⟩ :: rest)
  | calloc (args) (rlimMax rlimCur : BitVec 64) (count : Nat) (ret : Int) (rest : Trace) :
      Refused (some args) (⟨.getrlimit,rlimMax⟩ :: ⟨.setrlimit rlimCur rlimMax,ret⟩ ::
        ⟨.calloc count,false⟩ :: rest)

theorem runFunc_cases (tcArg : Option Args) (trace : Trace) (msg : Msg)
    (runs : Runs (runFunc tcArg) trace (.returned msg)) :
    (Refused tcArg trace ∧ ledger trace = []) ∨
      ¬Refused tcArg trace ∧ ∃ procNum rlimMax rlimCur rest, 0 < procNum ∧
        trace = ⟨.getrlimit,rlimMax⟩ :: ⟨.setrlimit rlimCur rlimMax,(0 : Int)⟩ :: ⟨.calloc procNum,true⟩ :: rest ∧
        Runs (forkone procNum (fun _ => ⟨(0,0),(0,0)⟩) 0) rest (.returned msg) := by
  match tcArg with
  | none =>
    obtain ⟨rfl,_⟩ := (runs_pure _ _ _).mp runs
    exact .inl ⟨.noArgs _,rfl⟩
  | some args =>
    rcases runs_check _ _ _ _ _ runs with ⟨noProcs,rfl,_⟩ | ⟨procs,someProcs⟩
    · exact .inl ⟨.procNum _ _ (by omega),rfl⟩
    rcases runs_check _ _ _ _ _ someProcs with ⟨noCpus,rfl,_⟩ | ⟨cpus,someCpus⟩
    · exact .inl ⟨.cpuNum _ _ (by omega),rfl⟩
    obtain ⟨rlimMax,_,rfl,afterLimit⟩ := (runs_request_bind _ _ _ _).mp someCpus
    rcases runs_check _ _ _ _ _ afterLimit with ⟨low,rfl,_⟩ | ⟨enough,fits⟩
    · exact .inl ⟨.hardLimit _ _ _ low,rfl⟩
    obtain ⟨set,_,rfl,afterSet⟩ := (runs_request_bind _ _ _ _).mp fits
    rcases runs_check _ _ _ _ _ afterSet with ⟨unset,rfl,_⟩ | ⟨isSet,sets⟩
    · exact .inl ⟨.setrlimit _ _ _ _ _ unset,rfl⟩
    obtain rfl : (set : Int) = 0 := not_not.mp isSet
    obtain ⟨allocated,rest,rfl,afterCalloc⟩ := (runs_request_bind _ _ _ _).mp sets
    match allocated with
    | false =>
      obtain ⟨rfl,_⟩ := (runs_pure _ _ _).mp afterCalloc
      exact .inl ⟨.calloc _ _ _ _ _ _,rfl⟩
    | true =>
      refine .inr ⟨?_,_,rlimMax,_,rest,by omega,rfl,afterCalloc⟩
      intro refused
      cases refused with
      | procNum _ _ few => exact procs (by omega)
      | cpuNum _ _ few => exact cpus (by omega)
      | hardLimit _ _ _ low => exact enough low
      | setrlimit _ _ _ _ _ failed => exact failed rfl

/-- Every descriptor of a pipe is closed exactly once and no other one is, if and only
if a pipe fails or the test ends before the first one: otherwise two ends of the last
child's pipes stay open. -/
theorem descriptors_closed_iff (tcArg : Option Args) (table : Fd → Bool) (trace : Trace) (msg : Msg)
    (runs : Runs (runFunc tcArg) trace (.returned msg)) (fresh : Fresh table trace) :
    Settled (ledger trace) ↔ Refused tcArg trace ∨ ⟨.pipe,(none : Option (Fd × Fd))⟩ ∈ trace := by
  rcases runFunc_cases tcArg trace msg runs with
    ⟨refused,nothing⟩ | ⟨goesOn,procNum,_,_,rest,positive,rfl,forking⟩
  · rw [nothing]
    exact iff_of_true rfl (.inl refused)
  · have none : Held table (kept (fun _ => ⟨(0,0),(0,0)⟩) 0) := ⟨List.nodup_nil,by simp [kept]⟩
    obtain ⟨left,played,settled⟩ := forkone_leaves procNum _ 0 positive table rest msg forking none fresh.2.2.2
    have closed := (settled_iff _ left played).trans settled
    refine closed.trans ?_
    simp [goesOn]

def secondPipeFails : Trace :=
  [⟨.getrlimit,8⟩,⟨.setrlimit 4 8,(0 : Int)⟩,⟨.calloc 1,true⟩,⟨.pipe,some (3,4)⟩,⟨.pipe,none⟩,
    ⟨.close 3,(0 : Int)⟩,⟨.close 4,(0 : Int)⟩,⟨.free,()⟩]

theorem descriptors_closed_iff_pipe :
    Runs (runFunc (some ⟨1,4⟩)) secondPipeFails (.returned (some "pipe open faild!!\n")) ∧
      Fresh (fun fd => fd ∈ [0,1,2]) secondPipeFails ∧ Settled (ledger secondPipeFails) := by
  have runs : Runs (runFunc (some ⟨1,4⟩)) secondPipeFails (.returned (some "pipe open faild!!\n")) := by
    refine .call _ _ _ _ _ (.call _ _ _ _ _ (.call _ _ _ _ _ ?_))
    dsimp only
    rw [forkone]
    exact .call _ _ _ _ _ (.call _ _ _ _ _ (.call _ _ _ _ _ (.call _ _ _ _ _ (.call _ _ _ _ _ (.ret _)))))
  have fresh : Fresh (fun fd => fd ∈ [0,1,2]) secondPipeFails := by
    simp [Fresh,Unused,opened,secondPipeFails]
  exact ⟨runs,fresh,(descriptors_closed_iff _ _ _ _ runs fresh).mpr (.inr (by simp [secondPipeFails]))⟩

def oneChild : Trace :=
  [⟨.getrlimit,8⟩,⟨.setrlimit 4 8,(0 : Int)⟩,⟨.calloc 1,true⟩,⟨.pipe,some (3,4)⟩,⟨.pipe,some (5,6)⟩,
    ⟨.fork,(100 : Int)⟩,⟨.getpid,(99 : Int)⟩,⟨.write 4 "1234567890" 17,(17 : Int)⟩,
    ⟨.printf "Wait children's process will be finished. (about 100msec...)\n",()⟩,
    ⟨.read 5 16,(16 : Int)⟩,⟨.close 4,(0 : Int)⟩,⟨.close 5,(0 : Int)⟩,⟨.free,()⟩]

/-- The test succeeds, and nobody has closed the descriptors 3 and 6. -/
theorem two_descriptors_left :
    Runs (runFunc (some ⟨1,4⟩)) oneChild (.returned none) ∧ Fresh (fun fd => fd ∈ [0,1,2]) oneChild ∧
      ledger oneChild = [.acquire 3,.acquire 4,.acquire 5,.acquire 6,.release 4,.release 5] ∧
      ¬Settled (ledger oneChild) := by
  refine ⟨?_,by simp [Fresh,Unused,opened,oneChild],rfl,?_⟩
  · refine .call _ _ _ _ _ (.call _ _ _ _ _ (.call _ _ _ _ _ ?_))
    dsimp only
    rw [forkone]
    exact .call _ _ _ _ _ (.call _ _ _ _ _ (.call _ _ _ _ _ (.call _ _ _ _ _ (.call _ _ _ _ _
      (.call _ _ _ _ _ (.call _ _ _ _ _ (.call _ _ _ _ _ (.call _ _ _ _ _ (.call _ _ _ _ _ (.ret _))))))))))
  · intro settled
    have third := congrArg (Option.map (fun held => held 3)) settled
    have held : (play (ledger oneChild) (fun _ => false)).map (fun held => held 3) = some true := rfl
    rw [held] at third
    contradiction

end Ostest.TestMck.CpuProcLimits
