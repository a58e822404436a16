import Mathlib.Data.Fintype.Basic
import Ostest.Lib.Decimal
import Ostest.Lib.Threads
import Ostest.Lib.WaitStatus

/-! Test sched_setaffinity/010: two children spin until a signal of the parent
releases them, and the parent moves the second one to the CPU of the first. -/
namespace Ostest.TestMck.SchedSetaffinity
open Lib.Calls Lib.Runs Lib.Threads Lib.WaitStatus

inductive Child where
  | one
  | two
  deriving DecidableEq

inductive Party where
  | child (c : Child)
  | parent
  deriving DecidableEq

instance : Fintype Party :=
  ⟨{.child .one,.child .two,.parent},fun who => by rcases who with (_ | _) | _ <;> simp⟩

inductive Line where
  | before (c : Child) (pid cpu : Int)
  | floats (c : Child) (pid : Int)
  | after (c : Child) (pid cpu : Int)
  | pleaseCheck
  deriving DecidableEq

def showInt (n : Int) : String := String.ofList (Lib.Decimal.integer n)

def Child.name : Child → String
  | .one => "child1"
  | .two => "child2"

def Line.text : Line → String
  | .before c pid cpu =>
    "==[" ++ c.name ++ ":" ++ showInt pid ++ " on cpu" ++ showInt cpu ++ "] before migrate==\n"
  | .floats .one pid =>
    "[pid:" ++ showInt pid ++ "] f0 = 3.140000, f1 = 42.195000, f2 = 53.849998, f3 = 909.908997\n"
  | .floats .two pid =>
    "[pid:" ++ showInt pid ++ "] f0 = 6.280000, f1 = 84.390999, f2 = 106.161003, f3 = 99.999901\n"
  | .after c pid cpu =>
    "==[" ++ c.name ++ ":" ++ showInt pid ++ " on cpu" ++ showInt cpu ++ "] after migrate==\n"
  | .pleaseCheck => "==Please check migrated child process keep datas==\n"

inductive Message where
  | mandatory
  | pipeFailed
  | fork1Failed
  | fork2Failed
  | setpgid1Failed
  | setpgid2Failed
  | allocFailed
  | affinityFailed
  deriving DecidableEq

def Message.text : Message → String
  | .mandatory => "mandatory parameter '-p <num_of_cpus>'"
  | .pipeFailed => "make pipe failed"
  | .fork1Failed => "child 1 fork() Failed."
  | .fork2Failed => "child 2 fork() Failed."
  | .setpgid1Failed => "[parent] setpgid to child1 faild."
  | .setpgid2Failed => "[parent] setpgid child2 faild."
  | .allocFailed => "(child process) alloc failed."
  | .affinityFailed => "sched_setaffinity failed from to process."

abbrev Msg := Option Message

inductive Signal where
  | sigusr1
  | sigkill
  deriving DecidableEq

/-- A process, or with a negative number the group that a child leads. -/
inductive Target where
  | process (c : Child)
  | group (leader : Child)

inductive Request where
  | sigaction
  | pipe
  | fork (c : Child)
  /-- The child comes into being. -/
  | begin (c : Child)
  | getpid
  | getCpuId
  | printf (line : Line)
  | write (cpu : Int)
  | read
  | close
  | setpgid (c leader : Child)
  | cpuAlloc
  | cpuFree
  | kill (target : Target) (signal : Signal)
  /-- `kill(getppid(), SIGUSR2)` -/
  | killParent
  /-- The loop until the count of the process is not 0. -/
  | spin
  | clearCount
  | schedSetaffinity (c : Child) (cpu : Int)
  | waitpid (c : Child)
  | exit

/-- fork and CPU_ALLOC are answered by whether they succeed. -/
abbrev Request.Answer : Request → Type
  | .pipe | .getpid | .getCpuId | .read | .setpgid _ _ | .schedSetaffinity _ _ => Int
  | .fork _ | .cpuAlloc => Bool
  | _ => Unit

abbrev Code := Prog Request Request.Answer

def ask (asked : Request) : Code asked.Answer := request asked

def say (line : Line) : Code PUnit := do
  let _ ← ask (.printf line)
  return

def child1 : Code Unit := do
  let _ ← ask (.begin .one)
  let curPid ← ask .getpid
  let _ ← ask .sigaction
  let cpu ← ask .getCpuId
  say (.before .one curPid cpu)
  say (.floats .one curPid)
  let curCpu ← ask .getCpuId
  let _ ← ask (.write curCpu)
  let _ ← ask .spin
  let cpu ← ask .getCpuId
  say (.after .one curPid cpu)
  say (.floats .one curPid)
  let _ ← ask .close
  let _ ← ask .close
  let _ ← ask .exit
  return

def child2 : Code Unit := do
  let _ ← ask (.begin .two)
  let curPid ← ask .getpid
  let _ ← ask .sigaction
  let cpu ← ask .getCpuId
  say (.before .two curPid cpu)
  say (.floats .two curPid)
  let _ ← ask .killParent
  let _ ← ask .spin
  let cpu ← ask .getCpuId
  say (.after .two curPid cpu)
  say (.floats .two curPid)
  let _ ← ask .exit
  return

def killBoth (message : Message) : Code Msg := do
  let _ ← ask (.kill (.process .one) .sigkill)
  let _ ← ask (.kill (.process .two) .sigkill)
  return some message

/-- RUN_FUNC from the wait for the second child on. -/
def migrate (cpuidChild1 : Int) : Code Msg := do
  let _ ← ask .spin
  let _ ← ask .clearCount
  let result ← ask (.schedSetaffinity .two cpuidChild1)
  let _ ← ask .cpuFree
  if result = -1 then
    let _ ← ask (.kill (.group .two) .sigusr1)
    return some .affinityFailed
  else
    let _ ← ask (.kill (.process .two) .sigusr1)
    let _ ← ask (.kill (.process .one) .sigusr1)
    let _ ← ask (.waitpid .one)
    let _ ← ask (.waitpid .two)
    let _ ← ask (.printf .pleaseCheck)
    return none

def regroup (cpuidChild1 : Int) : Code Msg := do
  let result ← ask (.setpgid .one .one)
  if result = -1 then killBoth .setpgid1Failed
  else
    let result ← ask (.setpgid .two .one)
    if result = -1 then killBoth .setpgid2Failed
    else
      let cpusetpChild ← ask .cpuAlloc
      if cpusetpChild then migrate cpuidChild1 else return some .allocFailed

def runFunc (numOfCpus : Int) : Code Msg :=
  if numOfCpus = 0 then return some .mandatory
  else do
    let _ ← ask .sigaction
    let result ← ask .pipe
    if result = -1 then return some .pipeFailed
    else
      let childPid1 ← ask (.fork .one)
      if childPid1 then
        let cpuidChild1 ← ask .read
        let _ ← ask .close
        let _ ← ask .close
        let childPid2 ← ask (.fork .two)
        if childPid2 then regroup cpuidChild1
        else
          let _ ← ask (.kill (.process .one) .sigusr1)
          return some .fork2Failed
      else return some .fork1Failed

/-! The kernel. -/

structure Sync where
  forked : Child → Bool
  told : Option Int
  handler : Child → Bool
  /-- The child that leads a child's group; at first it is the parent's group. -/
  group : Child → Option Child
  count : Child → Nat
  parentCount : Nat
  /-- Whether SIGUSR2 has ever been sent. -/
  raised : Bool
  affinity : Option Int
  ended : Child → Option Report

structure Shared extends Sync where
  output : List Line

def sigusr1Number : Lib.WaitStatus.Signal := ⟨10,by decide⟩

/-- The handlers of the children are gone after one signal (SA_RESETHAND). -/
def deliver (signal : Signal) (s : Sync) (c : Child) : Sync :=
  if (s.ended c).isSome then s
  else
    match signal with
    | .sigkill => {s with ended := Function.update s.ended c (some (.signaled sigkill false))}
    | .sigusr1 =>
      if s.handler c then {s with
        count := Function.update s.count c (s.count c+1)
        handler := Function.update s.handler c false}
      else {s with ended := Function.update s.ended c (some (.signaled sigusr1Number false))}

def kill (s : Sync) (target : Target) (signal : Signal) : Sync :=
  match target with
  | .process c => deliver signal s c
  | .group leader => ([.one,.two].filter (fun c => s.forked c && s.group c == some leader)).foldl (deliver signal) s

def Sync.alive (s : Sync) : Party → Bool
  | .child c => (s.ended c).isNone
  | .parent => true

/-- The count that a process waits for. -/
def Sync.counted (s : Sync) : Party → Nat
  | .child c => s.count c
  | .parent => s.parentCount

def respond (who : Party) (s : Shared) : (asked : Request) → asked.Answer → Option Shared
  | .sigaction, _ =>
    match who with
    | .child c => some {s with handler := Function.update s.handler c true}
    | .parent => some s
  | .fork c, done => some {s with forked := Function.update s.forked c done}
  | .begin c, _ => if s.forked c then some s else none
  | .printf line, _ => some {s with output := s.output ++ [line]}
  | .write cpu, _ => some {s with told := some cpu}
  | .read, cpu => if s.told = some cpu then some s else none
  | .setpgid c leader, ret =>
    some (if ret = -1 then s else {s with group := Function.update s.group c (some leader)})
  | .kill target signal, _ => some {s with toSync := kill s.toSync target signal}
  | .killParent, _ => some {s with parentCount := s.parentCount+1,raised := true}
  | .spin, _ => if s.counted who ≠ 0 then some s else none
  | .clearCount, _ => some {s with parentCount := 0}
  | .schedSetaffinity _ cpu, ret => some (if ret = -1 then s else {s with affinity := some cpu})
  | .waitpid c, _ => if (s.ended c).isSome then some s else none
  | .exit, _ =>
    match who with
    | .child c => some {s with ended := Function.update s.ended c (some (.exited 0))}
    | .parent => none
  | .pipe, _ | .getpid, _ | .getCpuId, _ | .close, _ | .cpuAlloc, _ | .cpuFree, _ => some s

/-- A process that has ended makes no more calls. -/
def serve (who : Party) (s : Shared) (asked : Request) (reply : asked.Answer) : Option Shared :=
  if s.alive who then respond who s asked reply else none

abbrev Value : Party → Type
  | .child _ => Unit
  | .parent => Msg

abbrev System := World Party Request.Answer Value Shared

def start (numOfCpus : Int) : System where
  progs
    | .child .one => child1
    | .child .two => child2
    | .parent => runFunc numOfCpus
  shared := {
    forked := fun _ => false, told := none, handler := fun _ => false, group := fun _ => none
    count := fun _ => 0, parentCount := 0, raised := false, affinity := none, ended := fun _ => none
    output := []}

instance (asked : Request) : Inhabited asked.Answer := by
  cases asked <;> exact inferInstance

end Ostest.TestMck.SchedSetaffinity
