import Mathlib.Data.Fintype.Basic
import Ostest.Lib.Threads
import Ostest.Lib.WaitStatus

/-! Test time_sharing/000: a child that is bound to the core of its parent, and
the two taking turns. What they print stays in the buffer of the process until it
is flushed; main has flushed what it printed before. -/
namespace Ostest.TestMck.TimeSharing
open Lib.Calls Lib.Runs Lib.Threads Lib.WaitStatus

inductive Party where
  | child
  | parent
  deriving DecidableEq

instance : Fintype Party := ⟨{.child,.parent},fun who => by cases who <;> simp⟩

inductive Sem where
  | syncSem1
  | syncSem2
  deriving DecidableEq

inductive Cell where
  | parentCore
  | runningFlag
  deriving DecidableEq

inductive Region where
  | sem (sem : Sem)
  | cell (cell : Cell)
  deriving DecidableEq

inductive Message where
  | mmapFailed
  | forkFailed
  | childNotBound
  | parentNotBound
  | childFailed
  | waitFailed
  | checkRunOrder
  deriving DecidableEq

def Message.text : Message → String
  | .mmapFailed => "mmap() Failed."
  | .forkFailed => "fork() Failed."
  | .childNotBound => "child migrate/bind sched_setaffinity failed."
  | .parentNotBound => "parent bind sched_setaffinity failed."
  | .childFailed => "TP failed, child migrate fail."
  | .waitFailed => "TP failed, child process wait() fail."
  | .checkRunOrder => "check run order, [child] -> [parent] -> [child] -> [parent] -> ..."

inductive Line where
  | running (who : Party) (core : Int)
  | migrating (core : Int)
  | binding (core : Int)
  | errno (number : Int)
  | moved (oldMycore newMycore : Int)
  | notMigrated
  | notRequired
  | loop (who : Party) (count : Nat)
  | result (message : Option Message)
  deriving DecidableEq

inductive Request where
  | mmap (region : Region)
  | semInit (sem : Sem)
  | fork
  /-- The child comes into being. -/
  | begin
  | schedGetcpu
  | printf (line : Line)
  | fflush
  | semPost (sem : Sem)
  | semWait (sem : Sem)
  | load (cell : Cell)
  | store (cell : Cell) (value : Int)
  /-- A loop that reads `*running_flag` until it has the value. -/
  | spin (value : Int)
  | schedSetaffinity (pid core : Int)
  | errno
  | wait
  | exit (code : BitVec 8)
  /-- `_exit`, which leaves the buffer unwritten. -/
  | exitNow (code : BitVec 8)

abbrev Word := BitVec 64

def mapFailed : Word := BitVec.allOnes 64

/-- wait is answered by the process and what is reported about it. -/
abbrev Request.Answer : Request → Type
  | .mmap _ => Word
  | .fork | .schedGetcpu | .load _ | .schedSetaffinity _ _ | .errno => Int
  | .wait => Int × Report
  | _ => Unit

abbrev Code := Prog Request Request.Answer

def ask (asked : Request) : Code asked.Answer := request asked

abbrev Msg := Option Message

/-- Five rounds of a party whose turn it is while the flag is `mine`. -/
def rounds (who : Party) (mine next : Int) : Code PUnit := (List.range 5).forM fun i => do
  let _ ← ask (.spin mine)
  let _ ← ask (.printf (.loop who i))
  let _ ← ask .fflush
  let _ ← ask (.store .runningFlag next)
  return

def childFunc : Code PUnit := rounds .child 1 2

def parentFunc : Code PUnit := rounds .parent 2 1

/-- The child behind `fork()`, from `child_func` on. -/
def childLoop : Code Unit := do
  childFunc
  let _ ← ask (.exit 0)
  return

def child : Code Unit := do
  let _ ← ask .begin
  let oldMycore ← ask .schedGetcpu
  let _ ← ask (.printf (.running .child oldMycore))
  let _ ← ask (.semPost .syncSem1)
  let _ ← ask (.semWait .syncSem2)
  let newMycore ← ask .schedGetcpu
  let parentCore ← ask (.load .parentCore)
  if parentCore ≠ oldMycore then
    let _ ← ask (.printf (.moved oldMycore newMycore))
    if oldMycore = newMycore then
      let _ ← ask (.printf .notMigrated)
      let _ ← ask (.exitNow 255)
      return
    else childLoop
  else
    let _ ← ask (.printf .notRequired)
    childLoop

/-- The end of RUN_FUNC in the parent. -/
def waitChild (pid : Int) : Code Msg := do
  let (retPid,status) ← ask .wait
  if retPid = pid then
    if wifexited status.status ∧ wexitstatus status.status ≠ 0 then
      return some .childFailed
    else return some .checkRunOrder
  else return some .waitFailed

/-- A failed `sched_setaffinity`. -/
def affinityFailed (message : Message) : Code Msg := do
  let number ← ask .errno
  let _ ← ask (.printf (.errno number))
  return some message

/-- The parent from where it has stored its core. -/
def bindBoth (pid : Int) : Code Msg := do
  let core ← ask (.load .parentCore)
  let _ ← ask (.printf (.running .parent core))
  let core ← ask (.load .parentCore)
  let _ ← ask (.printf (.migrating core))
  let core ← ask (.load .parentCore)
  let result ← ask (.schedSetaffinity pid core)
  if result = -1 then affinityFailed .childNotBound
  else
    let core ← ask (.load .parentCore)
    let _ ← ask (.printf (.binding core))
    let result ← ask (.schedSetaffinity 0 core)
    if result = -1 then affinityFailed .parentNotBound
    else
      let _ ← ask (.semPost .syncSem2)
      parentFunc
      waitChild pid

/-- The parent behind `fork()`. -/
def lead (pid : Int) : Code Msg := do
  let _ ← ask (.semWait .syncSem1)
  let core ← ask .schedGetcpu
  let _ ← ask (.store .parentCore core)
  bindBoth pid

/-- RUN_FUNC from where the semaphores are set. -/
def takeTurns : Code Msg := do
  let _ ← ask (.store .runningFlag 1)
  let pid ← ask .fork
  if pid = -1 then return some .forkFailed
  else lead pid

/-- RUN_FUNC, which asks whether the addresses are null. -/
def runFunc (syncSem1 syncSem2 parentCore : Word) : Code Msg := do
  if ¬(syncSem1 ≠ 0 ∧ syncSem2 ≠ 0 ∧ parentCore ≠ 0) then return some .mmapFailed
  let _ ← ask (.semInit .syncSem1)
  let _ ← ask (.semInit .syncSem2)
  takeTurns

/-- SETUP_FUNC, and the run of the case. -/
def setUpAndRun : Code Msg := do
  let syncSem1 ← ask (.mmap (.sem .syncSem1))
  let syncSem2 ← ask (.mmap (.sem .syncSem2))
  let parentCore ← ask (.mmap (.cell .parentCore))
  let _ ← ask (.mmap (.cell .runningFlag))
  runFunc syncSem1 syncSem2 parentCore

/-- `main` of test_mck from the setup of the case on. -/
def main : Code Msg := do
  let result ← setUpAndRun
  let _ ← ask (.printf (.result result))
  let _ ← ask (.exit (if result.isSome then 1 else 0))
  return result

/-- The value of a semaphore is the number of its posts less that of the waits
that have returned. -/
structure Shared where
  mapped : Region → Bool
  posts : Sem → Nat
  waits : Sem → Nat
  cells : Cell → Int
  childPid : Option Int
  ended : Party → Option Report
  buffers : Party → List Line
  record : List Line

def Shared.flush (s : Shared) (who : Party) : Shared :=
  {s with buffers := Function.update s.buffers who [], record := s.record ++ s.buffers who}

def Shared.finish (s : Shared) (who : Party) (code : BitVec 8) : Shared :=
  {s with ended := Function.update s.ended who (some (.exited code))}

/-- init.sh has set the limit for core files to 0. -/
def crashed : Report := .signaled sigsegv false

/-- The memory that a call has to do with. -/
def touched : Request → Option Region
  | .semInit sem | .semPost sem | .semWait sem => some (.sem sem)
  | .load cell | .store cell _ => some (.cell cell)
  | .spin _ => some (.cell .runningFlag)
  | _ => none

/-- How a call is answered. The kernel is free in what it maps, in where it runs a
process, and in whether it lets itself be told. -/
def respond (who : Party) (s : Shared) : (asked : Request) → asked.Answer → Option Shared
  | .mmap region, reply => some {s with mapped := Function.update s.mapped region (reply != mapFailed)}
  | .semInit sem, _ =>
    some {s with posts := Function.update s.posts sem 0,waits := Function.update s.waits sem 0}
  | .fork, reply =>
    if reply = -1 then some s
    else if 0 < reply then some {s with childPid := some reply}
    else none
  | .begin, _ => if s.childPid.isSome then some s else none
  | .schedGetcpu, _ => some s
  | .printf line, _ => some {s with buffers := Function.update s.buffers who (s.buffers who ++ [line])}
  | .fflush, _ => some (s.flush who)
  | .semPost sem, _ => some {s with posts := Function.update s.posts sem (s.posts sem+1)}
  | .semWait sem, _ =>
    if s.waits sem < s.posts sem then some {s with waits := Function.update s.waits sem (s.waits sem+1)}
    else none
  | .load cell, reply => if reply = s.cells cell then some s else none
  | .store cell value, _ => some {s with cells := Function.update s.cells cell value}
  | .spin value, _ => if s.cells .runningFlag = value then some s else none
  | .schedSetaffinity _ _, _ => some s
  | .errno, _ => some s
  | .wait, reply =>
    if s.childPid = some reply.1 ∧ s.ended .child = some reply.2 then some s else none
  | .exit code, _ => some ((s.flush who).finish who code)
  | .exitNow code, _ => some (s.finish who code)

/-- A process does not survive a call that has to do with memory that is not mapped, and
one that has ended makes no more calls. -/
def serve (who : Party) (s : Shared) (asked : Request) (reply : asked.Answer) : Option Shared :=
  if s.ended who ≠ none then none
  else if (touched asked).all s.mapped then respond who s asked reply
  else some {s with ended := Function.update s.ended who (some crashed)}

abbrev Value : Party → Type
  | .child => Unit
  | .parent => Msg

def progs : (who : Party) → Code (Value who)
  | .child => child
  | .parent => main

/-- The case is set up. The record is what is written from here on. -/
def start : World Party Request.Answer Value Shared where
  progs := progs
  shared := ⟨fun _ => false,fun _ => 0,fun _ => 0,fun _ => 0,none,fun _ => none,fun _ => [],[]⟩

abbrev System := World Party Request.Answer Value Shared

instance (asked : Request) : Inhabited asked.Answer := by
  cases asked <;> exact inferInstance

end Ostest.TestMck.TimeSharing
