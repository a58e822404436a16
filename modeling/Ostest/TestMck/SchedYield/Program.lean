import Mathlib.Data.Fintype.Basic
import Ostest.Lib.Decimal
import Ostest.Lib.Threads
import Ostest.Lib.WaitStatus

/-! Test sched_yield/000: the parent gives way to a child on its own core, and looks
whether the child has run. The flag that tells it is memory that both share. -/
namespace Ostest.TestMck.SchedYield
open Lib.Calls Lib.Runs Lib.Threads Lib.WaitStatus

inductive Party where
  | child
  | parent
  deriving DecidableEq

instance : Fintype Party := ⟨{.child,.parent},fun who => by cases who <;> simp⟩

inductive Sem where
  | syncSem1
  | syncSem2
  deriving DecidableEq

inductive Region where
  | sem (sem : Sem)
  | parentCore
  | orderFlag
  deriving DecidableEq

inductive Message where
  | mmapFailed
  | forkFailed
  | childNotBound
  | parentNotBound
  | yieldFailed
  | notScheduled
  | childFailed
  | waitFailed
  deriving DecidableEq

def Message.text : Message → String
  | .mmapFailed => "mmap() Failed."
  | .forkFailed => "fork() Failed."
  | .childNotBound => "child migrate/bind sched_setaffinity failed."
  | .parentNotBound => "parent bind sched_setaffinity failed."
  | .yieldFailed => "sched_yield failed."
  | .notScheduled => "sched_yield don't schedule to child"
  | .childFailed => "TP failed, child migrate fail."
  | .waitFailed => "TP failed, child process wait() fail."

abbrev Msg := Option Message

inductive Line where
  | running (who : Party) (core : Int)
  | migrating (core : Int)
  | binding (core : Int)
  | errno (number : Int)
  | moved (oldMycore newMycore : Int)
  | notMigrated
  | notRequired
  | sendYield
  | endProcess (who : Party)
  deriving DecidableEq

def Party.name : Party → String
  | .child => "[child]"
  | .parent => "[parent]"

def showInt (n : Int) : String := String.ofList (Lib.Decimal.integer n)

def Line.text : Line → String
  | .running who core => who.name ++ " running core " ++ showInt core ++ "\n"
  | .migrating core => "[parent] child process migrate/bind to core " ++ showInt core ++ "\n"
  | .binding core => "[parent] parent process bind to core " ++ showInt core ++ "\n"
  | .errno number => "errno = " ++ showInt number ++ "\n"
  | .moved oldMycore newMycore =>
    "[child] before migrate prevcore " ++ showInt oldMycore ++ ", nowcore " ++ showInt newMycore ++ "\n"
  | .notMigrated => "TP failed, not migrate child process.\n"
  | .notRequired => "[child] migrate not required.\n"
  | .sendYield => "[parent] send sched_yield.\n"
  | .endProcess who => who.name ++ " End process.\n"

inductive Request where
  | mmap (region : Region)
  | fork
  /-- The child comes into being. -/
  | begin
  | schedGetcpu
  | printf (line : Line)
  | fflush
  | semPost (sem : Sem)
  | semWait (sem : Sem)
  | loadCore
  | storeCore (core : Int)
  | loadOrder
  | storeOrder (value : Int)
  | schedSetaffinity (pid core : Int)
  | errno
  | usleep (microseconds : Nat)
  | schedYield
  | wait
  /-- `_exit`, which leaves the buffer unwritten. -/
  | exitNow (code : BitVec 8)

/-- mmap is answered by whether it succeeds, wait by the process and what is
reported about it. -/
abbrev Request.Answer : Request → Type
  | .mmap _ => Bool
  | .fork | .schedGetcpu | .loadCore | .loadOrder | .schedSetaffinity _ _ | .errno | .schedYield => Int
  | .wait => Int × Report
  | _ => Unit

abbrev Code := Prog Request Request.Answer

def ask (asked : Request) : Code asked.Answer := request asked

def say (line : Line) : Code PUnit := do
  let _ ← ask (.printf line)
  let _ ← ask .fflush
  return

/-- The end of a child that has been moved, or did not have to be. -/
def leave : Code Unit := do
  say (.endProcess .child)
  let _ ← ask (.exitNow 0)
  return

def child : Code Unit := do
  let _ ← ask .begin
  let oldMycore ← ask .schedGetcpu
  say (.running .child oldMycore)
  let _ ← ask (.semPost .syncSem1)
  let _ ← ask (.semWait .syncSem2)
  let _ ← ask (.storeOrder 1)
  let newMycore ← ask .schedGetcpu
  let parentCore ← ask .loadCore
  if parentCore ≠ oldMycore then
    say (.moved oldMycore newMycore)
    if oldMycore = newMycore then
      say .notMigrated
      let _ ← ask (.exitNow 255)
      return
    else leave
  else
    say .notRequired
    leave

/-- The end of RUN_FUNC in the parent. -/
def waitChild (pid : Int) : Code Msg := do
  let (retPid,status) ← ask .wait
  if retPid = pid then
    if wifexited status.status ∧ wexitstatus status.status ≠ 0 then
      return some .childFailed
    else return none
  else return some .waitFailed

/-- A failed `sched_setaffinity`. -/
def affinityFailed (message : Message) : Code Msg := do
  let number ← ask .errno
  say (.errno number)
  return some message

/-- The parent from where both processes are bound to its core. -/
def giveWay (pid : Int) : Code Msg := do
  let _ ← ask (.usleep 10000)
  say .sendYield
  let _ ← ask (.storeOrder 0)
  let _ ← ask (.semPost .syncSem2)
  let result ← ask .schedYield
  if result = -1 then return some .yieldFailed
  else
    let orderFlag ← ask .loadOrder
    if orderFlag ≠ 1 then return some .notScheduled
    else
      say (.endProcess .parent)
      waitChild pid

/-- The parent behind `fork()`. -/
def bindBoth (pid : Int) : Code Msg := do
  let _ ← ask (.semWait .syncSem1)
  let core ← ask .schedGetcpu
  let _ ← ask (.storeCore core)
  let core ← ask .loadCore
  let _ ← ask (.printf (.running .parent core))
  let core ← ask .loadCore
  say (.migrating core)
  let core ← ask .loadCore
  let result ← ask (.schedSetaffinity pid core)
  if result = -1 then affinityFailed .childNotBound
  else
    let core ← ask .loadCore
    say (.binding core)
    let result ← ask (.schedSetaffinity 0 core)
    if result = -1 then affinityFailed .parentNotBound
    else giveWay pid

/-- RUN_FUNC, which does not ask for the mapping of `order_flag`. -/
def runFunc (syncSem1 syncSem2 parentCore : Bool) : Code Msg :=
  if !syncSem1 || !syncSem2 || !parentCore then return some .mmapFailed
  else do
    let pid ← ask .fork
    if pid = -1 then return some .forkFailed
    else bindBoth pid

/-- SETUP_FUNC, and the run of the case. -/
def setUpAndRun : Code Msg := do
  let syncSem1 ← ask (.mmap (.sem .syncSem1))
  let syncSem2 ← ask (.mmap (.sem .syncSem2))
  let parentCore ← ask (.mmap .parentCore)
  let _ ← ask (.mmap .orderFlag)
  runFunc syncSem1 syncSem2 parentCore

/-! The kernel. -/

/-- What happens to the flag. -/
inductive Access where
  | stored (who : Party) (value : Int)
  | loaded (value : Int)
  deriving DecidableEq

/-- The value of a semaphore is the number of its posts less that of the waits
that have returned. -/
structure Sync where
  mapped : Region → Bool
  posts : Sem → Nat
  waits : Sem → Nat
  orderFlag : Int
  history : List Access
  childPid : Option Int
  ended : Party → Option Report

structure Shared extends Sync where
  parentCore : Int
  buffers : Party → List Line
  record : List Line

/-- init.sh has set the limit for core files to 0. -/
def crashed : Report := .signaled sigsegv false

/-- An access to the flag, which a process without the mapping does not survive. -/
def touchFlag (who : Party) (s after : Shared) : Shared :=
  if s.mapped .orderFlag then after else {s with ended := Function.update s.ended who (some crashed)}

def respond (who : Party) (s : Shared) : (asked : Request) → asked.Answer → Option Shared
  | .mmap region, done => some {s with mapped := Function.update s.mapped region done}
  | .fork, reply =>
    if reply = -1 then some s
    else if 0 < reply then some {s with childPid := some reply}
    else none
  | .begin, _ => if s.childPid.isSome then some s else none
  | .printf line, _ => some {s with buffers := Function.update s.buffers who (s.buffers who ++ [line])}
  | .fflush, _ =>
    some {s with buffers := Function.update s.buffers who [],record := s.record ++ s.buffers who}
  | .semPost sem, _ => some {s with posts := Function.update s.posts sem (s.posts sem+1)}
  | .semWait sem, _ =>
    if s.waits sem < s.posts sem then some {s with waits := Function.update s.waits sem (s.waits sem+1)}
    else none
  | .loadCore, reply => if reply = s.parentCore then some s else none
  | .storeCore core, _ => some {s with parentCore := core}
  | .loadOrder, reply =>
    if reply = s.orderFlag then
      some (touchFlag who s {s with history := s.history ++ [.loaded s.orderFlag]})
    else none
  | .storeOrder value, _ =>
    some (touchFlag who s {s with orderFlag := value,history := s.history ++ [.stored who value]})
  | .wait, reply => if s.childPid = some reply.1 ∧ s.ended .child = some reply.2 then some s else none
  | .exitNow code, _ => some {s with ended := Function.update s.ended who (some (.exited code))}
  | .schedGetcpu, _ | .schedSetaffinity _ _, _ | .errno, _ | .usleep _, _ | .schedYield, _ => some s

/-- A process that has ended makes no more calls. -/
def serve (who : Party) (s : Shared) (asked : Request) (reply : asked.Answer) : Option Shared :=
  if s.ended who = none then respond who s asked reply else none

abbrev Value : Party → Type
  | .child => Unit
  | .parent => Msg

def progs : (who : Party) → Code (Value who)
  | .child => child
  | .parent => setUpAndRun

abbrev System := World Party Request.Answer Value Shared

def start : System where
  progs := progs
  shared := {
    mapped := fun _ => false, posts := fun _ => 0, waits := fun _ => 0, orderFlag := 0, history := []
    childPid := none, ended := fun _ => none, parentCore := 0, buffers := fun _ => [], record := []}

instance (asked : Request) : Inhabited asked.Answer := by
  cases asked <;> exact inferInstance

end Ostest.TestMck.SchedYield
