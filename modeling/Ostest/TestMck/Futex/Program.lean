import Mathlib.Data.Fintype.Basic
import Ostest.Lib.Decimal
import Ostest.Lib.Threads

/-! Test uti/015: a thread that has moved to the other kernel, and one that has
not, wake each other through two futex words. Nobody changes the words, so that a
wake which comes before the sleep is lost. -/
namespace Ostest.TestMck.Futex
open Lib.Calls Lib.Runs Lib.Threads

inductive Party where
  | child
  | parent
  deriving DecidableEq

instance : Fintype Party := ⟨{.child,.parent},fun who => by cases who <;> simp⟩

inductive Flag where
  | futexFlag1
  | futexFlag2
  deriving DecidableEq

/-- What a process says about the futex calls. -/
inductive Note where
  | waitFailed
  | wakeFailed
  | ok
  deriving DecidableEq

inductive Line where
  | notMigrated
  | onMcKernel
  | illegalSystem (ret : Int)
  | sendIds
  | pidDiffers (lpid rpid : Int)
  | pidOk
  | tidDiffers (ltid rtid : Int)
  | tidOk
  | sendMmap
  | mmapFailed (errno : Int)
  | mmapOk
  | mprotectFailed (errno : Int)
  | mprotectOk
  | mprotectLost
  | munmapFailed (errno : Int)
  | munmapOk
  | sendBrk
  | brkFailed
  | brkOk
  | brkLost
  | sendFutex
  | futex (who : Party) (note : Note)
  deriving DecidableEq

def showInt (n : Int) : String := String.ofList (Lib.Decimal.integer n)

def Line.text : Line → String
  | .notMigrated => "[NG] util_migrate_inter_kernel:"
  | .onMcKernel => "[NG] this process running on McKernel.\n"
  | .illegalSystem ret => "[NG] get_system illegal return value(" ++ showInt ret ++ ")\n"
  | .sendIds => "[send getpid / gettid]\n"
  | .pidDiffers lpid rpid =>
    "  [NG] pid compare failed. (lpid=" ++ showInt lpid ++ ", rpid=" ++ showInt rpid ++ ")\n"
  | .pidOk => "  [OK] getpid\n"
  | .tidDiffers ltid rtid =>
    "  [NG] tid compare failed. (ltid=" ++ showInt ltid ++ ", rtid=" ++ showInt rtid ++ ")\n"
  | .tidOk => "  [OK] gettid\n"
  | .sendMmap => "[send mmap / mprotect / munmap]\n"
  | .mmapFailed errno => "  [NG] mmap failed.(" ++ showInt errno ++ ")\n"
  | .mmapOk => "  [OK] mmap\n"
  | .mprotectFailed errno => "  [NG] mprotect failed.(" ++ showInt errno ++ ")\n"
  | .mprotectOk => "  [OK] mprotect\n"
  | .mprotectLost => "  [NG] mprotect, value write failed.\n"
  | .munmapFailed errno => "  [NG] munmap failed.(" ++ showInt errno ++ ")\n"
  | .munmapOk => "  [OK] munmap\n"
  | .sendBrk => "[send brk(sbrk)]\n"
  | .brkFailed => "  [NG] brk(sbrk) failed.\n"
  | .brkOk => "  [OK] brk(sbrk)\n"
  | .brkLost => "  [NG] brk(sbrk), value write failed.\n"
  | .sendFutex => "[send futex]\n"
  | .futex .child .waitFailed => "  [NG] child futex wait failed.\n"
  | .futex .child .wakeFailed => "  [NG] child futex wake failed.\n"
  | .futex .parent .wakeFailed => "  [NG] parent futex wake failed.\n"
  | .futex .parent .waitFailed => "  [NG] parent futex wait failed.\n"
  | .futex _ .ok => "  [OK] futex\n"

inductive Message where
  | createError
  | joinFailed
  | checkLogs
  deriving DecidableEq

def Message.text : Message → String
  | .createError => "pthread_create error."
  | .joinFailed => "pthread_join failed."
  | .checkLogs => "please check logs. [OK] or [NG]"

abbrev Msg := Option Message

/-- What is written to: the page that mprotect has opened, and the page above the
old break. -/
inductive Area where
  | mapped
  | heap
  deriving DecidableEq

inductive Request where
  | getpid
  | gettid
  | errno
  | pthreadCreate
  /-- The thread comes into being. -/
  | begin
  | utilMigrateInterKernel
  | getSystem
  | mmap
  | mprotect
  | munmap
  /-- Bytes are written from the start of the area on, and the ends read back. -/
  | fill (area : Area)
  /-- The increment is in pages. -/
  | sbrk (increment : Nat)
  | printf (line : Line)
  | usleep (usec : Nat)
  | futexWake (flag : Flag)
  /-- The two halves of a FUTEX_WAIT: to fall asleep, and to be woken. -/
  | futexSleep (flag : Flag)
  | futexWoken (flag : Flag)
  /-- The thread returns. -/
  | finish
  | pthreadJoin

/-- mmap and sbrk are answered by an address. -/
abbrev Request.Answer : Request → Type
  | .begin | .printf _ | .usleep _ | .futexSleep _ | .finish => Unit
  | .fill _ => Bool
  | _ => Int

abbrev Code := Prog Request Request.Answer

def ask (asked : Request) : Code asked.Answer := request asked

def say (line : Line) : Code PUnit := do
  let _ ← ask (.printf line)
  return

def futexWait (flag : Flag) : Code Int := do
  let _ ← ask (.futexSleep flag)
  let ret ← ask (.futexWoken flag)
  return ret

def childThread : Code Unit := do
  let _ ← ask .begin
  let ret ← futexWait .futexFlag1
  if ret ≠ 0 then say (.futex .child .waitFailed)
  let _ ← ask (.usleep 100000)
  let ret ← ask (.futexWake .futexFlag2)
  if ret ≠ 1 then say (.futex .child .wakeFailed)
  let _ ← ask .finish
  return

def checkIds (lpid ltid : Int) : Code PUnit := do
  say .sendIds
  let rpid ← ask .getpid
  let rtid ← ask .gettid
  if lpid ≠ rpid then say (.pidDiffers lpid rpid) else say .pidOk
  if ltid ≠ rtid then say (.tidDiffers ltid rtid) else say .tidOk

def checkMmap : Code PUnit := do
  say .sendMmap
  let buf ← ask .mmap
  if buf = 0 then
    let errno ← ask .errno
    say (.mmapFailed errno)
  else
    say .mmapOk
    let ret ← ask .mprotect
    if ret ≠ 0 then
      let errno ← ask .errno
      say (.mprotectFailed errno)
    else
      let kept ← ask (.fill .mapped)
      if kept then say .mprotectOk else say .mprotectLost
    let ret ← ask .munmap
    if ret ≠ 0 then
      let errno ← ask .errno
      say (.munmapFailed errno)
    else say .munmapOk

def checkBrk : Code PUnit := do
  say .sendBrk
  let buf ← ask (.sbrk 0)
  let _ ← ask (.sbrk 1)
  if buf = -1 then say .brkFailed
  else
    -- whether the break has moved is not looked at
    let kept ← ask (.fill .heap)
    if kept then say .brkOk else say .brkLost

def checkFutex : Code PUnit := do
  say .sendFutex
  let ret ← ask (.futexWake .futexFlag1)
  if ret ≠ 1 then say (.futex .parent .wakeFailed)
  let ret ← futexWait .futexFlag2
  if ret = -1 then say (.futex .parent .waitFailed) else say (.futex .parent .ok)

/-- RUN_FUNC from `join_out` on. -/
def joinOut : Code Msg := do
  let ret ← ask .pthreadJoin
  if ret = 0 then return some .checkLogs else return some .joinFailed

def runFunc : Code Msg := do
  let lpid ← ask .getpid
  let ltid ← ask .gettid
  let ret ← ask .pthreadCreate
  if ret = 0 then
    let ret ← ask .utilMigrateInterKernel
    if ret ≠ 0 then
      say .notMigrated
      joinOut
    else
      let ret ← ask .getSystem
      if ret = 0 then
        say .onMcKernel
        joinOut
      else if ret ≠ -1 then
        say (.illegalSystem ret)
        joinOut
      else
        checkIds lpid ltid
        checkMmap
        checkBrk
        checkFutex
        joinOut
  else return some .createError

structure Shared where
  created : Bool
  slept : Flag → Bool
  woken : Flag → Bool
  returned : Bool
  /-- The break has moved. -/
  grown : Bool
  killed : Bool
  output : List Line

/-- A wake reaches the thread that sleeps on the word and has not been woken yet. -/
def Shared.sleeps (s : Shared) (flag : Flag) : Bool := s.slept flag && !s.woken flag

/-- How a call is answered. Every thread that sleeps can be woken, and is by
nothing else. -/
def answer (s : Shared) : (asked : Request) → asked.Answer → Option Shared
  | .pthreadCreate, ret => some {s with created := s.created || ret == 0}
  | .begin, _ => if s.created then some s else none
  | .printf line, _ => some {s with output := s.output ++ [line]}
  | .futexWake flag, ret =>
    if s.sleeps flag then
      if ret = 1 then some {s with woken := Function.update s.woken flag true} else none
    else if ret = 0 then some s else none
  | .futexSleep flag, _ => some {s with slept := Function.update s.slept flag true}
  | .futexWoken flag, ret => if s.woken flag ∧ ret = 0 then some s else none
  | .finish, _ => some {s with returned := true}
  | .pthreadJoin, ret => if s.returned ∧ ret = 0 then some s else none
  | .sbrk increment, ret => some {s with grown := s.grown || (increment != 0 && ret != -1)}
  -- to write above the break is a segmentation fault
  | .fill area, _ => some {s with killed := area == .heap && !s.grown}
  | _, _ => some s

/-- A process that has been killed gets no answer. -/
def serve (_ : Party) (s : Shared) (asked : Request) (reply : asked.Answer) : Option Shared :=
  if s.killed then none else answer s asked reply

abbrev Value : Party → Type
  | .child => Unit
  | .parent => Msg

abbrev System := World Party Request.Answer Value Shared

def start : System where
  progs
    | .child => childThread
    | .parent => runFunc
  shared := ⟨false,fun _ => false,fun _ => false,false,false,false,[]⟩

instance (asked : Request) : Inhabited asked.Answer := by
  cases asked <;> exact inferInstance

end Ostest.TestMck.Futex
