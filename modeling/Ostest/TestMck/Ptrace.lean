import Ostest.Lib.Calls
import Ostest.Lib.WaitStatus

/-! Tests ptrace/010, ptrace/012 and ptrace/017 on arm64: the tracing parent,
for every report wait() gives about the child and every result of a ptrace
request. What the child does shows only in those answers. -/
namespace Ostest.TestMck.Ptrace
open Lib.Calls Lib.WaitStatus

abbrev Msg := Option String

abbrev Pid := {pid : Int // 0 < pid}

abbrev Word := BitVec 64

/-- Where a PEEK or POKE goes: a static variable of the test, or an address. -/
inductive Place where
  | instAddr
  | addr
  | regno (index : Fin 2)
  | at (address : Word)

structure Siginfo where
  signo : Int
  errno : Int
  code : Int
  addr : Word

/-- `struct user_pt_regs`. -/
structure UserPtRegs where
  regs : Fin 31 → Word
  sp : Word
  pc : Word
  pstate : Word

/-- `struct user_fpsimd_state`. -/
structure UserFpsimdState where
  vregs : Fin 32 → BitVec 128
  fpsr : BitVec 32
  fpcr : BitVec 32
  reserved : Fin 2 → BitVec 32

structure DbgReg where
  addr : Word
  ctrl : BitVec 32
  pad : BitVec 32
  deriving DecidableEq

/-- `struct user_hwdebug_state`. -/
structure HwDebug where
  dbgInfo : BitVec 32
  pad : BitVec 32
  dbgRegs : Fin 16 → DbgReg

inductive HwKind where
  | hwBreak
  | hwWatch
  deriving DecidableEq

inductive Regset where
  | prstatus
  | prfpreg
  | armTls
  | armHw (kind : HwKind)
  | armSystemCall
  deriving DecidableEq

abbrev Regset.Content : Regset → Type
  | .prstatus => UserPtRegs
  | .prfpreg => UserFpsimdState
  | .armTls => Word
  | .armHw _ => HwDebug
  | .armSystemCall => BitVec 32

def Regset.size : Regset → Nat
  | .prstatus => 272
  | .prfpreg => 528
  | .armTls => 8
  | .armHw _ => 264
  | .armSystemCall => 4

inductive PtraceRequest where
  | peekdata (place : Place)
  | peektext (place : Place)
  | pokedata (place : Place) (value : Word)
  | poketext (place : Place) (value : Word)
  | cont
  | singlestep
  | getsiginfo
  | getregset (regset : Regset)
  | setregset (regset : Regset) (value : regset.Content) (len : Nat)

inductive Request where
  | fork
  | wait
  | ptrace (pid : Pid) (request : PtraceRequest)

/-- A PEEK gives a word and whether errno is set after it, the other requests
the value of ptrace() and what they stored. -/
abbrev PtraceRequest.Answer : PtraceRequest → Type
  | .peekdata _ | .peektext _ => Word × Bool
  | .getsiginfo => Int × Siginfo
  | .getregset regset => Int × regset.Content
  | _ => Int

/-- The child is the only process that wait() can report. -/
abbrev Request.Answer : Request → Type
  | .fork => Option Pid
  | .wait => Option Report
  | .ptrace _ request => request.Answer

abbrev Code := Prog Request Request.Answer

def ask (asked : Request) : Code asked.Answer := request asked

def ptrace (pid : Pid) (asked : PtraceRequest) : Code asked.Answer := ask (.ptrace pid asked)

def wait (cpid : Pid) : Code (Int × Nat) := do
  match ← ask .wait with
  | some report => return (cpid.val,report.status)
  | none => return (-1,0)

def setregset (cpid : Pid) (regset : Regset) (value : regset.Content) : Code Int :=
  ptrace cpid (.setregset regset value regset.size)

/-! Helpers of arch_test_ptrace.c. -/

def nopInst : Word := 0xd503201f
def brkInst : Word := 0xd4200000

def rewriteBrkInst (cpid : Pid) (place : Place) : Code Int := do
  let (addr,errno) ← ptrace cpid (.peekdata place)
  if addr = -1 ∧ errno then return -1
  if (← ptrace cpid (.poketext (.at addr) (nopInst <<< 32 ||| nopInst))) ≠ 0 then return -1
  return 0

/-- The highest register that still holds its own number. -/
def magicRegister (regs : Fin 31 → Word) : Option (Fin 31) :=
  (List.finRange 31).reverse.find? (fun i => BitVec.ofNat 64 i == regs i)

def writeTlsVal : Word := 0x1234567890abcdef
def writeSysno : BitVec 32 := 0xfedcba09

/-- The two register numbers are what `gregno` and `fregno` point to after a
return of 0. -/
def setregsetCheck (cpid : Pid) : Code (Option (Word × Word)) := do
  let (failed,gregs) ← ptrace cpid (.getregset .prstatus)
  if failed ≠ 0 then return none
  let some i := magicRegister gregs.regs | return none
  let magic : Word := BitVec.ofNat 64 i
  let gregs := {gregs with regs := Function.update gregs.regs i (~~~magic)}
  if (← setregset cpid .prstatus gregs) ≠ 0 then return none
  let (failed,fregs) ← ptrace cpid (.getregset .prfpreg)
  if failed ≠ 0 then return none
  let fregs := {fregs with vregs := Function.update fregs.vregs 16 (~~~16)}
  if (← setregset cpid .prfpreg fregs) ≠ 0 then return none
  let (failed,orgTlsVal) ← ptrace cpid (.getregset .armTls)
  if failed ≠ 0 then return none
  if (← setregset cpid .armTls writeTlsVal) ≠ 0 then return none
  let (failed,tmpTlsVal) ← ptrace cpid (.getregset .armTls)
  if failed ≠ 0 then return none
  if tmpTlsVal ≠ writeTlsVal then return none
  if (← setregset cpid .armTls orgTlsVal) ≠ 0 then return none
  let (failed,orgSysno) ← ptrace cpid (.getregset .armSystemCall)
  if failed ≠ 0 then return none
  if (← setregset cpid .armSystemCall writeSysno) ≠ 0 then return none
  let (failed,tmpSysno) ← ptrace cpid (.getregset .armSystemCall)
  if failed ≠ 0 then return none
  if tmpSysno ≠ writeSysno then return none
  if (← setregset cpid .armSystemCall orgSysno) ≠ 0 then return none
  return some (magic,16)

/-- Execute, length 4, enabled at EL0. -/
def breakptCtrl : BitVec 32 := 0 <<< 3 ||| (1 <<< 4 - 1) <<< 5 ||| (2 <<< 1 ||| 1)

/-- Write, length 8, enabled at EL0. -/
def watchptCtrl : BitVec 32 := 2 <<< 3 ||| (1 <<< 8 - 1) <<< 5 ||| (2 <<< 1 ||| 1)

/-- The offset of `dbg_regs` and so many elements of it. -/
def hwDebugLen (numReg : Nat) : Nat := 8 + 16 * numReg

def HwDebug.numReg (regs : HwDebug) : Nat := (regs.dbgInfo &&& 0xff).toNat

def setHwDebug (kind : HwKind) (ctrl : BitVec 32) (cpid : Pid) (addr : Word) : Code Int := do
  let (failed,pointRegs) ← ptrace cpid (.getregset (.armHw kind))
  if failed ≠ 0 then return -1
  let dbgRegs := Function.update pointRegs.dbgRegs 0 {pointRegs.dbgRegs 0 with addr, ctrl}
  let len := hwDebugLen pointRegs.numReg
  if (← ptrace cpid (.setregset (.armHw kind) {pointRegs with dbgRegs} len)) ≠ 0 then return -1
  return 0

def clearHwDebug (kind : HwKind) (cpid : Pid) : Code Int := do
  let (failed,pointRegs) ← ptrace cpid (.getregset (.armHw kind))
  if failed ≠ 0 then return -1
  let dbgRegs i := if i.val < pointRegs.numReg then {pointRegs.dbgRegs i with addr := 0, ctrl := 0}
    else pointRegs.dbgRegs i
  let len := hwDebugLen pointRegs.numReg
  if (← ptrace cpid (.setregset (.armHw kind) {pointRegs with dbgRegs} len)) ≠ 0 then return -1
  return 0

def setHwBreakpt : (cpid : Pid) → (addr : Word) → Code Int := setHwDebug .hwBreak breakptCtrl
def clearHwBreakpt : (cpid : Pid) → Code Int := clearHwDebug .hwBreak

def setHwWatchpt : (cpid : Pid) → (addr : Word) → Code Int := setHwDebug .hwWatch watchptCtrl
def clearHwWatchpt : (cpid : Pid) → Code Int := clearHwDebug .hwWatch

/-! The parents. -/

/-- Where a check of `parent_func` leads: on, or to one of its labels. -/
inductive Goto where
  | next
  | cont
  | out

/-- The labels `cont` and `out`. Only the end of the body sets `ret` to 0. -/
def labels (cpid : Pid) (body : Code Goto) : Code Int := do
  let cont (ret : Int) : Code Int := do
    if (← ptrace cpid .cont) ≠ 0 then return -1
    return ret
  match ← body with
  | .next => cont 0
  | .cont => cont (-1)
  | .out => return -1

def waitStop (cpid : Pid) : Code Goto := do
  let (pid,status) ← wait cpid
  if pid ≠ cpid.val then return .out
  if !wifstopped status then return .out
  return .next

def waitTrap (cpid : Pid) : Code Goto := do
  let (pid,status) ← wait cpid
  if pid ≠ cpid.val then return .out
  if !wifstopped status then return .out
  if wstopsig status ≠ sigtrap.val then return .cont
  return .next

def trapHwbkpt : Int := 4

def checkSiginfo (cpid : Pid) (addr : Word) : Code Goto := do
  let (failed,info) ← ptrace cpid .getsiginfo
  if failed ≠ 0 then return .cont
  if info.signo ≠ sigtrap.val then return .cont
  if info.errno ≠ 0 then return .cont
  if info.code ≠ trapHwbkpt then return .cont
  if info.addr ≠ addr then return .cont
  return .next

def parentFunc010 (cpid : Pid) : Code Int := labels cpid do
  let .next ← waitStop cpid | return .out
  if (← rewriteBrkInst cpid .instAddr) ≠ 0 then return .cont
  let some (gregno,fregno) ← setregsetCheck cpid | return .cont
  if (← ptrace cpid (.pokedata (.regno 0) gregno)) ≠ 0 then return .cont
  if (← ptrace cpid (.pokedata (.regno 1) fregno)) ≠ 0 then return .cont
  return .next

def parentFunc012 (cpid : Pid) : Code Int := labels cpid do
  let .next ← waitStop cpid | return .out
  if (← rewriteBrkInst cpid .instAddr) ≠ 0 then return .cont
  let (instAddr,errno) ← ptrace cpid (.peekdata .addr)
  if instAddr = -1 ∧ errno then return .cont
  if (← setHwBreakpt cpid instAddr) ≠ 0 then return .cont
  if (← ptrace cpid .cont) ≠ 0 then return .out
  match ← waitTrap cpid with
  | .next =>
    let .next ← checkSiginfo cpid instAddr | return .cont
    if (← clearHwBreakpt cpid) ≠ 0 then return .cont
    return .next
  | label => return label

def singleStepLoop (cpid : Pid) : (count : Nat) → (readVal : Word) → Code Goto
  | 0, _ => return .next
  | count+1, readVal => do
    if (← ptrace cpid .singlestep) ≠ 0 then return .cont
    match ← waitTrap cpid with
    | .next =>
      let .next ← checkSiginfo cpid readVal | return .cont
      singleStepLoop cpid count (readVal+4)
    | label => return label

def loopCount : Nat := 5

def parentFunc017 (cpid : Pid) : Code Int := labels cpid do
  let .next ← waitStop cpid | return .out
  if (← rewriteBrkInst cpid .instAddr) ≠ 0 then return .cont
  let (readVal,errno) ← ptrace cpid (.peekdata .addr)
  if readVal = -1 ∧ errno then return .cont
  let (instVal,errno) ← ptrace cpid (.peektext (.at readVal))
  -- the source asks for `read_val` again here, not for the word just read
  if readVal = -1 ∧ errno then return .cont
  let writeVal : Word := (instVal &&& 0xffffffff00000000) ||| brkInst
  if (← ptrace cpid (.poketext (.at readVal) writeVal)) ≠ 0 then return .cont
  if (← ptrace cpid .cont) ≠ 0 then return .out
  match ← waitTrap cpid with
  | .next =>
    if (← ptrace cpid (.poketext (.at readVal) instVal)) ≠ 0 then return .cont
    singleStepLoop cpid loopCount (readVal+4)
  | label => return label

/-- The end of the RUN_FUNCs, with what the last wait() reported. -/
def verdict (funcRet : Int) : Option Report → Msg
  | none => some "wait() failed."
  | some report =>
    if wexitstatus report.status ≠ 0 then some "TP failed."
    else if funcRet ≠ 0 then some "TP failed."
    else none

/-- The RUN_FUNC that the tests share, as the parent runs it. -/
def runFunc (parentFunc : Pid → Code Int) : Code Msg := do
  match ← ask .fork with
  | none => return some "fork() failed."
  | some pid =>
    let funcRet ← parentFunc pid
    return verdict funcRet (← ask .wait)

inductive Test where
  | ptrace010
  | ptrace012
  | ptrace017

def Test.parentFunc : Test → Pid → Code Int
  | .ptrace010 => parentFunc010
  | .ptrace012 => parentFunc012
  | .ptrace017 => parentFunc017

/-! What the verdict says about the child. -/

theorem verdict_none_iff (funcRet : Int) (waited : Option Report) :
    verdict funcRet waited = none ↔
      funcRet = 0 ∧ (waited = some (.exited 0) ∨ ∃ signal core, waited = some (.signaled signal core)) := by
  cases waited with
  | none => simp [verdict]
  | some report =>
    simp only [Option.some.injEq,← wexitstatus_zero_iff,verdict]
    by_cases exit : wexitstatus report.status = 0
    · by_cases ret : funcRet = 0 <;> simp [exit,ret]
    · simp [exit]

theorem runFunc_cases (parentFunc : Pid → Code Int) (trace : List (Event Request.Answer)) (msg : Msg)
    (runs : Runs (runFunc parentFunc) trace msg) :
    (trace = [⟨.fork,none⟩] ∧ msg = some "fork() failed.") ∨
      ∃ pid parent funcRet waited, trace = ⟨.fork,some pid⟩ :: (parent ++ [⟨.wait,waited⟩]) ∧
        Runs (parentFunc pid) parent funcRet ∧ msg = verdict funcRet waited := by
  obtain ⟨forked,rest,rfl,after⟩ := (runs_request_bind _ _ _ _).mp runs
  cases forked with
  | none =>
    obtain ⟨rfl,rfl⟩ := (runs_pure _ _ _).mp after
    exact .inl ⟨rfl,rfl⟩
  | some pid =>
    obtain ⟨parent,funcRet,last,rfl,inner,final⟩ := (runs_bind _ _ _ _).mp after
    obtain ⟨waited,rest,rfl,ending⟩ := (runs_request_bind _ _ _ _).mp final
    obtain ⟨rfl,rfl⟩ := (runs_pure _ _ _).mp ending
    exact .inr ⟨pid,parent,funcRet,waited,rfl,inner,rfl⟩

theorem runs_runFunc (parentFunc : Pid → Code Int) (pid : Pid) (parent : List (Event Request.Answer))
    (funcRet : Int) (inner : Runs (parentFunc pid) parent funcRet) (waited : Option Report) :
    Runs (runFunc parentFunc) (⟨.fork,some pid⟩ :: (parent ++ [⟨.wait,waited⟩]))
      (verdict funcRet waited) := by
  refine (runs_request_bind _ _ _ _).mpr ⟨some pid,_,rfl,?_⟩
  refine (runs_bind _ _ _ _).mpr ⟨parent,funcRet,_,rfl,inner,?_⟩
  exact (runs_request_bind _ _ _ _).mpr ⟨waited,[],rfl,.ret _⟩

def EndsWith (test : Test) (trace : List (Event Request.Answer)) (report : Report) : Prop :=
  ∃ pid parent, trace = ⟨.fork,some pid⟩ :: (parent ++ [⟨.wait,some report⟩]) ∧
    Runs (test.parentFunc pid) parent 0

theorem endsWith_iff (test : Test) (pid : Pid) (parent : List (Event Request.Answer)) (funcRet : Int)
    (inner : Runs (test.parentFunc pid) parent funcRet) (waited : Option Report) (report : Report) :
    EndsWith test (⟨.fork,some pid⟩ :: (parent ++ [⟨.wait,waited⟩])) report ↔
      funcRet = 0 ∧ waited = some report := by
  constructor
  · rintro ⟨pid',parent',same,zero⟩
    obtain ⟨head,tail⟩ := List.cons.inj same
    obtain ⟨front,last⟩ := List.append_inj' tail rfl
    cases front
    cases head
    cases last
    exact ⟨inner.unique zero,rfl⟩
  · rintro ⟨rfl,rfl⟩
    exact ⟨pid,parent,rfl,inner⟩

/-- A kernel that answers as the tests want it. The single steps of ptrace/017
ask for the siginfo every third call, each time 4 bytes further on. -/
def obliging (count : Nat) : (asked : Request) → asked.Answer
  | .fork => some ⟨1,by decide⟩
  | .wait => some (.stopped sigtrap 0)
  | .ptrace _ (.peekdata _) | .ptrace _ (.peektext _) => (0,false)
  | .ptrace _ .getsiginfo => (0,⟨sigtrap.val,0,trapHwbkpt,BitVec.ofNat 64 (4*((count-9)/3))⟩)
  | .ptrace _ (.getregset .prstatus) => (0,⟨fun i => BitVec.ofNat 64 i,0,0,0⟩)
  | .ptrace _ (.getregset .prfpreg) => (0,⟨fun _ => 0,0,0,fun _ => 0⟩)
  | .ptrace _ (.getregset .armTls) => (0,writeTlsVal)
  | .ptrace _ (.getregset (.armHw _)) => (0,⟨0,0,fun _ => ⟨0,0,0⟩⟩)
  | .ptrace _ (.getregset .armSystemCall) => (0,writeSysno)
  | .ptrace _ (.pokedata _ _) | .ptrace _ (.poketext _ _) | .ptrace _ .cont | .ptrace _ .singlestep
  | .ptrace _ (.setregset _ _ _) => (0 : Int)

theorem obliging_returns (test : Test) : ∃ parent, Runs (test.parentFunc ⟨1,by decide⟩) parent 0 := by
  have value : (play obliging 1 (test.parentFunc ⟨1,by decide⟩)).2 = 0 := by
    cases test <;> rfl
  have runs := runs_play obliging 1 (test.parentFunc ⟨1,by decide⟩)
  rw [value] at runs
  exact ⟨_,runs⟩

/-- A success says that the child exited with 0 unless `parent_func` returned 0
and a signal killed the child after that: WEXITSTATUS reads 0 then as well. -/
theorem success_iff_not_killed (test : Test) (trace : List (Event Request.Answer)) (msg : Msg)
    (runs : Runs (runFunc test.parentFunc) trace msg) :
    (msg = none → EndsWith test trace (.exited 0)) ↔
      ¬∃ signal core, EndsWith test trace (.signaled signal core) := by
  rcases runFunc_cases test.parentFunc trace msg runs with
    ⟨rfl,rfl⟩ | ⟨pid,parent,funcRet,waited,rfl,inner,rfl⟩
  · have short : ∀ report, ¬EndsWith test [⟨.fork,none⟩] report := by
      rintro report ⟨pid,parent,same,_⟩
      simp at same
    simp [short]
  · simp only [endsWith_iff test pid parent funcRet inner,verdict_none_iff]
    constructor
    · rintro justified ⟨signal,core,zero,rfl⟩
      obtain ⟨_,exited⟩ := justified ⟨zero,.inr ⟨signal,core,rfl⟩⟩
      cases exited
    · intro alive success
      obtain ⟨zero,exited | ⟨signal,core,killed⟩⟩ := success
      · exact ⟨zero,exited⟩
      · exact absurd ⟨signal,core,zero,killed⟩ alive

theorem success_iff_not_killed_exited :
    ∃ trace, Runs (runFunc Test.ptrace017.parentFunc) trace none ∧
      (((none : Msg) = none → EndsWith .ptrace017 trace (.exited 0)) ↔
        ¬∃ signal core, EndsWith .ptrace017 trace (.signaled signal core)) := by
  obtain ⟨parent,inner⟩ := obliging_returns .ptrace017
  have runs := runs_runFunc _ _ parent 0 inner (some (.exited 0))
  rw [(verdict_none_iff 0 (some (.exited 0))).mpr ⟨rfl,.inl rfl⟩] at runs
  exact ⟨_,runs,success_iff_not_killed .ptrace017 _ _ runs⟩

/-- The last PTRACE_CONT lets the child run into a SIGKILL, and each of the
three tests succeeds. -/
theorem death_taken_for_success (test : Test) :
    ∃ trace, Runs (runFunc test.parentFunc) trace none ∧
      EndsWith test trace (.signaled sigkill false) ∧ ¬EndsWith test trace (.exited 0) := by
  obtain ⟨parent,inner⟩ := obliging_returns test
  have ends := endsWith_iff test _ parent 0 inner (some (.signaled sigkill false))
  refine ⟨_,runs_runFunc test.parentFunc _ parent 0 inner (some (.signaled sigkill false)),?_,?_⟩
  · exact (ends _).mpr ⟨rfl,rfl⟩
  · intro exited
    have same := ((ends _).mp exited).2
    cases same

theorem killed_child_succeeds :
    ∃ trace, Runs (runFunc Test.ptrace010.parentFunc) trace none ∧
      EndsWith .ptrace010 trace (.signaled sigkill false) ∧ ¬EndsWith .ptrace010 trace (.exited 0) :=
  death_taken_for_success .ptrace010

end Ostest.TestMck.Ptrace
