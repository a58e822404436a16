import Ostest.Lib.Pipes
import Ostest.Lib.Runs

/-! Tests setpgid/000 and getppid/000: a parent and a child that synchronise
over two pipes, under every interleaving and every system-call result.
Closing the pipes and printing come after the last exchange of each process
and change neither the order of the exchanges nor the verdict. -/
namespace Ostest.TestMck.PipeSync
open Lib.Calls Lib.Pipes Lib.Runs

inductive Who where
  | parent
  | child
  deriving DecidableEq

inductive Pipe where
  | p2c
  | c2p
  deriving DecidableEq

abbrev Msg := Option String

def pipeBufSize : Nat := 0x10

/-- The `PIPE_BUF_SIZE+1` bytes written for a synchronisation: the literal with
its NUL, and then whatever lies behind the literal in memory. -/
def syncText (beyond : Fin 6 → Byte) : List Byte :=
  -- "1234567890" in ASCII
  [49,50,51,52,53,54,55,56,57,48,0] ++ List.ofFn beyond

def tpAssert (test : Bool) (msg : String) (next : Code Pipe Msg) : Code Pipe Msg :=
  if test then next else .ret (some msg)

structure Setup where
  pipeP2c : Int
  pipeC2p : Int
  fork : Int

def Setup.Forks (setup : Setup) : Prop :=
  setup.pipeP2c ≠ -1 ∧ setup.pipeC2p ≠ -1 ∧ setup.fork ≠ -1

instance (setup : Setup) : Decidable setup.Forks :=
  inferInstanceAs (Decidable (_ ∧ _))

inductive Result where
  | verdict (msg : Msg)
  | exit (status : Nat)

def duo (parent child : Code Pipe Result) (p2c c2p : List Byte) (log : List (Transfer Who Pipe)) :
    State Who Pipe Result where
  progs
    | .parent => parent
    | .child => child
  pipes
    | .p2c => p2c
    | .c2p => c2p
  log := log

inductive Start where
  | returned (msg : String)
  | forked (s : State Who Pipe Result)

/-- The two branches of the RUN_FUNCs after the fork. The value of `parentFn`
and of `childFn` is dropped, as the source drops it. -/
def parentProcess (parentFn : Code Pipe Msg) : Code Pipe Result :=
  parentFn.bind (fun _ => .ret (.verdict none))

def childProcess (childFn : Code Pipe Msg) : Code Pipe Result :=
  childFn.bind (fun _ => .ret (.exit 0))

/-- The body that the two RUN_FUNCs share. -/
def runFunc (setup : Setup) (parentFn childFn : Code Pipe Msg) : Start :=
  if setup.pipeP2c = -1 then .returned "make pipe failed"
  else if setup.pipeC2p = -1 then .returned "make pipe failed"
  else if setup.fork = -1 then .returned "fork faild."
  else .forked (duo (parentProcess parentFn) (childProcess childFn) [] [] [])

/-! The two tests. -/

structure SetpgidCalls extends Setup where
  setpgid : Int
  getpid : Int
  getpgid : Int
  getpgidAgain : Int
  beyond : Fin 6 → Byte

def setpgid0ParentFn (calls : SetpgidCalls) : Code Pipe Msg :=
  read .c2p pipeBufSize fun _ =>
  tpAssert (calls.setpgid != -1) "[parent] setpgid faild." <|
  write .p2c (syncText calls.beyond) <|
  read .c2p pipeBufSize fun _ =>
  .ret none

def setpgid0ChildFn (calls : SetpgidCalls) : Code Pipe Msg :=
  tpAssert (calls.getpid != -1) "[child] getpid faild." <|
  tpAssert (calls.getpgid != -1) "[child] getpgid faild." <|
  write .c2p (syncText calls.beyond) <|
  read .p2c pipeBufSize fun _ =>
  tpAssert (calls.getpgidAgain != -1) "[child] getpgid faild." <|
  write .c2p (syncText calls.beyond) <|
  .ret none

def setpgid000 (calls : SetpgidCalls) : Start :=
  runFunc calls.toSetup (setpgid0ParentFn calls) (setpgid0ChildFn calls)

structure GetppidCalls extends Setup where
  getpid : BitVec 32
  getppid : BitVec 32
  uninit : BitVec 32
  beyond : Fin 6 → Byte

def pidBytes (pid : BitVec 32) : List Byte :=
  [pid.extractLsb' 0 8,pid.extractLsb' 8 8,pid.extractLsb' 16 8,pid.extractLsb' 24 8]

def pidOf (old : BitVec 32) (bytes : List Byte) : BitVec 32 :=
  match bytes ++ (pidBytes old).drop bytes.length with
  | [a,b,c,d] => d ++ c ++ b ++ a
  | _ => old

theorem pidOf_pidBytes (old pid : BitVec 32) : pidOf old (pidBytes pid) = pid := by
  simp only [pidOf,pidBytes,List.length_cons,List.length_nil,List.drop_succ_cons,List.drop_nil,
    List.append_nil]
  ext i bound
  simp only [BitVec.getElem_append,BitVec.getElem_extractLsb']
  grind

def getppid0ParentFn (calls : GetppidCalls) : Code Pipe Msg :=
  read .c2p pipeBufSize fun _ =>
  write .p2c (pidBytes calls.getpid) <|
  read .c2p pipeBufSize fun _ =>
  .ret none

def getppid0ChildFn (calls : GetppidCalls) : Code Pipe Msg :=
  write .c2p (syncText calls.beyond) <|
  read .p2c 4 fun bytes =>
  tpAssert (calls.getppid == pidOf calls.uninit bytes) "[child] getppid faild." <|
  write .c2p (syncText calls.beyond) <|
  .ret none

def getppid000 (calls : GetppidCalls) : Start :=
  runFunc calls.toSetup (getppid0ParentFn calls) (getppid0ChildFn calls)

/-! What single operations do. -/

section Operations
variable (parent child : Code Pipe Result) (p2c c2p : List Byte) (log : List (Transfer Who Pipe))

theorem duo_parent (next : Code Pipe Result) :
    Function.update (duo parent child p2c c2p log).progs .parent next =
      (duo next child p2c c2p log).progs := by
  funext who
  cases who <;> rfl

theorem duo_child (next : Code Pipe Result) :
    Function.update (duo parent child p2c c2p log).progs .child next =
      (duo parent next p2c c2p log).progs := by
  funext who
  cases who <;> rfl

theorem duo_p2c (bytes : List Byte) :
    Function.update (duo parent child p2c c2p log).pipes .p2c bytes =
      (duo parent child bytes c2p log).pipes := by
  funext pipe
  cases pipe <;> rfl

theorem duo_c2p (bytes : List Byte) :
    Function.update (duo parent child p2c c2p log).pipes .c2p bytes =
      (duo parent child p2c bytes log).pipes := by
  funext pipe
  cases pipe <;> rfl

theorem parent_writes (bytes : List Byte) :
    step (duo (write .p2c bytes parent) child p2c c2p log) .parent =
      some (duo parent child (p2c ++ bytes) c2p (log ++ [.wrote .parent .p2c])) := by
  rw [step_write _ _ _ _ _ rfl,duo_parent,duo_p2c]
  rfl

theorem child_writes (bytes : List Byte) :
    step (duo parent (write .c2p bytes child) p2c c2p log) .child =
      some (duo parent child p2c (c2p ++ bytes) (log ++ [.wrote .child .c2p])) := by
  rw [step_write _ _ _ _ _ rfl,duo_child,duo_c2p]
  rfl

theorem parent_reads (count : Nat) (next : List Byte → Code Pipe Result) :
    step (duo (read .c2p count next) child p2c c2p log) .parent =
      if c2p = [] then none
      else some (duo (next (c2p.take count)) child p2c (c2p.drop count)
        (log ++ [.read .parent .c2p])) := by
  rw [step_read _ _ _ _ _ rfl,duo_parent,duo_c2p]
  rfl

theorem child_reads (count : Nat) (next : List Byte → Code Pipe Result) :
    step (duo parent (read .p2c count next) p2c c2p log) .child =
      if p2c = [] then none
      else some (duo parent (next (p2c.take count)) (p2c.drop count) c2p
        (log ++ [.read .child .p2c])) := by
  rw [step_read _ _ _ _ _ rfl,duo_child,duo_p2c]
  rfl

theorem parent_done (value : Result) :
    step (duo (.ret value) child p2c c2p log) .parent = none :=
  step_ret _ _ value rfl

theorem child_done (value : Result) :
    step (duo parent (.ret value) p2c c2p log) .child = none :=
  step_ret _ _ value rfl

end Operations

theorem syncText_drop (beyond : Fin 6 → Byte) : (syncText beyond).drop pipeBufSize = [beyond 5] := by
  simp [syncText,pipeBufSize,List.ofFn_succ]

theorem syncText_ne_nil (beyond : Fin 6 → Byte) : syncText beyond ≠ [] := by
  simp [syncText]

theorem runFunc_forked (setup : Setup) (parentFn childFn : Code Pipe Msg) (forks : setup.Forks) :
    runFunc setup parentFn childFn =
      .forked (duo (parentProcess parentFn) (childProcess childFn) [] [] []) := by
  obtain ⟨p2c,c2p,fork⟩ := forks
  simp [runFunc,p2c,c2p,fork]

theorem runFunc_returned (setup : Setup) (parentFn childFn : Code Pipe Msg)
    (fails : ¬setup.Forks) : ∃ msg, runFunc setup parentFn childFn = .returned msg := by
  unfold runFunc
  split
  · exact ⟨_,rfl⟩
  split
  · exact ⟨_,rfl⟩
  split
  · exact ⟨_,rfl⟩
  next p2c c2p fork => exact absurd ⟨p2c,c2p,fork⟩ fails

theorem setpgid_parent (calls : SetpgidCalls) (passes : calls.setpgid ≠ -1) :
    parentProcess (setpgid0ParentFn calls) = read .c2p pipeBufSize
      (fun _ => write .p2c (syncText calls.beyond)
        (read .c2p pipeBufSize (fun _ => .ret (.verdict none)))) := by
  simp [parentProcess,setpgid0ParentFn,tpAssert,passes,Prog.bind]

theorem setpgid_parent_refused (calls : SetpgidCalls) (refused : calls.setpgid = -1) :
    parentProcess (setpgid0ParentFn calls) =
      read .c2p pipeBufSize (fun _ => .ret (.verdict none)) := by
  simp [parentProcess,setpgid0ParentFn,tpAssert,refused,Prog.bind]

theorem setpgid_child (calls : SetpgidCalls) (getpid : calls.getpid ≠ -1)
    (getpgid : calls.getpgid ≠ -1) :
    childProcess (setpgid0ChildFn calls) = write .c2p (syncText calls.beyond)
      (read .p2c pipeBufSize (fun _ => childProcess
        (tpAssert (calls.getpgidAgain != -1) "[child] getpgid faild."
          (write .c2p (syncText calls.beyond) (.ret none))))) := by
  simp [childProcess,setpgid0ChildFn,tpAssert,getpid,getpgid,Prog.bind]

theorem setpgid_child_refused (calls : SetpgidCalls)
    (refused : calls.getpid = -1 ∨ calls.getpgid = -1) :
    childProcess (setpgid0ChildFn calls) = .ret (.exit 0) := by
  unfold childProcess setpgid0ChildFn tpAssert
  rcases refused with bad | bad
  · simp [bad,Prog.bind]
  · split <;> simp [bad,Prog.bind]

/-- The run in which the parent stays ahead of the child. Its second read finds
the byte that its first one left behind. -/
theorem parent_ahead (beyond : Fin 6 → Byte) (bytes : List Byte) (child : Code Pipe Result)
    (after : List Byte → Code Pipe Result) :
    run step [.child,.parent,.parent,.parent]
      (duo (read .c2p pipeBufSize (fun _ => write .p2c bytes (read .c2p pipeBufSize after)))
        (write .c2p (syncText beyond) child) [] [] []) =
      some (duo (after [beyond 5]) child bytes []
        [.wrote .child .c2p,.read .parent .c2p,.wrote .parent .p2c,.read .parent .c2p]) := by
  simp only [run,child_writes,parent_reads,parent_writes,Option.bind_some,List.nil_append,
    syncText_ne_nil,if_false,syncText_drop,List.cons_ne_nil]
  rfl

theorem one_read (count : Nat) (value : Result) (s final : State Who Pipe Result)
    (prog : s.progs .parent = read .c2p count (fun _ => .ret value))
    (fresh : s.log = []) (schedule : List Who) (computed : run step schedule s = some final) :
    final.log.count (.read .parent .c2p) ≤ 1 := by
  -- before the read nothing is counted, after it the parent has returned
  let invariant := fun s : State Who Pipe Result =>
    (s.progs .parent = read .c2p count (fun _ => .ret value) ∧
      s.log.count (.read .parent .c2p) = 0) ∨
    (s.progs .parent = .ret value ∧ s.log.count (.read .parent .c2p) ≤ 1)
  have holds : invariant final := by
    refine run_invariant step invariant ?_ schedule s final (.inl ⟨prog,by simp [fresh]⟩) computed
    intro s who next before taken
    cases who with
    | child =>
      obtain ⟨same,counts⟩ := step_other .child .parent (by decide) s next taken
      simpa only [invariant,same,(counts .c2p).1] using before
    | parent =>
      rcases before with ⟨waiting,none⟩ | ⟨returned,_⟩
      · rw [step_read _ _ _ _ _ waiting] at taken
        split at taken
        · contradiction
        · cases Option.some.inj taken
          exact .inr ⟨by simp,by simp [List.count_append,none]⟩
      · rw [step_ret _ _ _ returned] at taken
        contradiction
  rcases holds with ⟨_,none⟩ | ⟨_,once⟩
  · omega
  · exact once

/-- In every run, the parent's second read from the child's pipe returns only
after the child's second write into it. -/
def ReadsInOrder : Start → Prop
  | .returned _ => True
  | .forked s => ∀ schedule final, run step schedule s = some final →
      2 ≤ final.log.count (.read .parent .c2p) → 2 ≤ final.log.count (.wrote .child .c2p)

theorem setpgid_stuck (calls : SetpgidCalls) (refused : calls.getpid = -1 ∨ calls.getpgid = -1) :
    Stuck step (duo (parentProcess (setpgid0ParentFn calls))
      (childProcess (setpgid0ChildFn calls)) [] [] []) := by
  rw [setpgid_child_refused calls refused]
  intro who
  cases who with
  | parent => rw [parentProcess,setpgid0ParentFn,Prog.bind,parent_reads,if_pos rfl]
  | child => exact child_done _ _ _ _ _

theorem setpgid_reads_in_order (calls : SetpgidCalls) (forks : calls.Forks)
    (fails : calls.setpgid = -1 ∨ calls.getpid = -1 ∨ calls.getpgid = -1) :
    ReadsInOrder (setpgid000 calls) := by
  rw [setpgid000,runFunc_forked _ _ _ forks]
  intro schedule final computed twice
  by_cases refused : calls.setpgid = -1
  · have once := one_read pipeBufSize (.verdict none) _ final
      (setpgid_parent_refused calls refused) rfl schedule computed
    omega
  · -- the child gives up before its first write, and the parent waits for it forever
    have stuck := setpgid_stuck calls (fails.resolve_left refused)
    cases run_stuck step schedule _ final stuck computed
    simp [duo] at twice

theorem not_reads_in_order (setup : Setup) (forks : setup.Forks) (parentFn childFn : Code Pipe Msg)
    (beyond : Fin 6 → Byte) (bytes : List Byte)
    (parentProg : parentProcess parentFn = read .c2p pipeBufSize
      (fun _ => write .p2c bytes (read .c2p pipeBufSize (fun _ => .ret (.verdict none)))))
    (childProg : ∃ child, childProcess childFn = write .c2p (syncText beyond) child) :
    ¬ReadsInOrder (runFunc setup parentFn childFn) := by
  obtain ⟨child,childProg⟩ := childProg
  rw [runFunc_forked setup _ _ forks,parentProg,childProg]
  intro ordered
  have late := ordered _ _ (parent_ahead beyond bytes child _) (by simp [duo])
  simp [duo] at late

/-- The order holds in every run of setpgid/000 exactly when the parent cannot
reach its second read, and in every run of getppid/000 only when nothing is
forked at all: each read leaves a byte of the first synchronisation behind. -/
theorem reads_in_order_iff (setpgid : SetpgidCalls) (getppid : GetppidCalls) :
    (ReadsInOrder (setpgid000 setpgid) ↔
      (¬setpgid.Forks ∨ setpgid.setpgid = -1 ∨ setpgid.getpid = -1 ∨ setpgid.getpgid = -1)) ∧
    (ReadsInOrder (getppid000 getppid) ↔ ¬getppid.Forks) := by
  refine ⟨?_,?_⟩
  · by_cases forks : setpgid.Forks
    · refine ⟨?_,?_⟩
      · intro ordered
        by_contra reached
        push Not at reached
        obtain ⟨_,refused,getpid,getpgid⟩ := reached
        exact not_reads_in_order setpgid.toSetup forks _ _ setpgid.beyond (syncText setpgid.beyond)
          (setpgid_parent setpgid refused) ⟨_,setpgid_child setpgid getpid getpgid⟩ ordered
      · intro fails
        exact setpgid_reads_in_order setpgid forks (fails.resolve_left (not_not_intro forks))
    · obtain ⟨msg,returned⟩ := runFunc_returned setpgid.toSetup (setpgid0ParentFn setpgid)
        (setpgid0ChildFn setpgid) forks
      simp [setpgid000,returned,ReadsInOrder,forks]
  · by_cases forks : getppid.Forks
    · simp only [forks,not_true,iff_false]
      exact not_reads_in_order getppid.toSetup forks _ _ getppid.beyond (pidBytes getppid.getpid)
        rfl ⟨_,rfl⟩
    · obtain ⟨msg,returned⟩ := runFunc_returned getppid.toSetup (getppid0ParentFn getppid)
        (getppid0ChildFn getppid) forks
      simp [getppid000,returned,ReadsInOrder,forks]

/-- One run of each test, with every call successful, in which the parent's
second read returns before the child's second write. -/
theorem second_read_returns_early :
    ¬ReadsInOrder (setpgid000 ⟨⟨0,0,100⟩,0,100,1,100,fun _ => 0⟩) ∧
    ¬ReadsInOrder (getppid000 ⟨⟨0,0,100⟩,1,1,0,fun _ => 0⟩) := by
  constructor
  · exact not_reads_in_order _ (by decide) _ _ (fun _ => 0) (syncText (fun _ => 0)) rfl ⟨_,rfl⟩
  · exact not_reads_in_order _ (by decide) _ _ (fun _ => 0) (pidBytes 1) rfl ⟨_,rfl⟩

/-! The verdict. -/

/-- Every run that can go no further has returned a failure message. -/
def ReportsFailure : Start → Prop
  | .returned _ => True
  | .forked s => ∀ schedule final, run step schedule s = some final → Stuck step final →
      ∃ msg, final.progs .parent = .ret (.verdict (some msg))

def SetpgidCalls.CheckFails (calls : SetpgidCalls) : Prop :=
  calls.setpgid = -1 ∨ calls.getpid = -1 ∨ calls.getpgid = -1 ∨ calls.getpgidAgain = -1

def GetppidCalls.CheckFails (calls : GetppidCalls) : Prop := calls.getppid ≠ calls.getpid

theorem stuck_of_blocked (s : State Who Pipe Result) (parent : step s .parent = none)
    (child : step s .child = none) : Stuck step s := by
  intro who
  cases who with
  | parent => exact parent
  | child => exact child

/-- When the child's own check fails at the end of the exchange, the parent has
already returned NULL. -/
theorem silent_child (setup : Setup) (forks : setup.Forks) (parentFn childFn : Code Pipe Msg)
    (beyond : Fin 6 → Byte) (bytes : List Byte) (some_bytes : bytes ≠ []) (count : Nat)
    (check : List Byte → Code Pipe Result) (fails : check (bytes.take count) = .ret (.exit 0))
    (parentProg : parentProcess parentFn = read .c2p pipeBufSize
      (fun _ => write .p2c bytes (read .c2p pipeBufSize (fun _ => .ret (.verdict none)))))
    (childProg : childProcess childFn =
      write .c2p (syncText beyond) (read .p2c count check)) :
    ¬ReportsFailure (runFunc setup parentFn childFn) := by
  rw [runFunc_forked setup _ _ forks,parentProg,childProg]
  intro reports
  have complete := run_append step [.child,.parent,.parent,.parent] [.child]
    (duo (read .c2p pipeBufSize
      (fun _ => write .p2c bytes (read .c2p pipeBufSize (fun _ => .ret (.verdict none)))))
      (write .c2p (syncText beyond) (read .p2c count check)) [] [] [])
  rw [parent_ahead,Option.bind_some,run,child_reads,if_neg some_bytes,Option.bind_some,fails] at complete
  obtain ⟨msg,silent⟩ := reports _ _ complete
    (stuck_of_blocked _ (parent_done _ _ _ _ _) (child_done _ _ _ _ _))
  simp [duo] at silent

theorem setpgid_silent (calls : SetpgidCalls) (forks : calls.Forks) (fails : calls.CheckFails) :
    ¬ReportsFailure (setpgid000 calls) := by
  by_cases early : calls.getpid = -1 ∨ calls.getpgid = -1
  · rw [setpgid000,runFunc_forked _ _ _ forks]
    intro reports
    obtain ⟨msg,silent⟩ := reports [] _ rfl (setpgid_stuck calls early)
    simp [duo,parentProcess,setpgid0ParentFn,Prog.bind] at silent
  push Not at early
  by_cases refused : calls.setpgid = -1
  · rw [setpgid000,runFunc_forked _ _ _ forks,setpgid_parent_refused calls refused,
      setpgid_child calls early.1 early.2]
    intro reports
    -- the parent gives up between the two phases, and the child waits for it forever
    obtain ⟨msg,silent⟩ := reports [.child,.parent] _
      (by simp only [run,child_writes,parent_reads,Option.bind_some,List.nil_append,
        syncText_ne_nil,if_false]; rfl)
      (stuck_of_blocked _ (parent_done _ _ _ _ _) (by rw [child_reads,if_pos rfl]))
    simp [duo] at silent
  · have again : calls.getpgidAgain = -1 := by
      rcases fails with bad | bad | bad | bad
      · exact absurd bad refused
      · exact absurd bad early.1
      · exact absurd bad early.2
      · exact bad
    exact silent_child calls.toSetup forks _ _ calls.beyond (syncText calls.beyond)
      (syncText_ne_nil _) pipeBufSize _ (by simp [tpAssert,again,childProcess,Prog.bind])
      (setpgid_parent calls refused) (setpgid_child calls early.1 early.2)

theorem getppid_silent (calls : GetppidCalls) (forks : calls.Forks) (fails : calls.CheckFails) :
    ¬ReportsFailure (getppid000 calls) := by
  refine silent_child calls.toSetup forks _ _ calls.beyond (pidBytes calls.getpid)
    (by simp [pidBytes]) 4 _ ?_ rfl rfl
  have differs : (calls.getppid == calls.getpid) = false := beq_eq_false_iff_ne.mpr fails
  have whole : (pidBytes calls.getpid).take 4 = pidBytes calls.getpid := rfl
  simp [whole,pidOf_pidBytes,differs,tpAssert,Prog.bind]

/-- A failed check of the parent or the child reaches the verdict only where no
check fails at all, or where the test ends before it forks. -/
theorem check_reported_iff (setpgid : SetpgidCalls) (getppid : GetppidCalls) :
    ((setpgid.CheckFails → ReportsFailure (setpgid000 setpgid)) ↔
      (¬setpgid.Forks ∨ ¬setpgid.CheckFails)) ∧
    ((getppid.CheckFails → ReportsFailure (getppid000 getppid)) ↔
      (¬getppid.Forks ∨ ¬getppid.CheckFails)) := by
  refine ⟨?_,?_⟩
  · by_cases forks : setpgid.Forks
    · simp only [forks,not_true,false_or]
      exact ⟨fun reported fails => setpgid_silent setpgid forks fails (reported fails),
        fun passes fails => absurd fails passes⟩
    · obtain ⟨msg,returned⟩ := runFunc_returned setpgid.toSetup (setpgid0ParentFn setpgid)
        (setpgid0ChildFn setpgid) forks
      simp [setpgid000,returned,ReportsFailure,forks]
  · by_cases forks : getppid.Forks
    · simp only [forks,not_true,false_or]
      exact ⟨fun reported fails => getppid_silent getppid forks fails (reported fails),
        fun passes fails => absurd fails passes⟩
    · obtain ⟨msg,returned⟩ := runFunc_returned getppid.toSetup (getppid0ParentFn getppid)
        (getppid0ChildFn getppid) forks
      simp [getppid000,returned,ReportsFailure,forks]

/-- A child that sees another parent than getpid names, and a parent that may
not change the group of its child: both tests still come to NULL. -/
theorem failed_check_unreported :
    let orphan : GetppidCalls := ⟨⟨0,0,100⟩,2,1,0,fun _ => 0⟩
    let refused : SetpgidCalls := ⟨⟨0,0,100⟩,-1,100,1,1,fun _ => 0⟩
    ¬(orphan.CheckFails → ReportsFailure (getppid000 orphan)) ∧
      ¬(refused.CheckFails → ReportsFailure (setpgid000 refused)) := by
  intro orphan refused
  have differs : orphan.CheckFails := by
    unfold GetppidCalls.CheckFails
    decide
  constructor
  · intro reported
    exact getppid_silent orphan (by decide) differs (reported differs)
  · intro reported
    exact setpgid_silent refused (by decide) (.inl rfl) (reported (.inl rfl))

end Ostest.TestMck.PipeSync
