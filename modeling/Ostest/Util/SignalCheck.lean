import Ostest.Lib.Decimal
import Ostest.Lib.Grep

/-! The programs lv12-kill, lv12-kill-single and lv15-kill, which send signals to
themselves, and check/signal.sh, which judges a record file of their output. -/
namespace Ostest.Util.SignalCheck
open Lib.Grep Lib.Decimal

abbrev Line := List Char

/-- Text inside a line that cannot be taken for a label. -/
abbrev Text := {text : Line // '[' ∉ text ∧ '\n' ∉ text}

instance : Append Text where
  append first second := ⟨first.val ++ second.val,by
    simp [first.property,second.property]⟩

def number (n : Nat) : Text :=
  ⟨decimal n,decimal_without n _ rfl,decimal_without n _ rfl⟩

/-- arch_sigtable.h of an architecture. -/
structure SigTable where
  sigName : List Text
  sigNum : List Nat
  inRange : ∀ n ∈ sigNum, n < sigName.length

def Text.empty : Text := ⟨[],by decide⟩

/-- `sig_num = %d, sig_name:%s` -/
def SigTable.describe (table : SigTable) (n : Nat) : Text :=
  ⟨"sig_num = ".toList,by decide⟩ ++ number n ++ ⟨", sig_name:".toList,by decide⟩ ++
    table.sigName.getD n Text.empty

inductive Label where
  | ok
  | info
  | ng
  deriving DecidableEq

structure Report where
  label : Option Label
  rest : Text

/-! The system calls of a program: `failed` says whether signal() answered
SIG_ERR. -/

inductive Outcome where
  | failed
  | succeeded
  /-- The process ends; so many of its lines were written out. -/
  | died (flushed : Nat)

/-- A kill() of the own process: what signal() answers in the handler, if that
runs, and how the call ends. -/
structure Kill where
  handled : Option Bool
  outcome : Outcome

def endOfUserProgram : Report := ⟨none,⟨"end of user program.".toList,by decide⟩⟩

def sigHandler (described : Text) (failed : Bool) : List Report :=
  ⟨some .ok,described ++ ⟨" received.".toList,by decide⟩⟩ ::
    if failed then [⟨some .ng,⟨"signal function default failed. ".toList,by decide⟩ ++ described⟩]
    else []

def Kill.reports (kill : Kill) (described : Text) : List Report :=
  match kill.handled with
  | none => []
  | some failed => sigHandler described failed

def setFailed (described : Text) : Report :=
  ⟨some .info,⟨"signal function set failed. ".toList,by decide⟩ ++ described⟩

/-- The loop of entry-kill.c, with what it has printed so far. -/
def lv12Loop (table : SigTable) (failed : Nat → Bool) (kill : Nat → Kill) :
    Nat → List Nat → List Report → List Report
  | _, [], printed => printed ++ [endOfUserProgram]
  | i, n :: sigNum, printed =>
    if failed i then
      lv12Loop table failed kill (i+1) sigNum (printed ++ [setFailed (table.describe n)])
    else
      let printed := printed ++ (kill i).reports (table.describe n)
      match (kill i).outcome with
      | .failed => printed ++ [⟨some .ng,⟨"kill faild. ".toList,by decide⟩ ++ table.describe n⟩]
      | .succeeded => lv12Loop table failed kill (i+1) sigNum printed
      | .died flushed => printed.take flushed

def lv12Kill (table : SigTable) (failed : Nat → Bool) (kill : Nat → Kill) : List Report :=
  lv12Loop table failed kill 0 table.sigNum []

def sigill : Nat := 4

def lv12KillSingle (failed : Bool) (kill : Kill) : List Report :=
  let described : Text := ⟨"sig_num = ".toList,by decide⟩ ++ number sigill
  if failed then [setFailed described]
  else
    let printed := kill.reports described
    match kill.outcome with
    | .failed => printed ++ [⟨some .ng,⟨"kill failed. ".toList,by decide⟩ ++ described⟩]
    | .succeeded => printed ++ [endOfUserProgram]
    | .died flushed => printed.take flushed

/-- What lv15-kill finds behind the end of `sig_num`, where it looks for the number
of a signal that could not be sent. -/
inductive Beyond where
  | text (described : Text)
  | crash (flushed : Nat)

def lv15Kill (table : SigTable) (failed : Nat → Bool) (rand : Nat) (kill : Kill) (beyond : Beyond) :
    List Report :=
  let n := table.sigNum.getD (rand%32) 0
  let set := table.sigNum.zipIdx.filter (fun (_,i) => failed i)
  let printed := set.map (fun (n,_) => setFailed (table.describe n)) ++ kill.reports (table.describe n)
  match kill.outcome with
  | .failed => match beyond with
    | .text described => printed ++ [⟨some .ng,⟨"kill failed. ".toList,by decide⟩ ++ described⟩]
    | .crash flushed => printed.take flushed
  | .succeeded => printed ++ [endOfUserProgram]
  | .died flushed => printed.take flushed

inductive Run where
  | lv12Kill (failed : Nat → Bool) (kill : Nat → Kill)
  | lv12KillSingle (failed : Bool) (kill : Kill)
  | lv15Kill (failed : Nat → Bool) (rand : Nat) (kill : Kill) (beyond : Beyond)

def Run.reports (table : SigTable) : Run → List Report
  | .lv12Kill failed kill => SignalCheck.lv12Kill table failed kill
  | .lv12KillSingle failed kill => SignalCheck.lv12KillSingle failed kill
  | .lv15Kill failed rand kill beyond => SignalCheck.lv15Kill table failed rand kill beyond

def Run.isLv12 : Run → Bool
  | .lv15Kill _ _ _ _ => false
  | _ => true

/-- The texts of the labels, which are not the same in lv12 and lv15. -/
def lv12Label : Label → Line
  | .ok => "[  OK  ] ".toList
  | .info => "[ INFO ] ".toList
  | .ng => "[  NG  ] ".toList

def lv15Label : Label → Line
  | .ok => "[   OK   ] ".toList
  | .info => "[  INFO  ] ".toList
  | .ng => "[   NG   ] ".toList

def render (labels : Label → Line) (report : Report) : Line :=
  match report.label with
  | none => report.rest.val
  | some label => labels label ++ report.rest.val

def Run.printed (table : SigTable) (run : Run) : List Line :=
  (run.reports table).map (render (if run.isLv12 then lv12Label else lv15Label))

def record (table : SigTable) (runs : List Run) : List Char :=
  (runs.flatMap (Run.printed table)).flatMap (· ++ ['\n'])

/-! check/signal.sh -/

def received : Line := "received".toList

def ngLabel : Line := "[  NG  ]".toList

def signalCheck (rc : Nat) (recordfile answerfile : List Char) : Nat :=
  let noksR := grepCount received (lines recordfile)
  let noksA := grepCount received (lines answerfile)
  let nngsR := grepCount ngLabel (lines recordfile)
  if noksR ≠ noksA ∨ nngsR ≠ 0 then 1 else rc

/-! Which lines the pattern finds. -/

theorem render_oneLine (labels : Label → Line) (plain : ∀ label, '\n' ∉ labels label)
    (report : Report) : '\n' ∉ render labels report := by
  unfold render
  split
  · exact report.rest.property.2
  · rename_i label _
    simp [plain label,report.rest.property.2]

theorem lines_record (table : SigTable) (runs : List Run) :
    lines (record table runs) = runs.flatMap (Run.printed table) := by
  apply lines_printed
  intro line member
  obtain ⟨run,_,printed⟩ := List.mem_flatMap.mp member
  obtain ⟨report,_,rfl⟩ := List.mem_map.mp printed
  apply render_oneLine
  intro label
  cases run.isLv12 with
  | false => cases label <;> decide
  | true => cases label <;> decide

theorem occurs_unlabelled (text : Text) : occurs ngLabel text.val = false :=
  occurs_foreign ngLabel text.val '[' (by decide) text.property.1

theorem no_bracket (start : Line) (plain : '[' ∉ start) (text : Text) : '[' ∉ start ++ text.val := by
  simp [plain,text.property.1]

/-- The pattern is the label of lv12. -/
theorem occurs_lv12 (report : Report) :
    occurs ngLabel (render lv12Label report) = decide (report.label = some .ng) := by
  obtain ⟨label,rest⟩ := report
  cases label with
  | none => exact occurs_unlabelled rest
  | some label =>
    cases label with
    | ok => exact occurs_marked '[' _ _ (no_bracket "  OK  ] ".toList (by decide) rest)
    | info => exact occurs_marked '[' _ _ (no_bracket " INFO ] ".toList (by decide) rest)
    | ng => exact occurs_marked '[' _ _ (no_bracket "  NG  ] ".toList (by decide) rest)

theorem occurs_lv15 (report : Report) : occurs ngLabel (render lv15Label report) = false := by
  obtain ⟨label,rest⟩ := report
  cases label with
  | none => exact occurs_unlabelled rest
  | some label =>
    cases label with
    -- these labels are wider than the pattern
    | ok => exact occurs_marked '[' _ _ (no_bracket "   OK   ] ".toList (by decide) rest)
    | info => exact occurs_marked '[' _ _ (no_bracket "  INFO  ] ".toList (by decide) rest)
    | ng => exact occurs_marked '[' _ _ (no_bracket "   NG   ] ".toList (by decide) rest)

def Run.PrintedNg (table : SigTable) (run : Run) : Prop :=
  ∃ report ∈ run.reports table, report.label = some .ng

theorem found_iff (table : SigTable) (run : Run) :
    (∃ line ∈ run.printed table, occurs ngLabel line = true) ↔
      run.isLv12 = true ∧ run.PrintedNg table := by
  simp only [Run.printed,List.mem_map,Run.PrintedNg]
  cases run.isLv12 with
  | false =>
    simp only [Bool.false_eq_true,if_false,false_and,iff_false]
    rintro ⟨_,⟨report,_,rfl⟩,found⟩
    exact Bool.false_ne_true ((occurs_lv15 report).symm.trans found)
  | true =>
    simp only [if_true,true_and]
    constructor
    · rintro ⟨_,⟨report,member,rfl⟩,found⟩
      exact ⟨report,member,of_decide_eq_true ((occurs_lv12 report).symm.trans found)⟩
    · rintro ⟨report,member,ng⟩
      exact ⟨_,⟨report,member,rfl⟩,(occurs_lv12 report).trans (decide_eq_true ng)⟩

theorem nngs_iff (table : SigTable) (runs : List Run) :
    grepCount ngLabel (lines (record table runs)) ≠ 0 ↔
      ∃ run ∈ runs, run.isLv12 = true ∧ run.PrintedNg table := by
  rw [lines_record,grepCount_pos_iff]
  constructor
  · rintro ⟨line,member,found⟩
    obtain ⟨run,listed,printed⟩ := List.mem_flatMap.mp member
    exact ⟨run,listed,(found_iff table run).mp ⟨line,printed,found⟩⟩
  · rintro ⟨run,listed,ng⟩
    obtain ⟨line,printed,found⟩ := (found_iff table run).mpr ng
    exact ⟨line,List.mem_flatMap.mpr ⟨run,listed,printed⟩,found⟩

/-- The check notices what a run of lv12 reports. What a run of lv15 reports it
notices only by the number of received signals. -/
theorem signal_check_iff (table : SigTable) (runs : List Run) (rc : Nat) (answerfile : List Char) :
    ((∃ run ∈ runs, run.PrintedNg table) → signalCheck rc (record table runs) answerfile = 1) ↔
      ((∃ run ∈ runs, run.PrintedNg table) →
        rc = 1 ∨ (∃ run ∈ runs, run.isLv12 = true ∧ run.PrintedNg table) ∨
        grepCount received (lines (record table runs)) ≠ grepCount received (lines answerfile)) := by
  apply imp_congr_right
  intro _
  rw [signalCheck,← nngs_iff]
  split
  · rename_i noticed
    exact iff_of_true rfl (.inr noticed.symm)
  · rename_i silent
    have quiet := not_or.mp silent
    simp [quiet.1,quiet.2]

def arm64 : SigTable where
  sigName :=
    [⟨"DUMMY".toList,by decide⟩,
      ⟨"SIGHUP".toList,by decide⟩,⟨"SIGINT".toList,by decide⟩,⟨"SIGQUIT".toList,by decide⟩,
      ⟨"SIGILL".toList,by decide⟩,⟨"SIGTRAP".toList,by decide⟩,
      ⟨"SIGABRT / SIGIOT".toList,by decide⟩,⟨"SIGBUS".toList,by decide⟩,⟨"SIGFPE".toList,by decide⟩,
      ⟨"SIGKILL".toList,by decide⟩,⟨"SIGUSR1".toList,by decide⟩,
      ⟨"SIGSEGV".toList,by decide⟩,⟨"SIGUSR2".toList,by decide⟩,⟨"SIGPIPE".toList,by decide⟩,
      ⟨"SIGALRM".toList,by decide⟩,⟨"SIGTERM".toList,by decide⟩,
      ⟨"SIGSTKFLT".toList,by decide⟩,⟨"SIGCHLD".toList,by decide⟩,⟨"SIGCONT".toList,by decide⟩,
      ⟨"SIGSTOP".toList,by decide⟩,⟨"SIGTSTP".toList,by decide⟩,
      ⟨"SIGTTIN".toList,by decide⟩,⟨"SIGTTOU".toList,by decide⟩,⟨"SIGURG".toList,by decide⟩,
      ⟨"SIGXCPU".toList,by decide⟩,⟨"SIGXFSZ".toList,by decide⟩,
      ⟨"SIGVTALRM".toList,by decide⟩,⟨"SIGPROF".toList,by decide⟩,⟨"SIGWINCH".toList,by decide⟩,
      ⟨"SIGIO".toList,by decide⟩,⟨"SIGPWR".toList,by decide⟩,
      ⟨"SIGSYS".toList,by decide⟩]
  sigNum :=
    [1,2,3,4,5,6,6,7,8,9,10,11,12,13,14,15,16,17,18,19,20,21,22,23,24,25,26,27,28,29,30,31]
  inRange := by decide

theorem signal_check_kill_failed :
    signalCheck 0 (record arm64 [.lv12KillSingle false ⟨none,.failed⟩]) [] = 1 := by
  have ng : (Run.lv12KillSingle false ⟨none,.failed⟩).PrintedNg arm64 :=
    ⟨_,List.mem_cons_self,rfl⟩
  refine (signal_check_iff arm64 [.lv12KillSingle false ⟨none,.failed⟩] 0 []).mpr (fun _ => ?_)
    ⟨_,List.mem_cons_self,ng⟩
  exact .inr (.inl ⟨_,List.mem_cons_self,rfl,ng⟩)

/-- The first value of rand(), as nothing calls srand(). It picks SIGBUS. -/
def firstRand : Nat := 1804289383

/-- A run of lv15 in which the handler cannot reset the signal, judged by the
answer of a run in which it can. -/
theorem lv15_ng_unnoticed :
    (Run.lv15Kill (fun _ => false) firstRand ⟨some true,.succeeded⟩ (.crash 0)).PrintedNg arm64 ∧
    signalCheck 0 (record arm64 [.lv15Kill (fun _ => false) firstRand ⟨some true,.succeeded⟩ (.crash 0)])
      (record arm64 [.lv15Kill (fun _ => false) firstRand ⟨some false,.succeeded⟩ (.crash 0)]) = 0 := by
  refine ⟨⟨_,List.mem_cons_of_mem _ List.mem_cons_self,rfl⟩,?_⟩
  decide +kernel

end Ostest.Util.SignalCheck
