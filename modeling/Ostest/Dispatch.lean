import Ostest.Lib.Strtoll
import Ostest.TestMck.Main

/-! Which test case a vector of arguments runs: main of test_mck, which looks its
case up by suite and number, and main of cpu_pa_info and of condition_monitor,
which index a table. -/
namespace Ostest.Dispatch
open Lib.Getopt Lib.Decimal TestMck

/-- The whole text is digits and they are those of the number. -/
def IsNumber (text : List Char) (number : Int) : Prop :=
  text ≠ [] ∧ (∀ c ∈ text, c.isDigit = true) ∧ (numeral text : Int) = number

theorem isNumber_nonneg (text : List Char) (number : Int) (whole : IsNumber text number) : 0 ≤ number := by
  have same := whole.2.2
  omega

/-- The text of an int is converted to it. -/
theorem atoi_number (text : List Char) (number : Int) (whole : IsNumber text number)
    (bound : number < 2^31) : atoi text = number := by
  obtain ⟨nonempty,digits,same⟩ := whole
  obtain ⟨c,rest,rfl⟩ := List.exists_cons_of_ne_nil nonempty
  have digit := digits c List.mem_cons_self
  have all : (c :: rest).takeWhile Char.isDigit = c :: rest := List.takeWhile_eq_self_iff.mpr digits
  have notSpace : Lib.Words.isSpace c = false := Lib.Strtoll.isDigit_not_space c digit
  have start : (c :: rest).dropWhile Lib.Words.isSpace = c :: rest :=
    List.dropWhile_cons_of_neg (by simp [notSpace])
  have converted : strtol (c :: rest) = min (2^63-1) number := by
    rw [strtol,start]
    split
    · rename_i sign
      obtain ⟨rfl,_⟩ := List.cons.inj sign
      contradiction
    · rename_i sign
      obtain ⟨rfl,_⟩ := List.cons.inj sign
      contradiction
    · rw [all,same]
  have small : min (2^63-1) number = number := by omega
  rw [atoi,converted,small,Int.bmod_eq_of_le (by omega) (by omega)]

/-! test_mck. -/

/-- What main does in the end: stop, or run one case. -/
inductive Choice where
  | stops (ending : Ending)
  | runs (tc : TestCase) (s : State)

def Choice.ending (environ : List Arg) : Choice → Option Ending
  | .stops ending => some ending
  | .runs tc s => tc.run environ s

def choose (cases : List TestCase) (ts : Option Arg) (num : Int) (s : State) : Choice :=
  match ts with
  | none => .stops (.usage 1)
  | some ts =>
    if num = intMin then .stops (.usage 1)
    else match findTestCase cases ts num with
      | none => .stops (.notFound ts num)
      | some tc => .runs tc s

/-- The switch of main, without the conversion of the number. -/
def givenOption (given : Option Arg × Option Arg) : Answer → Except Nat (Option Arg × Option Arg)
  | .option 's' (some optarg) => .ok (some optarg,given.2)
  | .option 'n' (some optarg) => .ok (given.1,some optarg)
  | .option 'h' _ => .error 0
  | _ => .error 1

def parsed (given : Option Arg × Option Arg) : Option Arg × Int := (given.1,given.2.elim intMin atoi)

/-- The suite and the number as the options give them; of several the last counts. -/
def arguments (environ argv : List Arg) : Option (Except Nat ((Option Arg × Option Arg) × State)) :=
  let s := State.initial (posixlyCorrect environ) argv
  scan (getopt "s:n:h".toList) givenOption (fuel s) (none,none) s

def testMckChoice (cases : List TestCase) (environ argv : List Arg) : Option Choice :=
  (arguments environ argv).map fun
    | .error status => .stops (.usage status)
    | .ok (given,s) => choose cases (parsed given).1 (parsed given).2 (shiftArgs s)

theorem mainOption_parsed (given : Option Arg × Option Arg) (answer : Answer) :
    mainOption (parsed given) answer = (givenOption given answer).map parsed := by
  fun_cases givenOption given answer
  · rfl
  · rfl
  · rfl
  · rename_i notSuite notNumber notHelp
    rw [mainOption.eq_def]
    split
    · exact (notSuite _ rfl).elim
    · exact (notNumber _ rfl).elim
    · exact (notHelp _ rfl).elim
    · rfl

theorem dispatch_choose (cases : List TestCase) (environ : List Arg) (ts : Option Arg) (num : Int)
    (s : State) : dispatch cases environ ts num s = (choose cases ts num s).ending environ := by
  cases ts with
  | none => rfl
  | some suite =>
    by_cases unset : num = intMin
    · simp only [dispatch,choose,if_pos unset,Choice.ending]
    · cases found : findTestCase cases suite num with
      | none => simp only [dispatch,choose,if_neg unset,found,Choice.ending]
      | some tc => simp only [dispatch,choose,if_neg unset,found,Choice.ending]

/-- main of test_mck runs the chosen case, and nothing else. -/
theorem testMck_choice (cases : List TestCase) (environ argv : List Arg) :
    testMck cases environ argv = (testMckChoice cases environ argv).bind (·.ending environ) := by
  have viewed := scan_map (getopt "s:n:h".toList) givenOption mainOption parsed mainOption_parsed
    (fuel (State.initial (posixlyCorrect environ) argv)) (none,none)
    (State.initial (posixlyCorrect environ) argv)
  change scan _ _ _ (none,intMin) _ = _ at viewed
  simp only [testMck,viewed,testMckChoice,arguments]
  cases scan (getopt "s:n:h".toList) givenOption (fuel (State.initial (posixlyCorrect environ) argv)) (none,none)
      (State.initial (posixlyCorrect environ) argv) with
  | none => rfl
  | some result =>
    cases result with
    | error status => rfl
    | ok last => exact dispatch_choose _ _ _ _ _

theorem arguments_ends (environ argv : List Arg) : (arguments environ argv).isSome := by
  cases argv with
  | nil =>
    unfold arguments
    cases posixlyCorrect environ <;> rfl
  | cons app args =>
    have ordered : Ordered (State.initial (posixlyCorrect environ) (app :: args)) :=
      ⟨Nat.le_refl 1,Nat.le_refl 1,Nat.le_refl 1,Nat.le_add_left 1 args.length,by simp [State.initial]⟩
    obtain ⟨result,scanned,_⟩ := scan_ends "s:n:h".toList givenOption (none,none) _ ordered
    rw [arguments,scanned]
    rfl

theorem choose_runs_iff (cases : List TestCase) (ts : Option Arg) (num : Int) (s t : State)
    (tc : TestCase) :
    choose cases ts num s = .runs tc t ↔
      ∃ suite, ts = some suite ∧ num ≠ intMin ∧ findTestCase cases suite num = some tc ∧ t = s := by
  cases ts with
  | none => simp [choose]
  | some suite =>
    by_cases unset : num = intMin
    · simp [choose,unset]
    · cases found : findTestCase cases suite num with
      | none => simp [choose,unset,found]
      | some other => simp [choose,unset,found,eq_comm]

/-- test_mck runs a case only if the options name it. -/
def RunsNamed (cases : List TestCase) (environ argv : List Arg) : Prop :=
  ∃ choice, testMckChoice cases environ argv = some choice ∧
    ∀ tc t, choice = .runs tc t → tc ∈ cases ∧
      ∃ text s, arguments environ argv = some (.ok ((some tc.testSuite,some text),s)) ∧
        IsNumber text tc.num

/-- A number that is converted to that of a case is the text of it. -/
def NumberWhole (cases : List TestCase) (environ argv : List Arg) : Prop :=
  ∀ suite text s tc, arguments environ argv = some (.ok ((some suite,some text),s)) →
    atoi text ≠ intMin → findTestCase cases suite (atoi text) = some tc → IsNumber text (atoi text)

theorem findTestCase_some (cases : List TestCase) (suite : Arg) (num : Int) (tc : TestCase)
    (found : findTestCase cases suite num = some tc) :
    tc ∈ cases ∧ tc.num = num ∧ tc.testSuite = suite := by
  have same := List.find?_some found
  simp only [Bool.and_eq_true,beq_iff_eq] at same
  exact ⟨List.mem_of_find?_eq_some found,same⟩

theorem runsNamed_iff (cases : List TestCase) (environ argv : List Arg) :
    RunsNamed cases environ argv ↔ NumberWhole cases environ argv := by
  obtain ⟨result,scanned⟩ := Option.isSome_iff_exists.mp (arguments_ends environ argv)
  constructor
  · rintro ⟨choice,chosen,named⟩ suite text s tc given set found
    obtain ⟨_,number,_⟩ := findTestCase_some _ _ _ _ found
    rw [testMckChoice,given] at chosen
    have runs := (choose_runs_iff cases (some suite) (atoi text) (shiftArgs s) _ tc).mpr
      ⟨suite,rfl,set,found,rfl⟩
    obtain ⟨_,text',s',given',whole⟩ := named tc _ ((Option.some.inj chosen).symm.trans runs)
    obtain ⟨⟨_,rfl⟩,rfl⟩ : (suite = tc.testSuite ∧ text = text') ∧ s = s' := by
      simpa [given] using given'
    rwa [number] at whole
  · intro whole
    refine ⟨_,by rw [testMckChoice,scanned]; rfl,?_⟩
    intro tc t runs
    cases result with
    | error status => contradiction
    | ok last =>
      obtain ⟨⟨ts,number⟩,s⟩ := last
      obtain ⟨suite,same,set,found,_⟩ := (choose_runs_iff _ _ _ _ _ _).mp runs
      obtain rfl : ts = some suite := same
      obtain ⟨member,num,suiteSame⟩ := findTestCase_some _ _ _ _ found
      cases number with
      | none => exact absurd rfl set
      | some text =>
        refine ⟨member,text,s,by rw [scanned,suiteSame],?_⟩
        rw [num]
        exact whole suite text s tc scanned set found

/-- A case that the options name is run. -/
theorem named_case_runs (cases : List TestCase) (environ argv : List Arg) (suite text : Arg) (s : State)
    (tc : TestCase) (number : Int)
    (given : arguments environ argv = some (.ok ((some suite,some text),s)))
    (whole : IsNumber text number) (bound : number < 2^31)
    (found : findTestCase cases suite number = some tc) :
    testMckChoice cases environ argv = some (.runs tc (shiftArgs s)) := by
  have converted := atoi_number text number whole bound
  have low := isNumber_nonneg text number whole
  have set : number ≠ intMin := by
    simp only [intMin]
    omega
  rw [testMckChoice,given]
  refine congrArg some ((choose_runs_iff _ _ _ _ _ _).mpr ⟨suite,rfl,?_,?_,rfl⟩)
  · simpa [parsed,converted] using set
  · simpa [parsed,converted] using found

/-! cpu_pa_info and condition_monitor. -/

/-- The tables of a program. A function takes the number of the case and of the OS. -/
structure Program where
  usageMessages : List String
  testCases : List (Option (Int → Int → Int))

/-- What a run printed, which entries of the table it called, and what it returned. -/
structure Outcome where
  printed : List String
  calls : List (Nat × Int × Int)
  ret : Int

def usage (program : Program) (app : String) : List String :=
  [app ++ " <os_num> <tp_num>\n",
    "   os_num    : os number.\n",
    "   tp_num    : tp number. (0-" ++ toString ((program.usageMessages.length : Int) - 1) ++ ")\n"] ++
  program.usageMessages.mapIdx (fun i message =>
    String.ofList (padLeft ' ' 6 (decimal i)) ++ " : " ++ message ++ "\n")

/-- `none` is an index outside the table. -/
def Program.entry (program : Program) (index : Int) : Option (Option (Int → Int → Int)) :=
  if index < 0 then none else program.testCases[index.toNat]?

/-- main; an error is the index of an access outside the table. -/
def programMain (program : Program) (argv : List Arg) : Except Int Outcome :=
  if program.usageMessages.length ≠ program.testCases.length then
    .ok ⟨["BUG: Usage strings and TP count are different.\n"],[],-1⟩
  else match argv with
  | [app,os,tp] =>
    let osNum := atoi os
    let tpNum := atoi tp
    if osNum < 0 ∨ 63 < osNum then
      .ok ⟨"Invalid argument 1 os_num.\n" :: usage program (String.ofList app),[],-1⟩
    else if (program.testCases.length : Int) ≤ tpNum then
      .ok ⟨"TP number invaid.\n" :: usage program (String.ofList app),[],-1⟩
    else match program.entry tpNum with
      | none => .error tpNum
      | some none => .ok ⟨["BUG: TP function pointer is NULL.\n","RESULT:NG.\n"],[],-1⟩
      | some (some func) =>
        let ret := func tpNum osNum
        .ok ⟨[if ret ≠ 0 then "RESULT:NG.\n" else "RESULT:OK.\n"],[(tpNum.toNat,tpNum,osNum)],ret⟩
  | [] => .ok ⟨usage program "(null)",[],-1⟩
  | app :: _ => .ok ⟨usage program (String.ofList app),[],-1⟩

def cpuPaInfo (test : Fin 6 → Int → Int → Int) : Program where
  usageMessages := [
    "set/enable/get/disable/destroy check config(0x00-0x3f). (for each)",
    "set/enable/get/disable/destroy check config(0x00-0x3f). (all at once)",
    "set/enable/get/disable/destroy check disabled flags on.",
    "set/enable/get/disable/destroy check pinned flags on.",
    "set/enable/get/disable/destroy check exclude flags on.",
    "set/enable/get/disable/destroy check config(0x00-0x07). (8 counter at once)"]
  testCases := List.ofFn (fun number => some (test number))

def conditionMonitor (test : Fin 3 → Int → Int → Int) : Program where
  usageMessages := [
    "event check IHK_OS_EVENTFD_TYPE_OOM. (physical memory used exceeds the limit)",
    "event check IHK_OS_EVENTFD_TYPE_STATUS. (LWK state panic or hung-up)",
    "LWK state check."]
  testCases := List.ofFn (fun number => some (test number))

/-- Every case has a usage message and a function. -/
structure Complete (program : Program) : Prop where
  messages : program.usageMessages.length = program.testCases.length
  functions : ∀ func ∈ program.testCases, func ≠ none

theorem cpuPaInfo_complete (test : Fin 6 → Int → Int → Int) : Complete (cpuPaInfo test) :=
  ⟨rfl,by simp [cpuPaInfo]⟩

theorem conditionMonitor_complete (test : Fin 3 → Int → Int → Int) : Complete (conditionMonitor test) :=
  ⟨rfl,by simp [conditionMonitor]⟩

/-- A case is called once and only if the argument is its number, and no access
leaves the table. -/
def RunsNumbered (program : Program) (argv : List Arg) : Prop :=
  ∃ outcome, programMain program argv = .ok outcome ∧
    (outcome.calls = [] ∨ ∃ app os tp, ∃ number < program.testCases.length,
      argv = [app,os,tp] ∧ IsNumber tp number ∧ outcome.calls = [(number,(number : Int),atoi os)])

/-- With an OS that exists, a number below the size of the table is the text of it. -/
def IndexWhole (program : Program) (argv : List Arg) : Prop :=
  ∀ app os tp, argv = [app,os,tp] → 0 ≤ atoi os → atoi os ≤ 63 →
    atoi tp < program.testCases.length → IsNumber tp (atoi tp)

theorem entry_calls (program : Program) (complete : Complete program) (index : Int) (low : 0 ≤ index)
    (high : index < program.testCases.length) : ∃ func, program.entry index = some (some func) := by
  have bound : index.toNat < program.testCases.length := by omega
  have present := complete.functions _ (List.getElem_mem bound)
  obtain ⟨func,same⟩ := Option.ne_none_iff_exists'.mp present
  exact ⟨func,by rw [Program.entry,if_neg (by omega),List.getElem?_eq_getElem bound,same]⟩

section
variable (program : Program) (complete : Complete program)
include complete

theorem programMain_outside (app os tp : Arg) (low : 0 ≤ atoi os) (high : atoi os ≤ 63)
    (below : atoi tp < program.testCases.length) (negative : atoi tp < 0) :
    programMain program [app,os,tp] = .error (atoi tp) := by
  have entry : program.entry (atoi tp) = none := if_pos negative
  rw [programMain,if_neg (not_not.mpr complete.messages)]
  dsimp only
  rw [if_neg (by omega),if_neg (by omega),entry]

theorem programMain_calls (app os tp : Arg) (low : 0 ≤ atoi os) (high : atoi os ≤ 63)
    (below : atoi tp < program.testCases.length) (index : 0 ≤ atoi tp) :
    ∃ printed ret, programMain program [app,os,tp] =
      .ok ⟨printed,[((atoi tp).toNat,atoi tp,atoi os)],ret⟩ := by
  obtain ⟨func,entry⟩ := entry_calls program complete (atoi tp) index below
  rw [programMain,if_neg (not_not.mpr complete.messages)]
  dsimp only
  rw [if_neg (by omega),if_neg (by omega),entry]
  exact ⟨_,_,rfl⟩

theorem programMain_stops (argv : List Arg) (refused : ∀ app os tp, argv = [app,os,tp] →
      atoi os < 0 ∨ 63 < atoi os ∨ program.testCases.length ≤ atoi tp) :
    ∃ printed ret, programMain program argv = .ok ⟨printed,[],ret⟩ := by
  rw [programMain.eq_def,if_neg (not_not.mpr complete.messages)]
  split
  · rename_i app os tp
    have why := refused app os tp rfl
    dsimp only
    by_cases noOs : atoi os < 0 ∨ 63 < atoi os
    · rw [if_pos noOs]
      exact ⟨_,_,rfl⟩
    · rw [if_neg noOs,if_pos (by omega)]
      exact ⟨_,_,rfl⟩
  · exact ⟨_,_,rfl⟩
  · exact ⟨_,_,rfl⟩

theorem runsNumbered_iff (argv : List Arg) : RunsNumbered program argv ↔ IndexWhole program argv := by
  constructor
  · rintro ⟨outcome,ran,named⟩ app os tp rfl low high below
    have index : 0 ≤ atoi tp := by
      by_contra negative
      rw [programMain_outside program complete app os tp low high below (by omega)] at ran
      contradiction
    obtain ⟨printed,ret,called⟩ := programMain_calls program complete app os tp low high below index
    obtain rfl : outcome = _ := Except.ok.inj (ran.symm.trans called)
    rcases named with none | ⟨_,_,tp',number,_,same,whole,calls⟩
    · contradiction
    · obtain ⟨rfl,rfl,rfl⟩ : app = _ ∧ os = _ ∧ tp = tp' := by simpa using same
      have number : (number : Int) = atoi tp := (Prod.mk.inj (Prod.mk.inj (List.head_eq_of_cons_eq calls)).2).1.symm
      rwa [number] at whole
  · intro whole
    by_cases selected : ∃ app os tp, argv = [app,os,tp] ∧ 0 ≤ atoi os ∧ atoi os ≤ 63 ∧
        atoi tp < program.testCases.length
    · obtain ⟨app,os,tp,rfl,low,high,below⟩ := selected
      have number := whole app os tp rfl low high below
      have index := isNumber_nonneg tp (atoi tp) number
      obtain ⟨printed,ret,called⟩ := programMain_calls program complete app os tp low high below index
      have same : ((atoi tp).toNat : Int) = atoi tp := Int.toNat_of_nonneg index
      exact ⟨_,called,.inr ⟨app,os,tp,(atoi tp).toNat,by omega,rfl,by rwa [same],by rw [same]⟩⟩
    · obtain ⟨printed,ret,stopped⟩ := programMain_stops program complete argv (by
        intro app os tp same
        by_contra accepted
        exact selected ⟨app,os,tp,same,by omega,by omega,by omega⟩)
      exact ⟨_,stopped,.inl rfl⟩

/-- A case whose number is given with an OS that exists is run. -/
theorem numbered_case_runs (app os tp : Arg) (number : Nat) (low : 0 ≤ atoi os) (high : atoi os ≤ 63)
    (whole : IsNumber tp number) (bound : number < program.testCases.length) (int : number < 2^31) :
    ∃ printed ret, programMain program [app,os,tp] = .ok ⟨printed,[(number,(number : Int),atoi os)],ret⟩ := by
  have converted := atoi_number tp number whole (by omega)
  have called := programMain_calls program complete app os tp low high (by omega) (by omega)
  rwa [converted] at called

end

/-- None of the dispatchers looks at what follows the digits, and the two that
index a table do not look at the sign. -/
theorem dispatch_whole_iff (cases : List TestCase) (environ argv : List Arg)
    (paTest : Fin 6 → Int → Int → Int) (monitorTest : Fin 3 → Int → Int → Int) :
    (RunsNamed cases environ argv ↔ NumberWhole cases environ argv) ∧
    (RunsNumbered (cpuPaInfo paTest) argv ↔ IndexWhole (cpuPaInfo paTest) argv) ∧
    (RunsNumbered (conditionMonitor monitorTest) argv ↔ IndexWhole (conditionMonitor monitorTest) argv) :=
  ⟨runsNamed_iff cases environ argv,
    runsNumbered_iff _ (cpuPaInfo_complete paTest) argv,
    runsNumbered_iff _ (conditionMonitor_complete monitorTest) argv⟩

def getpidCase : TestCase := ⟨"getpid".toList,0,fun _ _ => some (.result none)⟩

theorem dispatch_not_whole :
    programMain (cpuPaInfo fun _ _ _ => 0) ["cpu_pa_info".toList,"0".toList,"-1".toList] = .error (-1) ∧
    ¬ RunsNumbered (cpuPaInfo fun _ _ _ => 0) ["cpu_pa_info".toList,"0".toList,"-1".toList] ∧
    ¬ RunsNumbered (conditionMonitor fun _ _ _ => 0) ["condition_monitor".toList,"0".toList,"2x".toList] ∧
    ¬ RunsNamed [getpidCase] [] ["test_mck".toList,"-s".toList,"getpid".toList,"-n".toList,"all".toList] := by
  refine ⟨rfl,?_,?_,?_⟩
  · rw [runsNumbered_iff _ (cpuPaInfo_complete _)]
    intro whole
    have number := whole _ _ _ rfl (by decide) (by decide) (by decide)
    exact absurd (number.2.1 '-' (by decide)) (by decide)
  · rw [runsNumbered_iff _ (conditionMonitor_complete _)]
    intro whole
    have number := whole _ _ _ rfl (by decide) (by decide) (by decide)
    exact absurd (number.2.1 'x' (by decide)) (by decide)
  · rw [runsNamed_iff]
    intro whole
    have number := whole "getpid".toList "all".toList _ getpidCase rfl (by decide) rfl
    exact absurd (number.2.1 'a' (by decide)) (by decide)

end Ostest.Dispatch
