import Ostest.Lib.Decimal
import Ostest.Lib.Getopt
import Ostest.Lib.Signed
import Ostest.Lib.Words

/-! test_mck.c: the dispatcher of the tests. The table of the cases is generated
from the source tree and a parameter here; a case gets the environment and what
main leaves in getopt, and covers its setup, run and teardown functions. -/
namespace Ostest.TestMck
open Lib.Getopt Lib.Decimal
open Lib.Words (isSpace)

/-- How test_mck ends: with its usage text, without the case, with a RESULT line,
or by becoming another program. -/
inductive Ending where
  | usage (status : Nat)
  | notFound (testSuite : Arg) (num : Int)
  | result (message : Option String)
  | execve (path : Arg) (argv : List (Option Arg)) (environ : List Arg)
  deriving DecidableEq

structure TestCase where
  testSuite : Arg
  num : Int
  run : List Arg → State → Option Ending

def strtol (text : List Char) : Int :=
  match text.dropWhile isSpace with
  | '-' :: rest => max (-2^63) (-(numeral (rest.takeWhile Char.isDigit) : Int))
  | '+' :: rest => min (2^63-1) (numeral (rest.takeWhile Char.isDigit))
  | rest => min (2^63-1) (numeral (rest.takeWhile Char.isDigit))

/-- atoi is strtol converted to an int. -/
def atoi (text : List Char) : Int := (strtol text).bmod (2^32)

def intMin : Int := -2^31

def posixlyCorrect (environ : List Arg) : Bool :=
  environ.any (fun entry => "POSIXLY_CORRECT=".toList.isPrefixOf entry)

/-- The switch in the loop of main; an error is the status that main returns. -/
def mainOption (acc : Option Arg × Int) : Answer → Except Nat (Option Arg × Int)
  | .option 's' (some optarg) => .ok (some optarg,acc.2)
  | .option 'n' (some optarg) => .ok (acc.1,atoi optarg)
  | .option 'h' _ => .error 0
  | _ => .error 1

/-- main moves argv behind the options it has read, and restarts getopt. -/
def shiftArgs (s : State) : State :=
  {s with argv := (s.argv.set (s.optind-1) (s.argv.headD [])).drop (s.optind-1), optind := 1}

def findTestCase (cases : List TestCase) (testSuite : Arg) (num : Int) : Option TestCase :=
  cases.find? (fun tc => tc.num == num && tc.testSuite == testSuite)

def dispatch (cases : List TestCase) (environ : List Arg) (ts : Option Arg) (num : Int) (s : State) :
    Option Ending :=
  match ts with
  | none => some (.usage 1)
  | some ts =>
    if num = intMin then some (.usage 1)
    else match findTestCase cases ts num with
      | none => some (.notFound ts num)
      | some tc => tc.run environ s

def testMck (cases : List TestCase) (environ argv : List Arg) : Option Ending :=
  let s := State.initial (posixlyCorrect environ) argv
  match scan (getopt "s:n:h".toList) mainOption (fuel s) (none,intMin) s with
  | none => none
  | some (.error status) => some (.usage status)
  | some (.ok ((ts,num),s)) => dispatch cases environ ts num (shiftArgs s)

/-- A test function returns the message of the first assertion that fails. -/
def tpAssert (test : Bool) (message : String) : ExceptT String Option Unit :=
  if test then pure () else throw message

@[simp]
theorem done_tpAssert_iff (test : Bool) (message : String) :
    Lib.Signed.Done (tpAssert test message) ↔ test = true := by
  cases test with
  | false =>
    refine ⟨?_,Bool.noConfusion⟩
    intro done
    have returned : some (Except.error message) = some (.ok ()) := done
    simp at returned
  | true => exact ⟨fun _ => rfl,fun _ => rfl⟩

theorem shiftArgs_ordered (s : State) (ordered : Ordered s) (nextchar : s.nextchar = []) :
    Ordered (shiftArgs s) := by
  refine ⟨ordered.program,Nat.le_refl 1,ordered.nonopts,?_,by simp [shiftArgs,nextchar]⟩
  have started := ordered.started
  have inside := ordered.inside
  simp only [shiftArgs,List.length_drop,List.length_set]
  omega

theorem dispatch_found (cases : List TestCase) (environ : List Arg) (ts : Arg) (num : Int) (s : State)
    (tc : TestCase) (known : num ≠ intMin) (found : findTestCase cases ts num = some tc) :
    dispatch cases environ (some ts) num s = tc.run environ s := by
  simp only [dispatch,if_neg known,found]

theorem dispatch_ends (cases : List TestCase) (environ : List Arg) (ts : Option Arg) (num : Int)
    (s : State) (caseEnds : ∀ tc ∈ cases, (tc.run environ s).isSome) :
    (dispatch cases environ ts num s).isSome := by
  unfold dispatch
  split
  · rfl
  · split
    · rfl
    · split
      · rfl
      · rename_i tc found
        exact caseEnds tc (List.mem_of_find?_eq_some found)

/-- test_mck ends on every argument vector, if its cases do. -/
theorem testMck_ends (cases : List TestCase) (environ : List Arg) (app : Arg) (args : List Arg)
    (caseEnds : ∀ tc ∈ cases, ∀ s, Ordered s → (tc.run environ s).isSome) :
    (testMck cases environ (app :: args)).isSome := by
  have ordered : Ordered (State.initial (posixlyCorrect environ) (app :: args)) :=
    ⟨Nat.le_refl 1,Nat.le_refl 1,Nat.le_refl 1,Nat.le_add_left 1 args.length,by simp [State.initial]⟩
  obtain ⟨result,scanned,after⟩ := scan_ends "s:n:h".toList mainOption (none,intMin) _ ordered
  simp only [testMck,scanned]
  match result with
  | .error status => rfl
  | .ok ((ts,num),s) =>
    obtain ⟨ordered,nextchar⟩ := after (ts,num) s rfl
    have shifted := shiftArgs_ordered s ordered nextchar
    exact dispatch_ends cases environ ts num _ (fun tc member => caseEnds tc member _ shifted)

theorem testMck_dispatches (cases : List TestCase) (environ argv : List Arg) (acc : Option Arg × Int)
    (s : State)
    (scanned : scan (getopt "s:n:h".toList) mainOption (fuel (State.initial (posixlyCorrect environ) argv))
      (none,intMin) (State.initial (posixlyCorrect environ) argv) = some (.ok (acc,s))) :
    testMck cases environ argv = dispatch cases environ acc.1 acc.2 (shiftArgs s) := by
  simp only [testMck,scanned]

theorem testMck_case (cases : List TestCase) (environ : List Arg) (app testSuite num : Arg)
    (rest : List Arg) :
    ∃ s, s.argv = app :: rest ∧ s.optind = 1 ∧ Between s ∧
      testMck cases environ (app :: "-s".toList :: testSuite :: "-n".toList :: num :: "--".toList :: rest) =
        dispatch cases environ (some testSuite) (atoi num) s := by
  let argv := app :: "-s".toList :: testSuite :: "-n".toList :: num :: "--".toList :: rest
  let start := State.initial (posixlyCorrect environ) argv
  obtain ⟨count,enough⟩ := exists_fuel start ⟨rfl,rfl⟩ 3 (by simp [start,State.initial,argv])
  obtain ⟨first,suite,between,same,moved⟩ := scan_pair "s:n:h".toList mainOption (count+2) (none,intMin)
    (some testSuite,intMin) 's' testSuite start ⟨rfl,rfl⟩ rfl (by decide) rfl rfl rfl
  obtain ⟨second,number,between,same',moved'⟩ := scan_pair "s:n:h".toList mainOption (count+1)
    (some testSuite,intMin) (some testSuite,atoi num) 'n' num first between rfl (by decide)
    (by rw [same,moved]; rfl) (by rw [same,moved]; rfl) rfl
  obtain ⟨final,ended,same'',nextchar,moved'',_,_⟩ := scan_dashes "s:n:h".toList mainOption count
    (some testSuite,atoi num) second between (by rw [same',same,moved',moved]; rfl)
  have argvFinal : final.argv = argv := by rw [same'',same',same]; rfl
  have optindFinal : final.optind = 6 := by rw [moved'',moved',moved]; rfl
  refine ⟨shiftArgs final,?_,rfl,⟨nextchar,?_⟩,?_⟩
  · simp [shiftArgs,argvFinal,optindFinal,argv]
  · simp only [shiftArgs]
    omega
  · exact testMck_dispatches cases environ argv _ final (by rw [← ended,← number,← suite,← enough])

end Ostest.TestMck
