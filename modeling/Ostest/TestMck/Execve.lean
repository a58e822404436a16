import Ostest.TestMck.Main

/-! Test execve/001: it becomes the program given by -f, with the arguments that
follow. The vector it builds is taken to fit its allocation. -/
namespace Ostest.TestMck
open Lib.Getopt

structure ExecveArgs where
  filePath : Option Arg
  argv : List Arg

def execveOption (_ : Option Arg) : Answer → Except Unit (Option Arg)
  | .option 'f' (some optarg) => .ok (some optarg)
  | _ => .error ()

def execveParseArgs (s : State) : Option (Option ExecveArgs) :=
  match scan (getopt "f:".toList) execveOption (fuel s) none s with
  | none => none
  | some (.error _) => some none
  | some (.ok (filePath,s)) => some (some ⟨filePath,s.argv.drop s.optind⟩)

def execve001 (environ : List Arg) (s : State) : Option Ending :=
  match execveParseArgs s with
  | none => none
  | some none => some (.result (some "invalid arguement."))
  | some (some ⟨none,_⟩) => some (.result (some "invalid file path."))
  | some (some ⟨some filePath,argv⟩) =>
    some (.execve filePath (some filePath :: argv.map some ++ [none]) environ)

def execve001Case : TestCase := ⟨"execve".toList,1,execve001⟩

/-- The arguments of `test_mck -s execve -n 1 -- -f path -- args`. -/
def execveComm (path : Arg) (args : List Arg) : List Arg :=
  "-s".toList :: "execve".toList :: "-n".toList :: "1".toList :: "--".toList ::
    "-f".toList :: path :: "--".toList :: args

structure Process where
  path : Arg
  argv : List Arg
  environ : List Arg

def vectorArgs (vector : List (Option Arg)) : List Arg := (vector.takeWhile Option.isSome).filterMap id

/-- What a process becomes when it is test_mck at `self` and ends in an execve. -/
def becomes (cases : List TestCase) (self : Arg) (process : Process) : Option Process :=
  if process.path = self then
    match testMck cases process.environ process.argv with
    | some (.execve path vector environ) => some ⟨path,vectorArgs vector,environ⟩
    | _ => none
  else none

def becomesAfter (cases : List TestCase) (self : Arg) : Nat → Process → Option Process
  | 0, process => some process
  | depth+1, process => (becomesAfter cases self depth process).bind (becomes cases self)

def wrapped (self : Arg) : Nat → Arg → List Arg → List Arg → Process
  | 0, path, args, environ => ⟨path,path :: args,environ⟩
  | depth+1, path, args, environ => wrapped self depth self (execveComm path args) environ

theorem execve001_ends (environ : List Arg) (s : State) (ordered : Ordered s) :
    (execve001 environ s).isSome := by
  obtain ⟨result,scanned,_⟩ := scan_ends "f:".toList execveOption none s ordered
  unfold execve001 execveParseArgs
  rw [scanned]
  match result with
  | .error _ => rfl
  | .ok (none,_) => rfl
  | .ok (some _,_) => rfl

theorem execveParseArgs_scans (app path : Arg) (args : List Arg) (s : State) (between : Between s)
    (argv : s.argv = app :: "-f".toList :: path :: "--".toList :: args) (optind : s.optind = 1) :
    execveParseArgs s = some (some ⟨some path,args⟩) := by
  obtain ⟨count,enough⟩ := exists_fuel s between 2 (by simp [argv,optind])
  obtain ⟨first,file,between,same,moved⟩ := scan_pair "f:".toList execveOption (count+1) none (some path)
    'f' path s between rfl (by decide) (by rw [argv,optind]; rfl) (by rw [argv,optind]; rfl) rfl
  obtain ⟨final,ended,same',_,moved',_,_⟩ := scan_dashes "f:".toList execveOption count (some path)
    first between (by rw [same,moved,argv,optind]; rfl)
  have scanned : scan (getopt "f:".toList) execveOption (fuel s) none s = some (.ok (some path,final)) := by
    rw [enough,file,ended]
  have argvFinal : final.argv = app :: "-f".toList :: path :: "--".toList :: args := by
    rw [same',same,argv]
  have optindFinal : final.optind = 4 := by rw [moved',moved,optind]
  simp only [execveParseArgs,scanned,argvFinal,optindFinal]
  rfl

theorem testMck_execve (cases : List TestCase)
    (listed : findTestCase cases "execve".toList 1 = some execve001Case)
    (app path : Arg) (args environ : List Arg) :
    testMck cases environ (app :: execveComm path args) =
      some (.execve path (some path :: args.map some ++ [none]) environ) := by
  obtain ⟨s,argv,optind,between,dispatched⟩ := testMck_case cases environ app "execve".toList "1".toList
    ("-f".toList :: path :: "--".toList :: args)
  have number : atoi "1".toList = 1 := by decide
  have parsed := execveParseArgs_scans app path args s between argv optind
  rw [execveComm,dispatched,number,dispatch_found _ _ _ 1 s execve001Case (by decide) listed]
  change execve001 environ s = _
  rw [execve001,parsed]

theorem vectorArgs_terminated (args : List Arg) : vectorArgs (args.map some ++ [none]) = args := by
  have all : ∀ arg ∈ args.map some, arg.isSome = true := by simp
  rw [vectorArgs,List.takeWhile_append_of_pos all]
  simp [List.filterMap_map]

theorem becomes_direct (cases : List TestCase)
    (listed : findTestCase cases "execve".toList 1 = some execve001Case)
    (self path : Arg) (args environ : List Arg) :
    becomes cases self ⟨self,self :: execveComm path args,environ⟩ =
      some ⟨path,path :: args,environ⟩ := by
  have vector : vectorArgs (some path :: args.map some ++ [none]) = path :: args :=
    vectorArgs_terminated (path :: args)
  simp only [becomes,if_true,testMck_execve cases listed,vector]

/-- The prefix runs a program as the direct command does, however deeply it is
nested and whatever its arguments look like. -/
theorem execve_runs_direct (cases : List TestCase)
    (listed : findTestCase cases "execve".toList 1 = some execve001Case) (path : Arg)
    (args environ : List Arg) :
    (∀ app, testMck cases environ (app :: execveComm path args) =
      some (.execve path (some path :: args.map some ++ [none]) environ)) ∧
    ∀ self depth, becomesAfter cases self depth (wrapped self depth path args environ) =
      some ⟨path,path :: args,environ⟩ := by
  refine ⟨fun app => testMck_execve cases listed app path args environ,?_⟩
  intro self depth
  induction depth generalizing path args with
  | zero => rfl
  | succ depth ih =>
    rw [becomesAfter,wrapped,ih self (execveComm path args),Option.bind_some]
    exact becomes_direct cases listed self path args environ

theorem nested_ls_runs_direct :
    (∀ app, testMck [execve001Case] [] (app :: execveComm "/bin/ls".toList ["--".toList,"-n".toList]) =
      some (.execve "/bin/ls".toList
        [some "/bin/ls".toList,some "--".toList,some "-n".toList,none] [])) ∧
    ∀ self depth, becomesAfter [execve001Case] self depth
        (wrapped self depth "/bin/ls".toList ["--".toList,"-n".toList] []) =
      some ⟨"/bin/ls".toList,["/bin/ls".toList,"--".toList,"-n".toList],[]⟩ :=
  execve_runs_direct [execve001Case] rfl "/bin/ls".toList ["--".toList,"-n".toList] []

end Ostest.TestMck
