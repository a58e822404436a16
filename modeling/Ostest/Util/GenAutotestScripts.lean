import Mathlib.Data.List.Nodup
import Ostest.Lib.Decimal
import Ostest.Lib.Words

/-! gen_autotest_scripts.awk: one script per command line of a dry run. awk
truncates a file when it first opens it and appends from then on. What the shell
makes of a script with a name in it that is no plain text is a parameter. -/
namespace Ostest.Util.GenAutotestScripts
open Lib.Decimal Lib.Words

abbrev Line := List Char

/-- What the generator prints into a script: the assignment of command_line, the
line that sources run.sh, and texts that concern neither, with names put into some
of them. -/
inductive Statement where
  | text (printed : List Char)
  | filled (printed names : List Char)
  | commandLine (line : Line)
  | runSh
  deriving DecidableEq

def isHeader : Line → Bool
  | '#' :: '#' :: _ => true
  | _ => false

/-- The number at the head of a text, as awk converts it: digits with a fraction
and an exponent, without its part behind the point. -/
def leadingNumber (text : List Char) : Nat :=
  let whole := text.takeWhile Char.isDigit
  let behind := text.dropWhile Char.isDigit
  let fraction := match behind with
    | '.' :: rest => rest.takeWhile Char.isDigit
    | _ => []
  let behind := match behind with
    | '.' :: rest => rest.dropWhile Char.isDigit
    | rest => rest
  let exponent : Int := match behind with
    | 'e' :: '-' :: rest => -(numeral (rest.takeWhile Char.isDigit) : Int)
    | 'E' :: '-' :: rest => -(numeral (rest.takeWhile Char.isDigit) : Int)
    | 'e' :: '+' :: rest => numeral (rest.takeWhile Char.isDigit)
    | 'E' :: '+' :: rest => numeral (rest.takeWhile Char.isDigit)
    | 'e' :: rest => numeral (rest.takeWhile Char.isDigit)
    | 'E' :: rest => numeral (rest.takeWhile Char.isDigit)
    | _ => 0
  let shift := exponent - fraction.length
  let digits := numeral (whole ++ fraction)
  if 0 ≤ shift then digits*10^shift.toNat else digits/10^(-shift).toNat

/-- The number of the field `$command_line`: awk takes the text for a number. -/
def fieldNumber (line : Line) : Int :=
  match line.dropWhile blank with
  | '-' :: rest => -(leadingNumber rest : Int)
  | '+' :: rest => leadingNumber rest
  | rest => leadingNumber rest

/-- A negative field number is a fatal error. -/
def fatal (line : Line) : Bool := decide (fieldNumber line < 0)

def field (line : Line) (number : Nat) : List Char :=
  if number = 0 then line else (words line).getD (number-1) []

/-- `match(text, /[-]n [0-9]+/)`: the start, from 0 on, and the length. -/
def matchNumber (start : Nat) : List Char → Option (Nat × Nat)
  | [] => none
  | c :: rest =>
    match c, rest with
    | '-', 'n' :: ' ' :: digits =>
      if (digits.takeWhile Char.isDigit).isEmpty then matchNumber (start+1) rest
      else some (start,3+(digits.takeWhile Char.isDigit).length)
    | _, _ => matchNumber (start+1) rest

def tpNum (line : Line) : Option (List Char) :=
  (matchNumber 0 (field line (fieldNumber line).toNat)).map
    (fun found => (line.drop (found.1+3)).take (found.2-3))

def number (testno : Nat) : List Char := padLeft '0' 3 (decimal testno)

def scriptName (testname : List Char) (testno : Nat) : List Char :=
  "ostest-".toList ++ testname ++ '.' :: number testno

def recordLine (name home base testname : List Char) (testno : Nat) (suffix : List Char) : Statement :=
  .filled ("\t".toList ++ name ++ "=".toList ++ home ++ base ++ "/".toList ++ scriptName testname testno ++
    suffix ++ "\n".toList) (home ++ testname)

def opening (autotestHome testname : List Char) (testno : Nat) : List Statement :=
  let mckernel := "$WORKDIR/output/mckernel".toList
  let answers := "$DATADIR/linux".toList
  let linux := "/data/linux".toList
  [.text "#!/usr/bin/bash\n\n".toList,
    .text "SCRIPT_PATH=$(readlink -m \"$\x7bBASH_SOURCE[0]\x7d\")\n".toList,
    .text "AUTOTEST_HOME=\"$\x7bSCRIPT_PATH%/*/*/*\x7d\"\n\n".toList,
    .text "# Define linux_run\n".toList,
    .text ". $AUTOTEST_HOME/ostest/bin/linux_run.sh\n\n".toList,
    .text "# Define WORKDIR, DATADIR, MCKINSTALL etc.\n".toList,
    .text ". $AUTOTEST_HOME/bin/config.sh\n\n".toList,
    .text "if [ \"$\x7blinux_run\x7d\" != \"yes\" ]; then\n".toList,
    recordLine "recordfile".toList [] mckernel testname testno ".output".toList,
    recordLine "recorddir".toList [] mckernel testname testno [],
    recordLine "answerfile".toList [] answers testname testno ".output".toList,
    recordLine "answerdir".toList [] answers testname testno [],
    .text "else\n".toList,
    recordLine "recordfile".toList autotestHome linux testname testno ".output".toList,
    recordLine "recorddir".toList autotestHome linux testname testno [],
    .text "fi\n\n".toList,
    .filled ("testname=".toList ++ testname ++ "\n".toList) testname,
    .filled ("testcase=".toList ++ testname ++ '.' :: number testno ++ "\n".toList) testname,
    .text ("testno=".toList ++ decimal testno ++ "\n".toList)]

def closing (line : Line) : List Statement :=
  (match tpNum line with
    | some digits => [.text ("tp_num=".toList ++ digits ++ "\n\n".toList)]
    | none => []) ++ [.commandLine line,.runSh]

def block (autotestHome testname : List Char) (testno : Nat) (line : Line) : List Statement :=
  opening autotestHome testname testno ++ if fatal line then [] else closing line

/-- A file in a directory that is not there, or with too long a name, cannot be
opened, and awk stops. -/
def opens (name : List Char) : Bool := !name.contains '/' && decide (name.length ≤ 255)

structure Awk where
  testname : List Char
  testno : Nat
  files : List (List Char × List Statement)
  dead : Bool

def append (name : List Char) (printed : List Statement) :
    List (List Char × List Statement) → List (List Char × List Statement)
  | [] => [(name,printed)]
  | (other,content) :: rest =>
    if other = name then (other,content ++ printed) :: rest
    else (other,content) :: append name printed rest

def rule (autotestHome : List Char) (awk : Awk) (line : Line) : Awk :=
  if awk.dead then awk
  else if isHeader line then {awk with testname := (words line).getD 1 [], testno := 0}
  else if !opens (scriptName awk.testname awk.testno) then {awk with dead := true}
  else
    let printed := block autotestHome awk.testname awk.testno line
    {awk with
      files := append (scriptName awk.testname awk.testno) printed awk.files
      testno := awk.testno+1
      dead := fatal line}

def generate (autotestHome : List Char) (listing : List Line) : List (List Char × List Statement) :=
  (listing.foldl (rule autotestHome) ⟨"#".toList,0,[],false⟩).files

/-- A character that stands for itself wherever the scripts have a name. -/
def plainChar (c : Char) : Bool := c.isAlphanum || "_-.+,:=@%#/".toList.contains c

/-- The value of command_line when run.sh is first sourced; run.sh ends in exit.
A quote in the line ends the quotes around it, so that the variable gets
something else. `odd` tells what the shell does from a line with a name on that is
not plain. -/
def runs (odd : List Statement → Option Line) (commandLine : Option Line) :
    List Statement → Option Line
  | [] => none
  | .text _ :: rest => runs odd commandLine rest
  | .filled printed names :: rest =>
    if names.all plainChar then runs odd commandLine rest else odd (.filled printed names :: rest)
  | .commandLine line :: rest => runs odd (if '\'' ∈ line then none else some line) rest
  | .runSh :: _ => commandLine

/-! What a listing asks for. -/

def assigned (testname : List Char) (testno : Nat) : List Line → List (List Char × Line)
  | [] => []
  | line :: rest =>
    if isHeader line then assigned ((words line).getD 1 []) 0 rest
    else (scriptName testname testno,line) :: assigned testname (testno+1) rest

/-- Every command line has a script of its own, which runs it. -/
def OwnScripts (odd : List Statement → Option Line) (autotestHome : List Char) (listing : List Line) : Prop :=
  let pairs := assigned "#".toList 0 listing
  (pairs.map Prod.fst).Nodup ∧ (generate autotestHome listing).length = pairs.length ∧
    ∀ pair ∈ pairs, ∃ script ∈ generate autotestHome listing,
      script.1 = pair.1 ∧ runs odd none script.2 = some pair.2

/-- The names of the scripts and the directory are plain text for the shell. -/
def PlainNames (autotestHome : List Char) (pairs : List (List Char × Line)) : Prop :=
  ∀ pair ∈ pairs, (autotestHome ++ pair.1).all plainChar = true

instance (autotestHome : List Char) (pairs : List (List Char × Line)) :
    Decidable (PlainNames autotestHome pairs) :=
  inferInstanceAs (Decidable (∀ pair ∈ pairs, (autotestHome ++ pair.1).all plainChar = true))

def segments (testname : List Char) (commands : List Line) : List Line → List (List Char × List Line)
  | [] => [(testname,commands)]
  | line :: rest =>
    if isHeader line then (testname,commands) :: segments ((words line).getD 1 []) [] rest
    else segments testname (commands ++ [line]) rest

/-- No test name, nor the initial `#`, stands above two stretches of command
lines, no command line has a single quote, none starts with a number from -1 down,
and every script has a name that can be opened. -/
def Separate (listing : List Line) : Prop :=
  (((segments "#".toList [] listing).filter (fun s => !s.2.isEmpty)).map Prod.fst).Nodup ∧
    (∀ line ∈ listing, isHeader line = false → '\'' ∉ line ∧ fatal line = false) ∧
    ∀ pair ∈ assigned "#".toList 0 listing, opens pair.1 = true

instance (listing : List Line) : Decidable (Separate listing) := inferInstanceAs (Decidable (_ ∧ _))

/-! Script names. -/

theorem number_dotless (testno : Nat) : '.' ∉ number testno := by
  intro member
  have digit := padLeft_zero_digits 3 testno '.' member
  contradiction

theorem scriptName_injective (first second : List Char) (i j : Nat)
    (same : scriptName first i = scriptName second j) : first = second ∧ i = j := by
  unfold scriptName at same
  rw [List.append_assoc,List.append_assoc,List.append_cancel_left_eq] at same
  obtain ⟨names,numbers⟩ := append_last_inj '.' _ _ _ _ (number_dotless i) (number_dotless j) same
  have digits := congrArg numeral numbers
  rw [number,number,numeral_padLeft_zero,numeral_padLeft_zero] at digits
  exact ⟨names,digits⟩

theorem scriptName_plain (testname : List Char) (testno : Nat) :
    (scriptName testname testno).all plainChar = testname.all plainChar := by
  have digits : (number testno).all plainChar = true := by
    apply List.all_eq_true.mpr
    intro c member
    have digit := padLeft_zero_digits 3 testno c member
    rw [plainChar,Char.isAlphanum,digit,Bool.or_true,Bool.true_or]
  have front : "ostest-".toList.all plainChar = true := by decide
  have dot : plainChar '.' = true := by decide
  unfold scriptName
  generalize "ostest-".toList = letters at front ⊢
  rw [List.all_append,List.all_append,List.all_cons,front,digits,dot,Bool.true_and,Bool.true_and,
    Bool.and_true]

/-! The segments and the names they give. -/

def segmentNames (segment : List Char × List Line) : List (List Char) :=
  (List.range segment.2.length).map (scriptName segment.1)

theorem segments_names (testname : List Char) (commands listing : List Line) :
    (segments testname commands listing).flatMap segmentNames =
      segmentNames (testname,commands) ++ (assigned testname commands.length listing).map Prod.fst := by
  induction listing generalizing testname commands with
  | nil => simp [segments,assigned]
  | cons line rest ih =>
    unfold segments assigned
    split
    · rw [List.flatMap_cons,ih]
      simp [segmentNames]
    · rw [ih]
      simp [segmentNames,List.range_succ]

theorem segmentNames_disjoint (first second : List Char × List Line) :
    (segmentNames first).Disjoint (segmentNames second) ↔
      (!first.2.isEmpty → !second.2.isEmpty → first.1 ≠ second.1) := by
  constructor
  · intro disjoint firstFull secondFull same
    have positive (commands : List Line) (full : !commands.isEmpty) : 0 ∈ List.range commands.length := by
      cases commands with
      | nil => simp at full
      | cons command rest => simp
    have left := List.mem_map_of_mem (f := scriptName first.1) (positive first.2 firstFull)
    have right := List.mem_map_of_mem (f := scriptName second.1) (positive second.2 secondFull)
    exact disjoint left (same ▸ right)
  · intro apart name left right
    obtain ⟨i,firstBound,rfl⟩ := List.mem_map.mp left
    obtain ⟨j,secondBound,equal⟩ := List.mem_map.mp right
    have full (commands : List Line) (k : Nat) (bound : k ∈ List.range commands.length) :
        (!commands.isEmpty) = true := by
      cases commands with
      | nil => simp at bound
      | cons command rest => rfl
    exact apart (full first.2 i firstBound) (full second.2 j secondBound)
      (scriptName_injective _ _ j i equal).1.symm

theorem assigned_nodup (listing : List Line) :
    ((assigned "#".toList 0 listing).map Prod.fst).Nodup ↔
      (((segments "#".toList [] listing).filter (fun s => !s.2.isEmpty)).map Prod.fst).Nodup := by
  have names : (segments "#".toList [] listing).flatMap segmentNames =
      (assigned "#".toList 0 listing).map Prod.fst := segments_names "#".toList [] listing
  have each (segment : List Char × List Line) : (segmentNames segment).Nodup :=
    List.nodup_range.map (fun i j same => (scriptName_injective _ _ i j same).2)
  rw [← names,List.nodup_flatMap,List.Nodup,List.pairwise_map,List.pairwise_filter]
  have disjoint : (Function.onFun List.Disjoint segmentNames) =
      fun first second => !first.2.isEmpty → !second.2.isEmpty → first.1 ≠ second.1 := by
    funext first second
    exact propext (segmentNames_disjoint first second)
  rw [disjoint]
  exact ⟨fun both => both.2,fun apart => ⟨fun segment _ => each segment,apart⟩⟩

/-! What is written when the names are distinct. -/

def written (autotestHome testname : List Char) (testno : Nat) :
    List Line → List (List Char × List Statement)
  | [] => []
  | line :: rest =>
    if isHeader line then written autotestHome ((words line).getD 1 []) 0 rest
    else if !opens (scriptName testname testno) then []
    else (scriptName testname testno,block autotestHome testname testno line) ::
      if fatal line then [] else written autotestHome testname (testno+1) rest

theorem append_fresh (name : List Char) (printed : List Statement)
    (files : List (List Char × List Statement)) (fresh : name ∉ files.map Prod.fst) :
    append name printed files = files ++ [(name,printed)] := by
  induction files with
  | nil => rfl
  | cons file rest ih =>
    rw [List.map_cons,List.mem_cons,not_or] at fresh
    rw [append,if_neg (fun same => fresh.1 same.symm),ih fresh.2,List.cons_append]

theorem dead_files (autotestHome : List Char) (listing : List Line) (awk : Awk)
    (dead : awk.dead = true) : listing.foldl (rule autotestHome) awk = awk := by
  induction listing with
  | nil => rfl
  | cons line rest ih =>
    rw [List.foldl_cons,rule,if_pos dead]
    exact ih

theorem rules_files (autotestHome : List Char) (listing : List Line) (awk : Awk)
    (alive : awk.dead = false)
    (distinct : ((assigned awk.testname awk.testno listing).map Prod.fst).Nodup)
    (fresh : ∀ name ∈ (assigned awk.testname awk.testno listing).map Prod.fst,
      name ∉ awk.files.map Prod.fst) :
    (listing.foldl (rule autotestHome) awk).files =
      awk.files ++ written autotestHome awk.testname awk.testno listing := by
  induction listing generalizing awk with
  | nil => simp [written]
  | cons line rest ih =>
    rw [List.foldl_cons]
    unfold assigned at distinct fresh
    unfold written
    cases header : isHeader line with
    | true =>
      simp only [header,if_true] at distinct fresh
      have next : rule autotestHome awk line =
          {awk with testname := (words line).getD 1 [], testno := 0} := by
        simp [rule,alive,header]
      rw [next,ih {awk with testname := (words line).getD 1 [], testno := 0} alive distinct fresh]
      rfl
    | false =>
      simp only [header,Bool.false_eq_true,if_false,List.map_cons,List.nodup_cons,List.mem_cons,
        forall_eq_or_imp] at distinct fresh
      simp only [Bool.false_eq_true,if_false]
      cases opened : opens (scriptName awk.testname awk.testno) with
      | false =>
        have next : rule autotestHome awk line = {awk with dead := true} := by
          simp [rule,alive,header,opened]
        rw [next,dead_files _ _ _ rfl]
        simp
      | true =>
        have next : rule autotestHome awk line =
            {awk with
              files := awk.files ++ [(scriptName awk.testname awk.testno,
                block autotestHome awk.testname awk.testno line)]
              testno := awk.testno+1
              dead := fatal line} := by
          simp [rule,alive,header,opened,append_fresh _ _ _ fresh.1]
        rw [next]
        cases broken : fatal line with
        | true =>
          rw [dead_files _ _ _ rfl]
          simp
        | false =>
          rw [ih _ rfl distinct.2]
          · simp
          · intro name member old
            rw [List.map_append,List.mem_append] at old
            rcases old with old | new
            · exact fresh.2 name member old
            · simp only [List.map_cons,List.map_nil,List.mem_singleton] at new
              exact distinct.1 (new ▸ member)

theorem generate_written (autotestHome : List Char) (listing : List Line)
    (distinct : ((assigned "#".toList 0 listing).map Prod.fst).Nodup) :
    generate autotestHome listing = written autotestHome "#".toList 0 listing := by
  have files := rules_files autotestHome listing ⟨"#".toList,0,[],false⟩ rfl distinct (by simp)
  simpa [generate] using files

section
variable (odd : List Statement → Option Line)

/-- The statements that concern neither variable, with plain names in them. -/
def Quiet : Statement → Prop
  | .text _ => True
  | .filled _ names => names.all plainChar = true
  | _ => False

theorem runs_quiet (texts rest : List Statement) (commandLine : Option Line)
    (quiet : ∀ s ∈ texts, Quiet s) : runs odd commandLine (texts ++ rest) = runs odd commandLine rest := by
  induction texts with
  | nil => rfl
  | cons statement texts ih =>
    have following := ih (fun s member => quiet s (List.mem_cons_of_mem _ member))
    have first := quiet statement List.mem_cons_self
    cases statement with
    | text printed => exact following
    | filled printed names =>
      have plain : names.all plainChar = true := first
      rw [List.cons_append,runs,if_pos plain]
      exact following
    | commandLine line => contradiction
    | runSh => contradiction

theorem opening_quiet (autotestHome testname : List Char) (testno : Nat)
    (plain : (autotestHome ++ testname).all plainChar = true) :
    ∀ s ∈ opening autotestHome testname testno, Quiet s := by
  have name : testname.all plainChar = true := by
    rw [List.all_append,Bool.and_eq_true] at plain
    exact plain.2
  have alone : ([] ++ testname).all plainChar = true := name
  simp only [opening,recordLine,List.mem_cons,List.not_mem_nil,or_false,forall_eq_or_imp,forall_eq,Quiet,
    plain,alone,name,and_self]

/-- Where the shell makes nothing of a name that is not plain, every statement with a
name in it has to be passed. -/
theorem runs_none_plain (commandLine : Option Line) (texts : List Statement) (printed names : List Char)
    (rest : List Statement) (line : Line) (before : ∀ s ∈ texts, s ≠ .runSh)
    (ran : runs (fun _ => none) commandLine (texts ++ .filled printed names :: rest) = some line) :
    names.all plainChar = true := by
  induction texts generalizing commandLine with
  | nil =>
    by_contra odd
    rw [List.nil_append,runs,if_neg odd] at ran
    contradiction
  | cons statement texts ih =>
    have later := fun s member => before s (List.mem_cons_of_mem _ member)
    cases statement with
    | text printed => exact ih commandLine later ran
    | filled printed names =>
      rw [List.cons_append,runs] at ran
      split at ran
      · exact ih commandLine later ran
      · contradiction
    | commandLine line => exact ih _ later ran
    | runSh => exact absurd rfl (before .runSh List.mem_cons_self)

theorem runs_none_block (autotestHome testname : List Char) (testno : Nat) (line other : Line)
    (ran : runs (fun _ => none) none (block autotestHome testname testno line) = some other) :
    (autotestHome ++ testname).all plainChar = true := by
  refine runs_none_plain none ((opening autotestHome testname testno).take 13) _ _ _ other ?_ ran
  simp [opening,recordLine]

/-- A script of one block runs its line, unless awk stopped in it or the line has
a quote. -/
theorem runs_block (autotestHome testname : List Char) (testno : Nat) (line : Line)
    (plain : (autotestHome ++ testname).all plainChar = true) :
    runs odd none (block autotestHome testname testno line) =
      if fatal line ∨ '\'' ∈ line then none else some line := by
  rw [block,runs_quiet odd _ _ _ (opening_quiet autotestHome testname testno plain)]
  cases fatal line with
  | true => simp [runs]
  | false =>
    have closed : runs odd none (closing line) = if '\'' ∈ line then none else some line := by
      rw [closing,runs_quiet]
      · rfl
      · intro s member
        split at member <;> simp_all [Quiet]
    simpa using closed

end

theorem written_blocks (autotestHome testname : List Char) (testno : Nat) (listing : List Line)
    (script : List Char × List Statement)
    (member : script ∈ written autotestHome testname testno listing) :
    script.1 ∈ (assigned testname testno listing).map Prod.fst ∧
      ∃ name no line, script = (scriptName name no,block autotestHome name no line) := by
  induction listing generalizing testname testno with
  | nil => simp [written] at member
  | cons line rest ih =>
    unfold written at member
    unfold assigned
    split at member
    · rename_i header
      rw [if_pos header]
      exact ih _ _ member
    · rename_i header
      rw [if_neg header,List.map_cons]
      split at member
      · contradiction
      rcases List.mem_cons.mp member with rfl | later
      · exact ⟨List.mem_cons_self,testname,testno,line,rfl⟩
      · split at later
        · simp at later
        · obtain ⟨named,blocks⟩ := ih _ _ later
          exact ⟨List.mem_cons_of_mem _ named,blocks⟩

/-- Every line is run by the script under its name, and there is no other script. -/
def Served (odd : List Statement → Option Line) (scripts : List (List Char × List Statement))
    (pairs : List (List Char × Line)) : Prop :=
  scripts.length = pairs.length ∧
    ∀ pair ∈ pairs, ∃ script ∈ scripts, script.1 = pair.1 ∧ runs odd none script.2 = some pair.2

section
variable (odd : List Statement → Option Line)

theorem served_cons (name : List Char) (body : List Statement) (line : Line)
    (scripts : List (List Char × List Statement)) (pairs : List (List Char × Line))
    (foreign : ∀ script ∈ scripts, script.1 ≠ name) (fresh : name ∉ pairs.map Prod.fst) :
    Served odd ((name,body) :: scripts) ((name,line) :: pairs) ↔
      runs odd none body = some line ∧ Served odd scripts pairs := by
  refine ⟨?_,?_⟩
  · rintro ⟨count,all⟩
    refine ⟨?_,by simpa using count,?_⟩
    · obtain ⟨script,member,same,run⟩ := all (name,line) List.mem_cons_self
      rcases List.mem_cons.mp member with rfl | later
      · exact run
      · exact absurd same (foreign script later)
    · intro pair member
      obtain ⟨script,found,same,run⟩ := all pair (List.mem_cons_of_mem _ member)
      rcases List.mem_cons.mp found with rfl | later
      · exact absurd (List.mem_map.mpr ⟨pair,member,same.symm⟩) fresh
      · exact ⟨script,later,same,run⟩
  · rintro ⟨run,count,all⟩
    refine ⟨by simpa using count,?_⟩
    intro pair member
    rcases List.mem_cons.mp member with rfl | later
    · exact ⟨_,List.mem_cons_self,rfl,run⟩
    · obtain ⟨script,found,rest⟩ := all pair later
      exact ⟨script,List.mem_cons_of_mem _ found,rest⟩

/-- What is written serves the assigned lines exactly if no line has a quote or
stops awk, and every script can be opened. -/
theorem written_served (autotestHome testname : List Char) (testno : Nat) (listing : List Line)
    (plain : PlainNames autotestHome (assigned testname testno listing))
    (distinct : ((assigned testname testno listing).map Prod.fst).Nodup) :
    Served odd (written autotestHome testname testno listing) (assigned testname testno listing) ↔
      (∀ line ∈ listing, isHeader line = false → '\'' ∉ line ∧ fatal line = false) ∧
        ∀ pair ∈ assigned testname testno listing, opens pair.1 = true := by
  induction listing generalizing testname testno with
  | nil => simp [written,assigned,Served]
  | cons line rest ih =>
    cases header : isHeader line with
    | true =>
      have cut : assigned testname testno (line :: rest) = assigned ((words line).getD 1 []) 0 rest := by
        simp [assigned,header]
      rw [cut] at plain distinct ⊢
      rw [written,if_pos header,ih _ _ plain distinct]
      simp [header]
    | false =>
      have cut : assigned testname testno (line :: rest) =
          (scriptName testname testno,line) :: assigned testname (testno+1) rest := by
        simp [assigned,header]
      rw [cut] at plain distinct ⊢
      rw [List.map_cons,List.nodup_cons] at distinct
      obtain ⟨here,later⟩ := List.forall_mem_cons.mp plain
      rw [List.all_append,scriptName_plain,← List.all_append] at here
      have own := runs_block odd autotestHome testname testno line here
      rw [written,if_neg (by simp [header])]
      cases opened : opens (scriptName testname testno) with
      | false =>
        simp [Served,opened]
      | true =>
        rw [if_neg (by simp)]
        cases broken : fatal line with
        | true =>
          rw [if_pos rfl,served_cons odd _ _ _ _ _ (by simp) distinct.1,own]
          simp [header,broken]
        | false =>
          have foreign (script : List Char × List Statement)
              (member : script ∈ written autotestHome testname (testno+1) rest) :
              script.1 ≠ scriptName testname testno :=
            fun same => distinct.1 (same ▸ (written_blocks _ _ _ _ _ member).1)
          rw [if_neg (by simp),served_cons odd _ _ _ _ _ foreign distinct.1,own,
            ih testname (testno+1) later distinct.2]
          simp [header,broken,opened,and_assoc]

end

theorem ownScripts_iff (odd : List Statement → Option Line) (autotestHome : List Char) (listing : List Line)
    (plain : PlainNames autotestHome (assigned "#".toList 0 listing)) :
    OwnScripts odd autotestHome listing ↔ Separate listing := by
  unfold OwnScripts Separate
  rw [← assigned_nodup]
  have served := written_served odd autotestHome "#".toList 0 listing plain
  constructor
  · rintro ⟨distinct,rest⟩
    rw [generate_written autotestHome listing distinct] at rest
    exact ⟨distinct,(served distinct).mp rest⟩
  · rintro ⟨distinct,rest⟩
    refine ⟨distinct,?_⟩
    rw [generate_written autotestHome listing distinct]
    exact (served distinct).mpr rest

theorem ownScripts_plain (autotestHome : List Char) (listing : List Line)
    (own : OwnScripts (fun _ => none) autotestHome listing) :
    PlainNames autotestHome (assigned "#".toList 0 listing) := by
  obtain ⟨distinct,_,served⟩ := own
  rw [generate_written autotestHome listing distinct] at served
  intro pair member
  obtain ⟨script,found,same,ran⟩ := served pair member
  obtain ⟨_,name,no,line,rfl⟩ := written_blocks autotestHome _ _ listing script found
  have plain := runs_none_block autotestHome name no line _ ran
  rw [← same,List.all_append,scriptName_plain,← List.all_append]
  exact plain

/-- With plain names, a listing gets a script of its own for every command line
exactly if its stretches are separate. Whatever the shell makes of a name that is not
plain, it does so exactly if the names are plain as well. -/
theorem own_scripts_iff (autotestHome : List Char) (listing : List Line) :
    (PlainNames autotestHome (assigned "#".toList 0 listing) →
      ∀ odd, (OwnScripts odd autotestHome listing ↔ Separate listing)) ∧
    ((∀ odd, OwnScripts odd autotestHome listing) ↔
      PlainNames autotestHome (assigned "#".toList 0 listing) ∧ Separate listing) := by
  refine ⟨fun plain odd => ownScripts_iff odd autotestHome listing plain,?_⟩
  constructor
  · intro own
    have plain := ownScripts_plain autotestHome listing (own _)
    exact ⟨plain,(ownScripts_iff _ autotestHome listing plain).mp (own fun _ => none)⟩
  · rintro ⟨plain,separate⟩ odd
    exact (ownScripts_iff odd autotestHome listing plain).mpr separate

theorem own_scripts_two_tests :
    OwnScripts (fun _ => none) "/work/mcktest".toList ["## vfork ##".toList,"vfork -n 0".toList,
      "vfork -n 1".toList,"## popen ##".toList,"popen -n 0".toList] :=
  (own_scripts_iff _ _).2.mpr (by decide) _

def setMempolicyListing : List Line :=
  ["## set_mempolicy ##".toList,
    "$\x7bmcexec\x7d test_mck -s set_mempolicy -n 1 -- -n 3".toList,
    "$\x7bmcexec\x7d test_mck -s set_mempolicy -n 3 -- -n 3".toList,
    "## set_mempolicy 4-5 SKIP(max_node < 4) ##".toList,
    "$\x7bmcexec\x7d test_mck -s set_mempolicy -n 6 -- -n 3".toList,
    "$\x7bmcexec\x7d test_mck -s set_mempolicy -n 8".toList]

/-- Four command lines get two scripts: those behind the SKIP header land in the
scripts of the first two and never run. -/
theorem skip_header_reuses_scripts :
    (assigned "#".toList 0 setMempolicyListing).length = 4 ∧
      (generate "/work/mcktest".toList setMempolicyListing).map Prod.fst =
        ["ostest-set_mempolicy.000".toList,"ostest-set_mempolicy.001".toList] ∧
      (generate "/work/mcktest".toList setMempolicyListing).map
          (fun script => runs (fun _ => none) none script.2) =
        [some "$\x7bmcexec\x7d test_mck -s set_mempolicy -n 1 -- -n 3".toList,
          some "$\x7bmcexec\x7d test_mck -s set_mempolicy -n 3 -- -n 3".toList] ∧
      ¬OwnScripts (fun _ => none) "/work/mcktest".toList setMempolicyListing := by
  refine ⟨by decide,by decide,by decide,?_⟩
  rintro ⟨distinct,_⟩
  revert distinct
  decide

end Ostest.Util.GenAutotestScripts
