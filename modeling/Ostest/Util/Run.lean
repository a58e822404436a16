import Mathlib.Data.List.TakeWhile
import Ostest.Lib.Decimal
import Ostest.Lib.EchoBack
import Ostest.Lib.Getopts
import Ostest.Lib.Loop

/-! run.sh with init.sh, fini.sh and the init and fini scripts of the tests that
it sources, as far as they touch printk, core_pattern and the soft core limit or
leave the shell. A script maps the state of the shell to its state behind it, or
to the state in which it exits. The tests themselves run behind a pipe, in a
shell of their own. -/
namespace Ostest.Util.Run
open Lib.Words Lib.Decimal Lib.Echo Lib.Getopts
open Lib.Getopt (Arg)

@[ext]
structure CorePattern where
  text : List Char
  oneLine : '\n' ∉ text
  deriving DecidableEq

@[ext]
structure Settings where
  printk : List Int
  corePattern : CorePattern
  /-- In bytes; none is no limit. -/
  coreLimit : Option Nat
  deriving DecidableEq

structure Shell where
  settings : Settings
  params : List Arg
  optind : Nat
  dryrun : Bool
  origPrintkSetting : List Char
  origCorePattern : List Char
  origCoreRlimit : List Char
  status : Nat

structure Host where
  testname : String
  appDir : Bool
  testUser : Bool
  useradd : Bool
  /-- What the test of sep_run_num in the option -s answers. -/
  outOfRange : Arg → Bool
  program : List (List Char) → List Char
  unknown : List Char → List Char
  rc : Nat

def exit (code : Nat) (sh : Shell) : Except Shell Shell := .error {sh with status := code}

/-! Reading and writing the settings. -/

def printkFile : List Char := "/proc/sys/kernel/printk".toList

def corePatternFile : List Char := "/proc/sys/kernel/core_pattern".toList

def showPrintk (printk : List Int) : List Char :=
  List.intercalate ['\t'] (printk.map integer) ++ ['\n']

/-- The numbers written replace the first ones, up to a word that is none. -/
def storePrintk (old : List Int) (written : List Char) : List Int :=
  let numbers := (((words written).map cInteger).takeWhile Option.isSome).reduceOption
  (numbers ++ old.drop numbers.length).take old.length

def firstLine (written : List Char) : CorePattern where
  text := written.takeWhile (· != '\n')
  oneLine := fun member => by simpa using List.mem_takeWhile_imp member

/-- The kernel takes one line; a command that prints nothing writes nothing. -/
def storeCorePattern (old : CorePattern) (written : List Char) : CorePattern :=
  if written.isEmpty then old else firstLine written

/-- `bash -c "echo text > file"` -/
def bashEcho (host : Host) (text file : List Char) : List Char :=
  Lib.Shell.output host.program host.unknown file (Lib.Shell.echoInto text file)

/-- `ulimit -S -c` counts in blocks of 1024 bytes. -/
def ulimitShow : Option Nat → List Char
  | none => "unlimited".toList
  | some bytes => decimal (bytes/1024)

def ulimitSet (old : Option Nat) (text : List Char) : Option Nat :=
  if text = [] then old
  else if text = "unlimited".toList then none
  else some (numeral text*1024)

def setPrintk (host : Host) (text : List Char) (sh : Shell) : Shell :=
  {sh with settings.printk := storePrintk sh.settings.printk (bashEcho host text printkFile)}

def setCorePattern (host : Host) (text : List Char) (sh : Shell) : Shell :=
  {sh with settings.corePattern :=
    storeCorePattern sh.settings.corePattern (bashEcho host text corePatternFile)}

def ulimit (text : List Char) (sh : Shell) : Shell :=
  {sh with settings.coreLimit := ulimitSet sh.settings.coreLimit text}

/-! The scripts. -/

def whileGetopts (optstring : List Char) (body : Shell → Answer → Except Shell Shell) (sh : Shell) :
    Except Shell Shell := do
  let (answers,optind) := getopts optstring sh.params sh.optind
  let sh ← answers.foldlM body sh
  return {sh with optind := optind}

def initOption (host : Host) (sh : Shell) (answer : Answer) : Except Shell Shell :=
  if answer.1 = 's' then if host.outOfRange answer.2 then exit 1 sh else .ok sh
  else if answer.1 = 'd' then .ok {sh with dryrun := true}
  else if answer.1 = 'h' then exit 0 sh
  else .ok sh

def changeSettings (host : Host) (sh : Shell) : Shell :=
  let sh := {sh with origPrintkSetting := substituted (showPrintk sh.settings.printk)}
  let sh := setPrintk host "'4 4 1 7'".toList sh
  let sh := {sh with origCorePattern := substituted (sh.settings.corePattern.text ++ ['\n'])}
  let sh := setCorePattern host "'core.host.%p'".toList sh
  let sh := {sh with origCoreRlimit := ulimitShow sh.settings.coreLimit}
  ulimit "0".toList sh

def initSh (host : Host) (sh : Shell) : Except Shell Shell := do
  let sh ← whileGetopts "Hep:s:dh".toList (initOption host) sh
  let sh := {sh with params := sh.params.drop (sh.optind-1)}
  if sh.dryrun then .ok sh
  else if !host.testUser && !host.useradd then exit 1 sh
  else .ok (changeSettings host sh)

def usage (sh : Shell) (answer : Answer) : Except Shell Shell :=
  if answer.1 = 'h' then exit 0 sh
  else if answer.1 = '?' then exit 1 sh
  else .ok sh

/-- In a dry run app_dir is the text of its own name. -/
def insmodTestDrv (host : Host) (sh : Shell) : Except Shell Shell := do
  let sh ← whileGetopts "i:h".toList usage sh
  if sh.dryrun || !host.appDir then exit 1 sh
  else .ok sh

def rmmodTestDrv (sh : Shell) : Except Shell Shell := whileGetopts "i:h".toList usage sh

/-- init/$testname.sh -/
def initTest (host : Host) (sh : Shell) : Except Shell Shell :=
  match host.testname with
  | "core" | "coredump" | "madvise" => .ok (ulimit "unlimited".toList sh)
  | "mem_stack_limits.000" | "mem_stack_limits.003" => .ok (ulimit "0".toList sh)
  | "force_exit" | "mmap_dev" | "procfs" | "ptrace" | "writecombine" => insmodTestDrv host sh
  | _ => .ok sh

/-- fini/$testname.sh -/
def finiTest (host : Host) (sh : Shell) : Except Shell Shell :=
  match host.testname with
  | "core" | "coredump" | "madvise" => .ok (ulimit "0".toList sh)
  | "mem_stack_limits.000" | "mem_stack_limits.003" => .ok (ulimit "unlimited".toList sh)
  | "force_exit" | "mmap_dev" | "writecombine" => rmmodTestDrv sh
  | _ => .ok sh

def finiSh (host : Host) (sh : Shell) : Shell :=
  let sh := ulimit sh.origCoreRlimit sh
  let sh := setCorePattern host sh.origCorePattern sh
  setPrintk host sh.origPrintkSetting sh

def runTest (host : Host) (sh : Shell) : Except Shell Shell := do
  let sh ← initTest host sh
  let sh ← finiTest host sh
  exit host.rc (finiSh host sh)

def runSh (host : Host) (sh : Shell) : Except Shell Shell := do
  let sh ← initSh host sh
  runTest host sh

/-- linux_run.sh has set OPTIND back to 1. -/
def start (settings : Settings) (params : List Arg) : Shell := ⟨settings,params,1,false,[],[],[],0⟩

def settingsOf : Except Shell Shell → Settings
  | .ok sh => sh.settings
  | .error sh => sh.settings

def ended (host : Host) (settings : Settings) (params : List Arg) : Settings :=
  settingsOf (runSh host (start settings params))

/-! What is written back. -/

def WholeBlocks : Option Nat → Prop
  | none => True
  | some bytes => 1024 ∣ bytes

theorem decimal_ulimit (n : Nat) : decimal n ≠ [] ∧ decimal n ≠ "unlimited".toList := by
  refine ⟨decimal_ne_nil n,?_⟩
  intro same
  have digit := decimal_digits n 'u' (by simp [same])
  contradiction

theorem ulimitSet_ulimitShow (old limit : Option Nat) :
    ulimitSet old (ulimitShow limit) = limit ↔ WholeBlocks limit := by
  cases limit with
  | none => exact ⟨fun _ => trivial,fun _ => rfl⟩
  | some bytes =>
    obtain ⟨nonempty,limited⟩ := decimal_ulimit (bytes/1024)
    unfold ulimitShow ulimitSet WholeBlocks
    dsimp only
    rw [if_neg nonempty,if_neg limited,numeral_decimal,Option.some_inj]
    omega

theorem integer_chars (n : Int) (c : Char) (member : c ∈ integer n) : c.isDigit = true ∨ c = '-' := by
  unfold integer at member
  split at member
  · rcases List.mem_cons.mp member with sign | digits
    · exact .inr sign
    · exact .inl (decimal_digits _ c digits)
  · exact .inl (decimal_digits _ c member)

theorem integer_ordinary (n : Int) (c : Char) (member : c ∈ integer n) :
    Lib.Shell.ordinary c = true ∧ blank c = false ∧ c ≠ '#' := by
  have digits : "0123456789".toList.all
      (fun c => Lib.Shell.ordinary c && !blank c && c != '#') = true := by decide
  rcases integer_chars n c member with digit | rfl
  · simpa [and_assoc] using List.all_eq_true.mp digits c (isDigit_mem c digit)
  · decide

theorem integer_isWord (n : Int) : IsWord (integer n) := by
  refine ⟨?_,fun c member => (integer_ordinary n c member).2.1⟩
  unfold integer
  split
  · simp
  · exact decimal_ne_nil _

theorem integer_not_isOption (n : Int) : isOption (integer n) = false := by
  have digits : "0123456789".toList.all (fun c => !(c == 'n' || c == 'e' || c == 'E')) = true := by
    decide
  unfold integer
  split
  · obtain ⟨c,rest,cut⟩ := List.exists_cons_of_ne_nil (decimal_ne_nil n.natAbs)
    have digit := decimal_digits n.natAbs c (by simp [cut])
    have letter := List.all_eq_true.mp digits c (isDigit_mem c digit)
    rw [Bool.not_eq_true'] at letter
    rw [cut,isOption,List.all_cons,letter]
    simp
  · exact not_isOption _ (decimal_unsigned _)

theorem printk_restored (host : Host) (printk old : List Int) (same : old.length = printk.length) :
    storePrintk old (bashEcho host (substituted (showPrintk printk)) printkFile) = printk := by
  have allWords : ∀ word ∈ printk.map integer, IsWord word := by
    intro word member
    obtain ⟨n,_,rfl⟩ := List.mem_map.mp member
    exact integer_isWord n
  have cut := words_intercalate '\t' rfl _ allWords
  have chars : ∀ c ∈ List.intercalate ['\t'] (printk.map integer),
      Lib.Shell.ordinary c = true := by
    intro c member
    rcases mem_intercalate '\t' _ c member with rfl | ⟨word,listed,inside⟩
    · decide
    · obtain ⟨n,_,rfl⟩ := List.mem_map.mp listed
      exact (integer_ordinary n c inside).1
  have oneLine : '\n' ∉ List.intercalate ['\t'] (printk.map integer) := by
    intro member
    have ordinary := chars _ member
    contradiction
  have literal : Lib.Shell.Literal (List.intercalate ['\t'] (printk.map integer)) := by
    refine ⟨chars,?_⟩
    rw [cut]
    intro word member comment
    obtain ⟨n,_,rfl⟩ := List.mem_map.mp member
    exact (integer_ordinary n '#' (List.mem_of_mem_head? comment)).2.2 rfl
  have unoptional : ∀ first ∈ (printk.map integer).head?, isOption first = false := by
    intro first head
    obtain ⟨n,_,rfl⟩ := List.mem_map.mp (List.mem_of_mem_head? head)
    exact integer_not_isOption n
  have numbers : (((words (unwords (printk.map integer) ++ ['\n'])).map cInteger).takeWhile
      Option.isSome).reduceOption = printk := by
    have read : (printk.map integer).map cInteger = printk.map some := by
      rw [List.map_map]
      exact List.map_congr_left (fun n _ => cInteger_integer n)
    have all : ∀ number ∈ printk.map some, number.isSome = true := by simp
    rw [words_join _ [] '\n' rfl,words_unwords _ allWords,words_nil,List.append_nil,read,
      List.takeWhile_eq_self_iff.mpr all]
    change (printk.map some).filterMap id = printk
    simp
  rw [showPrintk,substituted_line _ oneLine,bashEcho,
    Lib.Shell.output_literal _ _ _ _ literal,cut,echo_plain _ unoptional,storePrintk]
  simp [numbers,same]

/-! The values that init.sh sets. -/

def hostCorePattern : CorePattern := ⟨"core.host.%p".toList,by decide⟩

def changed (settings : Settings) : Settings :=
  ⟨storePrintk settings.printk "4 4 1 7\n".toList,hostCorePattern,some 0⟩

theorem changeSettings_settings (host : Host) (sh : Shell) :
    (changeSettings host sh).settings = changed sh.settings := rfl

def Echoed (host : Host) (pattern : CorePattern) : Prop :=
  storeCorePattern hostCorePattern (bashEcho host pattern.text corePatternFile) = pattern

/-! Which patterns come back. -/

theorem takeWhile_line (text ending : List Char) (oneLine : '\n' ∉ text)
    (ends : ending = [] ∨ ending = ['\n']) : (text ++ ending).takeWhile (· != '\n') = text := by
  have whole : text.takeWhile (· != '\n') = text :=
    List.takeWhile_eq_self_iff.mpr (fun c member => by simpa using ne_of_mem_of_not_mem member oneLine)
  rw [List.takeWhile_append,whole,if_pos rfl]
  rcases ends with rfl | rfl <;> simp

/-- The words of the text have single blanks between them, none in front and behind,
and the first is no option of echo. -/
def Spaced (text : List Char) : Prop :=
  unwords (words text) = text ∧ ∀ first ∈ (words text).head?, isOption first = false

instance (text : List Char) : Decidable (Spaced text) := inferInstanceAs (Decidable (_ ∧ _))

/-- A pattern in which nothing is special comes back if and only if it is spaced. -/
theorem echoed_literal (host : Host) (pattern : CorePattern) (literal : Lib.Shell.Literal pattern.text) :
    Echoed host pattern ↔ Spaced pattern.text := by
  have plain : ∀ word ∈ words pattern.text, ∀ c ∈ word, c ≠ '\\' := by
    rintro word member c inside rfl
    have ordinary := literal.1 _ (mem_words _ _ member _ inside)
    contradiction
  have isWord : ∀ word ∈ (words pattern.text).dropWhile isOption, IsWord word :=
    fun word member => words_isWord _ _ ((List.dropWhile_sublist isOption).subset member)
  obtain ⟨ending,ends,written⟩ := echo_unescaped (words pattern.text) plain
  unfold Echoed bashEcho
  rw [Lib.Shell.output_literal _ _ _ _ literal]
  refine ⟨?_,?_⟩
  · intro stored
    unfold storeCorePattern at stored
    split at stored
    · rw [← stored]
      decide
    · have same : unwords ((words pattern.text).dropWhile isOption) = pattern.text := by
        rw [← takeWhile_line _ ending (newline_unwords _ isWord) ends,← written]
        exact congrArg CorePattern.text stored
      have kept : words pattern.text = (words pattern.text).dropWhile isOption := by
        nth_rewrite 1 [← same]
        exact words_unwords _ isWord
      refine ⟨by rw [kept]; exact same,?_⟩
      intro first head
      have unoptional := List.head?_dropWhile_not isOption (words pattern.text)
      rw [← kept,Option.mem_def.mp head] at unoptional
      exact unoptional
  · rintro ⟨single,unoptional⟩
    rw [echo_plain _ unoptional,single,storeCorePattern,if_neg (by simp)]
    exact CorePattern.ext (takeWhile_line _ _ pattern.oneLine (.inr rfl))

theorem stored_text_iff (written text : List Char) (nonempty : text ≠ [])
    (other : text ≠ hostCorePattern.text) :
    (storeCorePattern hostCorePattern written).text = text ↔ written.takeWhile (· != '\n') = text := by
  cases written with
  | nil => exact iff_of_false other.symm nonempty.symm
  | cons c rest => exact Iff.rfl

/-- A pattern with a pipe in front comes back only if its own program prints it. -/
theorem echoed_piped (host : Host) (pattern : CorePattern) (handler : List Char)
    (piped : pattern.text = '|' :: handler) (literal : Lib.Shell.Literal handler) :
    Echoed host pattern ↔
      (Lib.Shell.simple host.program (words handler)).takeWhile (· != '\n') = pattern.text := by
  unfold Echoed bashEcho
  rw [piped,Lib.Shell.output_piped _ _ _ _ literal,CorePattern.ext_iff,piped]
  refine stored_text_iff _ _ (List.cons_ne_nil '|' handler) ?_
  intro same
  have pipe : some '|' = hostCorePattern.text.head? := congrArg List.head? same
  have first : hostCorePattern.text.head? = some 'c' := by decide
  exact absurd (Option.some.inj (pipe.trans first)) (by decide)

theorem corePatternFile_plain : ∀ c ∈ corePatternFile, Lib.Shell.isSpecial c = false ∧ c ≠ '|' := by
  have all : corePatternFile.all (fun c => !Lib.Shell.isSpecial c && c != '|') = true := by decide
  simpa using List.all_eq_true.mp all

/-- A pattern that is not printed at all, or with a lighter first line, is lost. -/
theorem not_echoed (host : Host) (pattern : CorePattern) (special : ¬ Lib.Shell.Literal pattern.text)
    (lost : bashEcho host pattern.text corePatternFile = [] ∨
      Lib.EchoBack.weigh (Lib.EchoBack.topLine (bashEcho host pattern.text corePatternFile)) <
        Lib.EchoBack.weigh pattern.text) : ¬ Echoed host pattern := by
  intro echoed
  have other : hostCorePattern ≠ pattern := by
    intro same
    rw [← same] at special
    exact special (by decide)
  unfold Echoed storeCorePattern at echoed
  split at echoed
  · exact other echoed
  · rename_i full
    rcases lost with empty | light
    · rw [empty] at full
      exact full rfl
    · have same : Lib.EchoBack.topLine (bashEcho host pattern.text corePatternFile) = pattern.text :=
        congrArg CorePattern.text echoed
      rw [same] at light
      exact Nat.lt_irrefl _ light

/-- The text has no expansions, patterns and operators, but perhaps a pipe in front
of words in which nothing is special. -/
def Readable (text : List Char) : Prop :=
  (∀ c ∈ text, Lib.Shell.isSpecial c = false ∧ c ≠ '|') ∨
    text.head? = some '|' ∧ Lib.Shell.Literal text.tail

instance (text : List Char) : Decidable (Readable text) :=
  decidable_of_iff (text.all (fun c => !Lib.Shell.isSpecial c && c != '|') = true ∨
    text.head? = some '|' ∧ Lib.Shell.Literal text.tail) (by simp [Readable])

/-- Nothing in the text is special to the shell, and it is spaced. -/
def Plain (text : List Char) : Prop := Lib.Shell.Literal text ∧ Spaced text

instance (text : List Char) : Decidable (Plain text) := inferInstanceAs (Decidable (_ ∧ _))

/-- With a pipe in front, the first line that the handler prints is the text itself. -/
def Survives (host : Host) (text : List Char) : Prop :=
  if text.head? = some '|' then
    (Lib.Shell.simple host.program (words text.tail)).takeWhile (· != '\n') = text
  else Plain text

theorem echoed_iff (host : Host) (pattern : CorePattern) (readable : Readable pattern.text) :
    Echoed host pattern ↔ Survives host pattern.text := by
  unfold Survives
  rcases readable with known | ⟨piped,literal⟩
  · have unpiped : pattern.text.head? ≠ some '|' :=
      fun piped => (known '|' (List.mem_of_mem_head? piped)).2 rfl
    rw [if_neg unpiped]
    by_cases literal : Lib.Shell.Literal pattern.text
    · rw [echoed_literal host pattern literal,Plain,and_iff_right literal]
    · refine iff_of_false (not_echoed host pattern literal ?_) (fun plain => literal plain.1)
      rcases Lib.EchoBack.output_special host.program host.unknown corePatternFile pattern.text _
        corePatternFile_plain literal rfl with empty | light | ⟨⟨c,member,found⟩,_⟩
      · exact .inl empty
      · exact .inr light
      · obtain ⟨unspecial,unpiped⟩ := known c member
        simp [unspecial,unpiped] at found
  · obtain ⟨handler,cut⟩ := List.head?_eq_some_iff.mp piped
    have tail : pattern.text.tail = handler := by rw [cut,List.tail_cons]
    rw [if_pos piped,tail]
    rw [tail] at literal
    exact echoed_piped host pattern handler cut literal

/-- On a host where other programs and lines with expansions print nothing, only plain
patterns come back. -/
theorem echoed_silent (host : Host) (pattern : CorePattern) (program : host.program = fun _ => [])
    (unknown : host.unknown = fun _ => []) (echoed : Echoed host pattern) : Plain pattern.text := by
  have literal : Lib.Shell.Literal pattern.text := by
    by_contra special
    refine not_echoed host pattern special ?_ echoed
    rcases Lib.EchoBack.output_special host.program host.unknown corePatternFile pattern.text _
      corePatternFile_plain special rfl with empty | light | ⟨_,asked | ⟨command,asked⟩⟩
    · exact .inl empty
    · exact .inr light
    · exact .inl (asked.trans (by rw [unknown]))
    · exact .inl (asked.trans (by rw [program]))
  exact ⟨literal,(echoed_literal host pattern literal).mp echoed⟩

/-! What fini.sh makes of them. -/

theorem storePrintk_length (old : List Int) (written : List Char) :
    (storePrintk old written).length = old.length := by
  unfold storePrintk
  simp
  omega

structure Keeps (before after : Shell) : Prop where
  printk : after.settings.printk = before.settings.printk
  corePattern : after.settings.corePattern = before.settings.corePattern
  origPrintkSetting : after.origPrintkSetting = before.origPrintkSetting
  origCorePattern : after.origCorePattern = before.origCorePattern
  origCoreRlimit : after.origCoreRlimit = before.origCoreRlimit

theorem finiSh_restores (host : Host) (sh after : Shell) (kept : Keeps (changeSettings host sh) after) :
    (finiSh host after).settings = sh.settings ↔
      WholeBlocks sh.settings.coreLimit ∧ Echoed host sh.settings.corePattern := by
  have saved : (changeSettings host sh).origCorePattern = sh.settings.corePattern.text :=
    substituted_line _ sh.settings.corePattern.oneLine
  have printk : (finiSh host after).settings.printk = sh.settings.printk := by
    have length : after.settings.printk.length = sh.settings.printk.length := by
      rw [kept.printk]
      exact storePrintk_length _ _
    have restored := printk_restored host sh.settings.printk after.settings.printk length
    change storePrintk after.settings.printk (bashEcho host after.origPrintkSetting printkFile) = _
    rw [kept.origPrintkSetting]
    exact restored
  have pattern : (finiSh host after).settings.corePattern =
      storeCorePattern hostCorePattern (bashEcho host sh.settings.corePattern.text corePatternFile) := by
    change storeCorePattern after.settings.corePattern
      (bashEcho host after.origCorePattern corePatternFile) = _
    rw [kept.corePattern,kept.origCorePattern,saved]
    rfl
  have limit : (finiSh host after).settings.coreLimit =
      ulimitSet after.settings.coreLimit (ulimitShow sh.settings.coreLimit) := by
    change ulimitSet after.settings.coreLimit after.origCoreRlimit = _
    rw [kept.origCoreRlimit]
    rfl
  rw [Settings.ext_iff,limit,pattern,ulimitSet_ulimitShow]
  refine ⟨fun same => ⟨same.2.2,same.2.1⟩,fun ⟨whole,echoed⟩ => ⟨printk,echoed,whole⟩⟩

/-! The paths through the scripts. -/

def insmodTests : List String := ["force_exit","mmap_dev","procfs","ptrace","writecombine"]

def rmmodTests : List String := ["force_exit","mmap_dev","writecombine"]

theorem initTest_driver (host : Host) (sh : Shell) (driver : host.testname ∈ insmodTests) :
    initTest host sh = insmodTestDrv host sh := by
  simp only [insmodTests,List.mem_cons,List.not_mem_nil,or_false] at driver
  unfold initTest
  rcases driver with name | name | name | name | name <;> rw [name] <;> rfl

theorem initTest_other (host : Host) (sh : Shell) (other : host.testname ∉ insmodTests) :
    ∃ limit, initTest host sh = .ok {sh with settings.coreLimit := limit} := by
  unfold initTest
  split
  all_goals first | exact ⟨_,rfl⟩ | simp_all [insmodTests]

theorem finiTest_driver (host : Host) (sh : Shell) (driver : host.testname ∈ rmmodTests) :
    finiTest host sh = rmmodTestDrv sh := by
  simp only [rmmodTests,List.mem_cons,List.not_mem_nil,or_false] at driver
  unfold finiTest
  rcases driver with name | name | name <;> rw [name] <;> rfl

theorem finiTest_other (host : Host) (sh : Shell) (other : host.testname ∉ rmmodTests) :
    ∃ limit, finiTest host sh = .ok {sh with settings.coreLimit := limit} := by
  unfold finiTest
  split
  all_goals first | exact ⟨_,rfl⟩ | simp_all [rmmodTests]

def Accepted (answers : List Answer) : Prop := ∀ answer ∈ answers, answer.1 ≠ 'h' ∧ answer.1 ≠ '?'

theorem whileGetopts_passes (optstring : List Char) (body : Shell → Answer → Except Shell Shell)
    (sh : Shell)
    (passes : ∀ s, ∀ answer ∈ (getopts optstring sh.params sh.optind).1, body s answer = .ok s) :
    whileGetopts optstring body sh =
      .ok {sh with optind := (getopts optstring sh.params sh.optind).2} := by
  have loop := Lib.Loop.foldlM_ok body (fun s _ => s) _ sh passes
  rw [List.foldl_fixed] at loop
  unfold whileGetopts
  dsimp only
  rw [loop]
  rfl

theorem rmmodTestDrv_passes (sh : Shell)
    (accepted : Accepted (getopts "i:h".toList sh.params sh.optind).1) :
    rmmodTestDrv sh = .ok {sh with optind := (getopts "i:h".toList sh.params sh.optind).2} := by
  apply whileGetopts_passes
  intro s answer member
  obtain ⟨help,bad⟩ := accepted answer member
  rw [usage,if_neg help,if_neg bad]

theorem rmmodTestDrv_exits (sh : Shell)
    (refused : ¬ Accepted (getopts "i:h".toList sh.params sh.optind).1) :
    ∃ after, rmmodTestDrv sh = .error after ∧ after.settings = sh.settings := by
  unfold Accepted at refused
  push Not at refused
  obtain ⟨answer,member,exits⟩ := refused
  have exits : ∀ s, ∃ after, usage s answer = .error after := by
    intro s
    by_cases help : answer.1 = 'h'
    · exact ⟨_,if_pos help⟩
    · refine ⟨{s with status := 1},?_⟩
      rw [usage,if_neg help,if_pos (exits help)]
      rfl
  obtain ⟨after,loop⟩ := Lib.Loop.foldlM_refused usage _ sh _ member exits
  have keeps : ∀ s answer, s.settings = sh.settings →
      ∀ t, usage s answer = .ok t ∨ usage s answer = .error t → t.settings = sh.settings := by
    intro s answer same t stepped
    unfold usage exit at stepped
    split_ifs at stepped <;> rcases stepped with stepped | stepped <;> cases stepped <;> exact same
  have kept := Lib.Loop.foldlM_keeps usage _ keeps _ sh rfl after (.inr loop)
  refine ⟨after,?_,kept⟩
  unfold rmmodTestDrv whileGetopts
  dsimp only
  rw [loop]
  rfl

theorem insmodTestDrv_passes (host : Host) (sh : Shell) (real : sh.dryrun = false)
    (accepted : Accepted (getopts "i:h".toList sh.params sh.optind).1) (found : host.appDir = true) :
    insmodTestDrv host sh = .ok {sh with optind := (getopts "i:h".toList sh.params sh.optind).2} := by
  have loop := rmmodTestDrv_passes sh accepted
  unfold rmmodTestDrv at loop
  unfold insmodTestDrv
  rw [loop]
  change (if (sh.dryrun || !host.appDir) = true then _ else _) = _
  rw [if_neg (by simp [real,found])]

theorem insmodTestDrv_exits (host : Host) (sh : Shell)
    (refused : ¬ (Accepted (getopts "i:h".toList sh.params sh.optind).1 ∧ host.appDir = true)) :
    ∃ after, insmodTestDrv host sh = .error after ∧ after.settings = sh.settings := by
  unfold insmodTestDrv
  by_cases accepted : Accepted (getopts "i:h".toList sh.params sh.optind).1
  · have loop := rmmodTestDrv_passes sh accepted
    unfold rmmodTestDrv at loop
    have missing : host.appDir = false := by simpa using fun found => refused ⟨accepted,found⟩
    rw [loop]
    refine ⟨{sh with optind := (getopts "i:h".toList sh.params sh.optind).2,status := 1},?_,rfl⟩
    change (if (sh.dryrun || !host.appDir) = true then _ else _) = _
    rw [if_pos (by simp [missing])]
    rfl
  · obtain ⟨after,loop,kept⟩ := rmmodTestDrv_exits sh accepted
    unfold rmmodTestDrv at loop
    refine ⟨after,?_,kept⟩
    rw [loop]
    rfl

/-- init.sh gets to the settings change: no option ends it or makes it a dry run,
and the test user is there or can be added. -/
def Changes (host : Host) (params : List Arg) : Prop :=
  (∀ answer ∈ (getopts "Hep:s:dh".toList params 1).1, answer.1 ≠ 'd' ∧ answer.1 ≠ 'h' ∧
    (answer.1 = 's' → host.outOfRange answer.2 = false)) ∧
  (host.testUser = true ∨ host.useradd = true)

def leftover (params : List Arg) : List Arg × Nat :=
  let optind := (getopts "Hep:s:dh".toList params 1).2
  (params.drop (optind-1),optind)

def shifted (settings : Settings) (params : List Arg) : Shell :=
  {start settings params with params := (leftover params).1,optind := (leftover params).2}

theorem initSh_changes (host : Host) (settings : Settings) (params : List Arg)
    (changes : Changes host params) :
    initSh host (start settings params) = .ok (changeSettings host (shifted settings params)) := by
  have loop := whileGetopts_passes "Hep:s:dh".toList (initOption host) (start settings params) (by
    intro s answer member
    obtain ⟨dry,help,range⟩ := changes.1 answer member
    unfold initOption
    split
    · rename_i separation
      rw [if_neg (by simp [range separation])]
    · rfl)
  have user : ¬ ((!host.testUser && !host.useradd) = true) := by
    rcases changes.2 with found | added
    · simp [found]
    · simp [added]
  unfold initSh
  rw [loop]
  change (if (!host.testUser && !host.useradd) = true then _ else _) = _
  rw [if_neg user]
  rfl

/-- No script leaves the shell before fini.sh: a test that loads the driver finds
app_dir, and the parameters left over for insmod_test_drv.sh and rmmod_test_drv.sh
are no reason to show their usage. -/
def Reaches (host : Host) (params : List Arg) : Prop :=
  let behind := getopts "i:h".toList (leftover params).1 (leftover params).2
  (host.testname ∈ insmodTests → Accepted behind.1 ∧ host.appDir = true) ∧
  (host.testname ∈ rmmodTests → Accepted (getopts "i:h".toList (leftover params).1 behind.2).1)

theorem rmmodTests_insmodTests (testname : String) (member : testname ∈ rmmodTests) :
    testname ∈ insmodTests := by
  have all : ∀ name ∈ rmmodTests, name ∈ insmodTests := by decide
  exact all testname member

theorem Keeps.limit (before after : Shell) (kept : Keeps before after) (limit : Option Nat) :
    Keeps before {after with settings.coreLimit := limit} :=
  ⟨kept.printk,kept.corePattern,kept.origPrintkSetting,kept.origCorePattern,kept.origCoreRlimit⟩

theorem Keeps.option (before after : Shell) (kept : Keeps before after) (optind : Nat) :
    Keeps before {after with optind := optind} :=
  ⟨kept.printk,kept.corePattern,kept.origPrintkSetting,kept.origCorePattern,kept.origCoreRlimit⟩

theorem initTest_passes (host : Host) (sh : Shell) (real : sh.dryrun = false)
    (loads : host.testname ∈ insmodTests →
      Accepted (getopts "i:h".toList sh.params sh.optind).1 ∧ host.appDir = true) :
    ∃ after, initTest host sh = .ok after ∧ Keeps sh after ∧ (host.testname ∈ rmmodTests →
      after.params = sh.params ∧ after.optind = (getopts "i:h".toList sh.params sh.optind).2) := by
  have same : Keeps sh sh := ⟨rfl,rfl,rfl,rfl,rfl⟩
  by_cases driver : host.testname ∈ insmodTests
  · obtain ⟨accepted,found⟩ := loads driver
    rw [initTest_driver host sh driver]
    exact ⟨_,insmodTestDrv_passes host sh real accepted found,same.option _ _ _,fun _ => ⟨rfl,rfl⟩⟩
  · obtain ⟨limit,passes⟩ := initTest_other host sh driver
    refine ⟨_,passes,same.limit _ _ limit,fun unloading => ?_⟩
    exact absurd (rmmodTests_insmodTests _ unloading) driver

theorem finiTest_passes (host : Host) (before sh : Shell) (kept : Keeps before sh)
    (unloads : host.testname ∈ rmmodTests → Accepted (getopts "i:h".toList sh.params sh.optind).1) :
    ∃ after, finiTest host sh = .ok after ∧ Keeps before after := by
  by_cases driver : host.testname ∈ rmmodTests
  · rw [finiTest_driver host sh driver]
    exact ⟨_,rmmodTestDrv_passes sh (unloads driver),kept.option _ _ _⟩
  · obtain ⟨limit,passes⟩ := finiTest_other host sh driver
    exact ⟨_,passes,kept.limit _ _ limit⟩

theorem runSh_changes (host : Host) (settings : Settings) (params : List Arg)
    (changes : Changes host params) :
    runSh host (start settings params) =
      runTest host (changeSettings host (shifted settings params)) := by
  unfold runSh
  rw [initSh_changes host settings params changes]
  rfl

theorem ended_reaches (host : Host) (settings : Settings) (params : List Arg)
    (changes : Changes host params) (reaches : Reaches host params) :
    ∃ after, Keeps (changeSettings host (shifted settings params)) after ∧
      ended host settings params = (finiSh host after).settings := by
  obtain ⟨loads,unloads⟩ := reaches
  obtain ⟨loaded,initialised,kept,position⟩ :=
    initTest_passes host (changeSettings host (shifted settings params)) rfl loads
  have unloads : host.testname ∈ rmmodTests →
      Accepted (getopts "i:h".toList loaded.params loaded.optind).1 := by
    intro driver
    rw [(position driver).1,(position driver).2]
    exact unloads driver
  obtain ⟨after,finished,kept⟩ := finiTest_passes host _ loaded kept unloads
  refine ⟨after,kept,?_⟩
  rw [ended,runSh_changes host settings params changes,runTest,initialised]
  change settingsOf (finiTest host loaded >>= _) = _
  rw [finished]
  rfl

theorem ended_leaves (host : Host) (settings : Settings) (params : List Arg)
    (changes : Changes host params) (leaves : ¬ Reaches host params) :
    ended host settings params = changed settings := by
  have there := changeSettings_settings host (shifted settings params)
  rw [ended,runSh_changes host settings params changes,runTest]
  by_cases loads : host.testname ∈ insmodTests →
      Accepted (getopts "i:h".toList (leftover params).1 (leftover params).2).1 ∧ host.appDir = true
  · have unloads := not_and.mp leaves loads
    push Not at unloads
    obtain ⟨driver,refused⟩ := unloads
    have loading := rmmodTests_insmodTests _ driver
    obtain ⟨accepted,found⟩ := loads loading
    rw [initTest_driver host _ loading,insmodTestDrv_passes host _ rfl accepted found]
    obtain ⟨after,exited,kept⟩ := rmmodTestDrv_exits
      {changeSettings host (shifted settings params) with
        optind := (getopts "i:h".toList (leftover params).1 (leftover params).2).2} refused
    change settingsOf (finiTest host _ >>= _) = _
    rw [finiTest_driver host _ driver]
    change settingsOf (rmmodTestDrv {changeSettings host (shifted settings params) with
        optind := (getopts "i:h".toList (leftover params).1 (leftover params).2).2} >>= _) = _
    rw [exited]
    exact kept.trans there
  · push Not at loads
    obtain ⟨driver,refused⟩ := loads
    obtain ⟨after,exited,kept⟩ := insmodTestDrv_exits host
      (changeSettings host (shifted settings params)) (fun fine => refused fine.1 fine.2)
    rw [initTest_driver host _ driver,exited]
    exact kept.trans there

theorem settings_back_iff (host : Host) (settings : Settings) (params : List Arg)
    (changes : Changes host params) :
    ended host settings params = settings ↔
      (Reaches host params ∧ WholeBlocks settings.coreLimit ∧ Echoed host settings.corePattern) ∨
      (¬ Reaches host params ∧ changed settings = settings) := by
  by_cases reaches : Reaches host params
  · obtain ⟨after,kept,final⟩ := ended_reaches host settings params changes reaches
    have restores : (finiSh host after).settings = settings ↔
        WholeBlocks settings.coreLimit ∧ Echoed host settings.corePattern :=
      finiSh_restores host (shifted settings params) after kept
    rw [final,restores]
    simp [reaches]
  · rw [ended_leaves host settings params changes reaches]
    simp [reaches]

/-- When init.sh has changed the settings, they are back at the end if and only
if the run gets to fini.sh, the limit was one of whole blocks and the text of the
pattern is one that survives the second shell, or nothing was changed in effect.
Whatever other programs and lines with expansions print, exactly the plain patterns
survive it. -/
theorem settings_restored_iff (host : Host) (settings : Settings) (params : List Arg)
    (changes : Changes host params) :
    (Readable settings.corePattern.text →
      (ended host settings params = settings ↔
        (Reaches host params ∧ WholeBlocks settings.coreLimit ∧ Survives host settings.corePattern.text) ∨
        (¬ Reaches host params ∧ changed settings = settings))) ∧
    ((∀ program unknown,
        ended {host with program := program,unknown := unknown} settings params = settings) ↔
      (Reaches host params ∧ WholeBlocks settings.coreLimit ∧ Plain settings.corePattern.text) ∨
      (¬ Reaches host params ∧ changed settings = settings)) := by
  refine ⟨?_,?_⟩
  · intro readable
    rw [settings_back_iff host settings params changes,echoed_iff host _ readable]
  have back (program : List (List Char) → List Char) (unknown : List Char → List Char) :=
    settings_back_iff {host with program := program,unknown := unknown} settings params changes
  constructor
  · intro always
    rcases (back (fun _ => []) (fun _ => [])).mp (always _ _) with ⟨reaches,whole,echoed⟩ | left
    · exact .inl ⟨reaches,whole,echoed_silent _ _ rfl rfl echoed⟩
    · exact .inr left
  · rintro (⟨reaches,whole,literal,spaced⟩ | left) program unknown
    · exact (back program unknown).mpr (.inl ⟨reaches,whole,(echoed_literal _ _ literal).mpr spaced⟩)
    · exact (back program unknown).mpr (.inr left)

def silentHost (testname : String) (appDir : Bool) : Host :=
  ⟨testname,appDir,true,true,fun _ => false,fun _ => [],fun _ => [],0⟩

theorem plain_settings_restored :
    Changes (silentHost "mmap_dev" true) ["-H".toList] ∧
      ended (silentHost "mmap_dev" true) ⟨[7,4,1,7],⟨"/var/crash/core %e.%p".toList,by decide⟩,none⟩
        ["-H".toList] = ⟨[7,4,1,7],⟨"/var/crash/core %e.%p".toList,by decide⟩,none⟩ := by
  have changes : Changes (silentHost "mmap_dev" true) ["-H".toList] := by
    unfold Changes
    decide
  have reaches : Reaches (silentHost "mmap_dev" true) ["-H".toList] := by
    unfold Reaches Accepted
    decide
  have survives : Survives (silentHost "mmap_dev" true) "/var/crash/core %e.%p".toList := by
    unfold Survives
    decide
  exact ⟨changes,((settings_restored_iff _ _ _ changes).1 (by decide)).mpr
    (.inl ⟨reaches,trivial,survives⟩)⟩

/-- A pattern with a pipe, a missing app_dir and a limit of 1500 bytes. -/
theorem settings_lost :
    (Changes (silentHost "execve" true) [] ∧
      (ended (silentHost "execve" true) ⟨[7,4,1,7],
        ⟨"|/usr/lib/systemd/systemd-coredump %P %u %g %s %t %c %h".toList,by decide⟩,none⟩
        []).corePattern = hostCorePattern) ∧
    (Changes (silentHost "mmap_dev" false) [] ∧
      ended (silentHost "mmap_dev" false) ⟨[7,4,1,7],⟨"core".toList,by decide⟩,none⟩ [] =
        ⟨[4,4,1,7],hostCorePattern,some 0⟩) ∧
    Changes (silentHost "execve" true) [] ∧
      (ended (silentHost "execve" true) ⟨[7,4,1,7],⟨"core".toList,by decide⟩,some 1500⟩
        []).coreLimit = some 1024 := by
  unfold Changes
  decide

/-- Called as documented, run.sh gets to fini.sh unless a test that loads the
driver does not find app_dir. -/
theorem reaches_documented (host : Host) (params : List Arg)
    (documented : params = [] ∨ params = ["-H".toList]) :
    Reaches host params ↔ (host.testname ∈ insmodTests → host.appDir = true) := by
  have accepted (optind : Nat) : Accepted (getopts "i:h".toList [] optind).1 := by
    unfold Accepted getopts
    simp [scan]
  have left : (leftover params).1 = [] := by
    rcases documented with rfl | rfl <;> rfl
  unfold Reaches
  dsimp only
  rw [left]
  refine ⟨fun reaches driver => (reaches.1 driver).2,fun found => ?_⟩
  exact ⟨fun driver => ⟨accepted _,found driver⟩,fun _ => accepted _⟩

end Ostest.Util.Run
