import Ostest.Lib.Grep
import Ostest.Util.ResultIsOk

/-! getsummary.sh, which puts the results of a run of all tests on lines, and
comparesummary.py, which is to show how two such summaries differ. -/
namespace Ostest.Util.Summary
open Lib.Words Lib.Echo Lib.Grep ResultIsOk

/-- A name that the glob leaves alone, and that is no option. -/
def Plain (name : List Char) : Prop := IsWord name ∧ name.any isPattern = false ∧ isOption name = false

/-- The two directories that the script is given: the names that ls lists in the
first, what is in these files, and what ls lists in the directories of the same
names in the second. -/
structure Outputs where
  directory : List Char
  listing : List (List Char)
  record : List Char → List Char
  cores : List Char → List (List Char)

structure Outputs.Plain (outputs : Outputs) : Prop where
  directory : IsWord outputs.directory
  listing : ∀ name ∈ outputs.listing, Summary.Plain name

/-- The number of `wc -l`. -/
def lineCount (text : List Char) : List Char := Lib.Decimal.decimal (text.count '\n')

/-- `awk -F ':' '$1=="RESULT" {print $2}'` -/
def awkResult (record : List Char) : List (List Char) :=
  ((lines record).filter (fun line => (line.splitOn ':').head? == some "RESULT".toList)).map
    (fun line => (line.splitOn ':').getD 1 [])

def core (outputs : Outputs) (file : List Char) : List Char :=
  substituted (lineCount (printed (outputs.cores file)) ++ ['\n'])

def nl (outputs : Outputs) (file : List Char) : List Char :=
  let counted := unwords [lineCount (outputs.record file),outputs.directory ++ '/' :: file]
  substituted (cutOn ' ' 1 counted ++ ['\n'])

def result (outputs : Outputs) (file : List Char) : List Char :=
  substituted (printed (awkResult (outputs.record file)))

/-- Pathname expansion is a parameter. -/
def getSummary (glob : List Char → List (List Char)) (outputs : Outputs) : List Char :=
  (expand glob (substituted (printed outputs.listing))).flatMap (fun file =>
    echo (expand glob file ++ expand glob (core outputs file) ++ expand glob (nl outputs file) ++
      expand glob (result outputs file)))

/-- The lines that comparesummary.py prints: it reads the second file along with the
first, and then what is left of it. At its end readline gives the empty text. -/
def compareLines : List Line → List Line → List Line
  | [],rest2 => rest2.flatMap (fun line2 => [['-'],"+ ".toList ++ line2])
  | line1 :: rest1,rest2 =>
    let line2 := rest2.headD []
    (if line1 ≠ line2 then ["- ".toList ++ line1,"+ ".toList ++ line2] else []) ++ compareLines rest1 rest2.tail

def compareSummary (summary1 summary2 : List Char) : List Line := compareLines (lines summary1) (lines summary2)

/-- On any two files the script is silent if they differ in nothing but blank lines
at the end of the first. -/
theorem compareLines_silent_iff (first second : List Line) :
    compareLines first second = [] ↔ ∃ count, first = second ++ List.replicate count [] := by
  induction first generalizing second with
  | nil =>
    cases second with
    | nil => exact ⟨fun _ => ⟨0,rfl⟩,fun _ => rfl⟩
    | cons line2 rest2 => simp [compareLines]
  | cons line1 rest1 ih =>
    have equal (line2 : Line) :
        (if line1 ≠ line2 then ["- ".toList ++ line1,"+ ".toList ++ line2] else []) = [] ↔ line1 = line2 := by
      split <;> simp_all
    rw [compareLines,List.append_eq_nil_iff,equal,ih]
    cases second with
    | nil =>
      constructor
      · rintro ⟨rfl,count,rest⟩
        exact ⟨count+1,by rw [rest,List.replicate_succ]; rfl⟩
      · rintro ⟨count,same⟩
        cases count with
        | zero => simp at same
        | succ count =>
          obtain ⟨blank,rest⟩ := List.cons.inj same
          exact ⟨blank,count,rest⟩
    | cons line2 rest2 =>
      constructor
      · rintro ⟨same,count,rest⟩
        exact ⟨count,by rw [same,rest]; rfl⟩
      · rintro ⟨count,same⟩
        obtain ⟨same,rest⟩ := List.cons.inj same
        exact ⟨same,count,rest⟩

/-! What a line of the summary says. -/

variable (glob : List Char → List (List Char)) (outputs : Outputs)

theorem expand_isWord (found : ∀ pattern, ∀ name ∈ glob pattern, IsWord name) (value word : List Char)
    (member : word ∈ expand glob value) : IsWord word := by
  obtain ⟨written,inside,member⟩ := List.mem_flatMap.mp member
  split at member
  · exact found written word member
  · rw [List.mem_singleton.mp member]
    exact words_isWord value written inside

theorem expand_number (n : Nat) :
    expand glob (substituted (Lib.Decimal.decimal n ++ ['\n'])) = [Lib.Decimal.decimal n] := by
  have isWord := decimal_isWord n
  have oneLine : '\n' ∉ Lib.Decimal.decimal n := fun member => absurd (isWord.2 _ member) (by decide)
  have plain := digits_plain _ (Lib.Decimal.decimal_digits n)
  rw [substituted_line _ oneLine,expand_plain,words_single _ isWord]
  intro word member
  rw [words_single _ isWord,List.mem_singleton] at member
  exact member ▸ plain

theorem expand_name (name : List Char) (plain : Plain name) : expand glob name = [name] := by
  rw [expand_plain,words_single _ plain.1]
  intro word member
  rw [words_single _ plain.1,List.mem_singleton] at member
  exact member ▸ plain.2.1

/-- The words of a line: the name, both counts, and what has become of the result. -/
def fields (file : List Char) : List (List Char) :=
  file :: lineCount (printed (outputs.cores file)) :: lineCount (outputs.record file) ::
    expand glob (result outputs file)

theorem nl_eq (plain : outputs.Plain) (file : List Char) (isWord : IsWord file) :
    nl outputs file = substituted (lineCount (outputs.record file) ++ ['\n']) := by
  have words : ∀ word ∈ [lineCount (outputs.record file),outputs.directory ++ '/' :: file], IsWord word := by
    intro word member
    simp only [List.mem_cons,List.not_mem_nil,or_false] at member
    rcases member with rfl | rfl
    · exact decimal_isWord _
    · exact plain.directory.join _ _ isWord '/' rfl
  exact congrArg (fun field => substituted (field ++ ['\n'])) (cutOn_unwords _ words 0 Nat.two_pos)

section
variable (found : ∀ pattern, ∀ name ∈ glob pattern, IsWord name)
include found

theorem fields_isWord (file : List Char) (isWord : IsWord file) :
    ∀ word ∈ fields glob outputs file, IsWord word := by
  intro word member
  simp only [fields,List.mem_cons] at member
  rcases member with rfl | rfl | rfl | member
  · exact isWord
  · exact decimal_isWord _
  · exact decimal_isWord _
  · exact expand_isWord glob found _ word member
end

theorem line_eq (named : outputs.Plain) (file : List Char) (plain : Plain file) :
    echo (expand glob file ++ expand glob (core outputs file) ++ expand glob (nl outputs file) ++
      expand glob (result outputs file)) = unwords (fields glob outputs file) ++ ['\n'] := by
  have counted : expand glob (core outputs file) = [lineCount (printed (outputs.cores file))] :=
    expand_number glob _
  have numbered : expand glob (nl outputs file) = [lineCount (outputs.record file)] := by
    rw [nl_eq outputs named file plain.1]
    exact expand_number glob _
  rw [expand_name glob file plain,counted,numbered]
  exact echo_plain (fields glob outputs file) (by simpa [fields] using plain.2.2)

section
variable (found : ∀ pattern, ∀ name ∈ glob pattern, IsWord name) (plain : outputs.Plain)
include found plain

theorem lines_getSummary :
    lines (getSummary glob outputs) = outputs.listing.map (fun file => unwords (fields glob outputs file)) := by
  have isWord (file : List Char) (member : file ∈ outputs.listing) := (plain.listing file member).1
  have looped : expand glob (substituted (printed outputs.listing)) = outputs.listing := by
    have split : words (substituted (printed outputs.listing)) = outputs.listing := by
      rw [words_substituted]
      exact words_terminated '\n' rfl _ isWord
    rw [expand_plain,split]
    rw [split]
    exact fun file member => (plain.listing file member).2.1
  have each : ∀ file ∈ outputs.listing,
      echo (expand glob file ++ expand glob (core outputs file) ++ expand glob (nl outputs file) ++
        expand glob (result outputs file)) = unwords (fields glob outputs file) ++ ['\n'] :=
    fun file member => line_eq glob outputs plain file (plain.listing file member)
  rw [getSummary,looped,List.flatMap_congr each]
  have each := lines_printed (outputs.listing.map (fun file => unwords (fields glob outputs file))) ?_
  · rwa [printed,List.flatMap_map] at each
  · intro line member
    obtain ⟨file,listed,rfl⟩ := List.mem_map.mp member
    exact newline_unwords _ (fields_isWord glob outputs found file (isWord file listed))

theorem words_lines : (lines (getSummary glob outputs)).map words = outputs.listing.map (fields glob outputs) := by
  rw [lines_getSummary glob outputs found plain,List.map_map]
  refine List.map_congr_left (fun file member => ?_)
  exact words_unwords _ (fields_isWord glob outputs found file (plain.listing file member).1)

theorem lines_filled (line : Line) (member : line ∈ lines (getSummary glob outputs)) : line ≠ [] := by
  rintro rfl
  have listed := List.mem_map_of_mem (f := words) member
  rw [words_lines glob outputs found plain] at listed
  obtain ⟨file,_,empty⟩ := List.mem_map.mp listed
  exact List.cons_ne_nil _ _ (empty.trans words_nil)
end

section
variable (found : ∀ pattern, ∀ name ∈ glob pattern, IsWord name) (first second : Outputs)
  (firstPlain : first.Plain) (secondPlain : second.Plain)
include found firstPlain secondPlain

/-- Summaries have no blank lines, so silence is equality. -/
theorem silent_iff_fields :
    compareSummary (getSummary glob first) (getSummary glob second) = [] ↔
      first.listing.map (fields glob first) = second.listing.map (fields glob second) := by
  rw [compareSummary,compareLines_silent_iff]
  constructor
  · rintro ⟨count,same⟩
    cases count with
    | zero =>
      rw [← words_lines glob first found firstPlain,← words_lines glob second found secondPlain,same,
        List.replicate_zero,List.append_nil]
    | succ count =>
      have blank : [] ∈ lines (getSummary glob first) := by simp [same,List.replicate_succ]
      exact absurd rfl (lines_filled glob first found firstPlain [] blank)
  · intro same
    have unfielded := congrArg (List.map unwords) same
    simp only [List.map_map,Function.comp_def] at unfielded
    refine ⟨0,?_⟩
    rw [lines_getSummary glob first found firstPlain,lines_getSummary glob second found secondPlain,unfielded,
      List.replicate_zero,List.append_nil]

/-- Of two summaries nothing is shown exactly if the tests are the same, and for each
of them both counts and what the glob makes of the words that the RESULT lines have
between their first and their second colon. -/
theorem summaries_silent_iff :
    compareSummary (getSummary glob first) (getSummary glob second) = [] ↔
      first.listing = second.listing ∧ ∀ file ∈ first.listing,
        (printed (first.cores file)).count '\n' = (printed (second.cores file)).count '\n' ∧
        (first.record file).count '\n' = (second.record file).count '\n' ∧
        expand glob (result first file) = expand glob (result second file) := by
  have fields_iff (file : List Char) : fields glob first file = fields glob second file ↔
      (printed (first.cores file)).count '\n' = (printed (second.cores file)).count '\n' ∧
      (first.record file).count '\n' = (second.record file).count '\n' ∧
      expand glob (result first file) = expand glob (result second file) := by
    have number (a b : Nat) : Lib.Decimal.decimal a = Lib.Decimal.decimal b ↔ a = b :=
      ⟨Lib.Decimal.decimal_inj a b,congrArg _⟩
    simp only [fields,List.cons.injEq,true_and,lineCount,number]
  rw [silent_iff_fields glob found first second firstPlain secondPlain]
  constructor
  · intro same
    have names := congrArg (List.map (fun line => line.headD [])) same
    simp only [List.map_map,Function.comp_def,fields,List.headD_cons,List.map_id'] at names
    rw [← names,List.map_inj_left] at same
    exact ⟨names,fun file member => (fields_iff file).mp (same file member)⟩
  · rintro ⟨names,same⟩
    rw [← names,List.map_inj_left]
    exact fun file member => (fields_iff file).mpr (same file member)
end

/-- One test with one line, and no core file. -/
def single (record : String) : Outputs := ⟨"out".toList,["kill".toList],fun _ => record.toList,fun _ => []⟩

theorem single_plain (record : String) : (single record).Plain := by
  refine ⟨show IsWord "out".toList from by decide,?_⟩
  intro name member
  obtain rfl := List.mem_singleton.mp member
  exact ⟨by decide,by decide,by decide⟩

/-- What comes behind a second colon does not count, and neither does a pattern for
which the glob finds the name that the other result has. -/
theorem summaries_silent_iff_colon :
    compareSummary (getSummary (fun _ => [['a']]) (single "RESULT: ?: one\n"))
        (getSummary (fun _ => [['a']]) (single "RESULT: a: two\n")) = [] := by
  have found : ∀ pattern : List Char, ∀ name ∈ (fun _ : List Char => [['a']]) pattern, IsWord name := by
    simp only [List.mem_singleton,forall_eq]
    exact fun _ => by decide
  refine (summaries_silent_iff _ found (single _) (single _) (single_plain _) (single_plain _)).mpr ⟨rfl,?_⟩
  intro file member
  obtain rfl := List.mem_singleton.mp member
  exact ⟨rfl,by decide,by decide⟩

end Ostest.Util.Summary
