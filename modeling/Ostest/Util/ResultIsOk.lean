import Ostest.Lib.Echo
import Ostest.Lib.Xargs

/-! check/result_is_ok.sh: the default check of a record file. The file is a
list of lines; xargs is taken to need one echo, and pathname expansion of the
words with a pattern character is a parameter. -/
namespace Ostest.Util.ResultIsOk
open Lib.Words Lib.Echo

abbrev Line := List Char

def firstField (line : Line) : List Char := line.takeWhile (· != ':')

def secondField (line : Line) : List Char :=
  match line.dropWhile (· != ':') with
  | [] => []
  | _ :: rest => (rest.dropWhile (· == ' ')).takeWhile (· != ':')

/-- `awk -F ': *' '$1=="RESULT" {print $2}'` -/
def awkLines (record : List Line) : List Line :=
  (record.filter (fun line => firstField line == "RESULT".toList)).map secondField

def resultMck (record : List Line) : List Char :=
  let items := Lib.Xargs.items .space ((awkLines record).flatMap (· ++ ['\n']))
  substituted (if items.isEmpty then [] else echo items)

def shown (glob : List Char → List (List Char)) (record : List Line) : List (List Char) :=
  expand glob (resultMck record)

def hasSkip : List Char → Bool
  | [] => false
  | c :: rest => "SKIP".toList.isPrefixOf (c :: rest) || hasSkip rest

def isOk (word : List Char) : Bool := word == "ok".toList || word == "OK.".toList

def skipShown (glob : List Char → List (List Char)) (record : List Line) : Bool :=
  hasSkip (echo (shown glob record))

/-- The value of rc behind the script, when it is 0 before. -/
def resultIsOk (glob : List Char → List (List Char)) (record : List Line) : Nat :=
  let rc := if (resultMck record).isEmpty then 1 else 0
  if skipShown glob record then rc
  else if (shown glob record).all isOk then rc
  else 1

/-! What the harness means. -/

def isResult (line : Line) : Bool := "RESULT:".toList.isPrefixOf line

def isSuccess (line : Line) : Bool := line == "RESULT: ok".toList || line == "RESULT:OK.".toList

def isSkip (line : Line) : Bool := isResult line && hasSkip (line.drop 7)

def isFailure (line : Line) : Bool := isResult line && !isSuccess line && !isSkip line

def Passed (record : List Line) : Prop :=
  (∃ line ∈ record, isResult line) ∧ ∀ line ∈ record, isResult line → isSuccess line ∨ isSkip line

/-- The text of a result that awk prints: behind the colon and its blanks, up to
the next colon. -/
def message (line : Line) : List Char := ((line.drop 7).dropWhile (· == ' ')).takeWhile (· != ':')

/-- Text that comes through xargs, echo and the shell as it is: without quotes,
backslashes, patterns, other white space than blanks, and options of echo. -/
def Ordinary (text : List Char) : Prop :=
  (∀ c ∈ text, c ≠ '\\' ∧ c ≠ '\'' ∧ c ≠ '"' ∧ isPattern c = false ∧ (isSpace c = true → blank c = true)) ∧
  ∀ word ∈ words text, isOption word = false

instance (text : List Char) : Decidable (Ordinary text) :=
  decidable_of_iff (text.all (fun c => decide (c ≠ '\\' ∧ c ≠ '\'' ∧ c ≠ '"' ∧ isPattern c = false ∧
      (isSpace c = true → blank c = true))) = true ∧ (words text).all (fun word => !isOption word) = true)
    (by simp only [Ordinary,List.all_eq_true,decide_eq_true_eq,Bool.not_eq_true'])

/-- Where the messages do not mislead: if a run failed then there is no SKIP in
front of the next colon of any message, but some word other than ok, or there is
no word at all; if some run skipped and none failed then there are words there, and
SKIP among them or nothing but ok. -/
def Unhidden (record : List Line) : Prop :=
  ((∃ line ∈ record, isFailure line) →
    (∀ line ∈ record, isResult line → words (message line) = []) ∨
    (∀ line ∈ record, isResult line → hasSkip (message line) = false) ∧
      ∃ line ∈ record, isResult line ∧ ∃ word ∈ words (message line), isOk word = false) ∧
  ((∃ line ∈ record, isSkip line) → (∀ line ∈ record, isFailure line = false) →
    (∃ line ∈ record, isResult line ∧ words (message line) ≠ []) ∧
    ((∃ line ∈ record, isResult line ∧ hasSkip (message line)) ∨
      ∀ line ∈ record, isResult line → ∀ word ∈ words (message line), isOk word))

/-! Messages in which nothing is special come through word by word. -/

/-- The part of each message before its next colon, in words. -/
def messageWords (record : List Line) : List (List Char) := (awkLines record).flatMap words

def Literal (record : List Line) : Prop :=
  (∀ line ∈ awkLines record, Lib.Xargs.Plain line) ∧
  (∀ first ∈ (messageWords record).head?, isOption first = false) ∧
  ∀ word ∈ messageWords record, word.any isPattern = false

theorem messageWords_isWord (record : List Line) : ∀ word ∈ messageWords record, IsWord word := by
  intro word member
  obtain ⟨line,_,inside⟩ := List.mem_flatMap.mp member
  exact words_isWord line word inside

theorem unwords_messageWords (record : List Line) :
    unwords (messageWords record) = [] ↔ messageWords record = [] := by
  refine ⟨?_,?_⟩
  · intro empty
    rw [← words_unwords _ (messageWords_isWord record),empty,words_nil]
  · intro empty
    rw [empty]
    rfl

theorem resultMck_literal (record : List Line) (literal : Literal record) :
    resultMck record = unwords (messageWords record) := by
  have oneLine := newline_unwords _ (messageWords_isWord record)
  have cut : Lib.Xargs.items .space ((awkLines record).flatMap (· ++ ['\n'])) = messageWords record :=
    Lib.Xargs.items_lines (awkLines record) literal.1
  simp only [resultMck,cut]
  split
  · rename_i none
    rw [List.isEmpty_iff.mp none]
    rfl
  · rw [echo_plain _ literal.2.1,substituted_line _ oneLine]

theorem shown_literal (glob : List Char → List (List Char)) (record : List Line)
    (literal : Literal record) : shown glob record = messageWords record := by
  have split := words_unwords _ (messageWords_isWord record)
  rw [shown,resultMck_literal record literal,expand_plain glob _ (by rw [split]; exact literal.2.2),split]

/-! Records without failures and skips. -/

theorem firstField_result (line : Line) (result : firstField line = "RESULT".toList) :
    line = "RESULT".toList ∨ isResult line = true := by
  have split := List.takeWhile_append_dropWhile (p := (· != ':')) (l := line)
  rw [show line.takeWhile (· != ':') = "RESULT".toList from result] at split
  cases rest : line.dropWhile (· != ':') with
  | nil => exact .inl (by rw [← split,rest,List.append_nil])
  | cons c tail =>
    have colon : c = ':' := by
      have head := List.head_dropWhile_not (· != ':') (l := line) (by simp [rest])
      simpa [rest] using head
    right
    rw [← split,rest,colon]
    simp [isResult]

theorem awkLines_quiet (record : List Line)
    (quiet : ∀ line ∈ record, isResult line → isSuccess line) (field : Line)
    (member : field ∈ awkLines record) : field = [] ∨ isOk field = true := by
  obtain ⟨line,listed,rfl⟩ := List.mem_map.mp member
  obtain ⟨inside,first⟩ := List.mem_filter.mp listed
  rcases firstField_result line (by simpa using first) with rfl | result
  · exact .inl rfl
  · have success := quiet line inside result
    simp only [isSuccess,Bool.or_eq_true,beq_iff_eq] at success
    rcases success with rfl | rfl
    · exact .inr (by decide)
    · exact .inr (by decide)

theorem isOk_plain (word : List Char) (ok : isOk word = true) :
    Lib.Xargs.Plain word ∧ words word = [word] ∧ isOption word = false ∧
      word.any isPattern = false := by
  simp only [isOk,Bool.or_eq_true,beq_iff_eq] at ok
  rcases ok with rfl | rfl
  · decide
  · decide

theorem messageWords_quiet (record : List Line)
    (quiet : ∀ line ∈ record, isResult line → isSuccess line) :
    ∀ word ∈ messageWords record, isOk word = true := by
  intro word member
  obtain ⟨field,listed,inside⟩ := List.mem_flatMap.mp member
  rcases awkLines_quiet record quiet field listed with rfl | ok
  · simp [words_nil] at inside
  · rw [(isOk_plain field ok).2.1,List.mem_singleton] at inside
    rw [inside]
    exact ok

theorem quiet_literal (record : List Line)
    (quiet : ∀ line ∈ record, isResult line → isSuccess line) : Literal record := by
  have allOk := messageWords_quiet record quiet
  refine ⟨?_,?_,?_⟩
  · intro field member
    rcases awkLines_quiet record quiet field member with rfl | ok
    · intro c inside
      simp at inside
    · exact (isOk_plain field ok).1
  · intro first head
    exact (isOk_plain first (allOk first (List.mem_of_mem_head? head))).2.2.1
  · intro word member
    exact (isOk_plain word (allOk word member)).2.2.2

theorem awkLines_success (record : List Line) (line : Line) (inside : line ∈ record)
    (success : isSuccess line = true) : ∃ word, word ∈ messageWords record := by
  simp only [isSuccess,Bool.or_eq_true,beq_iff_eq] at success
  rcases success with rfl | rfl
  · have listed : "ok".toList ∈ awkLines record :=
      List.mem_map.mpr ⟨_,List.mem_filter.mpr ⟨inside,by decide⟩,by decide⟩
    exact ⟨"ok".toList,List.mem_flatMap.mpr ⟨_,listed,by decide⟩⟩
  · have listed : "OK.".toList ∈ awkLines record :=
      List.mem_map.mpr ⟨_,List.mem_filter.mpr ⟨inside,by decide⟩,by decide⟩
    exact ⟨"OK.".toList,List.mem_flatMap.mpr ⟨_,listed,by decide⟩⟩

theorem messageWords_silent (record : List Line) (silent : ∀ line ∈ record, isResult line = false) :
    messageWords record = [] := by
  apply List.flatMap_eq_nil_iff.mpr
  intro field member
  obtain ⟨line,listed,rfl⟩ := List.mem_map.mp member
  obtain ⟨inside,first⟩ := List.mem_filter.mp listed
  rcases firstField_result line (by simpa using first) with rfl | result
  · decide
  · simp [silent line inside] at result

theorem resultIsOk_zero (glob : List Char → List (List Char)) (record : List Line) :
    resultIsOk glob record = 0 ↔ resultMck record ≠ [] ∧
      (skipShown glob record = true ∨ ∀ word ∈ shown glob record, isOk word = true) := by
  unfold resultIsOk
  split_ifs <;> simp_all

theorem quiet_zero (glob : List Char → List (List Char)) (record : List Line)
    (quiet : ∀ line ∈ record, isResult line → isSuccess line) :
    resultIsOk glob record = 0 ↔ ∃ line ∈ record, isResult line := by
  have literal := quiet_literal record quiet
  rw [resultIsOk_zero,resultMck_literal record literal,shown_literal glob record literal]
  refine ⟨?_,?_⟩
  · rintro ⟨full,_⟩
    by_contra silent
    push Not at silent
    rw [messageWords_silent record (by simpa using silent)] at full
    exact full rfl
  · rintro ⟨line,inside,result⟩
    obtain ⟨word,member⟩ := awkLines_success record line inside (quiet line inside result)
    refine ⟨?_,.inr (messageWords_quiet record quiet)⟩
    rw [Ne,unwords_messageWords]
    exact List.ne_nil_of_mem member

theorem failed_not_passed (record : List Line) (line : Line) (inside : line ∈ record)
    (failed : isFailure line = true) : ¬ Passed record := by
  rintro ⟨_,fine⟩
  simp only [isFailure,Bool.and_eq_true,Bool.not_eq_true'] at failed
  obtain ⟨⟨result,notSuccess⟩,notSkip⟩ := failed
  rcases fine line inside result with success | skip
  · simp [notSuccess] at success
  · simp [notSkip] at skip

theorem passed_of_skip (record : List Line) (line : Line) (inside : line ∈ record)
    (skip : isSkip line = true) (noFailure : ∀ line ∈ record, isFailure line = false) :
    Passed record := by
  refine ⟨⟨line,inside,(Bool.and_eq_true _ _ ▸ skip).1⟩,?_⟩
  intro other member result
  have fine := noFailure other member
  simp only [isFailure,result,Bool.true_and,Bool.and_eq_false_iff,Bool.not_eq_false'] at fine
  exact fine

/-- The check answers as the harness means if and only if what comes through of the
messages is what it should be. -/
theorem zero_iff_passed_iff (glob : List Char → List (List Char)) (record : List Line) :
    (resultIsOk glob record = 0 ↔ Passed record) ↔
      ((∃ line ∈ record, isFailure line) → resultMck record = [] ∨
        skipShown glob record = false ∧ ∃ word ∈ shown glob record, isOk word = false) ∧
      ((∃ line ∈ record, isSkip line) → (∀ line ∈ record, isFailure line = false) →
        resultMck record ≠ [] ∧ (skipShown glob record ∨ ∀ word ∈ shown glob record, isOk word)) := by
  by_cases failed : ∃ line ∈ record, isFailure line
  · obtain ⟨line,inside,failure⟩ := failed
    have notPassed := failed_not_passed record line inside failure
    rw [iff_false_right notPassed,resultIsOk_zero]
    refine ⟨?_,?_⟩
    · intro nonzero
      refine ⟨fun _ => ?_,fun _ noFailure => ?_⟩
      · by_cases empty : resultMck record = []
        · exact .inl empty
        · right
          push Not at nonzero
          obtain ⟨unskipped,word,member,notOk⟩ := nonzero empty
          exact ⟨by simpa using unskipped,word,member,by simpa using notOk⟩
      · simp [noFailure line inside] at failure
    · rintro ⟨seen,_⟩ ⟨nonempty,hidden⟩
      rcases seen ⟨line,inside,failure⟩ with empty | ⟨unskipped,word,member,notOk⟩
      · exact nonempty empty
      · rcases hidden with skip | allOk
        · simp [unskipped] at skip
        · simp [allOk word member] at notOk
  · have noFailure : ∀ line ∈ record, isFailure line = false := by simpa using failed
    by_cases skipped : ∃ line ∈ record, isSkip line
    · obtain ⟨line,inside,skip⟩ := skipped
      rw [iff_true_right (passed_of_skip record line inside skip noFailure),resultIsOk_zero]
      refine ⟨fun zero => ⟨fun failure => absurd failure failed,fun _ _ => zero⟩,?_⟩
      rintro ⟨_,seen⟩
      exact seen ⟨line,inside,skip⟩ noFailure
    · have quiet : ∀ line ∈ record, isResult line → isSuccess line := by
        intro line inside result
        have fine := noFailure line inside
        have unskipped : isSkip line = false := by
          by_contra skip
          exact skipped ⟨line,inside,by simpa using skip⟩
        simpa [isFailure,result,unskipped] using fine
      refine ⟨fun _ => ⟨fun failure => absurd failure failed,fun skip => absurd skip skipped⟩,fun _ => ?_⟩
      rw [quiet_zero glob record quiet]
      exact ⟨fun result => ⟨result,fun line inside success => .inl (quiet line inside success)⟩,
        fun passed => passed.1⟩

/-! A SKIP in a text is a SKIP in one of its words. -/

theorem isPrefixOf_separated (pattern first rest : List Char) (c : Char) (outside : c ∉ pattern) :
    pattern.isPrefixOf (first ++ c :: rest) = pattern.isPrefixOf first := by
  induction pattern generalizing first with
  | nil => simp
  | cons p pattern ih =>
    rw [List.mem_cons,not_or] at outside
    obtain ⟨other,outside⟩ := outside
    cases first with
    | nil => simp [List.isPrefixOf,Ne.symm other]
    | cons d first => simp [List.isPrefixOf,ih first outside]

theorem hasSkip_join (first rest : List Char) (c : Char) (separates : blank c = true) :
    hasSkip (first ++ c :: rest) = (hasSkip first || hasSkip rest) := by
  have outside : c ∉ "SKIP".toList := by
    simp only [blank,Bool.or_eq_true,beq_iff_eq] at separates
    rcases separates with (rfl | rfl) | rfl <;> decide
  induction first with
  | nil =>
    have separated := isPrefixOf_separated "SKIP".toList [] rest c outside
    rw [List.nil_append] at separated ⊢
    rw [show hasSkip (c :: rest) = ("SKIP".toList.isPrefixOf (c :: rest) || hasSkip rest) from rfl,
      separated]
    rfl
  | cons d first ih =>
    have separated := isPrefixOf_separated "SKIP".toList (d :: first) rest c outside
    rw [List.cons_append] at separated ⊢
    rw [hasSkip,hasSkip,ih,separated,Bool.or_assoc]

theorem hasSkip_unwords (list : List (List Char)) : hasSkip (unwords list) = list.any hasSkip := by
  induction list with
  | nil => rfl
  | cons word list ih =>
    cases list with
    | nil => simp [unwords]
    | cons next list =>
      have joined : unwords (word :: next :: list) = word ++ ' ' :: unwords (next :: list) := by
        simp [unwords]
      rw [joined,hasSkip_join _ _ ' ' rfl,ih]
      rfl

theorem skipShown_literal (glob : List Char → List (List Char)) (record : List Line)
    (literal : Literal record) : skipShown glob record = (messageWords record).any hasSkip := by
  rw [skipShown,shown_literal glob record literal,echo_plain _ literal.2.1,
    hasSkip_join _ [] '\n' rfl,hasSkip_unwords,hasSkip,Bool.or_false]

theorem hasSkip_words (text : List Char) : hasSkip text = (words text).any hasSkip := by
  induction length : text.length using Nat.strongRecOn generalizing text with
  | ind n ih =>
    by_cases separated : ∃ c ∈ text, blank c = true
    · obtain ⟨c,member,separates⟩ := separated
      obtain ⟨first,rest,rfl⟩ := List.append_of_mem member
      rw [List.length_append,List.length_cons] at length
      rw [hasSkip_join first rest c separates,words_join first rest c separates,List.any_append,
        ih first.length (by omega) first rfl,ih rest.length (by omega) rest rfl]
    · cases text with
      | nil => rw [words_nil]; rfl
      | cons c rest =>
        have isWord : IsWord (c :: rest) := ⟨List.cons_ne_nil c rest,by simpa using separated⟩
        rw [words_single _ isWord,List.any_cons,List.any_nil,Bool.or_false]

/-! The messages of the lines. -/

theorem awk_result (line : Line) (result : isResult line = true) :
    firstField line = "RESULT".toList ∧ secondField line = message line := by
  obtain ⟨rest,rfl⟩ := List.isPrefixOf_iff_prefix.mp result
  exact ⟨rfl,rfl⟩

theorem message_mem_awkLines (record : List Line) (line : Line) (inside : line ∈ record)
    (result : isResult line = true) : message line ∈ awkLines record := by
  obtain ⟨first,second⟩ := awk_result line result
  exact List.mem_map.mpr ⟨line,List.mem_filter.mpr ⟨inside,by simp [first]⟩,second⟩

theorem mem_awkLines (record : List Line) (field : Line) (member : field ∈ awkLines record) :
    field = [] ∨ ∃ line ∈ record, isResult line = true ∧ field = message line := by
  obtain ⟨line,listed,rfl⟩ := List.mem_map.mp member
  obtain ⟨inside,first⟩ := List.mem_filter.mp listed
  rcases firstField_result line (by simpa using first) with rfl | result
  · exact .inl rfl
  · exact .inr ⟨line,inside,result,(awk_result line result).2⟩

theorem mem_messageWords (record : List Line) (word : List Char) :
    word ∈ messageWords record ↔ ∃ line ∈ record, isResult line ∧ word ∈ words (message line) := by
  rw [messageWords,List.mem_flatMap]
  constructor
  · rintro ⟨field,member,inside⟩
    rcases mem_awkLines record field member with rfl | ⟨line,listed,result,rfl⟩
    · simp [words_nil] at inside
    · exact ⟨line,listed,result,inside⟩
  · rintro ⟨line,listed,result,inside⟩
    exact ⟨message line,message_mem_awkLines record line listed result,inside⟩

theorem messageWords_nil_iff (record : List Line) :
    messageWords record = [] ↔ ∀ line ∈ record, isResult line → words (message line) = [] := by
  simp only [List.eq_nil_iff_forall_not_mem,mem_messageWords]
  exact ⟨fun none line inside result word member => none word ⟨line,inside,result,member⟩,
    fun none word ⟨line,inside,result,member⟩ => none line inside result word member⟩

theorem messageWords_skip (record : List Line) :
    (messageWords record).any hasSkip = true ↔ ∃ line ∈ record, isResult line ∧ hasSkip (message line) := by
  have cut (line : Line) := hasSkip_words (message line)
  simp only [List.any_eq_true,mem_messageWords,cut]
  exact ⟨fun ⟨word,⟨line,inside,result,member⟩,skip⟩ => ⟨line,inside,result,word,member,skip⟩,
    fun ⟨line,inside,result,word,member,skip⟩ => ⟨word,⟨line,inside,result,member⟩,skip⟩⟩

theorem ordinary_literal (record : List Line)
    (ordinary : ∀ line ∈ record, isResult line → Ordinary (message line)) : Literal record := by
  have spoken (word : List Char) (member : word ∈ messageWords record) :
      ∃ line, Ordinary (message line) ∧ word ∈ words (message line) := by
    obtain ⟨line,inside,result,listed⟩ := (mem_messageWords record word).mp member
    exact ⟨line,ordinary line inside result,listed⟩
  refine ⟨?_,?_,?_⟩
  · intro field member
    rcases mem_awkLines record field member with rfl | ⟨line,inside,result,rfl⟩
    · exact fun c none => absurd none (List.not_mem_nil)
    · intro c listed
      obtain ⟨backslash,single,double,_,space⟩ := (ordinary line inside result).1 c listed
      exact ⟨backslash,single,double,space⟩
  · intro first head
    obtain ⟨line,⟨_,unoptional⟩,listed⟩ := spoken first (List.mem_of_mem_head? head)
    exact unoptional first listed
  · intro word member
    obtain ⟨line,⟨chars,_⟩,listed⟩ := spoken word member
    rw [List.any_eq_false]
    intro c inside pattern
    have plain := (chars c (mem_words _ word listed c inside)).2.2.2.1
    exact Bool.false_ne_true (plain.symm.trans pattern)

end Ostest.Util.ResultIsOk
