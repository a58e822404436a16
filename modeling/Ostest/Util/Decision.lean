import Ostest.Util.ResultIsOk

/-! The OK/NG decision at the end of run.sh: after the check of the test, what the
kernel log says about processes and threads that remain. -/
namespace Ostest.Util.Decision
open Lib.Words ResultIsOk

/-- `awk '$4==noun{print $3}'` -/
def awkThird (noun : List Char) (log : List Line) : List (List Char) :=
  log.filterMap (fun line =>
    match words line with
    | _ :: _ :: third :: fourth :: _ => if fourth = noun then some third else none
    | _ => none)

def counted (noun : List Char) (log : List Line) : List Char :=
  substituted ((awkThird noun log).flatMap (· ++ ['\n']))

def isOperator (word : List Char) : Bool :=
  word.head? == some '-' || ["=","==","!=","<",">","!","(",")"].any (·.toList == word)

/-- How the shell expands a pattern, and what it makes of brackets with an operator
in them. -/
structure Host where
  glob : List Char → List (List Char)
  compare : List (List Char) → Bool

def expanded (host : Host) (value : List Char) : List (List Char) := expand host.glob value

/-- `[ -n $value ]`. Without a word behind it `-n` is a string like any other; too
many words are an error, which counts as false. -/
def bracketN (host : Host) (value : List Char) : Bool :=
  match expanded host value with
  | [] => true
  | [word] => !word.isEmpty
  | more => if more.any isOperator then host.compare more else false

def remaining (host : Host) (noun : List Char) (log : List Line) : Bool :=
  bracketN host (counted noun log) && counted noun log != "0".toList

/-- The `rc` that run.sh exits with, from that of the check script. -/
def exitStatus (host : Host) (rc : Nat) (log : List Line) : Nat :=
  let rc := if remaining host "processes".toList log then 1 else rc
  if remaining host "threads".toList log then 1 else rc

/-! Counts are numbers. -/

def Numbers (fields : List (List Char)) : Prop := ∀ field ∈ fields, field.all Char.isDigit = true

instance (fields : List (List Char)) : Decidable (Numbers fields) :=
  inferInstanceAs (Decidable (∀ field ∈ fields, field.all Char.isDigit = true))

theorem awkThird_isWord (noun : List Char) (log : List Line) : ∀ field ∈ awkThird noun log, IsWord field := by
  intro field member
  obtain ⟨line,_,found⟩ := List.mem_filterMap.mp member
  split at found
  next first second third fourth rest split =>
    have listed : third ∈ words line := by simp [split]
    split at found
    next =>
      obtain rfl := Option.some.inj found
      exact words_isWord line third listed
    next => contradiction
  next => contradiction

theorem number_not_isOperator (word : List Char) (isWord : IsWord word) (digits : word.all Char.isDigit = true) :
    isOperator word = false := by
  rw [List.all_eq_true] at digits
  cases word with
  | nil => exact absurd rfl isWord.1
  | cons c rest =>
    have first := digits c List.mem_cons_self
    by_contra operator
    simp only [isOperator,Bool.not_eq_false,Bool.or_eq_true,List.any_cons,List.any_nil,Bool.or_false,beq_iff_eq,
      List.head?_cons,Option.some.injEq] at operator
    rcases operator with minus | operator
    · subst minus
      contradiction
    · rcases operator with same | same | same | same | same | same | same | same
      all_goals
        obtain ⟨rfl,_⟩ := List.cons.inj same
        contradiction

section
variable (host : Host) (noun : List Char) (log : List Line) (numbers : Numbers (awkThird noun log))

theorem words_counted : words (counted noun log) = awkThird noun log := by
  rw [counted,words_substituted]
  exact words_terminated '\n' rfl _ (awkThird_isWord noun log)

include numbers

theorem expanded_counted : expanded host (counted noun log) = awkThird noun log := by
  rw [expanded,expand_plain,words_counted]
  rw [words_counted]
  exact fun field member => digits_plain field (List.all_eq_true.mp (numbers field member))

/-- One count is looked at; no line is taken for processes that remain, and several
lines for none. -/
theorem remaining_false_iff :
    remaining host noun log = false ↔ awkThird noun log = ["0".toList] ∨ 2 ≤ (awkThird noun log).length := by
  have isWord := awkThird_isWord noun log
  have split := words_counted noun log
  rw [remaining,bracketN,expanded_counted host noun log numbers]
  match fields : awkThird noun log with
  | [] =>
    have empty : counted noun log = [] := by rw [counted,fields]; rfl
    simp [empty]
  | [field] =>
    rw [fields] at isWord
    have word := isWord field List.mem_cons_self
    have oneLine : '\n' ∉ field := fun inside => Bool.false_ne_true ((word.2 _ inside).symm)
    have value : counted noun log = field := by
      rw [counted,fields,List.flatMap_singleton,substituted_line field oneLine]
    rw [value]
    simp [word.1]
  | first :: second :: rest =>
    rw [fields] at isWord
    have operators : (first :: second :: rest).any isOperator = false := by
      rw [List.any_eq_false]
      intro field member
      rw [number_not_isOperator field (isWord field member) (numbers field (fields ▸ member))]
      exact Bool.false_ne_true
    simp [operators]
end

/-- With numbers in the log, run.sh exits with 0 exactly when the check of the test
has passed and the log has, for processes as for threads, either one count, which
is 0, or several counts, whatever they are. -/
theorem exitStatus_zero_iff (host : Host) (rc : Nat) (log : List Line)
    (processes : Numbers (awkThird "processes".toList log)) (threads : Numbers (awkThird "threads".toList log)) :
    exitStatus host rc log = 0 ↔ rc = 0 ∧
      (awkThird "processes".toList log = ["0".toList] ∨ 2 ≤ (awkThird "processes".toList log).length) ∧
      (awkThird "threads".toList log = ["0".toList] ∨ 2 ≤ (awkThird "threads".toList log).length) := by
  rw [← remaining_false_iff host _ log processes,← remaining_false_iff host _ log threads,exitStatus]
  cases remaining host "processes".toList log <;> cases remaining host "threads".toList log <;> simp

/-- Two counts of processes that remain. -/
theorem exitStatus_zero_iff_two :
    exitStatus ⟨fun _ => [],fun _ => true⟩ 0 ["[0] show: 3 processes".toList,"[1] show: 2 processes".toList,
      "[0] show: 0 threads".toList] = 0 :=
  (exitStatus_zero_iff _ 0 _ (by decide) (by decide)).mpr (by decide)

end Ostest.Util.Decision
