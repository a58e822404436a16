import Mathlib.Data.BitVec
import Mathlib.Logic.Function.Basic
import Ostest.Lib.Calls

/-! Processes that talk through pipes, under every interleaving.
A read takes at most the asked number of bytes and returns as soon as the pipe
is not empty; a write is atomic. Every reader is assumed to hold the write end
as well, so an empty pipe blocks and end of file is never reported. -/
namespace Ostest.Lib.Pipes
open Lib.Calls

abbrev Byte := BitVec 8

inductive Request (ι : Type) where
  | read (pipe : ι) (count : Nat)
  | write (pipe : ι) (bytes : List Byte)

abbrev Request.Answer {ι : Type} : Request ι → Type
  | .read _ _ => List Byte
  | .write _ _ => Unit

/-- What one process does on its pipes `ι` before it returns an `α`. -/
abbrev Code (ι α : Type) := Prog (Request ι) Request.Answer α

abbrev read {ι α : Type} (pipe : ι) (count : Nat) (next : List Byte → Code ι α) : Code ι α :=
  .call (.read pipe count) next

abbrev write {ι α : Type} (pipe : ι) (bytes : List Byte) (next : Code ι α) : Code ι α :=
  .call (.write pipe bytes) fun _ => next

inductive Transfer (ω ι : Type) where
  | read (who : ω) (pipe : ι)
  | wrote (who : ω) (pipe : ι)
  deriving DecidableEq

structure State (ω ι α : Type) where
  progs : ω → Code ι α
  pipes : ι → List Byte
  log : List (Transfer ω ι)

variable {ω ι α : Type} [DecidableEq ω] [DecidableEq ι]

/-- One operation of process `who`; `none` when it has returned or is blocked. -/
def step (s : State ω ι α) (who : ω) : Option (State ω ι α) :=
  match s.progs who with
  | .ret _ => none
  | .call (.read pipe count) next =>
    if s.pipes pipe = [] then none
    else some ⟨Function.update s.progs who (next ((s.pipes pipe).take count)),
      Function.update s.pipes pipe ((s.pipes pipe).drop count),s.log ++ [.read who pipe]⟩
  | .call (.write pipe bytes) next =>
    some ⟨Function.update s.progs who (next ()),
      Function.update s.pipes pipe (s.pipes pipe ++ bytes),s.log ++ [.wrote who pipe]⟩

theorem step_ret (who : ω) (s : State ω ι α) (value : α) (done : s.progs who = .ret value) :
    step s who = none := by
  simp [step,done]

theorem step_read (who : ω) (s : State ω ι α) (pipe : ι) (count : Nat)
    (next : List Byte → Code ι α) (waiting : s.progs who = read pipe count next) :
    step s who = if s.pipes pipe = [] then none
      else some ⟨Function.update s.progs who (next ((s.pipes pipe).take count)),
        Function.update s.pipes pipe ((s.pipes pipe).drop count),s.log ++ [.read who pipe]⟩ := by
  simp [step,waiting]

theorem step_write (who : ω) (s : State ω ι α) (pipe : ι) (bytes : List Byte)
    (next : Code ι α) (ready : s.progs who = write pipe bytes next) :
    step s who = some ⟨Function.update s.progs who next,
      Function.update s.pipes pipe (s.pipes pipe ++ bytes),s.log ++ [.wrote who pipe]⟩ := by
  simp [step,ready]

theorem step_other (who other : ω) (different : other ≠ who) (s next : State ω ι α)
    (taken : step s who = some next) :
    next.progs other = s.progs other ∧
      ∀ pipe, next.log.count (.read other pipe) = s.log.count (.read other pipe) ∧
        next.log.count (.wrote other pipe) = s.log.count (.wrote other pipe) := by
  cases prog : s.progs who with
  | ret value =>
    rw [step_ret who s value prog] at taken
    contradiction
  | call asked rest =>
  cases asked with
  | read pipe count =>
    rw [step_read who s pipe count rest prog] at taken
    split at taken
    · contradiction
    · cases Option.some.inj taken
      simp [different,List.count_append,Ne.symm different]
  | write pipe bytes =>
    rw [step_write who s pipe bytes (rest ()) prog] at taken
    cases Option.some.inj taken
    simp [different,List.count_append,Ne.symm different]

end Ostest.Lib.Pipes
