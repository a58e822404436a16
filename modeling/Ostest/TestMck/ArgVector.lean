import Ostest.Lib.Memory
import Ostest.TestMck.Execve

/-! The argument vectors that execve/001 and sched_getaffinity/006 build for
execve(), and the memory they ask for. -/
namespace Ostest.TestMck.ArgVector
open Lib.Getopt Lib.Memory

/-- The arguments behind the options. They are fewer than main's, which an int
counts and of which one is the program. -/
structure RestArgs where
  argv : List Arg
  fits : argv.length + 1 < 2^31

def RestArgs.argc (args : RestArgs) : Nat := args.argv.length

/-- `none` is a slot that was never written, `some none` a NULL. -/
abbrev Slots := Nat → Option (Option Arg)

structure Built where
  bytes : Nat
  slots : Slots

/-- The loop from `i` on, with `i` after it. -/
def copyArgs : List Arg → (i : Nat) → Slots → Nat × Slots
  | [], i, argv => (i,argv)
  | arg :: rest, i, argv => copyArgs rest (i+1) (store argv (i+1) [some (some arg)])

/-- A size_t is asked for, the int `argc` converted to one. -/
def buildArgv (filePath : Arg) (args : RestArgs) : Built :=
  let bytes := args.argc * (8 + 2) % 2^64
  let argv := store (fun _ => none) 0 [some (some filePath)]
  let (i,argv) := copyArgs args.argv 0 argv
  ⟨bytes,store argv (i+1) [some none]⟩

inductive Builder where
  | execve001
  /-- `child_execve` of sched_getaffinity/006. -/
  | childExecve

def Builder.build : Builder → (filePath : Arg) → RestArgs → Built
  | .execve001 => buildArgv
  | .childExecve => buildArgv

/-- What execve() is to get. -/
def vector (filePath : Arg) (args : RestArgs) : List (Option Arg) :=
  some filePath :: args.argv.map some ++ [none]

theorem copyArgs_eq (args : List Arg) (i : Nat) (argv : Slots) :
    copyArgs args i argv = (i+args.length,store argv (i+1) (args.map (fun arg => some (some arg)))) := by
  induction args generalizing i argv with
  | nil =>
    rw [copyArgs,List.map_nil,store_nil]
    rfl
  | cons arg rest ih =>
    rw [copyArgs,ih,store_cons,List.map_cons,List.length_cons]
    congr 1
    omega

theorem buildArgv_slots (filePath : Arg) (args : RestArgs) :
    (buildArgv filePath args).slots = store (fun _ => none) 0 ((vector filePath args).map some) := by
  have front : (0+args.argv.length)+1 =
      0+(some (some filePath) :: args.argv.map (fun arg => some (some arg))).length := by simp
  simp only [buildArgv,copyArgs_eq]
  rw [store_cons,front,store_append,vector]
  simp [Function.comp_def]

/-- The slots are those of the vector and no others. -/
def Built.Holds (built : Built) (vector : List (Option Arg)) : Prop :=
  ∀ slot, built.slots slot = vector[slot]?

theorem buildArgv_holds (filePath : Arg) (args : RestArgs) :
    (buildArgv filePath args).Holds (vector filePath args) := by
  intro slot
  rw [buildArgv_slots,store,if_neg (Nat.not_lt_zero _),Nat.sub_zero,List.getElem?_map]
  cases (vector filePath args)[slot]? <;> rfl

/-- The vector that execve/001 hands to execve() is the one in the slots. -/
theorem execve001_vector (environ : List Arg) (s : State) (filePath : Arg) (args : RestArgs)
    (parsed : execveParseArgs s = some (some ⟨some filePath,args.argv⟩)) :
    ∃ vector, execve001 environ s = some (.execve filePath vector environ) ∧
      (Builder.execve001.build filePath args).Holds vector := by
  refine ⟨vector filePath args,?_,buildArgv_holds filePath args⟩
  simp only [execve001,parsed,vector]

/-- The two addends are inside the product with `argc`: it covers the two slots
more than arguments from eight arguments on. -/
theorem argv_fits_iff (builder : Builder) (filePath : Arg) (args : RestArgs) :
    (8 * (args.argc + 2) ≤ (builder.build filePath args).bytes ∧
        (builder.build filePath args).Holds (vector filePath args)) ↔ 8 ≤ args.argc := by
  have bytes : (buildArgv filePath args).bytes = args.argc * 10 := by
    have fits : args.argc + 1 < 2^31 := args.fits
    rw [buildArgv,Nat.mod_eq_of_lt (by omega)]
  have built : builder.build filePath args = buildArgv filePath args := by cases builder <;> rfl
  rw [built,bytes,and_iff_left (buildArgv_holds filePath args)]
  omega

def noArgs : RestArgs := ⟨[],by decide⟩

/-- Without arguments nothing is asked for, and two slots are written. -/
theorem argv_overflows :
    ¬8 * (noArgs.argc + 2) ≤ (Builder.execve001.build "/bin/ls".toList noArgs).bytes ∧
      (Builder.execve001.build "/bin/ls".toList noArgs).slots 0 = some (some "/bin/ls".toList) ∧
      (Builder.execve001.build "/bin/ls".toList noArgs).slots 1 = some none := by
  decide

end Ostest.TestMck.ArgVector
