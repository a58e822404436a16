import Mathlib.Data.BitVec
import Ostest.Lib.Calls

/-! Test sigaltstack/001: the handler of a signal runs on the main stack first, and
on the alternate stack when it is set. -/
namespace Ostest.TestMck.Sigaltstack
open Lib.Calls

abbrev Addr := BitVec 64

/-- A block of memory ends inside the address space. -/
abbrev Block (size : Nat) := {base : Addr // base.toNat + size < 2^64}

inductive Request where
  | getpid
  | sigaction (onstack : Option Bool)
  | kill (pid : Int)
  | untilSignal
  | malloc (size : Nat)
  | sigaltstack (sp : Addr) (size : Nat)
  | printf (text : String)

/-- The loop that waits ends when the handler has run; its answer is the address
of the variable of the handler. -/
abbrev Request.Answer : Request → Type
  | .getpid => Int
  | .sigaction _ => Bool
  | .kill _ => Unit
  | .untilSignal => Addr
  | .malloc size => Option (Block size)
  | .sigaltstack _ _ => Bool
  | .printf _ => Unit

abbrev Code := Prog Request Request.Answer

abbrev Trace := List (Event Request.Answer)

def ask (asked : Request) : Code asked.Answer := request asked

structure Globals where
  sigstackAddr : Addr
  gotSignal : Bool

def sighandler (i : Addr) (_ : Globals) : Globals := ⟨i,true⟩

/-- kill, and the loop that waits for the handler. -/
def deliver (pid : Int) (globals : Globals) : Code Globals := do
  ask (.kill pid)
  let i ← ask .untilSignal
  return {sighandler i globals with gotSignal := false}

/-- `%p`. -/
def percentP (addr : Addr) : String :=
  if addr = 0 then "(nil)" else "0x" ++ String.ofList (Nat.toDigits 16 addr.toNat)

variable (sigstksz : Nat)

/-- The last checks of the test. -/
def verdict (sp mainStk altStk : Addr) : Option String :=
  if altStk < sp ∧ altStk > sp + BitVec.ofNat 64 sigstksz then
    some "alt. stack is not within the alternate stk boundaries"
  else if mainStk ≥ sp ∧ mainStk ≤ sp + BitVec.ofNat 64 sigstksz then
    some "main stk. not outside the alt. stack boundaries"
  else none

/-- The part of the test behind the allocation. -/
def alternate (pid : Int) (globals : Globals) (mainStk sp : Addr) : Code (Option String) := do
  ask (.printf "alternate stack settings = \x7b\n")
  ask (.printf ("  ss_sp   = " ++ percentP sp ++ "\n"))
  ask (.printf ("  ss_size = 0x" ++ String.ofList (Nat.toDigits 16 sigstksz) ++ "\n"))
  ask (.printf "\x7d;\n")
  if (← ask (.sigaltstack sp sigstksz)) = false then return some "sigaltstack() Failed"
  if (← ask (.sigaction (some true))) = false then
    return some "sigaction() fails to trap signal delivered on alt. stack"
  let globals ← deliver pid globals
  let altStk := globals.sigstackAddr
  ask (.printf ("Actual altternalte stack = " ++ percentP altStk ++ "\n"))
  ask (.printf ("Actual main stack        = " ++ percentP mainStk ++ "\n"))
  return verdict sigstksz sp mainStk altStk

def run : Code (Option String) := do
  let pid ← ask .getpid
  -- the flags of this action are not initialised
  if (← ask (.sigaction none)) = false then return some "sigaction() fails in setup"
  let globals ← deliver pid ⟨0,false⟩
  let mainStk := globals.sigstackAddr
  match ← ask (.malloc sigstksz) with
  | none => return some "could not allocate memory for the alternate stack"
  | some sp => alternate sigstksz pid globals mainStk sp

/-! What a run reports. -/

/-- The addresses that the deliveries record. -/
def recorded (trace : Trace) : List Addr :=
  trace.filterMap fun
    | ⟨.untilSignal,i⟩ => some i
    | _ => none

def bases (trace : Trace) : List Addr :=
  trace.filterMap fun
    | ⟨.malloc _,some block⟩ => some block.val
    | _ => none

def Within (base address : Addr) : Prop :=
  base.toNat ≤ address.toNat ∧ address.toNat ≤ base.toNat + sigstksz

/-- Two deliveries, the first outside the stack and the second on it. -/
def Right (trace : Trace) : Prop :=
  ∃ first second base, recorded trace = [first,second] ∧ bases trace = [base] ∧
    Within sigstksz base second ∧ ¬ Within sigstksz base first

inductive Goes : Trace → Option String → Prop
  | early (trace result) (short : (recorded trace).length < 2) (failed : result ≠ none) : Goes trace result
  | judged (trace first second) (sp : Block sigstksz) (deliveries : recorded trace = [first,second])
      (block : bases trace = [sp.val]) : Goes trace (verdict sigstksz sp first second)

theorem verdict_none_iff (sp : Block sigstksz) (first second : Addr) :
    verdict sigstksz sp first second = none ↔ ¬ Within sigstksz sp first := by
  obtain ⟨sp,fits⟩ := sp
  have top : (sp + BitVec.ofNat 64 sigstksz).toNat = sp.toNat + sigstksz := by
    rw [BitVec.toNat_add,BitVec.toNat_ofNat]
    omega
  have never : ¬ (second < sp ∧ second > sp + BitVec.ofNat 64 sigstksz) := by
    rintro ⟨below,above⟩
    have below : second.toNat < sp.toNat := below
    have above : (sp + BitVec.ofNat 64 sigstksz).toNat < second.toNat := above
    omega
  have inside : first ≥ sp ∧ first ≤ sp + BitVec.ofNat 64 sigstksz ↔ Within sigstksz sp first := by
    rw [Within,← top]
    rfl
  rw [verdict,if_neg never,← inside]
  split
  · rename_i there
    simp [there]
  · rename_i outside
    simp [outside]

theorem runs_deliver (pid : Int) (globals : Globals) (next : Globals → Code (Option String)) (trace : Trace)
    (result : Option String) (runs : Runs (deliver pid globals >>= next) trace result) :
    ∃ i rest, trace = ⟨.kill pid,()⟩ :: ⟨.untilSignal,i⟩ :: rest ∧ Runs (next ⟨i,false⟩) rest result := by
  obtain ⟨_,_,rfl,afterKill⟩ := (runs_request_bind _ _ _ _).mp runs
  obtain ⟨i,rest,rfl,afterSignal⟩ := (runs_request_bind _ _ _ _).mp afterKill
  exact ⟨i,rest,rfl,afterSignal⟩

theorem alternate_goes (pid : Int) (globals : Globals) (mainStk sp : Addr) (trace : Trace)
    (result : Option String) (runs : Runs (alternate sigstksz pid globals mainStk sp) trace result) :
    bases trace = [] ∧ ((recorded trace = [] ∧ result ≠ none) ∨
      ∃ altStk, recorded trace = [altStk] ∧ result = verdict sigstksz sp mainStk altStk) := by
  obtain ⟨_,_,rfl,afterOpen⟩ := (runs_request_bind _ _ _ _).mp runs
  obtain ⟨_,_,rfl,afterSp⟩ := (runs_request_bind _ _ _ _).mp afterOpen
  obtain ⟨_,_,rfl,afterSize⟩ := (runs_request_bind _ _ _ _).mp afterSp
  obtain ⟨_,_,rfl,afterClose⟩ := (runs_request_bind _ _ _ _).mp afterSize
  obtain ⟨stacked,_,rfl,afterStack⟩ := (runs_request_bind _ _ _ _).mp afterClose
  rcases runs_check _ _ _ _ _ afterStack with ⟨_,rfl,rfl⟩ | ⟨_,onStack⟩
  · exact ⟨rfl,.inl ⟨rfl,nofun⟩⟩
  obtain ⟨trapped,_,rfl,afterTrap⟩ := (runs_request_bind _ _ _ _).mp onStack
  rcases runs_check _ _ _ _ _ afterTrap with ⟨_,rfl,rfl⟩ | ⟨_,traps⟩
  · exact ⟨rfl,.inl ⟨rfl,nofun⟩⟩
  obtain ⟨altStk,_,rfl,afterSignal⟩ := runs_deliver _ _ _ _ _ traps
  obtain ⟨_,_,rfl,afterAlt⟩ := (runs_request_bind _ _ _ _).mp afterSignal
  obtain ⟨_,_,rfl,afterMain⟩ := (runs_request_bind _ _ _ _).mp afterAlt
  obtain ⟨rfl,rfl⟩ := (runs_pure _ _ _).mp afterMain
  exact ⟨rfl,.inr ⟨altStk,rfl,rfl⟩⟩

theorem run_goes (trace : Trace) (result : Option String) (runs : Runs (run sigstksz) trace result) :
    Goes sigstksz trace result := by
  obtain ⟨pid,_,rfl,afterPid⟩ := (runs_request_bind _ _ _ _).mp runs
  obtain ⟨set,_,rfl,afterSet⟩ := (runs_request_bind _ _ _ _).mp afterPid
  by_cases failed : set = false
  · rw [if_pos failed] at afterSet
    obtain ⟨rfl,rfl⟩ := (runs_pure _ _ _).mp afterSet
    exact .early _ _ (Nat.zero_lt_two) nofun
  rw [if_neg failed] at afterSet
  obtain ⟨mainStk,_,rfl,afterSignal⟩ := runs_deliver _ _ _ _ _ afterSet
  obtain ⟨allocated,rest,rfl,afterMalloc⟩ := (runs_request_bind _ _ _ _).mp afterSignal
  match allocated with
  | none =>
    obtain ⟨rfl,rfl⟩ := (runs_pure _ _ _).mp afterMalloc
    exact .early _ _ (Nat.one_lt_two) nofun
  | some sp =>
    obtain ⟨block,none | ⟨altStk,second,same⟩⟩ := alternate_goes _ _ _ _ _ _ _ afterMalloc
    · obtain ⟨none,failed⟩ := none
      refine .early _ _ ?_ failed
      change (mainStk :: recorded rest).length < 2
      rw [none]
      exact Nat.one_lt_two
    · rw [same]
      refine .judged _ mainStk altStk sp ?_ ?_
      · change mainStk :: recorded rest = _
        rw [second]
      · change sp.val :: bases rest = _
        rw [block]

/-- The first of the two checks never fails: no address is below the stack and
above it. -/
theorem sigaltstack_iff (trace : Trace) (result : Option String) (runs : Runs (run sigstksz) trace result) :
    (result = none ↔ Right sigstksz trace) ↔
      ∀ first second base, recorded trace = [first,second] → bases trace = [base] →
        Within sigstksz base second ∨ Within sigstksz base first := by
  cases run_goes sigstksz trace result runs with
  | early _ short failed =>
    have notTwo (first second : Addr) : recorded trace ≠ [first,second] := by
      intro same
      rw [same] at short
      exact absurd short (Nat.lt_irrefl 2)
    simp [Right,notTwo,failed]
  | judged first second sp deliveries block =>
    have right : Right sigstksz trace ↔ Within sigstksz sp second ∧ ¬ Within sigstksz sp first := by
      simp [Right,deliveries,block]
    rw [verdict_none_iff,right]
    constructor
    · intro same first' second' base sameDeliveries sameBlock
      obtain ⟨rfl,rfl⟩ : first = first' ∧ second = second' := by simpa [deliveries] using sameDeliveries
      obtain rfl : sp.val = base := by simpa [block] using sameBlock
      by_cases inside : Within sigstksz sp first
      · exact .inr inside
      · exact .inl (same.mp inside).1
    · intro one
      rcases one first second sp deliveries block with inside | there
      · exact ⟨fun outside => ⟨inside,outside⟩,fun both => both.2⟩
      · exact ⟨fun outside => absurd there outside,fun both => both.2⟩

/-- Two deliveries, with all calls succeeding and the stack at 0x10000. -/
def reports (sigstksz : Nat) (fits : 0x10000 + sigstksz < 2^64) (first second : Addr) : Trace :=
  [⟨.getpid,(1 : Int)⟩,⟨.sigaction none,true⟩,⟨.kill 1,()⟩,⟨.untilSignal,first⟩,
    ⟨.malloc sigstksz,some ⟨0x10000,fits⟩⟩,⟨.printf "alternate stack settings = \x7b\n",()⟩,
    ⟨.printf ("  ss_sp   = " ++ percentP 0x10000 ++ "\n"),()⟩,
    ⟨.printf ("  ss_size = 0x" ++ String.ofList (Nat.toDigits 16 sigstksz) ++ "\n"),()⟩,
    ⟨.printf "\x7d;\n",()⟩,⟨.sigaltstack 0x10000 sigstksz,true⟩,⟨.sigaction (some true),true⟩,
    ⟨.kill 1,()⟩,⟨.untilSignal,second⟩,
    ⟨.printf ("Actual altternalte stack = " ++ percentP second ++ "\n"),()⟩,
    ⟨.printf ("Actual main stack        = " ++ percentP first ++ "\n"),()⟩]

theorem runs_reports (sigstksz : Nat) (fits : 0x10000 + sigstksz < 2^64) (first second : Addr) :
    Runs (run sigstksz) (reports sigstksz fits first second)
      (verdict sigstksz 0x10000 first second) :=
  .call _ _ _ _ _ (.call _ _ _ _ _ (.call _ _ _ _ _ (.call _ _ _ _ _ (.call _ _ _ _ _
    (.call _ _ _ _ _ (.call _ _ _ _ _ (.call _ _ _ _ _ (.call _ _ _ _ _ (.call _ _ _ _ _
    (.call _ _ _ _ _ (.call _ _ _ _ _ (.call _ _ _ _ _ (.call _ _ _ _ _ (.call _ _ _ _ _ (.ret _)))))))))))))))

theorem sigaltstack_iff_on_stack :
    verdict 0x4000 0x10000 0x7fff0000 0x13000 = none ↔
      Right 0x4000 (reports 0x4000 (by decide) 0x7fff0000 0x13000) := by
  refine (sigaltstack_iff 0x4000 _ _ (runs_reports 0x4000 (by decide) 0x7fff0000 0x13000)).mpr ?_
  intro first second base deliveries block
  obtain ⟨rfl,rfl⟩ : 0x7fff0000 = first ∧ 0x13000 = second := by simpa [recorded,reports] using deliveries
  obtain rfl : 0x10000 = base := by simpa [bases,reports] using block
  exact .inl ⟨by decide,by decide⟩

/-- Both deliveries are on the main stack, and the test passes. -/
theorem main_stack_passes :
    Runs (run 0x4000) (reports 0x4000 (by decide) 0x7fff0000 0x7fff0000) none ∧
      ¬ Right 0x4000 (reports 0x4000 (by decide) 0x7fff0000 0x7fff0000) := by
  refine ⟨runs_reports 0x4000 (by decide) 0x7fff0000 0x7fff0000,?_⟩
  rintro ⟨first,second,base,deliveries,block,inside,outside⟩
  obtain ⟨rfl,rfl⟩ : 0x7fff0000 = first ∧ 0x7fff0000 = second := by simpa [recorded,reports] using deliveries
  exact outside inside

end Ostest.TestMck.Sigaltstack
