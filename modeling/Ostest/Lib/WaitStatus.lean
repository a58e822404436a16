import Mathlib.Data.List.Basic

/-! What wait() reports about a process, the status word it stores for it, and
the macros of <sys/wait.h> that read the word. -/
namespace Ostest.Lib.WaitStatus

/-- A signal number, from 1 to 64. -/
abbrev Signal := {number : Nat // 0 < number ∧ number ≤ 64}

def sigkill : Signal := ⟨9,by decide⟩
def sigsegv : Signal := ⟨11,by decide⟩
def sigtrap : Signal := ⟨5,by decide⟩
def sigstop : Signal := ⟨19,by decide⟩

/-- `event` is the ptrace event of a stop, 0 for any other stop. -/
inductive Report where
  | stopped (signal : Signal) (event : Nat)
  | exited (code : BitVec 8)
  | signaled (signal : Signal) (core : Bool)
  deriving DecidableEq

instance : Inhabited Report := ⟨.exited 0⟩

def Report.status : Report → Nat
  | .stopped signal event => event * 0x10000 + signal.val * 0x100 + 0x7f
  | .exited code => code.toNat * 0x100
  | .signaled signal core => signal.val + if core then 0x80 else 0

def wexitstatus (status : Nat) : Nat := (status &&& 0xff00) >>> 8

def wstopsig (status : Nat) : Nat := wexitstatus status

def wifstopped (status : Nat) : Bool := status &&& 0xff == 0x7f

def wifexited (status : Nat) : Bool := status &&& 0x7f == 0

theorem wexitstatus_eq (status : Nat) : wexitstatus status = status / 0x100 % 0x100 := by
  have byte : 0xff00 >>> 8 = 2^8 - 1 := rfl
  unfold wexitstatus
  rw [Nat.shiftRight_and_distrib,byte,Nat.and_two_pow_sub_one_eq_mod,Nat.shiftRight_eq_div_pow]

theorem wifstopped_eq (status : Nat) : wifstopped status = (status % 0x100 == 0x7f) := by
  have low : status &&& 0xff = status % 0x100 := Nat.and_two_pow_sub_one_eq_mod status 8
  unfold wifstopped
  rw [low]

@[simp]
theorem wexitstatus_stopped (signal : Signal) (event : Nat) :
    wexitstatus (Report.stopped signal event).status = signal.val := by
  have bound := signal.property
  rw [wexitstatus_eq,Report.status]
  omega

@[simp]
theorem wexitstatus_exited (code : BitVec 8) : wexitstatus (Report.exited code).status = code.toNat := by
  have bound := code.isLt
  rw [wexitstatus_eq,Report.status]
  omega

/-- The macro reads 0 for every process that a signal killed. -/
@[simp]
theorem wexitstatus_signaled (signal : Signal) (core : Bool) :
    wexitstatus (Report.signaled signal core).status = 0 := by
  have bound := signal.property
  rw [wexitstatus_eq,Report.status]
  split <;> omega

@[simp]
theorem wifstopped_status (report : Report) :
    wifstopped report.status = true ↔ ∃ signal event, report = .stopped signal event := by
  rw [wifstopped_eq,beq_iff_eq]
  cases report with
  | stopped signal event =>
    have low : (Report.stopped signal event).status % 0x100 = 0x7f := by
      rw [Report.status]
      omega
    simp [low]
  | exited code =>
    have low : (Report.exited code).status % 0x100 = 0 := by
      rw [Report.status]
      omega
    simp [low]
  | signaled signal core =>
    have bound := signal.property
    have low : (Report.signaled signal core).status % 0x100 ≠ 0x7f := by
      rw [Report.status]
      split <;> omega
    simp [low]

@[simp]
theorem wifexited_exited (code : BitVec 8) : wifexited (Report.exited code).status = true := by
  have low : (Report.exited code).status &&& 0x7f = (Report.exited code).status % 0x80 :=
    Nat.and_two_pow_sub_one_eq_mod _ 7
  rw [wifexited,low,Report.status,beq_iff_eq]
  omega

theorem wexitstatus_zero_iff (report : Report) :
    wexitstatus report.status = 0 ↔
      report = .exited 0 ∨ ∃ signal core, report = .signaled signal core := by
  cases report with
  | stopped signal event =>
    have positive := signal.property.1
    simp only [wexitstatus_stopped]
    constructor
    · omega
    · rintro (same | ⟨_,_,same⟩) <;> cases same
  | exited code => simp [BitVec.toNat_eq]
  | signaled signal core => simp

end Ostest.Lib.WaitStatus
