import Ostest.TestMck.Mremap.Tests

/-! What a test of mremap looks at: which answers of the kernel, and which memory
behind them, let it pass. -/
namespace Ostest.TestMck.Mremap
open MremapMmapAnon

def Readable (memory : Memory) (address : Nat) (byte : Byte) : Prop :=
  ∃ mapped, memory address = some mapped ∧ (mapped.prot.read || mapped.prot.write) = true ∧
    mapped.backed = true ∧ mapped.byte = byte

def Usable (memory : Memory) (address : Nat) : Prop :=
  ∃ mapped, memory address = some mapped ∧ mapped.prot.write = true ∧ mapped.backed = true

theorem readByte_visible (memory : Memory) (address : Nat) (byte : Byte) :
    readByte (visible memory) address = some byte ↔ Readable memory address byte := by
  rw [readByte,visible,Readable]
  cases mapped : memory address with
  | none => simp
  | some cell => cases backed : cell.backed <;> simp [backed]

theorem fetch_ok_iff (memory : Memory) (address : Nat) (byte : Byte) :
    fetch memory address = .ok byte ↔ Readable memory address byte := by
  rw [← readByte_visible,fetch]
  cases readByte (visible memory) address <;> simp

/-! The data check. -/

theorem dataCheck_none_iff (space : Space) (start len : Nat) (exp : Byte) :
    dataCheck space start len exp = .ok none ↔ ∀ offset < len, readByte space (start+offset) = some exp := by
  refine ⟨?_,dataCheck_passes space start len exp⟩
  induction len generalizing start with
  | zero =>
    intro _ offset inside
    exact absurd inside (Nat.not_lt_zero offset)
  | succ len ih =>
    intro passed offset inside
    rw [dataCheck] at passed
    cases found : readByte space start with
    | none => simp [found] at passed
    | some byte =>
      by_cases same : byte = exp
      · rw [found] at passed
        simp only [same,ne_eq,not_true,if_false] at passed
        cases offset with
        | zero => rw [Nat.add_zero,found,same]
        | succ offset =>
          have there := ih (start+1) passed offset (by omega)
          rwa [Nat.add_assoc,Nat.add_comm 1 offset] at there
      · simp [found,same] at passed

def Check.Satisfied (addrs : List Addr) (remap : Nat) (memory : Memory) (check : Check) : Prop :=
  ∀ offset < check.len, Readable memory (check.start.address addrs remap + offset) check.exp

theorem verifyData_none_iff (addrs : List Addr) (remap : Nat) (memory : Memory) (checks : List Check) :
    verifyData addrs remap memory checks = .ok none ↔
      ∀ check ∈ checks, check.Satisfied addrs remap memory := by
  induction checks with
  | nil => simp [verifyData]
  | cons check checks ih =>
    have first := dataCheck_none_iff (visible memory) (check.start.address addrs remap) check.len check.exp
    simp only [readByte_visible] at first
    rw [List.forall_mem_cons,← ih,Check.Satisfied,← first,verifyData]
    cases checked : dataCheck (visible memory) (check.start.address addrs remap) check.len check.exp with
    | error address => simp
    | ok msg => cases msg <;> simp

/-! The access check. -/

theorem put_of_usable (memory : Memory) (address : Nat) (byte : Byte) (usable : Usable memory address) :
    ∃ next, put memory address byte = .ok next ∧ fetch next address = .ok byte ∧
      ∀ other, Usable next other ↔ Usable memory other := by
  obtain ⟨mapped,there,write,backed⟩ := usable
  refine ⟨Function.update memory address (some {mapped with byte := byte}),?_,?_,?_⟩
  · simp [put,there,write,backed]
  · rw [fetch_ok_iff]
    exact ⟨_,Function.update_self _ _ _,by simp [write],backed,rfl⟩
  · intro other
    by_cases same : other = address
    · subst same
      exact ⟨fun _ => ⟨mapped,there,write,backed⟩,
        fun _ => ⟨_,Function.update_self _ _ _,write,backed⟩⟩
    · rw [Usable,Usable,Function.update_of_ne same]

theorem usable_of_put (memory next : Memory) (address : Nat) (byte : Byte)
    (written : put memory address byte = .ok next) : Usable memory address := by
  rw [put] at written
  cases there : memory address with
  | none => simp [there] at written
  | some mapped =>
    rw [there] at written
    cases write : mapped.prot.write with
    | false => simp [write] at written
    | true =>
      cases backed : mapped.backed with
      | false => simp [write,backed] at written
      | true => exact ⟨mapped,there,write,backed⟩

theorem memset_ok_iff (memory : Memory) (addr len : Nat) (byte : Byte) :
    (∃ next, memset memory addr byte len = .ok next) ↔ ∀ offset < len, Usable memory (addr+offset) := by
  induction len generalizing memory addr with
  | zero => simp [memset]
  | succ len ih =>
    by_cases usable : Usable memory addr
    · obtain ⟨next,written,_,same⟩ := put_of_usable memory addr byte usable
      have unfolded : memset memory addr byte (len+1) = memset next (addr+1) byte len := by
        rw [memset,written]
        rfl
      rw [unfolded,ih]
      simp only [same]
      constructor
      · intro rest offset inside
        cases offset with
        | zero => exact usable
        | succ offset =>
          have there := rest offset (by omega)
          rwa [Nat.add_assoc,Nat.add_comm 1 offset] at there
      · intro all offset inside
        have there := all (offset+1) (by omega)
        rwa [Nat.add_comm offset 1,← Nat.add_assoc] at there
    · refine ⟨?_,fun all => absurd (all 0 (Nat.succ_pos len)) usable⟩
      rintro ⟨next,set⟩
      rw [memset] at set
      cases written : put memory addr byte with
      | error signal => simp [written,bind,Except.bind] at set
      | ok first => exact absurd (usable_of_put _ _ _ _ written) usable

theorem accessCheck_none_iff (memory : Memory) (addr len : Nat) :
    accessCheck memory addr len = .ok none ↔ addr ≠ 0 ∧ ∀ offset < len, Usable memory (addr+offset) := by
  by_cases null : addr = 0
  · simp [accessCheck,null]
  by_cases empty : len = 0
  · simp [accessCheck,null,empty]
  rw [accessCheck,if_neg null,if_neg empty]
  refine ⟨?_,?_⟩
  · intro passed
    refine ⟨null,?_⟩
    cases first : put memory addr (char 'A') with
    | error signal => simp [first,bind,Except.bind] at passed
    | ok second =>
      obtain ⟨_,again,readFirst,sameFirst⟩ := put_of_usable memory addr (char 'A') (usable_of_put _ _ _ _ first)
      obtain rfl := Except.ok.inj (first.symm.trans again)
      cases last : put second (addr+(len-1)) (char 'Z') with
      | error signal => simp [first,readFirst,last,bind,Except.bind] at passed
      | ok third =>
        obtain ⟨_,again,readLast,sameLast⟩ :=
          put_of_usable second (addr+(len-1)) (char 'Z') (usable_of_put _ _ _ _ last)
        obtain rfl := Except.ok.inj (last.symm.trans again)
        cases set : memset third addr (char '0') len with
        | error signal => simp [first,readFirst,last,readLast,set,bind,Except.bind] at passed
        | ok final =>
          intro offset inside
          have there := (memset_ok_iff third addr len (char '0')).mp ⟨final,set⟩ offset inside
          exact (sameFirst _).mp ((sameLast _).mp there)
  · rintro ⟨_,all⟩
    obtain ⟨second,first,readFirst,sameFirst⟩ :=
      put_of_usable memory addr (char 'A') (all 0 (Nat.pos_of_ne_zero empty))
    obtain ⟨third,last,readLast,sameLast⟩ := put_of_usable second (addr+(len-1)) (char 'Z')
      ((sameFirst _).mpr (all (len-1) (by omega)))
    obtain ⟨final,set⟩ := (memset_ok_iff third addr len (char '0')).mpr
      (fun offset inside => (sameLast _).mpr ((sameFirst _).mpr (all offset inside)))
    simp [first,readFirst,last,readLast,set,bind,Except.bind,pure,Except.pure]

/-! The verdict. -/

def Ending.passed : Ending → Verdict
  | .access _ => .returned none
  | .signal _ _ => .exited 0

/-- The end of a test that has nothing to complain about. -/
def Test.passed {f : Family} (t : Test f) : Verdict :=
  match t.expected with
  | .refused _ => .returned none
  | .remapped _ ending => ending.passed

def Ending.Reached (addrs : List Addr) (remap : Nat) (memory : Memory) (sigaction : Bool) : Ending → Prop
  | .access len => remap ≠ 0 ∧ ∀ offset < len, Usable memory (remap+offset)
  | .signal signum start => sigaction = true ∧ fetch memory (start.address addrs remap) = .error signum

/-- Of the memory only the bytes that the checks name are looked at; in the range
that is accessed it has to be there, whatever is in it. -/
def Test.Accepts {f : Family} (t : Test f) (addrs : List Addr) (sigaction : Bool) (reply : Reply)
    (memory : Memory) : Prop :=
  match t.expected with
  | .refused errno => reply.remap = none ∧ reply.errno = errno
  | .remapped verify ending => ∃ remap, reply.remap = some remap ∧
    (∀ naddr, t.flags.naddr addrs = some naddr → naddr = remap) ∧ reply.errno = 0 ∧
    (∀ check ∈ verify, check.Satisfied addrs remap memory) ∧ ending.Reached addrs remap memory sigaction

theorem Ending.passed_ne (ending : Ending) (msg : String) : .returned (some msg) ≠ ending.passed := by
  cases ending <;> simp [Ending.passed]

theorem Ending.passed_killed (ending : Ending) (signal : Signal) : .killed signal ≠ ending.passed := by
  cases ending <;> simp [Ending.passed]

theorem Test.passed_ne {f : Family} (t : Test f) (msg : String) : .returned (some msg) ≠ t.passed := by
  rw [Test.passed]
  split
  next => simp
  next => exact Ending.passed_ne _ _

theorem finish_iff (addrs : List Addr) (remap : Nat) (memory : Memory) (sigaction : Bool) (ending : Ending) :
    finish addrs remap memory sigaction ending = ending.passed ↔
      ending.Reached addrs remap memory sigaction := by
  cases ending with
  | access len =>
    rw [Ending.Reached,← accessCheck_none_iff,finish,Ending.passed]
    cases accessCheck memory remap len <;> simp
  | signal signum start =>
    rw [Ending.Reached,finish,Ending.passed]
    cases sigaction with
    | false => simp
    | true =>
      cases fetched : fetch memory (start.address addrs remap) with
      | ok byte => simp
      | error signal =>
        by_cases same : signal = signum <;> simp [same]

theorem judge_passed_iff {f : Family} (t : Test f) (addrs : List Addr) (sigaction : Bool) (reply : Reply)
    (memory : Memory) :
    t.judge addrs sigaction reply memory = t.passed ↔ t.Accepts addrs sigaction reply memory := by
  rw [Test.judge,Test.passed,Test.Accepts]
  cases t.expected with
  | refused errno =>
    cases reply.remap with
    | none => by_cases same : reply.errno = errno <;> simp [same]
    | some remap => simp
  | remapped verify ending =>
    cases reply.remap with
    | none => simp [Ending.passed_ne]
    | some remap =>
      have checked := verifyData_none_iff addrs remap memory verify
      have placed : (t.flags.naddr addrs).any (· ≠ remap) = true ↔
          ¬∀ naddr, t.flags.naddr addrs = some naddr → naddr = remap := by simp [Option.any_eq_true]
      simp only [Option.some.injEq,exists_eq_left',placed,← checked]
      split
      next elsewhere => simp [elsewhere,Ending.passed_ne]
      next stays =>
        rw [not_not] at stays
        split
        next wrong => simp [wrong,Ending.passed_ne]
        next right =>
          rw [not_not] at right
          cases verifyData addrs remap memory verify with
          | error signal => simp [Ending.passed_killed]
          | ok msg =>
            cases msg with
            | none =>
              simp only [right,finish_iff,true_and]
              exact (and_iff_right stays).symm
            | some msg => simp [Ending.passed_ne]

end Ostest.TestMck.Mremap
