import Ostest.TestMck.Mremap.Verdicts

/-! The whole suite against any kernel whose answer to the test is one that mremap
may give. Kernels may differ in whether they leave the old pages where they were, put
memory behind the end of a shared object, and look at the old range as a whole. -/
namespace Ostest.TestMck.Mremap
open MremapMmapAnon Lib.Calls
open Lib.Remap (Call Free Overlap Remapped)

structure Conduct where
  keeps : Bool
  backs : Bool
  checks : Bool

def efault : Nat := 14

/-- The old range is one mapping. -/
def Uniform (memory : Memory) (call : Call) (prot : Prot) (shared : Bool) : Prop :=
  ∀ offset < call.old, ∃ mapped, memory (call.source+offset) = some mapped ∧ mapped.prot = prot ∧
    mapped.shared = shared

section
variable (c : Conduct)

/-- A page that is new. Nothing is said about what is in it. -/
def Conduct.Fresh (prot : Prot) (shared : Bool) (mapped : Mapped) : Prop :=
  mapped.prot = prot ∧ mapped.shared = shared ∧ mapped.backed = (!shared || c.backs)

/-- The range is at its target. -/
def Conduct.Moves (prot : Prot) (shared : Bool) (memory next : Memory) (call : Call) (target : Nat) : Prop :=
  Remapped c.keeps (c.Fresh prot shared) memory next call target

/-- What mremap may answer, and the memory then. Of calls on a range that is not one
mapping this speaks only about those that leave it its size: the manual has EFAULT for
them, and a kernel that does not look finds nothing to do. -/
structure Conduct.Allows (memory : Memory) (call : Call) (reply : Reply) (next : Memory) : Prop where
  overlapping : ∀ prot shared target, Uniform memory call prot shared → call.fixed = some target →
    Overlap call.source call.old target call.new → reply = ⟨none,einval⟩
  fixed : ∀ prot shared target, Uniform memory call prot shared → call.fixed = some target →
    ¬Overlap call.source call.old target call.new →
      reply = ⟨some target,0⟩ ∧ c.Moves prot shared memory next call target
  shrinks : ∀ prot shared, Uniform memory call prot shared → call.fixed = none → call.new ≤ call.old →
    reply = ⟨some call.source,0⟩ ∧ c.Moves prot shared memory next call call.source
  grows : ∀ prot shared, Uniform memory call prot shared → call.fixed = none → call.mayMove = false →
    call.old < call.new → Free memory (call.source+call.old) (call.new-call.old) →
      reply = ⟨some call.source,0⟩ ∧ c.Moves prot shared memory next call call.source
  blocked : ∀ prot shared, Uniform memory call prot shared → call.fixed = none → call.mayMove = false →
    call.old < call.new → ¬Free memory (call.source+call.old) (call.new-call.old) → reply = ⟨none,enomem⟩
  moves : ∀ prot shared, Uniform memory call prot shared → call.fixed = none → call.mayMove = true →
    call.old < call.new → ¬Free memory (call.source+call.old) (call.new-call.old) →
      (∃ place, place ≠ 0 ∧ Free memory place call.new) →
        ∃ target, target ≠ 0 ∧ Free memory target call.new ∧ reply = ⟨some target,0⟩ ∧
          c.Moves prot shared memory next call target
  mixed : (∀ prot shared, ¬Uniform memory call prot shared) → call.fixed = none → call.new = call.old →
    if c.checks then reply = ⟨none,efault⟩ else reply = ⟨some call.source,0⟩ ∧ next = memory
end

/-! Ranges that the tests have written. -/

/-- What `mremap_mmap_anon` leaves in a region for reading and writing. -/
def Filled (memory : Memory) (start length : Nat) (shared : Bool) (byte : Byte) : Prop :=
  ∀ offset < length, ∃ mapped, memory (start+offset) = some mapped ∧ mapped.prot = protReadWrite ∧
    mapped.shared = shared ∧ mapped.backed = true ∧ mapped.byte = byte

section
variable {memory : Memory} {start length : Nat} {shared : Bool} {byte : Byte}
  (filled : Filled memory start length shared byte)
include filled

theorem Filled.readable (offset : Nat) (inside : offset < length) : Readable memory (start+offset) byte := by
  obtain ⟨mapped,there,prot,_,backed,same⟩ := filled offset inside
  exact ⟨mapped,there,by simp [prot,protReadWrite],backed,same⟩

theorem Filled.usable (offset : Nat) (inside : offset < length) : Usable memory (start+offset) := by
  obtain ⟨mapped,there,prot,_,backed,_⟩ := filled offset inside
  exact ⟨mapped,there,by simp [prot,protReadWrite],backed⟩

theorem Filled.uniform (call : Call) (source : call.source = start) (inside : call.old ≤ length) :
    Uniform memory call protReadWrite shared := by
  intro offset bound
  obtain ⟨mapped,there,prot,same,_⟩ := filled offset (by omega)
  exact ⟨mapped,by rw [source,there],prot,same⟩

theorem Filled.moved {c : Conduct} {prot : Prot} {common : Bool} {next : Memory} {call : Call} {target : Nat}
    (moves : c.Moves prot common memory next call target) (source : call.source = start) (len : Nat)
    (inside : len ≤ length) (inOld : len ≤ call.old) (inNew : len ≤ call.new) :
    Filled next target len shared byte := by
  intro offset bound
  rw [moves.kept offset (by omega) (by omega),source]
  exact filled offset (by omega)

/-- The bytes of a range that the call does not touch. -/
theorem Filled.untouched {c : Conduct} {prot : Prot} {common : Bool} {next : Memory} {call : Call} {target : Nat}
    (moves : c.Moves prot common memory next call target)
    (outside : start+length ≤ call.source ∨ call.source+call.old ≤ start)
    (apart : start+length ≤ target ∨ target+call.new ≤ start) : Filled next start length shared byte := by
  intro offset bound
  rw [moves.frame _ (by omega) (by omega)]
  exact filled offset bound
end

section
variable {page : Nat} {params : List (Param page)} {addrs : List Addr} {final : Space} {base : Nat}
  (laid : Laid final 0 base params addrs) (i : Nat) (p : Param page) (there : params[i]? = some p)
include laid there

theorem addrOf_region : addrOf addrs i = base + total (params.take i) := by
  rw [addrOf,(laid.region i p there).1]

theorem region_filled (used : p.nopage = false) (prot : p.prot = protReadWrite) :
    Filled (backed final) (addrOf addrs i) p.size p.shared (ch i) := by
  intro offset inside
  obtain ⟨cell,mapped,sameProt,sameShared,byte⟩ := (laid.region i p there).2.mapped used offset inside
  rw [addrOf_region laid i p there]
  refine ⟨⟨cell,true⟩,?_,sameProt.trans prot,sameShared,rfl,?_⟩
  · rw [backed,mapped]
    rfl
  · rw [byte (by rw [prot]; rfl),Nat.zero_add]

theorem region_unused (hole : p.nopage = true) (offset : Nat) (inside : offset < p.size) :
    backed final (addrOf addrs i + offset) = none := by
  rw [addrOf_region laid i p there,backed,(laid.region i p there).2.hole hole offset inside]
  rfl

theorem region_used (used : p.nopage = false) : ∃ mapped, backed final (addrOf addrs i) = some mapped := by
  obtain ⟨cell,mapped,_⟩ := (laid.region i p there).2.mapped used 0 p.positive
  rw [addrOf_region laid i p there,backed,← Nat.add_zero (base + _),mapped]
  exact ⟨_,rfl⟩
end

/-! One test. -/

section
variable {f : Family} (t : Test f) (addrs : List Addr) (final : Space)
  (kernel : Memory → Call → Reply × Memory)

/-- The test against the kernel; handlers can be set up. -/
def Test.Passes : Prop :=
  t.runFunc addrs kernel true t.params.length final = t.passed

def Test.Allowed (c : Conduct) : Prop :=
  c.Allows (backed final) (t.call addrs) (kernel (backed final) (t.call addrs)).1
    (kernel (backed final) (t.call addrs)).2

theorem passes_iff_accepts :
    t.Passes addrs final kernel ↔ t.Accepts addrs true (kernel (backed final) (t.call addrs)).1
      (kernel (backed final) (t.call addrs)).2 := by
  rw [Test.Passes,Test.runFunc,if_neg (not_not.mpr rfl),judge_passed_iff]

theorem passes_refused (errno : Nat) (expected : t.expected = .refused errno)
    (answered : (kernel (backed final) (t.call addrs)).1 = ⟨none,errno⟩) : t.Passes addrs final kernel := by
  rw [passes_iff_accepts,Test.Accepts,expected,answered]
  exact ⟨rfl,rfl⟩

/-- A call that succeeds is judged by what the checks find, and by the end of the test. -/
theorem passes_answered (target : Nat) (verify : List Check) (ending : Ending)
    (expected : t.expected = .remapped verify ending)
    (answered : (kernel (backed final) (t.call addrs)).1 = ⟨some target,0⟩)
    (placed : ∀ naddr, t.flags.naddr addrs = some naddr → naddr = target)
    (satisfied : ∀ check ∈ verify, check.Satisfied addrs target (kernel (backed final) (t.call addrs)).2) :
    t.Passes addrs final kernel ↔
      ending.Reached addrs target (kernel (backed final) (t.call addrs)).2 true := by
  rw [passes_iff_accepts,Test.Accepts,expected,answered]
  constructor
  · rintro ⟨remapped,same,_,_,_,reached⟩
    obtain rfl := Option.some.inj same
    exact reached
  · intro reached
    exact ⟨target,rfl,placed,rfl,satisfied,reached⟩

variable {c : Conduct} (allowed : t.Allowed addrs final kernel c) (size len : Nat) (byte : Byte)
  (others : List Check) (ending : Ending) (expected : t.expected = .remapped (⟨.remap 0,len,byte⟩ :: others) ending)
  (filled : Filled (backed final) (addrOf addrs t.region) size f.shared byte)
  (whole : t.oldSize ≤ size) (inOld : len ≤ t.oldSize) (inNew : len ≤ t.newSize)
include expected filled whole inOld inNew

/-- What the test has written is found at the target, and the end of the test decides. -/
theorem passes_iff_reached (target : Nat)
    (answered : (kernel (backed final) (t.call addrs)).1 = ⟨some target,0⟩)
    (moves : c.Moves protReadWrite f.shared (backed final) (kernel (backed final) (t.call addrs)).2 (t.call addrs)
      target)
    (placed : ∀ naddr, t.flags.naddr addrs = some naddr → naddr = target)
    (satisfied : ∀ check ∈ others, check.Satisfied addrs target (kernel (backed final) (t.call addrs)).2) :
    t.Passes addrs final kernel ↔
      ending.Reached addrs target (kernel (backed final) (t.call addrs)).2 true := by
  refine passes_answered t addrs final kernel target _ ending expected answered placed ?_
  rw [List.forall_mem_cons]
  refine ⟨?_,satisfied⟩
  intro offset bound
  exact (filled.moved moves rfl len (by omega) inOld inNew).readable offset bound

include allowed

theorem stays_iff (alone : others = []) (flags : t.flags = .none)
    (room : t.newSize ≤ t.oldSize ∨ t.oldSize < t.newSize ∧
      Free (backed final) (addrOf addrs t.region + t.oldSize) (t.newSize-t.oldSize)) :
    c.Moves protReadWrite f.shared (backed final) (kernel (backed final) (t.call addrs)).2 (t.call addrs)
        (addrOf addrs t.region) ∧
      (t.Passes addrs final kernel ↔
        ending.Reached addrs (addrOf addrs t.region) (kernel (backed final) (t.call addrs)).2 true) := by
  subst alone
  have uniform := filled.uniform (t.call addrs) rfl whole
  have loose : t.flags.naddr addrs = none := by rw [flags]; rfl
  have still : t.flags.movable = false := by rw [flags]; rfl
  have stays : (kernel (backed final) (t.call addrs)).1 = ⟨some (addrOf addrs t.region),0⟩ ∧
      c.Moves protReadWrite f.shared (backed final) (kernel (backed final) (t.call addrs)).2 (t.call addrs)
        (addrOf addrs t.region) := by
    rcases room with small | ⟨large,free⟩
    · exact allowed.shrinks _ _ uniform loose small
    · exact allowed.grows _ _ uniform loose still large free
  exact ⟨stays.2,passes_iff_reached t addrs final kernel size len byte [] ending expected filled whole inOld inNew _
    stays.1 stays.2 (by simp [loose]) (by simp)⟩

theorem moves_iff (alone : others = []) (flags : t.flags = .mayMove) (grows : t.oldSize < t.newSize)
    (blocked : ¬Free (backed final) (addrOf addrs t.region + t.oldSize) (t.newSize-t.oldSize))
    (roomy : ∃ place, place ≠ 0 ∧ Free (backed final) place t.newSize) :
    ∃ target, target ≠ 0 ∧ Free (backed final) target t.newSize ∧
      c.Moves protReadWrite f.shared (backed final) (kernel (backed final) (t.call addrs)).2 (t.call addrs) target ∧
      (t.Passes addrs final kernel ↔
        ending.Reached addrs target (kernel (backed final) (t.call addrs)).2 true) := by
  subst alone
  have uniform := filled.uniform (t.call addrs) rfl whole
  have loose : t.flags.naddr addrs = none := by rw [flags]; rfl
  have movable : t.flags.movable = true := by rw [flags]; rfl
  obtain ⟨target,nonzero,free,answered,moves⟩ := allowed.moves _ _ uniform loose movable grows blocked roomy
  exact ⟨target,nonzero,free,moves,passes_iff_reached t addrs final kernel size len byte [] ending expected filled
    whole inOld inNew target answered moves (by simp [loose]) (by simp)⟩

theorem fixed_iff (i offset : Nat) (flags : t.flags = .fixed i offset)
    (apart : ¬Overlap (addrOf addrs t.region) t.oldSize (addrOf addrs i + offset) t.newSize)
    (satisfied : ∀ next, c.Moves protReadWrite f.shared (backed final) next (t.call addrs) (addrOf addrs i + offset) →
      ∀ check ∈ others, check.Satisfied addrs (addrOf addrs i + offset) next) :
    c.Moves protReadWrite f.shared (backed final) (kernel (backed final) (t.call addrs)).2 (t.call addrs)
        (addrOf addrs i + offset) ∧
      (t.Passes addrs final kernel ↔
        ending.Reached addrs (addrOf addrs i + offset) (kernel (backed final) (t.call addrs)).2 true) := by
  have fixed : t.flags.naddr addrs = some (addrOf addrs i + offset) := by rw [flags]; rfl
  obtain ⟨answered,moves⟩ := allowed.fixed _ _ _ (filled.uniform (t.call addrs) rfl whole) fixed apart
  refine ⟨moves,passes_iff_reached t addrs final kernel size len byte others ending expected filled whole inOld inNew
    _ answered moves ?_ (satisfied _ moves)⟩
  intro naddr same
  exact Option.some.inj (same.symm.trans fixed)
end

/-! The ends of the tests. -/

section
variable {memory : Memory}

theorem fetch_none (address : Nat) (absent : memory address = none) :
    fetch memory address = .error .sigsegv := by
  simp [fetch,readByte,visible,signalAt,absent]

theorem fetch_some (address : Nat) (mapped : Mapped) (there : memory address = some mapped)
    (prot : mapped.prot = protReadWrite) :
    fetch memory address = if mapped.backed then .ok mapped.byte else .error .sigbus := by
  cases backed : mapped.backed <;> simp [fetch,readByte,visible,signalAt,there,prot,protReadWrite,backed]

variable {c : Conduct} {prot : Prot} {shared : Bool} {next : Memory} {call : Call} {target : Nat}
  (moves : c.Moves prot shared memory next call target)
include moves

theorem access_reached (addrs : List Addr) (size len : Nat) (common : Bool) (byte : Byte)
    (filled : Filled memory call.source size common byte) (inside : len ≤ size) (inOld : len ≤ call.old)
    (inNew : len ≤ call.new) (nonzero : target ≠ 0) : (Ending.access len).Reached addrs target next true :=
  ⟨nonzero,(filled.moved moves rfl len inside inOld inNew).usable⟩

/-- Old pages are missed by a test that reads where they were. -/
theorem vacated_iff (offset : Nat) (byte : Byte) (inOld : offset < call.old)
    (apart : call.source+offset < target ∨ target+call.new ≤ call.source+offset)
    (readable : Readable memory (call.source+offset) byte) :
    fetch next (call.source+offset) = .error .sigsegv ↔ c.keeps = false := by
  have left := moves.vacated offset inOld apart
  cases keeps : c.keeps with
  | false => simp [fetch_none,left,keeps]
  | true =>
    have kept : fetch next (call.source+offset) = .ok byte := by
      rw [fetch_ok_iff,Readable,left,keeps]
      exact readable
    simp [kept]

theorem grownEnding_iff (addrs : List Addr) (f : Family) (byte : Byte) (sameProt : prot = protReadWrite)
    (sameShared : shared = f.shared) (old : call.old = f.rangeSize) (new : call.new = f.rangeSize+f.rangeSize)
    (filled : Filled memory call.source f.rangeSize f.shared byte) (nonzero : target ≠ 0) :
    (grownEnding f).Reached addrs target next true ↔ (c.backs = true → f.shared = false) := by
  subst sameProt sameShared
  have behind (offset : Nat) (low : f.rangeSize ≤ offset) (high : offset < f.rangeSize+f.rangeSize) :
      ∃ mapped, next (target+offset) = some mapped ∧ c.Fresh protReadWrite f.shared mapped :=
    moves.grown offset (by omega) (by omega)
  have positive : 0 < f.rangeSize := (inUse f .none).positive
  rw [grownEnding]
  cases family : f.shared with
  | true =>
    obtain ⟨mapped,there,prot,_,backing⟩ := behind f.rangeSize (Nat.le_refl _) (by omega)
    have fetched := fetch_some (target+f.rangeSize) mapped there prot
    simp only [if_true,Ending.Reached,Place.address,fetched,true_and]
    rw [family] at backing
    cases backs : c.backs <;> simp [backing,backs]
  | false =>
    simp only [Bool.false_eq_true,if_false,implies_true,iff_true]
    refine ⟨nonzero,?_⟩
    intro offset inside
    by_cases low : offset < f.rangeSize
    · exact (filled.moved moves rfl f.rangeSize (Nat.le_refl _) (by omega) (by omega)).usable offset low
    · obtain ⟨mapped,there,prot,_,backing⟩ := behind offset (by omega) inside
      exact ⟨mapped,there,by simp [prot,protReadWrite],by simp [backing,family]⟩
end

/-! The tests one by one. -/

theorem addrOf_ne_zero {page : Nat} {params : List (Param page)} {addrs : List Addr} {final : Space} {base : Nat}
    (laid : Laid final 0 base params addrs) (nonzero : Addr.at 0 ∉ addrs) (i : Nat) (p : Param page)
    (there : params[i]? = some p) : addrOf addrs i ≠ 0 := by
  intro zero
  have member := List.mem_of_getElem? (laid.region i p there).1
  rw [← addrOf_region laid i p there,zero] at member
  exact nonzero member

section
variable {f : Family} (t : Test f) {addrs : List Addr} {final : Space} {kernel : Memory → Call → Reply × Memory}
  {c : Conduct} (allowed : t.Allowed addrs final kernel c) (size len : Nat)
  (byte : Byte) (others : List Check) (expected : t.expected = .remapped (⟨.remap 0,len,byte⟩ :: others) (.access len))
  (filled : Filled (backed final) (addrOf addrs t.region) size f.shared byte)
  (whole : t.oldSize ≤ size) (inOld : len ≤ t.oldSize) (inNew : len ≤ t.newSize)
include allowed expected filled whole inOld inNew

theorem stays_passes (alone : others = []) (flags : t.flags = .none) (small : t.newSize ≤ t.oldSize)
    (nonzero : addrOf addrs t.region ≠ 0) : t.Passes addrs final kernel := by
  obtain ⟨moves,judged⟩ := stays_iff t addrs final kernel allowed size len byte others _ expected filled whole
    inOld inNew alone flags (.inl small)
  exact judged.mpr (access_reached moves addrs size len _ _ filled (by omega) inOld inNew nonzero)

theorem fixed_passes (i : Nat) (flags : t.flags = .fixed i 0)
    (apart : ¬Overlap (addrOf addrs t.region) t.oldSize (addrOf addrs i) t.newSize)
    (satisfied : ∀ next, c.Moves protReadWrite f.shared (backed final) next (t.call addrs) (addrOf addrs i) →
      ∀ check ∈ others, check.Satisfied addrs (addrOf addrs i) next)
    (nonzero : addrOf addrs i ≠ 0) : t.Passes addrs final kernel := by
  obtain ⟨moves,judged⟩ := fixed_iff t addrs final kernel allowed size len byte others _ expected filled whole
    inOld inNew i 0 flags apart satisfied
  exact judged.mpr (access_reached moves addrs size len _ _ filled (by omega) inOld inNew nonzero)
end

section
variable (f : Family) {addrs : List Addr} {final : Space} {base : Nat} {kernel : Memory → Call → Reply × Memory}
  {c : Conduct} (nonzero : Addr.at 0 ∉ addrs)

theorem rangeSize_pos : 0 < f.rangeSize := (inUse f .none).positive

/-- The range of test 01 reaches into the region behind it, which has another protection. -/
theorem test01_mixed (laid : Laid final 0 base (test01 f).params addrs) (prot : Prot) (shared : Bool) :
    ¬Uniform (backed final) ((test01 f).call addrs) prot shared := by
  intro uniform
  have source : addrOf addrs 0 = base := addrOf_region laid 0 _ rfl
  have next : addrOf addrs 1 = base + f.rangeSize := addrOf_region laid 1 _ rfl
  have range := f.rangeSize_le
  have page := f.pageSize_le
  have enough : f.rangeSize < 2^64 - f.pageSize*2 := by omega
  obtain ⟨first,there,isOpen,_⟩ := region_filled laid 0 (inUse f protReadWrite) rfl rfl rfl 0 (rangeSize_pos f)
  obtain ⟨cell,behind,closed,_⟩ := (laid.region 1 (inUse f .none) rfl).2.mapped rfl 0 (rangeSize_pos f)
  obtain ⟨one,atFirst,openProt,_⟩ := uniform 0 (Nat.zero_lt_of_lt enough)
  obtain ⟨other,atNext,closedProt,_⟩ := uniform f.rangeSize enough
  change backed final (addrOf addrs 0 + 0) = some one at atFirst
  change backed final (addrOf addrs 0 + f.rangeSize) = some other at atNext
  obtain rfl := Option.some.inj (there.symm.trans atFirst)
  have cellHere : backed final (addrOf addrs 1 + 0) = some ⟨cell,true⟩ := by
    rw [addrOf_region laid 1 _ rfl,backed,behind]
    rfl
  rw [Nat.add_zero,next,← source,atNext] at cellHere
  obtain rfl := Option.some.inj cellHere
  have same : Prot.none = protReadWrite := closed.symm.trans (closedProt.trans (openProt.symm.trans isOpen))
  exact absurd same (by decide)

section
include nonzero

theorem test00_passes (allowed : (test00 f).Allowed addrs final kernel c)
    (laid : Laid final 0 base (test00 f).params addrs) : (test00 f).Passes addrs final kernel :=
  stays_passes (test00 f) allowed f.rangeSize f.rangeSize (char '0') [] rfl
    (region_filled laid 0 (inUse f protReadWrite) rfl rfl rfl) (Nat.le_refl _) (Nat.le_refl _)
    (Nat.le_refl _) rfl rfl (Nat.le_refl _) (addrOf_ne_zero laid nonzero 0 _ rfl)

theorem test01_passes_iff (allowed : (test01 f).Allowed addrs final kernel c)
    (laid : Laid final 0 base (test01 f).params addrs) :
    (test01 f).Passes addrs final kernel ↔ c.checks = false := by
  have filled := region_filled laid 0 (inUse f protReadWrite) rfl rfl rfl
  have answered := allowed.mixed (test01_mixed f laid) rfl rfl
  cases checks : c.checks with
  | true =>
    rw [checks,if_pos rfl] at answered
    refine iff_of_false ?_ (by decide)
    rw [passes_iff_accepts,answered]
    rintro ⟨_,refused,_⟩
    contradiction
  | false =>
    rw [checks,if_neg Bool.false_ne_true] at answered
    obtain ⟨replied,same⟩ := answered
    refine iff_of_true ?_ rfl
    refine (passes_answered (test01 f) addrs final kernel (addrOf addrs 0) _ _ rfl replied nofun ?_).mpr ?_
    · intro check member
      obtain rfl := List.mem_singleton.mp member
      rw [same]
      exact filled.readable
    · rw [same]
      exact ⟨addrOf_ne_zero laid nonzero 0 _ rfl,filled.usable⟩

theorem test02_passes (allowed : (test02 f).Allowed addrs final kernel c)
    (laid : Laid final 0 base (test02 f).params addrs) : (test02 f).Passes addrs final kernel :=
  stays_passes (test02 f) allowed (f.rangeSize*2) (f.rangeSize*2 - f.pageSize) (char '0') [] rfl
    (region_filled laid 0 (inUseTwice f protReadWrite) rfl rfl rfl) (Nat.le_refl _) (Nat.sub_le _ _)
    (Nat.le_refl _) rfl rfl (Nat.sub_le _ _) (addrOf_ne_zero laid nonzero 0 _ rfl)

theorem test06_passes (allowed : (test06 f).Allowed addrs final kernel c)
    (laid : Laid final 0 base (test06 f).params addrs) : (test06 f).Passes addrs final kernel := by
  have source : addrOf addrs 0 = base := addrOf_region laid 0 _ rfl
  have target : addrOf addrs 1 = base + f.rangeSize := addrOf_region laid 1 _ rfl
  refine fixed_passes (test06 f) allowed f.rangeSize f.rangeSize (char '0') [] rfl
    (region_filled laid 0 (inUse f protReadWrite) rfl rfl rfl) (Nat.le_refl _) (Nat.le_refl _)
    (Nat.le_refl _) 1 rfl ?_ (by simp) (addrOf_ne_zero laid nonzero 1 _ rfl)
  rintro ⟨_,overlap⟩
  change addrOf addrs 1 < addrOf addrs 0 + f.rangeSize at overlap
  omega

theorem test07_passes (allowed : (test07 f).Allowed addrs final kernel c)
    (laid : Laid final 0 base (test07 f).params addrs) : (test07 f).Passes addrs final kernel := by
  have source : addrOf addrs 0 = base := addrOf_region laid 0 _ rfl
  have target : addrOf addrs 2 = base + (f.rangeSize + f.rangeSize) := addrOf_region laid 2 _ rfl
  have positive := rangeSize_pos f
  refine fixed_passes (test07 f) allowed f.rangeSize f.rangeSize (char '0') [⟨.params 2 f.rangeSize,_,char '2'⟩]
    rfl (region_filled laid 0 (inUse f protReadWrite) rfl rfl rfl) (Nat.le_refl _) (Nat.le_refl _)
    (Nat.le_refl _) 2 rfl ?_ ?_ (addrOf_ne_zero laid nonzero 2 _ rfl)
  · rintro ⟨_,overlap⟩
    change addrOf addrs 2 < addrOf addrs 0 + f.rangeSize at overlap
    omega
  · -- the second half of the region at the target stays as it was
    intro next moves check member
    obtain rfl := List.mem_singleton.mp member
    have filled : Filled (backed final) (addrOf addrs 2 + f.rangeSize) (f.rangeSize*2 - f.rangeSize) f.shared
        (char '2') := by
      intro offset inside
      rw [Nat.add_assoc]
      exact region_filled laid 2 (inUseTwice f protReadWrite) rfl rfl rfl _ (by change _ < f.rangeSize*2; omega)
    intro offset inside
    refine (filled.untouched moves (.inr ?_) (.inr ?_)).readable offset inside
    · change addrOf addrs 0 + f.rangeSize ≤ _
      omega
    · change addrOf addrs 2 + f.rangeSize ≤ _
      omega

theorem test12_passes (allowed : (test12 f).Allowed addrs final kernel c)
    (laid : Laid final 0 base (test12 f).params addrs) : (test12 f).Passes addrs final kernel := by
  have source : addrOf addrs 2 = base + (f.rangeSize + f.rangeSize) := addrOf_region laid 2 _ rfl
  have target : addrOf addrs 1 = base + f.rangeSize := addrOf_region laid 1 _ rfl
  refine fixed_passes (test12 f) allowed f.rangeSize f.rangeSize (char '2') [] rfl
    (region_filled laid 2 (inUse f protReadWrite) rfl rfl rfl) (Nat.le_refl _) (Nat.le_refl _)
    (Nat.le_refl _) 1 rfl ?_ (by simp) (addrOf_ne_zero laid nonzero 1 _ rfl)
  rintro ⟨overlap,_⟩
  change addrOf addrs 2 < addrOf addrs 1 + f.rangeSize at overlap
  omega

theorem test13_passes (allowed : (test13 f).Allowed addrs final kernel c)
    (laid : Laid final 0 base (test13 f).params addrs) : (test13 f).Passes addrs final kernel := by
  have source : addrOf addrs 1 = base + f.rangeSize := addrOf_region laid 1 _ rfl
  have target : addrOf addrs 2 = base + (f.rangeSize + f.rangeSize) := addrOf_region laid 2 _ rfl
  refine fixed_passes (test13 f) allowed f.rangeSize f.rangeSize (char '1') [] rfl
    (region_filled laid 1 (inUse f protReadWrite) rfl rfl rfl) (Nat.le_refl _) (Nat.le_refl _)
    (Nat.le_refl _) 2 rfl ?_ (by simp) (addrOf_ne_zero laid nonzero 2 _ rfl)
  rintro ⟨_,overlap⟩
  change addrOf addrs 2 < addrOf addrs 1 + f.rangeSize at overlap
  omega

theorem test03_passes_iff (allowed : (test03 f).Allowed addrs final kernel c)
    (laid : Laid final 0 base (test03 f).params addrs) :
    (test03 f).Passes addrs final kernel ↔ (c.backs = true → f.shared = false) := by
  have source : addrOf addrs 0 = base := addrOf_region laid 0 _ rfl
  have next : addrOf addrs 1 = base + f.rangeSize := addrOf_region laid 1 _ rfl
  have filled := region_filled laid 0 (inUse f protReadWrite) rfl rfl rfl
  have room : Free (backed final) (addrOf addrs 0 + f.rangeSize) (f.rangeSize+f.rangeSize-f.rangeSize) := by
    rw [Nat.add_sub_cancel,source,← next]
    exact region_unused laid 1 (unused f) rfl rfl
  obtain ⟨moves,judged⟩ := stays_iff (test03 f) addrs final kernel allowed f.rangeSize f.rangeSize (char '0')
    [] _ rfl filled (Nat.le_refl _) (Nat.le_refl _) (Nat.le_add_right _ _) rfl rfl
    (.inr ⟨Nat.lt_add_of_pos_right (rangeSize_pos f),room⟩)
  exact judged.trans (grownEnding_iff moves addrs f (char '0') rfl rfl rfl rfl filled
    (addrOf_ne_zero laid nonzero 0 _ rfl))
end

/-- In tests 04, 05 and 15 the next region is in the way. -/
theorem next_used (params : List (Param f.pageSize)) (laid : Laid final 0 base params addrs)
    (regions : params = [inUse f protReadWrite,inUse f .none]) :
    ¬Free (backed final) (addrOf addrs 0 + f.rangeSize) (f.rangeSize+f.rangeSize-f.rangeSize) := by
  subst regions
  have source : addrOf addrs 0 = base := addrOf_region laid 0 _ rfl
  have next : addrOf addrs 1 = base + f.rangeSize := addrOf_region laid 1 _ rfl
  obtain ⟨mapped,there⟩ := region_used laid 1 (inUse f .none) rfl rfl
  rw [source,← next,Nat.add_sub_cancel]
  exact Lib.Remap.not_free _ _ _ (rangeSize_pos f) mapped there

theorem test04_passes (allowed : (test04 f).Allowed addrs final kernel c)
    (laid : Laid final 0 base (test04 f).params addrs) : (test04 f).Passes addrs final kernel := by
  have filled := region_filled laid 0 (inUse f protReadWrite) rfl rfl rfl
  refine passes_refused (test04 f) addrs final kernel enomem rfl ?_
  exact allowed.blocked _ _ (filled.uniform _ rfl (Nat.le_refl _)) rfl rfl
    (Nat.lt_add_of_pos_right (rangeSize_pos f)) (next_used f _ laid rfl)

theorem test05_passes_iff (allowed : (test05 f).Allowed addrs final kernel c)
    (laid : Laid final 0 base (test05 f).params addrs)
    (roomy : ∃ place, place ≠ 0 ∧ Free (backed final) place (f.rangeSize+f.rangeSize)) :
    (test05 f).Passes addrs final kernel ↔ (c.backs = true → f.shared = false) := by
  have filled := region_filled laid 0 (inUse f protReadWrite) rfl rfl rfl
  obtain ⟨target,nonzero,_,moves,judged⟩ := moves_iff (test05 f) addrs final kernel allowed f.rangeSize f.rangeSize
    (char '0') [] _ rfl filled (Nat.le_refl _) (Nat.le_refl _) (Nat.le_add_right _ _) rfl rfl
    (Nat.lt_add_of_pos_right (rangeSize_pos f)) (next_used f _ laid rfl) roomy
  exact judged.trans (grownEnding_iff moves addrs f (char '0') rfl rfl rfl rfl filled nonzero)

theorem test15_passes_iff (allowed : (test15 f).Allowed addrs final kernel c)
    (laid : Laid final 0 base (test15 f).params addrs)
    (roomy : ∃ place, place ≠ 0 ∧ Free (backed final) place (f.rangeSize+f.rangeSize)) :
    (test15 f).Passes addrs final kernel ↔ c.keeps = false := by
  have filled := region_filled laid 0 (inUse f protReadWrite) rfl rfl rfl
  have positive := rangeSize_pos f
  obtain ⟨target,_,free,moves,judged⟩ := moves_iff (test15 f) addrs final kernel allowed f.rangeSize f.rangeSize
    (char '0') [] _ rfl filled (Nat.le_refl _) (Nat.le_refl _) (Nat.le_add_right _ _) rfl rfl
    (Nat.lt_add_of_pos_right positive) (next_used f _ laid rfl) roomy
  rw [judged,Ending.Reached,and_iff_right rfl]
  refine vacated_iff moves 0 (char '0') positive ?_ (filled.readable 0 positive)
  -- the old range was mapped, and so it is not where the new one has gone
  by_contra inside
  change ¬(addrOf addrs 0 + 0 < target ∨ target + (f.rangeSize+f.rangeSize) ≤ addrOf addrs 0 + 0) at inside
  have absent := free (addrOf addrs 0 - target) (by change _ < f.rangeSize+f.rangeSize; omega)
  obtain ⟨used,there,_⟩ := filled 0 positive
  rw [Nat.add_sub_cancel' (by omega),← Nat.add_zero (addrOf addrs 0),there] at absent
  contradiction

theorem test14_passes_iff (allowed : (test14 f).Allowed addrs final kernel c)
    (laid : Laid final 0 base (test14 f).params addrs) :
    (test14 f).Passes addrs final kernel ↔ c.keeps = false := by
  have filled := region_filled laid 0 (inUseTwice f protReadWrite) rfl rfl rfl
  have page := f.pageSize_pos
  have positive := rangeSize_pos f
  obtain ⟨moves,judged⟩ := stays_iff (test14 f) addrs final kernel allowed (f.rangeSize*2)
    (f.rangeSize*2 - f.pageSize) (char '0') [] _ rfl filled (Nat.le_refl _) (Nat.sub_le _ _)
    (Nat.le_refl _) rfl rfl (.inl (Nat.sub_le _ _))
  rw [judged,Ending.Reached,and_iff_right rfl]
  have inOld : f.rangeSize*2 - f.pageSize < f.rangeSize*2 := by omega
  exact vacated_iff moves _ (char '0') inOld (.inr (Nat.le_refl _)) (filled.readable _ inOld)

theorem test16_passes_iff (allowed : (test16 f).Allowed addrs final kernel c)
    (laid : Laid final 0 base (test16 f).params addrs) :
    (test16 f).Passes addrs final kernel ↔ c.keeps = false := by
  have source : addrOf addrs 0 = base := addrOf_region laid 0 _ rfl
  have target : addrOf addrs 1 = base + f.rangeSize := addrOf_region laid 1 _ rfl
  have filled := region_filled laid 0 (inUse f protReadWrite) rfl rfl rfl
  have positive := rangeSize_pos f
  have apart : ¬Overlap (addrOf addrs 0) f.rangeSize (addrOf addrs 1) f.rangeSize := by
    rintro ⟨_,overlap⟩
    omega
  obtain ⟨moves,judged⟩ := fixed_iff (test16 f) addrs final kernel allowed f.rangeSize f.rangeSize (char '0') [] _ rfl
    filled (Nat.le_refl _) (Nat.le_refl _) (Nat.le_refl _) 1 0 rfl apart (by simp)
  rw [judged,Ending.Reached,and_iff_right rfl]
  refine vacated_iff moves 0 (char '0') positive (.inl ?_) (filled.readable 0 positive)
  change addrOf addrs 0 + 0 < addrOf addrs 1 + 0
  omega

/-- The tests that ask for a place in the range that is to go there. -/
theorem overlap_passes (t : Test f) (allowed : t.Allowed addrs final kernel c) (i offset : Nat) (shared : Bool)
    (byte : Byte) (expected : t.expected = .refused einval) (flags : t.flags = .fixed i offset)
    (filled : Filled (backed final) (addrOf addrs t.region) t.oldSize shared byte)
    (overlap : Overlap (addrOf addrs t.region) t.oldSize (addrOf addrs i + offset) t.newSize) :
    t.Passes addrs final kernel := by
  have fixed : t.flags.naddr addrs = some (addrOf addrs i + offset) := by rw [flags]; rfl
  exact passes_refused t addrs final kernel einval expected
    (allowed.overlapping _ _ _ (filled.uniform _ rfl (Nat.le_refl _)) fixed overlap)

theorem test08_passes (allowed : (test08 f).Allowed addrs final kernel c)
    (laid : Laid final 0 base (test08 f).params addrs) : (test08 f).Passes addrs final kernel := by
  have source : addrOf addrs 2 = base + (f.rangeSize + f.rangeSize) := addrOf_region laid 2 _ rfl
  have target : addrOf addrs 1 = base + f.rangeSize := addrOf_region laid 1 _ rfl
  have positive := rangeSize_pos f
  refine overlap_passes f (test08 f) allowed 1 0 f.shared (char '2') rfl rfl
    (region_filled laid 2 (inUse f protReadWrite) rfl rfl rfl) ⟨?_,?_⟩
  · change addrOf addrs 2 < addrOf addrs 1 + 0 + (f.rangeSize+f.rangeSize+f.rangeSize)
    omega
  · change addrOf addrs 1 + 0 < addrOf addrs 2 + f.rangeSize
    omega

theorem test09_passes (allowed : (test09 f).Allowed addrs final kernel c)
    (laid : Laid final 0 base (test09 f).params addrs) : (test09 f).Passes addrs final kernel := by
  have pages := f.four_pages
  have page := f.pageSize_pos
  refine overlap_passes f (test09 f) allowed 1 f.pageSize f.shared (char '1') rfl rfl
    (region_filled laid 1 (inUseTwice f protReadWrite) rfl rfl rfl) ⟨?_,?_⟩
  · change addrOf addrs 1 < addrOf addrs 1 + f.pageSize + f.pageSize
    omega
  · change addrOf addrs 1 + f.pageSize < addrOf addrs 1 + f.rangeSize*2
    omega

theorem test10_passes (allowed : (test10 f).Allowed addrs final kernel c)
    (laid : Laid final 0 base (test10 f).params addrs) : (test10 f).Passes addrs final kernel := by
  have source : addrOf addrs 2 = base + (f.rangeSize + f.rangeSize) := addrOf_region laid 2 _ rfl
  have target : addrOf addrs 1 = base + f.rangeSize := addrOf_region laid 1 _ rfl
  have positive := rangeSize_pos f
  refine overlap_passes f (test10 f) allowed 1 0 f.shared (char '2') rfl rfl
    (region_filled laid 2 (inUseTwice f protReadWrite) rfl rfl rfl) ⟨?_,?_⟩
  · change addrOf addrs 2 < addrOf addrs 1 + 0 + f.rangeSize*2
    omega
  · change addrOf addrs 1 + 0 < addrOf addrs 2 + f.rangeSize*2
    omega

theorem test11_passes (allowed : (test11 f).Allowed addrs final kernel c)
    (laid : Laid final 0 base (test11 f).params addrs) : (test11 f).Passes addrs final kernel := by
  have pages := f.four_pages
  have page := f.pageSize_pos
  refine overlap_passes f (test11 f) allowed 1 f.pageSize f.shared (char '1') rfl rfl
    (region_filled laid 1 (inUseTwice f protReadWrite) rfl rfl rfl) ⟨?_,?_⟩
  · change addrOf addrs 1 < addrOf addrs 1 + f.pageSize + f.rangeSize*2
    omega
  · change addrOf addrs 1 + f.pageSize < addrOf addrs 1 + f.rangeSize*2
    omega
end

/-! The suite. -/

/-- No test reserves more than six ranges. -/
theorem suite_total (f : Family) (t : Test f) (member : t ∈ suite f) :
    total t.params ≤ f.rangeSize*6 ∧ t.params.length ≤ 5 := by
  simp only [suite,List.mem_cons,List.not_mem_nil,or_false] at member
  rcases member with rfl | rfl | rfl | rfl | rfl | rfl | rfl | rfl | rfl | rfl | rfl | rfl | rfl | rfl | rfl |
    rfl | rfl
  all_goals
    refine ⟨?_,Nat.le_of_ble_eq_true rfl⟩
    simp only [total,inUse,inUseTwice,unused,test00,test01,test02,test03,test04,test05,test06,test07,test08,
      test09,test10,test11,test12,test13,test14,test15,test16]
    omega

theorem suite_laidOut (f : Family) (t : Test f) (member : t ∈ suite f) (space : Space) (trace : Trace)
    (addrs : List Addr) (runs : Runs (mremapMmapAnon t.params) trace (.returned t.params.length addrs)) :
    ∃ base final, LaidOut space final t.params trace addrs base := by
  obtain ⟨most,few⟩ := suite_total f t member
  have range := f.rangeSize_le
  obtain ⟨_,_,short⟩ := sumSizes_eq t.params 0 0 (2^31-1) (by decide) (by decide)
  have whole : t.params.take (2^31-1+1) = t.params := List.take_of_length_le (by omega)
  rw [whole,Nat.zero_add] at short
  exact (formatted_total space t.params trace _ (short (by omega) (by omega)) (by omega) runs).1 rfl

def small : Family := ⟨.k4,false,false⟩

/-- Test 016 when everything can be mapped. -/
def mappings : Trace :=
  [⟨.reserve 0xC000,some ⟨0x400000,by decide⟩⟩,⟨.mmapFixed 0x400000 0x4000 protReadWrite false,true⟩,
    ⟨.memset 0x400000 (char '0') 0x4000,()⟩,⟨.munmap 0x404000 0x4000,true⟩,
    ⟨.mmapFixed 0x408000 0x4000 .none false,true⟩]

theorem mappings_run : Runs (mremapMmapAnon (test16 small).params) mappings
    (.returned (test16 small).params.length [.at 0x400000,.at 0x404000,.at 0x408000]) :=
  .call _ _ _ _ _ (.call _ _ _ _ _ (.call _ _ _ _ _ (.call _ _ _ _ _ (.call _ _ _ _ _ (.ret _)))))

theorem mappings_laidOut : ∃ base final, LaidOut (fun _ => none) final (test16 small).params mappings
    [.at 0x400000,.at 0x404000,.at 0x408000] base :=
  suite_laidOut small (test16 small) (List.mem_of_getElem? (i := 16) rfl) _ mappings _ mappings_run

/-- The first check of a test is about all that it has written and that still fits. -/
theorem suite_checks (f : Family) (t : Test f) (member : t ∈ suite f) (verify : List Check) (ending : Ending)
    (expected : t.expected = .remapped verify ending) (p : Param f.pageSize)
    (source : t.params[t.region]? = some p) :
    ∃ check ∈ verify, check.start = .remap 0 ∧ check.exp = ch t.region ∧
      ∀ offset, offset < p.size → offset < t.oldSize → offset < t.newSize → offset < check.len := by
  simp only [suite,List.mem_cons,List.not_mem_nil,or_false] at member
  rcases member with rfl | rfl | rfl | rfl | rfl | rfl | rfl | rfl | rfl | rfl | rfl | rfl | rfl | rfl | rfl |
    rfl | rfl
  all_goals
    cases source
    cases expected
  all_goals
    refine ⟨_,List.mem_cons_self,rfl,rfl,?_⟩
    intro offset inRegion inOld inNew
    first | exact inRegion | exact inNew

/-- On any kernel whatever, a test that passes has found all the bytes of the old
range that the new one has room for. -/
theorem passed_keeps_bytes (f : Family) (t : Test f) (member : t ∈ suite f) (addrs : List Addr) (final : Space)
    (kernel : Memory → Call → Reply × Memory) (sigaction : Bool) (maps : Nat)
    (passed : t.runFunc addrs kernel sigaction maps final = t.passed) (target : Nat)
    (remapped : (kernel (backed final) (t.call addrs)).1.remap = some target) (p : Param f.pageSize)
    (source : t.params[t.region]? = some p) :
    ∀ offset, offset < p.size → offset < t.oldSize → offset < t.newSize →
      Readable (kernel (backed final) (t.call addrs)).2 (target+offset) (ch t.region) := by
  rw [Test.runFunc] at passed
  split at passed
  next => exact absurd passed (t.passed_ne _)
  next =>
    rw [judge_passed_iff,Test.Accepts] at passed
    cases expected : t.expected with
    | refused errno =>
      rw [expected] at passed
      exact absurd (passed.1.symm.trans remapped) (by simp)
    | remapped verify ending =>
      rw [expected] at passed
      obtain ⟨found,same,_,_,satisfied,_⟩ := passed
      obtain rfl := Option.some.inj (remapped.symm.trans same)
      obtain ⟨check,listed,start,exp,enough⟩ := suite_checks f t member verify ending expected p source
      intro offset inRegion inOld inNew
      have there := satisfied check listed offset (enough offset inRegion inOld inNew)
      rwa [start,exp] at there

def regions : List Addr := [.at 0x400000,.at 0x404000,.at 0x408000]

/-- A kernel that moves the range to where it is asked for, with 0xFF in what is new. -/
def moving (memory : Memory) (call : Call) : Reply × Memory :=
  (⟨call.fixed,0⟩,Lib.Remap.moved false memory ⟨⟨protReadWrite,false,0xFF⟩,true⟩ call (call.fixed.getD 0))

/-- Test 016 is a call that such a kernel answers as mremap may. -/
theorem moving_allowed (final : Space) (filled : Filled (backed final) 0x400000 0x4000 false (char '0')) :
    (test16 small).Allowed regions final moving ⟨false,false,false⟩ := by
  have uniform := filled.uniform ((test16 small).call regions) rfl (Nat.le_refl _)
  have apart : ¬Overlap 0x400000 0x4000 0x404000 0x4000 := by decide
  refine ⟨?_,?_,nofun,nofun,nofun,nofun,fun mixed => absurd uniform (mixed _ _)⟩
  · intro prot shared target _ fixed overlap
    cases fixed
    exact absurd overlap apart
  · intro prot shared target same fixed _
    cases fixed
    obtain ⟨mapped,there,rfl,rfl⟩ := same 0 (by decide)
    obtain ⟨other,atStart,prot,shared,_⟩ := filled 0 (by decide)
    obtain rfl := Option.some.inj (there.symm.trans atStart)
    exact ⟨rfl,Lib.Remap.moved_remapped _ _ _ _ ⟨prot.symm,shared.symm,by rw [shared]; rfl⟩ _ _⟩

theorem passed_keeps_bytes_moved : ∃ final, after (fun _ => none) mappings = some final ∧
    Readable (moving (backed final) ((test16 small).call regions)).2 0x407fff (char '0') := by
  obtain ⟨_,final,laidOut⟩ := mappings_laidOut
  have allowed := moving_allowed final (region_filled laidOut.laid 0 _ rfl rfl rfl)
  refine ⟨final,laidOut.ran,?_⟩
  exact passed_keeps_bytes small (test16 small) (List.mem_of_getElem? (i := 16) rfl) _ final _ true 3
    ((test16_passes_iff small allowed laidOut.laid).mpr rfl) 0x404000 rfl _ rfl 0x3fff (by decide) (by decide)
    (by decide)

/-- Test `n` of every family, from any memory that `mremap_mmap_anon` has set up,
passes on every kernel that answers it as mremap may but for this: old pages that are
left behind are found by the tests from 14 on, memory behind the end of a shared
object by 3 and 5 of the shared families, and test 1 fails where the old range is
looked at as a whole. What is in new pages is found by none. -/
theorem suite_passes_iff (f : Family) (n : Nat) (t : Test f) (listed : (suite f)[n]? = some t)
    (space final : Space) (trace : Trace) (addrs : List Addr)
    (runs : Runs (mremapMmapAnon t.params) trace (.returned t.params.length addrs))
    (ran : after space trace = some final) (nonzero : Addr.at 0 ∉ addrs)
    (kernel : Memory → Call → Reply × Memory) (c : Conduct)
    (allowed : c.Allows (backed final) (t.call addrs) (kernel (backed final) (t.call addrs)).1
      (kernel (backed final) (t.call addrs)).2)
    (roomy : t.flags = .mayMove → ∃ place, place ≠ 0 ∧ Free (backed final) place t.newSize) :
    t.runFunc addrs kernel true t.params.length final = t.passed ↔
      (c.keeps = true → n < 14) ∧ (c.backs = true → f.shared = true → n ≠ 3 ∧ n ≠ 5) ∧
        (c.checks = true → n ≠ 1) := by
  obtain ⟨base,last,laidOut⟩ := suite_laidOut f t (List.mem_of_getElem? listed) space trace addrs runs
  obtain rfl := Option.some.inj (ran.symm.trans laidOut.ran)
  have laid := laidOut.laid
  change t.Passes addrs final kernel ↔ _
  match n with
  | 0 =>
    cases listed
    simpa using test00_passes f nonzero allowed laid
  | 1 =>
    cases listed
    simpa using test01_passes_iff f nonzero allowed laid
  | 2 =>
    cases listed
    simpa using test02_passes f nonzero allowed laid
  | 3 =>
    cases listed
    simpa using test03_passes_iff f nonzero allowed laid
  | 4 =>
    cases listed
    simpa using test04_passes f allowed laid
  | 5 =>
    cases listed
    simpa using test05_passes_iff f allowed laid (roomy rfl)
  | 6 =>
    cases listed
    simpa using test06_passes f nonzero allowed laid
  | 7 =>
    cases listed
    simpa using test07_passes f nonzero allowed laid
  | 8 =>
    cases listed
    simpa using test08_passes f allowed laid
  | 9 =>
    cases listed
    simpa using test09_passes f allowed laid
  | 10 =>
    cases listed
    simpa using test10_passes f allowed laid
  | 11 =>
    cases listed
    simpa using test11_passes f allowed laid
  | 12 =>
    cases listed
    simpa using test12_passes f nonzero allowed laid
  | 13 =>
    cases listed
    simpa using test13_passes f nonzero allowed laid
  | 14 =>
    cases listed
    simpa using test14_passes_iff f allowed laid
  | 15 =>
    cases listed
    simpa using test15_passes_iff f allowed laid (roomy rfl)
  | 16 =>
    cases listed
    simpa using test16_passes_iff f allowed laid
  | n+17 => simp [suite] at listed

theorem suite_passes_iff_moved : ∃ final, after (fun _ => none) mappings = some final ∧
    (test16 small).runFunc regions moving true 3 final = .exited 0 := by
  obtain ⟨_,final,laidOut⟩ := mappings_laidOut
  have allowed := moving_allowed final (region_filled laidOut.laid 0 _ rfl rfl rfl)
  refine ⟨final,laidOut.ran,?_⟩
  exact (suite_passes_iff small 16 _ rfl (fun _ => none) final mappings regions mappings_run laidOut.ran (by decide)
    moving _ allowed nofun).mpr ⟨nofun,nofun,nofun⟩

end Ostest.TestMck.Mremap
