import Ostest.Lib.Loop
import Ostest.TestDrv.MmapDev2

/-! Tests mmap_dev/001 and mmap_dev/002 on the device mmap_dev2. A mapping covers
whole pages; a private one copies a page on the first write to it. The device
memory is the kernel's, with the buffer at `start`. -/
namespace Ostest.TestMck.MmapDev
open TestDrv.MmapDev2

section
variable (page : PageSize) (start : Nat)

structure Mapping where
  shared : Bool
  length : Nat
  copies : Nat → Option (Nat → Byte)

structure World where
  device : Nat → Byte
  mapping : Mapping

def mmap (shared : Bool) (size : Nat) : Mapping :=
  ⟨shared,(size+page.bytes-1)/page.bytes*page.bytes,fun _ => none⟩

/-- An access behind the mapping, or to a page that the fault handler of the
device refuses, kills the process. -/
def accessible (mapping : Mapping) (offset : Nat) : Bool :=
  decide (offset < mapping.length) && vmaFault page (offset/page.bytes)

def Mapping.read (mapping : Mapping) (device : Nat → Byte) (offset : Nat) : Byte :=
  match mapping.copies (offset/page.bytes) with
  | some copy => copy (offset % page.bytes)
  | none => device (start+offset)

def read (mapping : Mapping) (device : Nat → Byte) (offset : Nat) : Option Byte :=
  if accessible page mapping offset then some (mapping.read page start device offset) else none

def Mapping.copyWith (mapping : Mapping) (device : Nat → Byte) (offset : Nat) (value : Byte) : Nat → Byte :=
  Function.update (fun inner => mapping.read page start device (offset/page.bytes*page.bytes+inner))
    (offset % page.bytes) value

def write (world : World) (offset : Nat) (value : Byte) : Except World World :=
  if accessible page world.mapping offset then
    if world.mapping.shared then
      .ok {world with device := Function.update world.device (start+offset) value}
    else
      let copy := world.mapping.copyWith page start world.device offset value
      .ok {world with mapping := {world.mapping with
        copies := Function.update world.mapping.copies (offset/page.bytes) (some copy)}}
  else .error world

structure Calls where
  path : Bool
  openDev : Bool
  ioctl : Bool
  mmap : Bool
  peekMmap : Bool
  munmap : Bool
  peekMunmap : Bool
  deriving DecidableEq

inductive Verdict where
  | passed
  | failed (message : String)
  | killed
  deriving DecidableEq

def z : Byte := 0x5a

/-- An unsigned long as an int, where a loop counts up to it. -/
def intCount (n : Nat) : Nat := ((n : Int).bmod (2^32)).toNat

def pages (size : Nat) : Nat := intCount ((size+page.bytes-1) % 2^64/page.bytes)

/-- The first loop: 'Z' into the first byte of every page. -/
def touch (world : World) (count : Nat) : Except World World :=
  (List.range count).foldlM (fun world i => write page start world (page.bytes*i) z) world

def expected (val : Nat) : Nat → Byte := Function.update (fun _ => BitVec.ofNat 8 val) 0 z

/-- The second loop: memcmp of every page with the expected one; `none` when the
process is killed. -/
def validate (mapping : Mapping) (device : Nat → Byte) (count : Nat) : Option Bool :=
  (List.range count).allM (fun i => (List.range page.bytes).allM (fun inner => do
    let byte ← read page start mapping device (page.bytes*i+inner)
    return byte == expected (i+1) inner))

/-- The test from the second loop on; 002 looks through a second mapping. -/
def validateAndUnmap (shared : Bool) (calls : Calls) (size : Nat) (world : World) : Verdict :=
  if shared && !calls.peekMmap then .failed "peek mmap error."
  else
    let view := if shared then mmap page true size else world.mapping
    match validate page start view world.device (pages page size) with
    | none => .killed
    | some same =>
      if !same then .failed "compare error."
      else if !calls.munmap then .failed "munmap error."
      else if shared && !calls.peekMunmap then .failed "peek munmap error."
      else .passed

def devmapDoDevmap (shared : Bool) (calls : Calls) (size : Nat) (device : Nat → Byte) :
    Verdict × (Nat → Byte) :=
  if !calls.path then (.failed "invalid argument(-d).",device)
  else if size = 0 then (.failed "invalid argument(-s).",device)
  else if !calls.openDev then (.failed "file open error.",device)
  else if !calls.ioctl then (.failed "ioctl error.",device)
  else
    let device := bufferReset page start device
    if !calls.mmap then (.failed "mmap error.",device)
    else match touch page start ⟨device,mmap page shared size⟩ (pages page size) with
      | .error world => (.killed,world.device)
      | .ok world => (validateAndUnmap page start shared calls size world,world.device)

inductive Test where
  | privateMapping
  | sharedMapping
  deriving DecidableEq

def Test.shared : Test → Bool
  | .privateMapping => false
  | .sharedMapping => true

def Test.run (test : Test) (calls : Calls) (size : Nat) (device : Nat → Byte) :
    Verdict × (Nat → Byte) := devmapDoDevmap page start test.shared calls size device

def history (runs : List (Test × Calls × Fin (2^64))) (device : Nat → Byte) : Nat → Byte :=
  runs.foldl (fun device run => (run.1.run page start run.2.1 run.2.2 device).2) device

end

def allSucceed : Calls := ⟨true,true,true,true,true,true,true⟩

def Test.leaves (page : PageSize) (size : Nat) (offset : Nat) : Test → Byte
  | .privateMapping => pattern page offset
  | .sharedMapping =>
    if offset % page.bytes = 0 ∧ offset/page.bytes < (size+page.bytes-1)/page.bytes then z
    else pattern page offset

/-! Sizes that fit the buffer. -/

theorem intCount_small (n : Nat) (small : n < 2^31) : intCount n = n := by
  have same : (n : Int).bmod (2^32) = n := Int.bmod_eq_of_le_mul_two (by omega) (by omega)
  unfold intCount
  rw [same,Int.toNat_natCast]

theorem size_pages (page : PageSize) (size : Nat) (fits : size ≤ bufSize page) :
    pages page size = (size+page.bytes-1)/page.bytes ∧
      (size+page.bytes-1)/page.bytes*page.bytes ≤ bufSize page := by
  obtain ⟨whole,_,few,total⟩ := bufSize_pages page
  have positive := page.bytes_pos
  have le : (size+page.bytes-1)/page.bytes ≤ bufPages page := by
    have below : (size+page.bytes-1)/page.bytes < bufPages page+1 := by
      rw [Nat.div_lt_iff_lt_mul positive,Nat.succ_mul]
      omega
    omega
  refine ⟨?_,?_⟩
  · have nowrap : (size+page.bytes-1) % 2^64 = size+page.bytes-1 := Nat.mod_eq_of_lt (by omega)
    rw [pages,nowrap]
    exact intCount_small _ (by omega)
  · rw [whole]
    exact Nat.mul_le_mul_right _ le

theorem accessible_fits (page : PageSize) (mapping : Mapping) (offset : Nat)
    (fits : mapping.length ≤ bufSize page) (inside : offset < mapping.length) :
    accessible page mapping offset = true := by
  have total := (bufSize_pages page).2.2.2
  have positive := page.bytes_pos
  have floor : offset/page.bytes*page.bytes ≤ offset := Nat.div_mul_le_self _ _
  have nowrap : offset/page.bytes*page.bytes % 2^64 = offset/page.bytes*page.bytes :=
    Nat.mod_eq_of_lt (by omega)
  simp only [accessible,vmaFault,nowrap,Bool.and_eq_true,decide_eq_true_eq,Bool.not_eq_true',
    decide_eq_false_iff_not]
  omega

theorem accessible_inside (page : PageSize) (mapping : Mapping) (offset : Nat)
    (fits : mapping.length ≤ 2^64) (reach : accessible page mapping offset = true) :
    offset < bufSize page := by
  have floor : offset/page.bytes*page.bytes ≤ offset := Nat.div_mul_le_self _ _
  simp only [accessible,vmaFault,Bool.and_eq_true,decide_eq_true_eq,Bool.not_eq_true',
    decide_eq_false_iff_not] at reach
  obtain ⟨mapped,refused⟩ := reach
  rw [Nat.mod_eq_of_lt (by omega),(bufSize_pages page).1,Nat.not_le] at refused
  rw [(bufSize_pages page).1,← Nat.div_lt_iff_lt_mul page.bytes_pos]
  exact Nat.lt_of_mul_lt_mul_right refused

theorem mmap_length (page : PageSize) (shared : Bool) (size : Nat) (bound : size < 2^64) :
    (mmap page shared size).length ≤ 2^64 := by
  have whole : 2^64 = 2^(64-page.shift)*page.bytes := by
    have fits := page.fits
    rw [PageSize.bytes,← Nat.pow_add,Nat.sub_add_cancel (by omega)]
  have below : (size+page.bytes-1)/page.bytes < 2^(64-page.shift)+1 := by
    rw [Nat.div_lt_iff_lt_mul page.bytes_pos,Nat.succ_mul,← whole]
    omega
  rw [whole]
  exact Nat.mul_le_mul_right _ (by omega)

/-! The first loop. -/

/-- The first `count` pages are touched: seen through the mapping they start with
'Z', and only a shared mapping has changed the device. -/
structure Touched (page : PageSize) (start : Nat) (shared : Bool) (size : Nat) (base : Nat → Byte)
    (count : Nat) (world : World) : Prop where
  kind : world.mapping.shared = shared
  length : world.mapping.length = (size+page.bytes-1)/page.bytes*page.bytes
  view : ∀ offset, world.mapping.read page start world.device offset =
    if offset % page.bytes = 0 ∧ offset/page.bytes < count then z else base (start+offset)
  direct : shared = true → world.mapping.copies = fun _ => none
  apart : shared = false → world.device = base

section
variable (page : PageSize) (start size : Nat) (base : Nat → Byte) (i : Nat) (world : World)

theorem firstByte (offset : Nat) :
    offset = page.bytes*i ↔ offset % page.bytes = 0 ∧ offset/page.bytes = i := by
  have positive := page.bytes_pos
  refine ⟨?_,?_⟩
  · rintro rfl
    exact ⟨Nat.mul_mod_right _ _,Nat.mul_div_cancel_left i positive⟩
  · rintro ⟨remainder,rfl⟩
    have split := Nat.div_add_mod offset page.bytes
    omega

theorem Touched.accessible (shared : Bool) (fits : size ≤ bufSize page)
    (bound : i < (size+page.bytes-1)/page.bytes)
    (touched : Touched page start shared size base i world) :
    accessible page world.mapping (page.bytes*i) = true := by
  have inside : page.bytes*i < world.mapping.length := by
    rw [touched.length,Nat.mul_comm page.bytes]
    exact Nat.mul_lt_mul_of_pos_right bound page.bytes_pos
  exact accessible_fits page world.mapping (page.bytes*i)
    (touched.length ▸ (size_pages page size fits).2) inside

theorem write_shared (reach : accessible page world.mapping (page.bytes*i) = true)
    (touched : Touched page start true size base i world) :
    ∃ next, write page start world (page.bytes*i) z = .ok next ∧
      Touched page start true size base (i+1) next := by
  refine ⟨{world with device := Function.update world.device (start+page.bytes*i) z},?_,
    touched.kind,touched.length,?_,touched.direct,by simp⟩
  · simp [write,reach,touched.kind]
  · intro offset
    have view := touched.view offset
    have first := firstByte page i offset
    simp only [Mapping.read,touched.direct rfl] at view ⊢
    by_cases same : offset = page.bytes*i
    · obtain ⟨remainder,quotient⟩ := first.mp same
      rw [same,Function.update_self,← same,if_pos ⟨remainder,by omega⟩]
    · have other := mt first.mpr same
      rw [Function.update_of_ne (by omega),view]
      congr 1
      apply propext
      omega

theorem write_private (reach : accessible page world.mapping (page.bytes*i) = true)
    (touched : Touched page start false size base i world) :
    ∃ next, write page start world (page.bytes*i) z = .ok next ∧
      Touched page start false size base (i+1) next := by
  obtain ⟨remainder,quotient⟩ := (firstByte page i (page.bytes*i)).mp rfl
  refine ⟨{world with mapping := {world.mapping with
      copies := Function.update world.mapping.copies i
        (some (world.mapping.copyWith page start world.device (page.bytes*i) z))}},?_,
    touched.kind,touched.length,?_,by simp,touched.apart⟩
  · simp [write,reach,touched.kind,quotient]
  · intro offset
    by_cases same : offset/page.bytes = i
    · subst same
      have back : offset/page.bytes*page.bytes+offset % page.bytes = offset := by
        rw [Nat.mul_comm]
        exact Nat.div_add_mod offset page.bytes
      simp only [Mapping.read,Function.update_self,Mapping.copyWith,quotient,remainder]
      by_cases first : offset % page.bytes = 0
      · simp [first]
      · rw [Function.update_of_ne first]
        change world.mapping.read page start world.device _ = _
        rw [back,touched.view]
        simp [first]
    · have view := touched.view offset
      simp only [Mapping.read,Function.update_of_ne same] at view ⊢
      rw [view]
      congr 1
      apply propext
      omega

theorem write_touched (shared : Bool) (fits : size ≤ bufSize page)
    (bound : i < (size+page.bytes-1)/page.bytes)
    (touched : Touched page start shared size base i world) :
    ∃ next, write page start world (page.bytes*i) z = .ok next ∧
      Touched page start shared size base (i+1) next := by
  have reach := touched.accessible page start size base i world shared fits bound
  cases shared with
  | true => exact write_shared page start size base i world reach touched
  | false => exact write_private page start size base i world reach touched

end

theorem touch_touched (page : PageSize) (start : Nat) (shared : Bool) (size : Nat) (base : Nat → Byte)
    (fits : size ≤ bufSize page) :
    ∃ world, touch page start ⟨base,mmap page shared size⟩ (pages page size) = .ok world ∧
      Touched page start shared size base (pages page size) world := by
  have count := (size_pages page size fits).1
  apply Lib.Loop.foldlM_range _ (Touched page start shared size base)
  · intro i bound world touched
    exact write_touched page start size base i world shared fits (count ▸ bound) touched
  · exact ⟨rfl,rfl,by simp [Mapping.read,mmap],fun _ => rfl,fun _ => rfl⟩

/-! The second loop, and a whole run. -/

theorem validate_touched (page : PageSize) (start : Nat) (shared : Bool) (size : Nat)
    (device : Nat → Byte) (world : World) (fits : size ≤ bufSize page)
    (touched : Touched page start shared size (bufferReset page start device) (pages page size) world) :
    validate page start world.mapping world.device (pages page size) = some true := by
  obtain ⟨count,within⟩ := size_pages page size fits
  have positive := page.bytes_pos
  apply Lib.Loop.allM_true
  intro i member
  apply Lib.Loop.allM_true
  intro inner inside
  have bound : i < pages page size := List.mem_range.mp member
  have small : inner < page.bytes := List.mem_range.mp inside
  have quotient : (page.bytes*i+inner)/page.bytes = i := by
    rw [Nat.mul_add_div positive,Nat.div_eq_of_lt small,Nat.add_zero]
  have remainder : (page.bytes*i+inner) % page.bytes = inner := by
    rw [Nat.mul_add_mod,Nat.mod_eq_of_lt small]
  have reached : page.bytes*i+inner < world.mapping.length := by
    have next : (i+1)*page.bytes ≤ pages page size*page.bytes := Nat.mul_le_mul_right _ bound
    rw [touched.length,← count]
    rw [Nat.succ_mul,Nat.mul_comm] at next
    omega
  have reach := accessible_fits page world.mapping _ (touched.length ▸ within) reached
  have reset : bufferReset page start device (start+(page.bytes*i+inner)) = BitVec.ofNat 8 (i+1) := by
    rw [touched.length] at reached
    rw [bufferReset_apply,if_pos (by omega),Nat.add_sub_cancel_left,pattern,quotient]
  have byte : read page start world.mapping world.device (page.bytes*i+inner) =
      some (expected (i+1) inner) := by
    rw [read,if_pos reach,touched.view,quotient,remainder,reset,expected]
    by_cases first : inner = 0
    · simp [first,bound]
    · simp [first]
  simp [byte]

theorem run_passes (page : PageSize) (start : Nat) (shared : Bool) (size : Nat) (device : Nat → Byte)
    (positive : 0 < size) (fits : size ≤ bufSize page) :
    ∃ world, devmapDoDevmap page start shared allSucceed size device = (.passed,world.device) ∧
      Touched page start shared size (bufferReset page start device) (pages page size) world := by
  obtain ⟨world,loop,touched⟩ := touch_touched page start shared size (bufferReset page start device) fits
  refine ⟨world,?_,touched⟩
  have view : (if shared then mmap page true size else world.mapping) = world.mapping := by
    cases shared with
    | false => rfl
    | true =>
      obtain ⟨device,⟨kind,length,copies⟩⟩ := world
      obtain rfl : kind = true := touched.kind
      obtain rfl : length = _ := touched.length
      obtain rfl : copies = _ := touched.direct rfl
      rfl
  have compared := validate_touched page start shared size device world fits touched
  simp [devmapDoDevmap,validateAndUnmap,allSucceed,Nat.ne_of_gt positive,loop,view,compared]

/-! Memory outside the buffer. -/

section
variable (page : PageSize) (start : Nat)

def SameOutside (before after : Nat → Byte) : Prop :=
  ∀ address, address < start ∨ start+bufSize page ≤ address → after address = before address

theorem reset_sameOutside (device : Nat → Byte) :
    SameOutside page start device (bufferReset page start device) := by
  intro address outside
  rw [bufferReset_apply,if_neg (by omega)]

theorem write_sameOutside (base : Nat → Byte) (world : World) (offset : Nat) (value : Byte)
    (kept : SameOutside page start base world.device ∧ world.mapping.length ≤ 2^64) (next : World)
    (ends : write page start world offset value = .ok next ∨
      write page start world offset value = .error next) :
    SameOutside page start base next.device ∧ next.mapping.length ≤ 2^64 := by
  unfold write at ends
  split at ends
  · rename_i reach
    split at ends
    · obtain rfl : _ = next := by simpa using ends
      refine ⟨?_,kept.2⟩
      have inside := accessible_inside page world.mapping offset kept.2 reach
      intro address outside
      rw [← kept.1 address outside]
      exact Function.update_of_ne (by omega) _ _
    · obtain rfl : _ = next := by simpa using ends
      exact kept
  · obtain rfl : _ = next := by simpa using ends
    exact kept

theorem touch_sameOutside (shared : Bool) (size count : Nat) (base : Nat → Byte) (bound : size < 2^64)
    (world : World)
    (ends : touch page start ⟨base,mmap page shared size⟩ count = .ok world ∨
      touch page start ⟨base,mmap page shared size⟩ count = .error world) :
    SameOutside page start base world.device := by
  have mapped := mmap_length page shared size bound
  have kept := Lib.Loop.foldlM_keeps _ _
    (fun world i => write_sameOutside page start base world (page.bytes*i) z)
    (List.range count) ⟨base,mmap page shared size⟩ ⟨fun _ _ => rfl,mapped⟩ world ends
  exact kept.1

theorem run_sameOutside (shared : Bool) (calls : Calls) (size : Nat) (bound : size < 2^64)
    (device : Nat → Byte) :
    SameOutside page start device (devmapDoDevmap page start shared calls size device).2 := by
  have reset := reset_sameOutside page start device
  have kept (world : World) (touched : SameOutside page start (bufferReset page start device) world.device) :
      SameOutside page start device world.device := by
    intro address outside
    rw [touched address outside,reset address outside]
  have loop := touch_sameOutside page start shared size (pages page size) (bufferReset page start device)
    bound
  have same : SameOutside page start device device := fun _ _ => rfl
  unfold devmapDoDevmap
  dsimp only
  split_ifs
  · exact same
  · exact same
  · exact same
  · exact same
  · exact reset
  · split
    next world left => exact kept world (loop world (.inr left))
    next world done => exact kept world (loop world (.inl done))

theorem history_sameOutside (runs : List (Test × Calls × Fin (2^64))) (device : Nat → Byte) :
    SameOutside page start device (history page start runs device) := by
  induction runs generalizing device with
  | nil => exact fun _ _ => rfl
  | cons run rest ih =>
    intro address outside
    have one := run_sameOutside page start run.1.shared run.2.1 run.2.2 run.2.2.isLt device
    exact (ih _ address outside).trans (one address outside)

end

/-- After any runs on the device a further run that fits the buffer passes and
leaves the buffer as its own reset and writes make it. -/
theorem further_run_passes (page : PageSize) (start : Nat) (runs : List (Test × Calls × Fin (2^64)))
    (device : Nat → Byte) (test : Test) (size : Nat) (positive : 0 < size)
    (fits : size ≤ bufSize page) :
    let before := history page start runs device
    let run := test.run page start allSucceed size before
    run.1 = .passed ∧
      (∀ offset < bufSize page, run.2 (start+offset) = test.leaves page size offset) ∧
      (∀ offset < bufSize page, bufferReset page start before (start+offset) = pattern page offset) ∧
      SameOutside page start before (bufferReset page start before) ∧
      SameOutside page start device run.2 := by
  intro before run
  have small : size < 2^64 := by
    have total := (bufSize_pages page).2.2.2
    have positive := page.bytes_pos
    omega
  have outside : SameOutside page start device run.2 := by
    intro address outside
    have last := run_sameOutside page start test.shared allSucceed size small before address outside
    exact last.trans (history_sameOutside page start runs device address outside)
  have reset (offset : Nat) (bound : offset < bufSize page) :
      bufferReset page start before (start+offset) = pattern page offset := by
    rw [bufferReset_apply,if_pos (by omega),Nat.add_sub_cancel_left]
  obtain ⟨world,passes,touched⟩ := run_passes page start test.shared size before positive fits
  have verdict : run.1 = .passed := congrArg Prod.fst passes
  have left : run.2 = world.device := congrArg Prod.snd passes
  refine ⟨verdict,?_,reset,reset_sameOutside page start before,outside⟩
  intro offset bound
  rw [left]
  cases test with
  | privateMapping => rw [touched.apart rfl,reset offset bound,Test.leaves]
  | sharedMapping =>
    have view := touched.view offset
    rw [Mapping.read,touched.direct rfl,(size_pages page size fits).1,reset offset bound] at view
    exact view

theorem shared_after_private :
    let page : PageSize := ⟨12,by decide,by decide⟩
    let before := history page 0 [(.privateMapping,allSucceed,2101248)] (fun _ => 0)
    let run := Test.sharedMapping.run page 0 allSucceed 8192 before
    run.1 = .passed ∧
      (∀ offset < bufSize page, run.2 (0+offset) = Test.sharedMapping.leaves page 8192 offset) ∧
      (∀ offset < bufSize page, bufferReset page 0 before (0+offset) = pattern page offset) ∧
      SameOutside page 0 before (bufferReset page 0 before) ∧
      SameOutside page 0 (fun _ => 0) run.2 :=
  further_run_passes ⟨12,by decide,by decide⟩ 0 [(.privateMapping,allSucceed,2101248)] (fun _ => 0)
    .sharedMapping 8192 (by decide) (by decide)

end Ostest.TestMck.MmapDev
