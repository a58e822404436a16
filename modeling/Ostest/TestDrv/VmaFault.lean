import Ostest.TestDrv.MmapDev2

/-! The fault handlers of the devices mmap_dev2 and writecombine, and the buffers
that their init functions allocate for them. -/
namespace Ostest.TestDrv.VmaFault
open MmapDev2

/-- A buffer of `vmalloc_user(size)`. -/
structure Vmalloc (page : PageSize) (size : Nat) where
  base : Nat
  notNull : 0 < base
  aligned : page.bytes ∣ base
  fits : base + size ≤ 2^64

/-- What an init function leaves in `private_data`; `none` is NULL. -/
abbrev PrivateData (page : PageSize) (size : Nat) := Option (Vmalloc page size)

def writecombineSize (page : PageSize) : Nat := page.bytes

inductive Fault where
  | error (errno : Int)
  /-- The page that starts at this address of the kernel. -/
  | page (address : Nat)
  deriving DecidableEq

def enomem : Int := 12
def efault : Int := 14

/-- `vmalloc_to_page((void*)(buf + (vmf->pgoff << PAGE_SHIFT)))`. -/
def vmallocPage (page : PageSize) (base pgoff : Nat) : Fault :=
  .page ((base + pgoff * page.bytes % 2^64) % 2^64)

def writecombineFault (page : PageSize) (pgoff : Nat) : PrivateData page (writecombineSize page) → Fault
  | none => .error (-enomem)
  | some buf => vmallocPage page buf.base pgoff

def mmapDev2Fault (page : PageSize) (pgoff : Nat) : PrivateData page (bufSize page) → Fault
  | none => .error (-enomem)
  | some buf =>
    if bufSize page ≤ pgoff * page.bytes % 2^64 then .error (-efault)
    else vmallocPage page buf.base pgoff

/-- The handler refuses, or its page lies in the buffer. -/
def Fault.Safe {page : PageSize} {size : Nat} (data : PrivateData page size) : Fault → Prop
  | .error _ => True
  | .page address => ∃ buf ∈ data, buf.base ≤ address ∧ address + page.bytes ≤ buf.base + size

theorem vmallocPage_safe_iff (page : PageSize) (size pgoff : Nat) (buf : Vmalloc page size)
    (offset : pgoff * page.bytes < 2^64) :
    (vmallocPage page buf.base pgoff).Safe (some buf) ↔ (pgoff + 1) * page.bytes ≤ size := by
  have fits := buf.fits
  have positive := page.bytes_pos
  have next : (pgoff+1) * page.bytes = pgoff * page.bytes + page.bytes := Nat.succ_mul _ _
  simp only [Fault.Safe,vmallocPage,Option.mem_some_iff,exists_eq_left',Nat.mod_eq_of_lt offset]
  rw [next]
  -- an address that wraps is below the buffer
  by_cases wraps : buf.base + pgoff * page.bytes < 2^64
  · rw [Nat.mod_eq_of_lt wraps]
    omega
  · have wrapped : (buf.base + pgoff * page.bytes) % 2^64 = buf.base + pgoff * page.bytes - 2^64 := by
      rw [Nat.mod_eq_sub_mod (by omega),Nat.mod_eq_of_lt (by omega)]
    rw [wrapped]
    omega

/-- mmap_dev2 hands out a page exactly where its mappings are accessible. -/
theorem mmapDev2Fault_page_iff (page : PageSize) (pgoff : Nat) (buf : Vmalloc page (bufSize page)) :
    (∃ address, mmapDev2Fault page pgoff (some buf) = .page address) ↔ vmaFault page pgoff = true := by
  rw [mmapDev2Fault,vmaFault,vmallocPage]
  by_cases beyond : bufSize page ≤ pgoff * page.bytes % 2^64
  · rw [if_pos beyond,decide_eq_true beyond]
    exact iff_of_false (by simp) (by simp)
  · rw [if_neg beyond,decide_eq_false beyond]
    exact iff_of_true ⟨_,rfl⟩ rfl

theorem mmapDev2Fault_safe (page : PageSize) (pgoff : Nat) (offset : pgoff * page.bytes < 2^64)
    (data : PrivateData page (bufSize page)) : (mmapDev2Fault page pgoff data).Safe data := by
  cases data with
  | none => trivial
  | some buf =>
    rw [mmapDev2Fault]
    split
    · trivial
    · rename_i inside
      rw [vmallocPage_safe_iff page _ pgoff buf offset]
      rw [Nat.mod_eq_of_lt offset] at inside
      have whole := (bufSize_pages page).1
      have less : pgoff < bufPages page := by
        apply Nat.lt_of_mul_lt_mul_right (a := page.bytes)
        omega
      rw [whole]
      exact Nat.mul_le_mul_right _ less

/-- The handler of mmap_dev2 is safe at every offset; that of writecombine has no
bound, and its buffer is one page. -/
theorem faults_safe_iff (page : PageSize) (pgoff : Nat) (offset : pgoff * page.bytes < 2^64)
    (dev2 : PrivateData page (bufSize page)) (combine : PrivateData page (writecombineSize page)) :
    ((mmapDev2Fault page pgoff dev2).Safe dev2 ∧ (writecombineFault page pgoff combine).Safe combine) ↔
      combine = none ∨ pgoff = 0 := by
  rw [and_iff_right (mmapDev2Fault_safe page pgoff offset dev2)]
  cases combine with
  | none => exact iff_of_true trivial (.inl rfl)
  | some buf =>
    have positive := page.bytes_pos
    rw [writecombineFault,vmallocPage_safe_iff page _ pgoff buf offset]
    constructor
    · intro short
      have one : pgoff + 1 ≤ 1 := Nat.le_of_mul_le_mul_right (by simpa [writecombineSize] using short) positive
      exact .inr (by omega)
    · rintro (absent | rfl)
      · contradiction
      · simp [writecombineSize]

def page4k : PageSize := ⟨12,by decide,by decide⟩

def dev2At : Vmalloc page4k (bufSize page4k) := ⟨0x10000,by decide,by decide,by decide⟩

def combineAt : Vmalloc page4k (writecombineSize page4k) := ⟨0x8000,by decide,by decide,by decide⟩

theorem faults_safe_iff_first :
    ((mmapDev2Fault page4k 0 (some dev2At)).Safe (some dev2At) ∧
        (writecombineFault page4k 0 (some combineAt)).Safe (some combineAt)) ↔
      (some combineAt = none ∨ 0 = 0) :=
  faults_safe_iff page4k 0 (by decide) (some dev2At) (some combineAt)

/-- The second page of a mapping of writecombine. -/
theorem second_page_outside :
    writecombineFault page4k 1 (some combineAt) = .page 0x9000 ∧
      ¬(writecombineFault page4k 1 (some combineAt)).Safe (some combineAt) := by
  refine ⟨rfl,?_⟩
  rw [writecombineFault,vmallocPage_safe_iff page4k _ 1 combineAt (by decide)]
  decide

end Ostest.TestDrv.VmaFault
