import Mathlib.Data.BitVec
import Ostest.Lib.Memory

/-! test_mck_drv-mmap_dev2.c: the buffer of the device and its reset. Sizes are
unsigned longs, and a page table entry has eight bytes. -/
namespace Ostest.TestDrv.MmapDev2
open Lib.Memory

abbrev Byte := BitVec 8

structure PageSize where
  shift : Nat
  atLeast : 4 ≤ shift
  fits : shift < 64

def PageSize.bytes (page : PageSize) : Nat := 2^page.shift

def blockSize (page : PageSize) : Nat := page.bytes/8*page.bytes % 2^64

def bufSize (page : PageSize) : Nat := (blockSize page + page.bytes) % 2^64

theorem PageSize.bytes_pos (page : PageSize) : 0 < page.bytes := Nat.two_pow_pos _

/-- The loop of test_mck_mmap_dev2_buffer_reset from offset `off` on. -/
def resetFrom (page : PageSize) (start off val : Nat) (memory : Nat → Byte) : Nat → Byte :=
  if off < bufSize page then
    let len := if off+page.bytes < bufSize page then page.bytes else bufSize page-off
    resetFrom page start (off+page.bytes) (val+1) (fill memory (start+off) len (BitVec.ofNat 8 val))
  else memory
termination_by bufSize page-off
decreasing_by
  have positive := page.bytes_pos
  omega

def bufferReset (page : PageSize) (start : Nat) (memory : Nat → Byte) : Nat → Byte :=
  resetFrom page start 0 1 memory

/-- The fault handler refuses a page that starts behind the buffer. -/
def vmaFault (page : PageSize) (pgoff : Nat) : Bool :=
  !decide (bufSize page ≤ pgoff*page.bytes % 2^64)

def bufPages (page : PageSize) : Nat := bufSize page/page.bytes

/-- The block size is 0 when its product overflows, and the buffer one page. -/
theorem bufSize_pages (page : PageSize) :
    bufSize page = bufPages page*page.bytes ∧ 1 ≤ bufPages page ∧ bufPages page ≤ 2^30+1 ∧
      bufSize page+page.bytes ≤ 2^64 := by
  have all : ∀ shift < 64, 4 ≤ shift →
      let bytes := 2^shift
      let size := (bytes/8*bytes % 2^64 + bytes) % 2^64
      size = size/bytes*bytes ∧ 1 ≤ size/bytes ∧ size/bytes ≤ 2^30+1 ∧ size+bytes ≤ 2^64 := by
    decide
  exact all page.shift page.fits page.atLeast

def pattern (page : PageSize) (offset : Nat) : Byte := BitVec.ofNat 8 (offset/page.bytes+1)

theorem resetFrom_apply (page : PageSize) (start left i : Nat) (count : i+left = bufPages page)
    (memory : Nat → Byte) (address : Nat) :
    resetFrom page start (i*page.bytes) (i+1) memory address =
      if start+i*page.bytes ≤ address ∧ address < start+bufSize page then pattern page (address-start)
      else memory address := by
  have whole := (bufSize_pages page).1
  have positive := page.bytes_pos
  induction left generalizing i memory with
  | zero =>
    obtain rfl : i = bufPages page := by omega
    rw [resetFrom,if_neg (by omega),if_neg (by omega)]
  | succ left ih =>
    have next : (i+1)*page.bytes = i*page.bytes+page.bytes := Nat.succ_mul _ _
    have bound : (i+1)*page.bytes ≤ bufPages page*page.bytes := Nat.mul_le_mul_right _ (by omega)
    have len : (if i*page.bytes+page.bytes < bufSize page then page.bytes
        else bufSize page-i*page.bytes) = page.bytes := by
      split <;> omega
    rw [resetFrom,if_pos (by omega)]
    simp only [len]
    rw [← next,ih (i+1) (by omega)]
    by_cases inside : start+i*page.bytes ≤ address ∧ address < start+(i*page.bytes+page.bytes)
    · have quotient : (address-start)/page.bytes = i :=
        Nat.div_eq_of_lt_le (by omega) (by omega)
      rw [if_neg (by omega),if_pos (by omega),fill_inside _ _ _ _ _ (by omega) (by omega),pattern,
        quotient]
    · rw [fill_outside _ _ _ _ _ (by omega)]
      congr 1
      apply propext
      omega

theorem bufferReset_apply (page : PageSize) (start : Nat) (memory : Nat → Byte) (address : Nat) :
    bufferReset page start memory address =
      if start ≤ address ∧ address < start+bufSize page then pattern page (address-start)
      else memory address := by
  have reset := resetFrom_apply page start (bufPages page) 0 (by omega) memory address
  simpa [bufferReset] using reset

end Ostest.TestDrv.MmapDev2
