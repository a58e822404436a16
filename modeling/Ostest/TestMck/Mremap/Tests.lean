import Ostest.Lib.Pages
import Ostest.Lib.Remap
import Ostest.TestMck.MremapMmapAnon

/-! The tests of mremap_mmap_anon, 000 to 316. They are seventeen tests in four
families, with small or large ranges and private or shared mappings. -/
namespace Ostest.TestMck.Mremap
open MremapMmapAnon
open Lib.Remap (Call)

inductive Granule where
  | k4
  | k64
  deriving DecidableEq

/-- PAGE_SHIFT. -/
def Granule.shift : Granule → Nat
  | .k4 => 12
  | .k64 => 16

structure Family where
  granule : Granule
  large : Bool
  shared : Bool
  deriving DecidableEq

def Family.pageSize (f : Family) : Nat := 2^f.granule.shift

def Family.largePageSize (f : Family) : Nat := 2^(f.granule.shift + 9 + (f.granule.shift - 12))

/-- MREMAP_RANGE_SIZE, or MREMAP_RANGE_LARGE_SIZE. -/
def Family.rangeSize (f : Family) : Nat :=
  if f.large then
    (Lib.Pages.alignUp (BitVec.ofNat 64 f.largePageSize) (BitVec.ofNat 64 (f.pageSize*4))).toNat
  else f.pageSize*4

theorem Family.whole_pages (f : Family) : f.pageSize ∣ f.rangeSize := by
  rcases f with ⟨_ | _,_ | _,_ | _⟩ <;> decide

theorem Family.pageSize_pos (f : Family) : 0 < f.pageSize := Nat.two_pow_pos _

theorem Family.four_pages (f : Family) : f.pageSize*4 ≤ f.rangeSize := by
  rcases f with ⟨_ | _,_ | _,_ | _⟩ <;> decide

theorem Family.rangeSize_le (f : Family) : f.rangeSize ≤ 2^29 := by
  rcases f with ⟨_ | _,_ | _,_ | _⟩ <;> decide

theorem Family.pageSize_le (f : Family) : f.pageSize ≤ 2^16 := by
  rcases f with ⟨_ | _,_ | _,_ | _⟩ <;> decide

def protRead : Prot := ⟨true,false,false⟩

def protReadWrite : Prot := ⟨true,true,false⟩

section
variable (f : Family)

def inUse (prot : Prot) : Param f.pageSize where
  size := f.rangeSize
  nopage := false
  shared := f.shared
  prot := prot
  positive := by have := f.four_pages; have := f.pageSize_pos; omega
  aligned := f.whole_pages
  fits := by have := f.rangeSize_le; omega

def inUseTwice (prot : Prot) : Param f.pageSize where
  size := f.rangeSize*2
  nopage := false
  shared := f.shared
  prot := prot
  positive := by have := f.four_pages; have := f.pageSize_pos; omega
  aligned := Dvd.dvd.mul_right f.whole_pages 2
  fits := by have := f.rangeSize_le; omega

def unused : Param f.pageSize where
  size := f.rangeSize
  nopage := true
  shared := false
  prot := .none
  positive := by have := f.four_pages; have := f.pageSize_pos; omega
  aligned := f.whole_pages
  fits := by have := f.rangeSize_le; omega
end

/-! Memory as the tests meet it. A page of a shared mapping that lies behind the end
of its object is mapped and has nothing in it. -/

structure Mapped extends Cell where
  backed : Bool

abbrev Memory := Nat → Option Mapped

/-- All that `mremap_mmap_anon` maps is backed. -/
def backed (space : Space) : Memory := fun address => (space address).map (⟨·,true⟩)

inductive Signal where
  | sigsegv
  | sigbus
  deriving DecidableEq

def visible (memory : Memory) : Space := fun address =>
  match memory address with
  | none => none
  | some mapped => if mapped.backed then some mapped.toCell else none

def signalAt (memory : Memory) (address : Nat) : Signal :=
  match memory address with
  | none => .sigsegv
  | some mapped => if mapped.prot.read || mapped.prot.write then .sigbus else .sigsegv

def fetch (memory : Memory) (address : Nat) : Except Signal Byte :=
  match readByte (visible memory) address with
  | none => .error (signalAt memory address)
  | some byte => .ok byte

def put (memory : Memory) (address : Nat) (byte : Byte) : Except Signal Memory :=
  match memory address with
  | none => .error .sigsegv
  | some mapped =>
    if !mapped.prot.write then .error .sigsegv
    else if !mapped.backed then .error .sigbus
    else .ok (Function.update memory address (some {mapped with byte := byte}))

def memset (memory : Memory) (addr : Nat) (byte : Byte) : Nat → Except Signal Memory
  | 0 => .ok memory
  | len+1 => do
    let memory ← put memory addr byte
    memset memory (addr+1) byte len

def char (c : Char) : Byte := BitVec.ofNat 8 c.toNat

/-- `mremap_mmap_anon_access_check`. -/
def accessCheck (memory : Memory) (addr len : Nat) : Except Signal (Option String) :=
  if addr = 0 then .ok (some "invalid address")
  else if len = 0 then .ok none
  else do
    let memory ← put memory addr (char 'A')
    let ch ← fetch memory addr
    if ch ≠ char 'A' then return some "first page access error"
    let memory ← put memory (addr+(len-1)) (char 'Z')
    let ch ← fetch memory (addr+(len-1))
    if ch ≠ char 'Z' then return some "last page access error"
    let _ ← memset memory addr (char '0') len
    return none

/-! The tests. -/

inductive Place where
  | remap (offset : Nat)
  | params (i offset : Nat)

/-- With MREMAP_FIXED, `naddr` is in one of the regions. -/
inductive Flags where
  | none
  | mayMove
  | fixed (i offset : Nat)

structure Check where
  start : Place
  len : Nat
  exp : Byte

inductive Ending where
  | access (len : Nat)
  | signal (signum : Signal) (start : Place)

inductive Expected where
  | refused (errno : Nat)
  | remapped (verify : List Check) (ending : Ending)

structure Test (f : Family) where
  params : List (Param f.pageSize)
  region : Nat
  oldSize : Nat
  newSize : Nat
  flags : Flags
  expected : Expected

def einval : Nat := 22

def enomem : Nat := 12

section
variable (f : Family)

def test00 : Test f where
  params := [inUse f protReadWrite,inUse f .none]
  region := 0
  oldSize := f.rangeSize
  newSize := f.rangeSize
  flags := .none
  expected := .remapped [⟨.remap 0,f.rangeSize,char '0'⟩] (.access f.rangeSize)

/-- The sizes are the page size times -2, as a `size_t`. -/
def test01 : Test f where
  params := [inUse f protReadWrite,inUse f .none]
  region := 0
  oldSize := 2^64 - f.pageSize*2
  newSize := 2^64 - f.pageSize*2
  flags := .none
  expected := .remapped [⟨.remap 0,f.rangeSize,char '0'⟩] (.access f.rangeSize)

def test02 : Test f where
  params := [inUseTwice f protReadWrite,inUse f .none]
  region := 0
  oldSize := f.rangeSize*2
  newSize := f.rangeSize*2 - f.pageSize
  flags := .none
  expected := .remapped [⟨.remap 0,f.rangeSize*2 - f.pageSize,char '0'⟩] (.access (f.rangeSize*2 - f.pageSize))

/-- What has grown is only there in a private mapping. -/
def grownEnding : Ending :=
  if f.shared then .signal .sigbus (.remap f.rangeSize) else .access (f.rangeSize+f.rangeSize)

def test03 : Test f where
  params := [inUse f protReadWrite,unused f,inUse f .none]
  region := 0
  oldSize := f.rangeSize
  newSize := f.rangeSize+f.rangeSize
  flags := .none
  expected := .remapped [⟨.remap 0,f.rangeSize,char '0'⟩] (grownEnding f)

def test04 : Test f where
  params := [inUse f protReadWrite,inUse f .none]
  region := 0
  oldSize := f.rangeSize
  newSize := f.rangeSize+f.rangeSize
  flags := .none
  expected := .refused enomem

def test05 : Test f where
  params := [inUse f protReadWrite,inUse f .none]
  region := 0
  oldSize := f.rangeSize
  newSize := f.rangeSize+f.rangeSize
  flags := .mayMove
  expected := .remapped [⟨.remap 0,f.rangeSize,char '0'⟩] (grownEnding f)

def test06 : Test f where
  params := [inUse f protReadWrite,unused f,inUse f .none]
  region := 0
  oldSize := f.rangeSize
  newSize := f.rangeSize
  flags := .fixed 1 0
  expected := .remapped [⟨.remap 0,f.rangeSize,char '0'⟩] (.access f.rangeSize)

def test07 : Test f where
  params := [inUse f protReadWrite,inUse f .none,inUseTwice f protReadWrite,inUse f .none]
  region := 0
  oldSize := f.rangeSize
  newSize := f.rangeSize
  flags := .fixed 2 0
  expected := .remapped [⟨.remap 0,f.rangeSize,char '0'⟩,
    ⟨.params 2 f.rangeSize,f.rangeSize*2 - f.rangeSize,char '2'⟩] (.access f.rangeSize)

def test08 : Test f where
  params := [inUse f .none,inUse f protRead,inUse f protReadWrite,inUse f protRead,inUse f .none]
  region := 2
  oldSize := f.rangeSize
  newSize := f.rangeSize+f.rangeSize+f.rangeSize
  flags := .fixed 1 0
  expected := .refused einval

def test09 : Test f where
  params := [inUse f .none,inUseTwice f protReadWrite,inUse f .none]
  region := 1
  oldSize := f.rangeSize*2
  newSize := f.pageSize
  flags := .fixed 1 f.pageSize
  expected := .refused einval

def test10 : Test f where
  params := [inUse f .none,unused f,inUseTwice f protReadWrite,inUse f .none]
  region := 2
  oldSize := f.rangeSize*2
  newSize := f.rangeSize*2
  flags := .fixed 1 0
  expected := .refused einval

def test11 : Test f where
  params := [inUse f .none,inUseTwice f protReadWrite,unused f,inUse f .none]
  region := 1
  oldSize := f.rangeSize*2
  newSize := f.rangeSize*2
  flags := .fixed 1 f.pageSize
  expected := .refused einval

def test12 : Test f where
  params := [inUse f .none,unused f,inUse f protReadWrite,inUse f .none]
  region := 2
  oldSize := f.rangeSize
  newSize := f.rangeSize
  flags := .fixed 1 0
  expected := .remapped [⟨.remap 0,f.rangeSize,char '2'⟩] (.access f.rangeSize)

def test13 : Test f where
  params := [inUse f .none,inUse f protReadWrite,unused f,inUse f .none]
  region := 1
  oldSize := f.rangeSize
  newSize := f.rangeSize
  flags := .fixed 2 0
  expected := .remapped [⟨.remap 0,f.rangeSize,char '1'⟩] (.access f.rangeSize)

def test14 : Test f where
  params := [inUseTwice f protReadWrite,inUse f .none]
  region := 0
  oldSize := f.rangeSize*2
  newSize := f.rangeSize*2 - f.pageSize
  flags := .none
  expected := .remapped [⟨.remap 0,f.rangeSize*2 - f.pageSize,char '0'⟩]
    (.signal .sigsegv (.remap (f.rangeSize*2 - f.pageSize)))

def test15 : Test f where
  params := [inUse f protReadWrite,inUse f .none]
  region := 0
  oldSize := f.rangeSize
  newSize := f.rangeSize+f.rangeSize
  flags := .mayMove
  expected := .remapped [⟨.remap 0,f.rangeSize,char '0'⟩] (.signal .sigsegv (.params 0 0))

def test16 : Test f where
  params := [inUse f protReadWrite,unused f,inUse f .none]
  region := 0
  oldSize := f.rangeSize
  newSize := f.rangeSize
  flags := .fixed 1 0
  expected := .remapped [⟨.remap 0,f.rangeSize,char '0'⟩] (.signal .sigsegv (.params 0 0))

def suite : List (Test f) :=
  [test00 f,test01 f,test02 f,test03 f,test04 f,test05 f,test06 f,test07 f,test08 f,test09 f,test10 f,
    test11 f,test12 f,test13 f,test14 f,test15 f,test16 f]
end

/-! RUN_FUNC. -/

/-- `none` is MAP_FAILED. -/
structure Reply where
  remap : Option Nat
  errno : Nat

/-- A signal kills the test unless its handler is set up, which ends the test with
status 0. -/
inductive Verdict where
  | returned (message : Option String)
  | killed (signal : Signal)
  | exited (status : Nat)
  deriving DecidableEq

def addrOf (addrs : List Addr) (i : Nat) : Nat :=
  match addrs[i]? with
  | some (.at address) => address
  | some .mapFailed => 2^64-1
  | _ => 0

def Place.address (addrs : List Addr) (remap : Nat) : Place → Nat
  | .remap offset => remap+offset
  | .params i offset => addrOf addrs i + offset

def verifyData (addrs : List Addr) (remap : Nat) (memory : Memory) : List Check → Except Signal (Option String)
  | [] => .ok none
  | check :: checks =>
    match dataCheck (visible memory) (check.start.address addrs remap) check.len check.exp with
    | .error address => .error (signalAt memory address)
    | .ok (some msg) => .ok (some msg)
    | .ok none => verifyData addrs remap memory checks

/-- `sigaction` is what the call of `mremap_mmap_anon_setup_signal_handler` gets. -/
def finish (addrs : List Addr) (remap : Nat) (memory : Memory) (sigaction : Bool) : Ending → Verdict
  | .access len =>
    match accessCheck memory remap len with
    | .error signal => .killed signal
    | .ok msg => .returned msg
  | .signal signum start =>
    if !sigaction then .returned (some "sigaction(SIGSEGV) error.")
    else
      match fetch memory (start.address addrs remap) with
      | .ok _ => .returned (some "signal handling error")
      | .error signal => if signal = signum then .exited 0 else .killed signal

section
variable {f : Family} (t : Test f) (addrs : List Addr)

def Flags.movable : Flags → Bool
  | .none => false
  | _ => true

def Flags.naddr (addrs : List Addr) : Flags → Option Nat
  | .fixed i offset => some (addrOf addrs i + offset)
  | _ => Option.none

def Test.call : Call := ⟨addrOf addrs t.region,t.oldSize,t.newSize,t.flags.movable,t.flags.naddr addrs⟩

def Test.judge (sigaction : Bool) (reply : Reply) (memory : Memory) : Verdict :=
  match t.expected with
  | .refused errno =>
    if reply.remap ≠ none then .returned (some "mremap error.")
    else if reply.errno ≠ errno then .returned (some "invalid errno.")
    else .returned none
  | .remapped verify ending =>
    match reply.remap with
    | none => .returned (some "mremap error.")
    | some remap =>
      if (t.flags.naddr addrs).any (· ≠ remap) then .returned (some "mremap error.")
      else if reply.errno ≠ 0 then .returned (some "invalid errno.")
      else
        match verifyData addrs remap memory verify with
        | .error signal => .killed signal
        | .ok (some msg) => .returned (some msg)
        | .ok none => finish addrs remap memory sigaction ending

/-- What is left of the test when `mremap_mmap_anon` has returned `maps`. -/
def Test.runFunc (kernel : Memory → Call → Reply × Memory) (sigaction : Bool) (maps : Nat) (space : Space) :
    Verdict :=
  if maps ≠ t.params.length then .returned (some "mmap error.")
  else
    let (reply,memory) := kernel (backed space) (t.call addrs)
    t.judge addrs sigaction reply memory
end

end Ostest.TestMck.Mremap
