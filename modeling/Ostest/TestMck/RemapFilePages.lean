import Mathlib.Logic.Function.Basic
import Ostest.TestMck.Main

/-! Test remap_file_pages/000: a file whose pages are mapped in reverse order. The
first byte of each page tells the page; plain char is unsigned. -/
namespace Ostest.TestMck.RemapFilePages
open Lib.Signed

abbrev Byte := BitVec 8

/-- What the system answers: the bytes that each write takes, the address of the
mapping, and for remap_file_pages at an address, with a size and a page of the
file, which page of the file is at each position of the mapping afterwards. -/
structure System where
  mkstemp : Bool
  written : Nat → Nat
  opened : Bool
  mmap : Option Nat
  remapFilePages : Nat → Nat → Nat → (Nat → Nat) → Option (Nat → Nat)

variable (pageSize : Nat)

def pgoffToAddr (start page : Nat) : Nat := start + pageSize*page

def hash (page : Nat) : Byte := BitVec.ofNat 8 (page % 256)

/-- The buffer that is written for a page. -/
def buf (page : Nat) : List Byte := hash page :: List.replicate (pageSize-1) 0

/-- The loop of create_file, with `left` pages to go: what it adds to the file. -/
def writePages (system : System) : Nat → Nat → Option (List Byte)
  | 0, _ => return []
  | left+1, page => do
    let next ← int (page+1)
    let rest ← writePages system left next
    return (buf pageSize page).take (system.written page) ++ rest

def createFile (system : System) (size : Nat) : ExceptT String Option (List Byte) := do
  tpAssert system.mkstemp "open error."
  writePages pageSize system (size/pageSize) 0

/-- `(size / PAGE_SIZE) - 1` as an int. -/
def lastPage (size : Nat) : Int := (((size/pageSize : Nat) : Int) - 1).bmod (2^32)

/-- The rounds of a loop that counts down from there to 0. -/
def rounds (size : Nat) : Nat := (lastPage pageSize size + 1).toNat

/-- The loop that remaps: which page of the file is at each position. -/
def remap (system : System) (addr : Nat) :
    Nat → Nat → (Nat → Nat) → ExceptT String Option (Nat → Nat)
  | 0, _, pages => return pages
  | mmapPage+1, filePage, pages => do
    let remapAddr := pgoffToAddr pageSize addr mmapPage
    match system.remapFilePages remapAddr pageSize filePage pages with
    | none => throw "remap error"
    | some pages =>
      let next ← int (filePage+1)
      remap system addr mmapPage next pages

/-- What is found in the mapping of `size` bytes; `none` is a fault, also behind the
end of the file. -/
def mapped (file : List Byte) (pages : Nat → Nat) (addr size address : Nat) : Option Byte :=
  let offset := address-addr
  if addr ≤ address ∧ offset/pageSize < (size+pageSize-1)/pageSize then
    file[pages (offset/pageSize)*pageSize + offset%pageSize]?
  else none

def compareFrom (memory : Nat → Option Byte) (addr : Nat) : Nat → Nat → ExceptT String Option Unit
  | 0, _ => return
  | origPage+1, remapPage => do
    let byte ← memory (pgoffToAddr pageSize addr remapPage)
    tpAssert (byte = hash origPage) "compare failed."
    let next ← int (remapPage+1)
    compareFrom memory addr origPage next

def compare (memory : Nat → Option Byte) (addr size : Nat) : ExceptT String Option Unit :=
  compareFrom pageSize memory addr (rounds pageSize size) 0

def run (system : System) (size : Nat) : ExceptT String Option Unit := do
  let file ← createFile pageSize system size
  tpAssert system.opened "file open error."
  match system.mmap with
  | none => throw "mmap error."
  | some addr =>
    let pages ← remap pageSize system addr (rounds pageSize size) 0 id
    compare pageSize (mapped pageSize file pages addr size) addr size

/-! The file. -/

structure Succeeds (system : System) : Prop where
  mkstemp : system.mkstemp = true
  written : ∀ page, system.written page = pageSize
  opened : system.opened = true
  mmap : system.mmap ≠ none

/-- A call succeeds, and puts the page of the file where it is asked to be. -/
def Correct (system : System) (addr : Nat) : Prop :=
  ∀ position filePage pages,
    system.remapFilePages (pgoffToAddr pageSize addr position) pageSize filePage pages =
      some (Function.update pages position filePage)

section
variable (positive : 0 < pageSize)
include positive

theorem buf_length (page : Nat) : (buf pageSize page).length = pageSize := by
  simp only [buf,List.length_cons,List.length_replicate]
  omega

theorem writePages_all (system : System) (written : ∀ page, system.written page = pageSize)
    (left page : Nat) (bound : page+left < 2^31) :
    writePages pageSize system left page = some ((List.range' page left).flatMap (buf pageSize)) := by
  induction left generalizing page with
  | zero => rfl
  | succ left ih =>
    have next : page+1 < 2^(32-1) := by omega
    have whole : (buf pageSize page).take (system.written page) = buf pageSize page := by
      rw [written page]
      exact List.take_of_length_le (buf_length pageSize positive page).le
    rw [writePages,int,signed_fits _ _ next,Option.bind_eq_bind,Option.bind_some,ih (page+1) (by omega),whole]
    rfl

theorem page_start (first left page : Nat) :
    ((List.range' first left).flatMap (buf pageSize))[page*pageSize]? =
      if page < left then some (hash (first+page)) else none := by
  induction left generalizing first page with
  | zero => simp
  | succ left ih =>
    rw [List.range'_succ,List.flatMap_cons]
    cases page with
    | zero => simp [buf]
    | succ page =>
      have length := buf_length pageSize positive first
      have index : (page+1)*pageSize = pageSize + page*pageSize := by
        rw [Nat.succ_mul,Nat.add_comm]
      rw [List.getElem?_append_right (by omega),length,index,Nat.add_sub_cancel_left,ih (first+1) page]
      simp only [Nat.add_lt_add_iff_right,Nat.add_right_comm first 1 page,Nat.add_assoc]

end

theorem rounds_eq (size : Nat) (bound : size/pageSize < 2^31) : rounds pageSize size = size/pageSize := by
  rw [rounds,lastPage]
  generalize size/pageSize = count at bound ⊢
  rw [Int.bmod_eq_of_le (by omega) (by omega)]
  omega

/-! Remapping and comparing. -/

theorem remap_reverses (system : System) (addr : Nat) (correct : Correct pageSize system addr)
    (count filePage : Nat) (pages : Nat → Nat) (bound : filePage+count < 2^31) :
    remap pageSize system addr count filePage pages =
      pure (fun i => if i < count then filePage+(count-1-i) else pages i) := by
  induction count generalizing filePage pages with
  | zero => simp [remap]
  | succ mmapPage ih =>
    have next : filePage+1 < 2^(32-1) := by omega
    rw [remap]
    simp only [correct mmapPage filePage pages,int,signed_fits _ _ next,liftM_some,pure_bind]
    rw [ih (filePage+1) _ (by omega)]
    congr 1
    funext i
    rcases Nat.lt_trichotomy i mmapPage with before | rfl | after
    · rw [if_pos before,if_pos (by omega)]
      omega
    · rw [if_neg (Nat.lt_irrefl i),Function.update_self,if_pos (Nat.lt_succ_self i)]
      omega
    · rw [if_neg (by omega),Function.update_of_ne (by omega),if_neg (by omega)]

theorem done_compareFrom_iff (memory : Nat → Option Byte) (addr count remapPage : Nat) :
    Done (compareFrom pageSize memory addr count remapPage) ↔
      (∀ k < count, memory (pgoffToAddr pageSize addr (remapPage+k)) = some (hash (count-1-k))) ∧
      (0 < count → remapPage+count < 2^31) := by
  induction count generalizing remapPage with
  | zero => simp [compareFrom,Done]
  | succ origPage ih =>
    rw [compareFrom,done_option_iff]
    simp only [done_seq_iff,done_tpAssert_iff,done_signed_iff,ih,decide_eq_true_eq]
    constructor
    · rintro ⟨byte,found,rfl,fits,rest,last⟩
      refine ⟨?_,?_⟩
      · intro k inside
        cases k with
        | zero => exact found
        | succ k =>
          have later := rest k (by omega)
          rw [Nat.add_right_comm] at later
          rw [← Nat.add_assoc,later]
          congr 2
          omega
      · intro _
        rcases Nat.eq_zero_or_pos origPage with rfl | more
        · exact fits
        · have := last more
          omega
    · rintro ⟨bytes,last⟩
      have fits := last (Nat.succ_pos origPage)
      refine ⟨_,bytes 0 (Nat.succ_pos origPage),rfl,by omega,?_,fun _ => by omega⟩
      intro k inside
      have later := bytes (k+1) (by omega)
      rw [Nat.add_right_comm,Nat.add_assoc,later]
      congr 2
      omega

theorem hash_eq_iff (one other : Nat) : hash one = hash other ↔ one % 256 = other % 256 := by
  rw [hash,hash,← BitVec.toNat_inj,BitVec.toNat_ofNat,BitVec.toNat_ofNat]
  omega

section
variable (positive : 0 < pageSize)
include positive

theorem mapped_start (file : List Byte) (pages : Nat → Nat) (addr size i : Nat) (inside : i < size/pageSize) :
    mapped pageSize file pages addr size (pgoffToAddr pageSize addr i) = file[pages i*pageSize]? := by
  have offset : pgoffToAddr pageSize addr i - addr = pageSize*i := Nat.add_sub_cancel_left addr _
  have position : pageSize*i/pageSize = i := Nat.mul_div_cancel_left i positive
  have rest : pageSize*i%pageSize = 0 := Nat.mul_mod_right pageSize i
  have covered : size/pageSize ≤ (size+pageSize-1)/pageSize := Nat.div_le_div_right (by omega)
  rw [mapped]
  simp only [offset,position,rest,Nat.add_zero]
  rw [if_pos ⟨Nat.le_add_right _ _,by omega⟩]

/-- The comparison sees the pages up to multiples of 256. -/
theorem done_compare_iff (pages : Nat → Nat) (addr size : Nat) (bound : size/pageSize < 2^31) :
    Done (compare pageSize (mapped pageSize ((List.range (size/pageSize)).flatMap (buf pageSize)) pages addr
      size) addr size) ↔
      ∀ i < size/pageSize, pages i < size/pageSize ∧ pages i % 256 = (size/pageSize-1-i) % 256 := by
  rw [compare,done_compareFrom_iff,rounds_eq pageSize size bound]
  simp only [Nat.zero_add,bound,implies_true,and_true]
  apply forall_congr'
  intro i
  apply imp_congr_right
  intro inside
  rw [mapped_start pageSize positive _ pages addr size i inside,List.range_eq_range',
    page_start pageSize positive 0 (size/pageSize) (pages i),Nat.zero_add]
  split
  · rename_i there
    simp only [Option.some.injEq,hash_eq_iff,there,true_and]
  · rename_i beyond
    simp [beyond]

theorem createFile_pages (system : System) (succeeds : Succeeds pageSize system) (size : Nat)
    (bound : size/pageSize < 2^31) :
    createFile pageSize system size = pure ((List.range (size/pageSize)).flatMap (buf pageSize)) := by
  rw [createFile,succeeds.mkstemp,
    writePages_all pageSize positive system succeeds.written _ 0 (by omega),List.range_eq_range']
  rfl

/-- Once the calls before the remapping have succeeded, the test is the remapping
and the comparison of what it has left. -/
theorem done_run_iff (system : System) (succeeds : Succeeds pageSize system) (size addr : Nat)
    (mmap : system.mmap = some addr) (bound : size/pageSize < 2^31) :
    Done (run pageSize system size) ↔
      ∃ pages, remap pageSize system addr (size/pageSize) 0 id = pure pages ∧
        ∀ i < size/pageSize, pages i < size/pageSize ∧ pages i % 256 = (size/pageSize-1-i) % 256 := by
  rw [run,createFile_pages pageSize positive system succeeds size bound,succeeds.opened,mmap]
  simp only [tpAssert,if_true,pure_bind,rounds_eq pageSize size bound]
  rw [done_bind_iff]
  simp only [done_compare_iff pageSize positive _ addr size bound]

end

/-- Every call succeeds; the mapping is at 0x10000. -/
def willing : System :=
  ⟨true,fun _ => 4096,true,some 0x10000,fun address size filePage pages =>
    some (Function.update pages ((address-0x10000)/size) filePage)⟩

theorem willing_correct : Correct 4096 willing 0x10000 := by
  intro position filePage pages
  have offset : pgoffToAddr 4096 0x10000 position - 0x10000 = 4096*position := Nat.add_sub_cancel_left _ _
  simp only [willing,offset,Nat.mul_div_cancel_left position (Nat.zero_lt_succ 4095)]

end Ostest.TestMck.RemapFilePages
