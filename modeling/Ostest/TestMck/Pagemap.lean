import Mathlib.Data.Nat.Digits.Defs
import Ostest.Lib.Calls
import Ostest.Lib.WordMask

/-! test_mck.c: the physical memory behind a virtual address, as the pagemap file
has it, and the page size check of mem_large_page. -/
namespace Ostest.TestMck.Pagemap
open Lib.Calls Lib.WordMask

abbrev Byte := BitVec 8

abbrev Word := BitVec 64

inductive Request where
  | openFile (path : String)
  | lseek (fd : Nat) (offset : Word)
  | read (fd count : Nat)
  | close (fd : Nat)
  | printf (text : String)

/-- A call fails with an errno; `read` may return fewer bytes than asked for. -/
abbrev Request.Answer : Request → Type
  | .openFile _ => Except Int Nat
  | .lseek _ _ => Except Int Unit
  | .read _ count => Except Int {bytes : List Byte // bytes.length ≤ count}
  | .close _ => Int
  | .printf _ => Unit

abbrev Code := Prog Request Request.Answer

abbrev Trace := List (Event Request.Answer)

def ask (asked : Request) : Code asked.Answer := request asked

structure MemoryInfo where
  phys : Word
  pgsize : Word
  present : Word
  swap : Word
  deriving DecidableEq

def MemoryInfo.zero : MemoryInfo := ⟨0,0,0,0⟩

/-! The page macros, for every `PAGE_SHIFT`. -/

def pageSize (shift : Fin 64) : Word := 1#64 <<< shift.val

def pageOffset (shift : Fin 64) : Word := pageSize shift - 1

def pageMask (shift : Fin 64) : Word := ~~~pageOffset shift

def pmStatusOffset : Nat := 64 - 3

def pmStatusMask : Word := ((1#64 <<< 3) - 1) <<< pmStatusOffset

def pmStatus (nr : Word) : Word := (nr <<< pmStatusOffset) &&& pmStatusMask

def pmPshiftOffset : Nat := pmStatusOffset - 6

def pmPshiftMask : Word := ((1#64 <<< 6) - 1) <<< pmPshiftOffset

def pmPframeMask : Word := (1#64 <<< pmPshiftOffset) - 1

def pmPresent : Word := pmStatus 4

def pmSwap : Word := pmStatus 2

def einval : Int := 22

def eio : Int := 5

/-- The division and the product are unsigned, since `PAGE_SIZE` and the size of
an entry are. -/
def offsetOf (shift : Fin 64) (virt : Word) : Word := (virt &&& pageMask shift) / pageSize shift * 8

def flag (word : Word) : Word := if word ≠ 0 then 1 else 0

def infoOf (shift : Fin 64) (virt pagemap : Word) : MemoryInfo where
  phys := ((pagemap &&& pmPframeMask) <<< shift.val) ||| (virt &&& pageOffset shift)
  pgsize := 1#64 <<< ((pagemap &&& pmPshiftMask) >>> pmPshiftOffset)
  present := flag (pagemap &&& pmPresent)
  swap := flag (pagemap &&& pmSwap)

/-- The word that starts as 0 and whose first bytes are then overwritten. -/
def wordOf (bytes : List Byte) : Word := BitVec.ofNat 64 (Nat.ofDigits 256 (bytes.map BitVec.toNat))

def hex (word : Word) : String := String.ofList (Nat.toDigits 16 word.toNat)

/-- `__get_memory_info`. -/
def getMemoryInfo' (shift : Fin 64) (path : String) (virt : Word) (info : Option MemoryInfo) :
    Code (Int × Option MemoryInfo) := do
  match info with
  | none => return (-einval,none)
  | some _ =>
    match ← ask (.openFile path) with
    | .error errno =>
      ask (.printf (path ++ " open() failed. " ++ toString errno ++ "\n"))
      return (-eio,some .zero)
    | .ok fd =>
      let offset := offsetOf shift virt
      match ← ask (.lseek fd offset) with
      | .error errno =>
        ask (.printf (path ++ " lseek() failed. " ++ toString errno ++ "\n"))
        let _ ← ask (.close fd)
        return (-eio,some .zero)
      | .ok _ =>
        match ← ask (.read fd 8) with
        | .error errno =>
          ask (.printf (path ++ " offset:" ++ hex offset ++ " read() failed. " ++ toString errno ++ "\n"))
          let _ ← ask (.close fd)
          return (-eio,some .zero)
        | .ok bytes =>
          let _ ← ask (.close fd)
          return (0,some (infoOf shift virt (wordOf bytes.val)))

def getMemoryInfoSelf (shift : Fin 64) (virt : Word) (info : Option MemoryInfo) :
    Code (Int × Option MemoryInfo) :=
  getMemoryInfo' shift "/proc/self/pagemap" virt info

/-- The text of a pid is at most 11 characters long, so the path fits its 64 bytes. -/
def getMemoryInfo (shift : Fin 64) (pid : Int) (virt : Word) (info : Option MemoryInfo) :
    Code (Int × Option MemoryInfo) :=
  getMemoryInfo' shift ("/proc/" ++ toString pid ++ "/pagemap") virt info

/-- `garbage` is what stands in the record of the caller before the call. -/
def checkPageSize (shift : Fin 64) (garbage : MemoryInfo) (va pagesize : Word) : Code Int := do
  let (stat,info) ← getMemoryInfoSelf shift va (some garbage)
  let info := info.getD garbage
  if stat ≠ 0 then
    ask (.printf "get memory info failed.\n")
    return 0
  if info.pgsize ≠ pagesize then
    ask (.printf ("pagesize = 0x" ++ hex info.pgsize ++ ", Not as expected.\n"))
    return 0
  return 1

/-! The fields. -/

/-- What the fields say about an entry of the pagemap. -/
structure Decodes (shift : Fin 64) (virt entry : Word) (info : MemoryInfo) : Prop where
  phys : entry.toNat % 2^55 < 2^(64 - shift.val) →
    info.phys.toNat = entry.toNat % 2^55 * 2^shift.val + virt.toNat % 2^shift.val
  pgsize : info.pgsize.toNat = 2^(entry.toNat / 2^55 % 2^6)
  present : info.present.toNat = (entry.toNat.testBit 63).toNat
  swap : info.swap.toNat = (entry.toNat.testBit 62).toNat

theorem pageSize_toNat (shift : Fin 64) : (pageSize shift).toNat = 2^shift.val :=
  toNat_shiftLeft_one shift.val shift.isLt

theorem pageOffset_toNat (shift : Fin 64) : (pageOffset shift).toNat = 2^shift.val - 1 := by
  have one : (1 : Word) ≤ pageSize shift := by
    rw [BitVec.le_def,pageSize_toNat]
    exact Nat.one_le_two_pow
  rw [pageOffset,BitVec.toNat_sub_of_le one,pageSize_toNat]
  rfl

theorem in_page (shift : Fin 64) (virt : Word) :
    (virt &&& pageOffset shift).toNat = virt.toNat % 2^shift.val := by
  rw [BitVec.toNat_and,pageOffset_toNat,Nat.and_two_pow_sub_one_eq_mod]

theorem frame_toNat (entry : Word) : (entry &&& pmPframeMask).toNat = entry.toNat % 2^55 := by
  have mask : pmPframeMask.toNat = 2^55 - 1 := by decide
  rw [BitVec.toNat_and,mask,Nat.and_two_pow_sub_one_eq_mod]

theorem pshift_toNat (entry : Word) :
    ((entry &&& pmPshiftMask) >>> pmPshiftOffset).toNat = entry.toNat / 2^55 % 2^6 := by
  have mask : (pmPshiftMask >>> pmPshiftOffset).toNat = 2^6 - 1 := by decide
  rw [BitVec.ushiftRight_and_distrib,BitVec.toNat_and,mask,Nat.and_two_pow_sub_one_eq_mod,
    BitVec.toNat_ushiftRight,Nat.shiftRight_eq_div_pow]
  rfl

theorem flag_toNat (word : Word) (position : Nat) (bound : position < 64) :
    (flag (word &&& BitVec.twoPow 64 position)).toNat = (word.toNat.testBit position).toNat := by
  have bit : BitVec.twoPow 64 position ≠ 0 := by
    intro zero
    have same := congrArg BitVec.toNat zero
    rw [BitVec.toNat_twoPow_of_lt bound] at same
    exact absurd same (Nat.two_pow_pos position).ne'
  rw [BitVec.and_twoPow,← BitVec.testBit_toNat]
  unfold flag
  cases word.toNat.testBit position with
  | false => rfl
  | true =>
    rw [if_pos rfl,if_pos bit]
    rfl

theorem infoOf_decodes (shift : Fin 64) (virt entry : Word) :
    Decodes shift virt entry (infoOf shift virt entry) := by
  refine ⟨?_,?_,?_,?_⟩
  · intro small
    have room : entry.toNat % 2^55 * 2^shift.val < 2^64 := by
      calc entry.toNat % 2^55 * 2^shift.val < 2^(64 - shift.val) * 2^shift.val :=
            Nat.mul_lt_mul_of_pos_right small (Nat.two_pow_pos _)
        _ = 2^64 := by rw [← Nat.pow_add,Nat.sub_add_cancel (by omega)]
    have inside : virt.toNat % 2^shift.val < 2^shift.val := Nat.mod_lt _ (Nat.two_pow_pos _)
    rw [infoOf,BitVec.toNat_or,BitVec.toNat_shiftLeft,frame_toNat,in_page,Nat.shiftLeft_eq,
      Nat.mod_eq_of_lt room,← Nat.shiftLeft_eq,← Nat.shiftLeft_add_eq_or_of_lt inside]
  · have bound : entry.toNat / 2^55 % 2^6 < 64 := Nat.mod_lt _ (by decide)
    rw [infoOf,BitVec.shiftLeft_eq',pshift_toNat,toNat_shiftLeft_one _ bound]
  · exact flag_toNat entry 63 (by decide)
  · exact flag_toNat entry 62 (by decide)

/-! The position of an entry. -/

theorem page_number (shift : Fin 64) (virt : Word) :
    ((virt &&& pageMask shift) / pageSize shift).toNat = virt.toNat / 2^shift.val := by
  rw [BitVec.toNat_udiv,pageSize_toNat,← Nat.shiftRight_eq_div_pow,← Nat.shiftRight_eq_div_pow,
    ← BitVec.toNat_ushiftRight,← BitVec.toNat_ushiftRight]
  congr 1
  -- the mask only clears bits that the shift drops
  apply BitVec.eq_of_getLsbD_eq
  intro position _
  have high : (pageOffset shift).getLsbD (shift.val + position) = false := by
    rw [← BitVec.testBit_toNat,pageOffset_toNat,Nat.testBit_two_pow_sub_one]
    simp
  rw [BitVec.getLsbD_ushiftRight,BitVec.getLsbD_ushiftRight,BitVec.getLsbD_and,pageMask,
    BitVec.getLsbD_not,high]
  by_cases inside : shift.val + position < 64
  · simp [inside]
  · have beyond : virt.getLsbD (shift.val + position) = false := BitVec.getLsbD_of_ge _ _ (by omega)
    simp [beyond]

/-- As an `off_t` the offset is that of the entry of the page, unless it wraps. -/
theorem offsetOf_entry_iff (shift : Fin 64) (virt : Word) :
    (offsetOf shift virt).toInt = 8 * (virt.toNat / 2^shift.val : Nat) ↔ virt.toNat / 2^shift.val < 2^60 := by
  have unsigned : (offsetOf shift virt).toNat = virt.toNat / 2^shift.val * 8 % 2^64 := by
    rw [offsetOf,BitVec.toNat_mul,page_number]
    rfl
  rw [BitVec.toInt_eq_toNat_cond,unsigned]
  split <;> omega

/-! The runs. -/

/-- Every way a call can go, with its result. -/
inductive Goes (shift : Fin 64) (path : String) (virt : Word) :
    Option MemoryInfo → Trace → Int × Option MemoryInfo → Prop
  | null : Goes shift path virt none [] (-einval,none)
  | notOpened (info errno text) : Goes shift path virt (some info)
      [⟨.openFile path,.error errno⟩,⟨.printf text,()⟩] (-eio,some .zero)
  | notMoved (info fd errno text closed) : Goes shift path virt (some info)
      [⟨.openFile path,.ok fd⟩,⟨.lseek fd (offsetOf shift virt),.error errno⟩,⟨.printf text,()⟩,
        ⟨.close fd,closed⟩] (-eio,some .zero)
  | notRead (info fd errno text closed) : Goes shift path virt (some info)
      [⟨.openFile path,.ok fd⟩,⟨.lseek fd (offsetOf shift virt),.ok ()⟩,⟨.read fd 8,.error errno⟩,
        ⟨.printf text,()⟩,⟨.close fd,closed⟩] (-eio,some .zero)
  | read (info fd bytes closed) : Goes shift path virt (some info)
      [⟨.openFile path,.ok fd⟩,⟨.lseek fd (offsetOf shift virt),.ok ()⟩,⟨.read fd 8,.ok bytes⟩,
        ⟨.close fd,closed⟩] (0,some (infoOf shift virt (wordOf bytes.val)))

theorem goes (shift : Fin 64) (path : String) (virt : Word) (info : Option MemoryInfo) (trace : Trace)
    (result : Int × Option MemoryInfo) (runs : Runs (getMemoryInfo' shift path virt info) trace result) :
    Goes shift path virt info trace result := by
  cases info with
  | none =>
    obtain ⟨rfl,rfl⟩ := (runs_pure _ _ _).mp runs
    exact .null
  | some info =>
    obtain ⟨opened,_,rfl,afterOpen⟩ := (runs_request_bind _ _ _ _).mp runs
    cases opened with
    | error errno =>
      obtain ⟨_,_,rfl,afterText⟩ := (runs_request_bind _ _ _ _).mp afterOpen
      obtain ⟨rfl,rfl⟩ := (runs_pure _ _ _).mp afterText
      exact .notOpened info errno _
    | ok fd =>
      obtain ⟨moved,_,rfl,afterSeek⟩ := (runs_request_bind _ _ _ _).mp afterOpen
      cases moved with
      | error errno =>
        obtain ⟨_,_,rfl,afterText⟩ := (runs_request_bind _ _ _ _).mp afterSeek
        obtain ⟨closed,_,rfl,afterClose⟩ := (runs_request_bind _ _ _ _).mp afterText
        obtain ⟨rfl,rfl⟩ := (runs_pure _ _ _).mp afterClose
        exact .notMoved info fd errno _ closed
      | ok _ =>
        obtain ⟨got,_,rfl,afterRead⟩ := (runs_request_bind _ _ _ _).mp afterSeek
        cases got with
        | error errno =>
          obtain ⟨_,_,rfl,afterText⟩ := (runs_request_bind _ _ _ _).mp afterRead
          obtain ⟨closed,_,rfl,afterClose⟩ := (runs_request_bind _ _ _ _).mp afterText
          obtain ⟨rfl,rfl⟩ := (runs_pure _ _ _).mp afterClose
          exact .notRead info fd errno _ closed
        | ok bytes =>
          obtain ⟨closed,_,rfl,afterClose⟩ := (runs_request_bind _ _ _ _).mp afterRead
          obtain ⟨rfl,rfl⟩ := (runs_pure _ _ _).mp afterClose
          exact .read info fd bytes closed

/-- The descriptors that are open after some calls. -/
def openFiles : List Nat → Trace → List Nat
  | fds, [] => fds
  | fds, ⟨.openFile _,.ok fd⟩ :: trace => openFiles (fd :: fds) trace
  | fds, ⟨.close fd,_⟩ :: trace => openFiles (fds.erase fd) trace
  | fds, _ :: trace => openFiles fds trace

/-- The entry of the page was read in full and the fields are what it says. -/
def Reads (shift : Fin 64) (path : String) (virt : Word) (trace : Trace) (info : Option MemoryInfo) : Prop :=
  ∃ fd offset bytes rest fields,
    trace = ⟨.openFile path,.ok fd⟩ :: ⟨.lseek fd offset,.ok ()⟩ :: ⟨.read fd 8,.ok bytes⟩ :: rest ∧
    offset.toInt = 8 * (virt.toNat / 2^shift.val : Nat) ∧ bytes.val.length = 8 ∧
    info = some fields ∧ Decodes shift virt (wordOf bytes.val) fields

theorem reads_iff (shift : Fin 64) (path : String) (virt : Word) (fd : Nat)
    (bytes : {bytes : List Byte // bytes.length ≤ 8}) (rest : Trace) :
    Reads shift path virt (⟨.openFile path,.ok fd⟩ :: ⟨.lseek fd (offsetOf shift virt),.ok ()⟩ ::
        ⟨.read fd 8,.ok bytes⟩ :: rest) (some (infoOf shift virt (wordOf bytes.val))) ↔
      bytes.val.length = 8 ∧ virt.toNat / 2^shift.val < 2^60 := by
  rw [← offsetOf_entry_iff]
  constructor
  · rintro ⟨_,offset,_,_,_,same,entry,whole,-,-⟩
    injection same with _ later
    injection later with moved later
    injection later with got _
    cases moved
    cases got
    exact ⟨whole,entry⟩
  · rintro ⟨whole,entry⟩
    exact ⟨fd,_,bytes,rest,_,rfl,entry,whole,rfl,infoOf_decodes shift virt _⟩

/-- The one read of a run that has nothing but a message after its own calls. -/
theorem read_of_mem (path : String) (fd fd' : Nat) (offset : Word) (closed : Int)
    (bytes bytes' : {bytes : List Byte // bytes.length ≤ 8}) (texts : List String)
    (member : (⟨.read fd' 8,.ok bytes'⟩ : Event Request.Answer) ∈
      [⟨.openFile path,.ok fd⟩,⟨.lseek fd offset,.ok ()⟩,⟨.read fd 8,.ok bytes⟩,⟨.close fd,closed⟩] ++
        texts.map (fun text => (⟨.printf text,()⟩ : Event Request.Answer))) : bytes' = bytes := by
  have here : (⟨.read fd' 8,.ok bytes'⟩ : Event Request.Answer) = ⟨.read fd 8,.ok bytes⟩ := by
    simpa using member
  cases here
  rfl

/-- A read that returns fewer bytes than an entry has counts as a success. -/
theorem memory_info_iff (shift : Fin 64) (path : String) (virt : Word) (info : Option MemoryInfo)
    (trace : Trace) (result : Int × Option MemoryInfo)
    (runs : Runs (getMemoryInfo' shift path virt info) trace result) :
    ((result.1 = 0 → Reads shift path virt trace result.2) ∧ openFiles [] trace = []) ↔
      ∀ fd bytes, ⟨.read fd 8,.ok bytes⟩ ∈ trace →
        bytes.val.length = 8 ∧ virt.toNat / 2^shift.val < 2^60 := by
  cases goes shift path virt info trace result runs with
  | null => simp [openFiles,einval]
  | notOpened info errno text => simp [openFiles,eio]
  | notMoved info fd errno text closed => simp [openFiles,eio]
  | notRead info fd errno text closed => simp [openFiles,eio]
  | read info fd bytes closed =>
    have closes : openFiles [] [⟨.openFile path,.ok fd⟩,⟨.lseek fd (offsetOf shift virt),.ok ()⟩,
        ⟨.read fd 8,.ok bytes⟩,⟨.close fd,closed⟩] = [] := by
      simp [openFiles]
    constructor
    · rintro ⟨reads,_⟩ fd' bytes' member
      rw [read_of_mem path fd fd' _ closed bytes bytes' [] member]
      exact (reads_iff _ _ _ _ _ _).mp (reads rfl)
    · intro whole
      exact ⟨fun _ => (reads_iff _ _ _ _ _ _).mpr (whole fd bytes (by simp)),closes⟩

def readRun (bytes : List Byte) (bound : bytes.length ≤ 8) : Trace :=
  [⟨.openFile "/proc/self/pagemap",.ok 3⟩,⟨.lseek 3 0x8,.ok ()⟩,⟨.read 3 8,.ok ⟨bytes,bound⟩⟩,⟨.close 3,(0 : Int)⟩]

theorem readRun_runs (bytes : List Byte) (bound : bytes.length ≤ 8) :
    Runs (getMemoryInfo' 16 "/proc/self/pagemap" 0x12345 (some .zero)) (readRun bytes bound)
      (0,some (infoOf 16 0x12345 (wordOf bytes))) :=
  .call _ _ _ _ _ (.call _ _ _ _ _ (.call _ _ _ _ _ (.call _ _ _ _ _ (.ret _))))

theorem memory_info_iff_whole :
    Reads 16 "/proc/self/pagemap" 0x12345 (readRun [1,0,0,0,0,0,0,0x88] (by decide)) (some ⟨0x12345,0x10000,1,0⟩) := by
  refine ((memory_info_iff 16 "/proc/self/pagemap" 0x12345 (some .zero) _ _
    (readRun_runs [1,0,0,0,0,0,0,0x88] (by decide))).mpr ?_).1 rfl
  intro fd bytes member
  rw [read_of_mem _ 3 fd 0x8 0 ⟨[1,0,0,0,0,0,0,0x88],by decide⟩ bytes [] member]
  exact ⟨rfl,by decide⟩

theorem memory_info_short :
    Runs (getMemoryInfo' 16 "/proc/self/pagemap" 0x12345 (some .zero)) (readRun [] (by decide))
      (0,some ⟨0x2345,1,0,0⟩) ∧
    ¬ Reads 16 "/proc/self/pagemap" 0x12345 (readRun [] (by decide)) (some ⟨0x2345,1,0,0⟩) := by
  refine ⟨readRun_runs [] (by decide),?_⟩
  intro reads
  have iff := reads_iff 16 "/proc/self/pagemap" 0x12345 3 ⟨[],Nat.zero_le 8⟩ [⟨.close 3,(0 : Int)⟩]
  exact absurd (iff.mp reads).1 (by decide)

/-- The page size check passes exactly if the bytes that were read have the size. -/
theorem checkPageSize_iff (shift : Fin 64) (garbage : MemoryInfo) (va pagesize : Word) (trace : Trace)
    (ret : Int) (runs : Runs (checkPageSize shift garbage va pagesize) trace ret) :
    ret = 1 ↔ ∃ fd bytes, ⟨.read fd 8,.ok bytes⟩ ∈ trace ∧
      pagesize.toNat = 2^((wordOf bytes.val).toNat / 2^55 % 2^6) := by
  obtain ⟨before,⟨stat,info⟩,after,rfl,called,rest⟩ := (runs_bind _ _ _ _).mp runs
  have noPage (failed : stat ≠ 0) : ret = 0 ∧ ∀ fd bytes, ⟨.read fd 8,.ok bytes⟩ ∉ after := by
    simp only [if_pos failed] at rest
    obtain ⟨_,_,rfl,ended⟩ := (runs_request_bind _ _ _ _).mp rest
    obtain ⟨rfl,rfl⟩ := (runs_pure _ _ _).mp ended
    simp
  cases goes shift _ va (some garbage) before (stat,info) called with
  | notOpened _ errno text =>
    obtain ⟨rfl,noRead⟩ := noPage (by decide)
    simp [noRead]
  | notMoved _ fd errno text closed =>
    obtain ⟨rfl,noRead⟩ := noPage (by decide)
    simp [noRead]
  | notRead _ fd errno text closed =>
    obtain ⟨rfl,noRead⟩ := noPage (by decide)
    simp [noRead]
  | read _ fd bytes closed =>
    have size := (infoOf_decodes shift va (wordOf bytes.val)).pgsize
    simp only [ne_eq,not_true,if_false,Option.getD_some] at rest
    split at rest
    case isTrue other =>
      obtain ⟨_,_,rfl,ended⟩ := (runs_request_bind _ _ _ _).mp rest
      obtain ⟨rfl,rfl⟩ := (runs_pure _ _ _).mp ended
      refine ⟨fun one => absurd one (by decide),?_⟩
      rintro ⟨fd',bytes',member,same⟩
      rw [read_of_mem _ fd fd' _ closed bytes bytes' [_] member] at same
      exact absurd (BitVec.eq_of_toNat_eq (size.trans same.symm)) other
    case isFalse same =>
      obtain ⟨rfl,rfl⟩ := (runs_pure _ _ _).mp rest
      exact ⟨fun _ => ⟨fd,bytes,by simp,by rw [← size,not_not.mp same]⟩,fun _ => rfl⟩

end Ostest.TestMck.Pagemap
