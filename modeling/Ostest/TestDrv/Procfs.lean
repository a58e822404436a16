import Mathlib.Data.BitVec
import Ostest.Lib.Calls
import Ostest.Lib.Memory

/-! test_mck_drv.c: reading the proc files, which are strings of the kernel. The
position is signed and the sizes are unsigned; where the two meet the position is
taken as unsigned. -/
namespace Ostest.TestDrv.Procfs
open Lib.Calls Lib.Memory

abbrev Byte := BitVec 8

abbrev Word := BitVec 64

/-- A string in the memory of the kernel. An object is smaller than half of the
address space. -/
structure KString where
  memory : Nat → Byte
  start : Nat
  length : Nat
  text : ∀ i < length, memory (start+i) ≠ 0
  terminated : memory (start+length) = 0
  fits : length < 2^63

def KString.bytes (string : KString) : List Byte := load string.memory string.start string.length

def KString.strlen (string : KString) : Word := BitVec.ofNat 64 string.length

inductive Request where
  | copyToUser (source : Nat) (count : Word)

/-- How many bytes could not be copied. -/
abbrev Request.Answer : Request → Type
  | .copyToUser _ count => Fin (count.toNat+1)

abbrev Code := Prog Request Request.Answer

abbrev Trace := List (Event Request.Answer)

def ask (asked : Request) : Code asked.Answer := request asked

def efault : Int := 14

/-- What a read returns, what it left in the buffer of the user, and the position
after it. -/
structure Read where
  ret : Int
  buf : List Byte
  ppos : Word

def clamp (len nbytes ppos : Word) : Word := if ppos + nbytes > len then len - ppos else nbytes

def stringRead (nbytes ppos : Word) (string : KString) : Code Read :=
  let len := string.strlen
  if ppos > len then pure ⟨0,[],ppos⟩
  else do
    let source := string.start + ppos.toNat
    let count := clamp len nbytes ppos
    let missed ← ask (.copyToUser source count)
    let buf := load string.memory source (count.toNat - missed.val)
    if missed.val ≠ 0 then return ⟨-efault,buf,ppos⟩
    return ⟨count.toInt,buf,ppos + count⟩

structure Driver where
  majmin : KString
  tpNames : KString

structure File where
  privateData : KString

inductive ProcEnt where
  | devno
  | tpNames

def ProcEnt.open : ProcEnt → Driver → File
  | .devno, driver => ⟨driver.majmin⟩
  | .tpNames, driver => ⟨driver.tpNames⟩

def ProcEnt.read : ProcEnt → File → Word → Word → Code Read
  | .devno, file, nbytes, ppos => stringRead nbytes ppos file.privateData
  | .tpNames, file, nbytes, ppos => stringRead nbytes ppos file.privateData

/-! One read. -/

structure Call where
  nbytes : Word
  ppos : Word
  trace : Trace
  result : Read

def Missed : Event Request.Answer → Prop
  | ⟨.copyToUser _ _,missed⟩ => missed.val ≠ 0

def Failed (trace : Trace) : Prop := ∃ event ∈ trace, Missed event

def Inside (string : KString) : Event Request.Answer → Prop
  | ⟨.copyToUser source count,_⟩ =>
    string.start ≤ source ∧ source + count.toNat ≤ string.start + string.length

/-- What a read of a string should do. -/
structure Slice (string : KString) (call : Call) : Prop where
  inside : ∀ event ∈ call.trace, Inside string event
  past : string.length ≤ call.ppos.toNat → call.result = ⟨0,[],call.ppos⟩
  failed : Failed call.trace → call.result.ret = -efault ∧ call.result.ppos = call.ppos
  copied : ¬ Failed call.trace →
    call.result.ret = min call.nbytes.toNat (string.length - call.ppos.toNat) ∧
    call.result.buf = (string.bytes.drop call.ppos.toNat).take call.nbytes.toNat ∧
    call.result.ppos.toNat = call.ppos.toNat + min call.nbytes.toNat (string.length - call.ppos.toNat)

theorem strlen_toNat (string : KString) : string.strlen.toNat = string.length := by
  have fits := string.fits
  rw [KString.strlen,BitVec.toNat_ofNat,Nat.mod_eq_of_lt (by omega)]

theorem clamp_toNat (string : KString) (nbytes ppos : Word) (small : nbytes.toNat < 2^63)
    (inside : ppos.toNat ≤ string.length) :
    (clamp string.strlen nbytes ppos).toNat = min nbytes.toNat (string.length - ppos.toNat) := by
  have fits := string.fits
  have len := strlen_toNat string
  -- neither a position in the string nor the request reaches 2^63, so the sum does not wrap
  have sum : (ppos + nbytes).toNat = ppos.toNat + nbytes.toNat := by
    rw [BitVec.toNat_add,Nat.mod_eq_of_lt (by omega)]
  have left : (string.strlen - ppos).toNat = string.length - ppos.toNat := by
    rw [BitVec.toNat_sub_of_le (by rw [BitVec.le_def]; omega),len]
  unfold clamp
  split
  case isTrue above =>
    rw [gt_iff_lt,BitVec.lt_def] at above
    omega
  case isFalse below =>
    rw [gt_iff_lt,BitVec.lt_def] at below
    omega

theorem load_slice (string : KString) (position count : Nat) (inside : position ≤ string.length) :
    load string.memory (string.start+position) (min count (string.length-position)) =
      (string.bytes.drop position).take count := by
  obtain ⟨left,length⟩ := Nat.exists_eq_add_of_le inside
  have loaded : (load string.memory string.start position).length = position := by
    simp [load]
  rw [KString.bytes,length,load_add,List.drop_left' loaded,Nat.add_sub_cancel_left]
  simp [load,← List.map_take,List.take_range]

theorem slice_past (string : KString) (nbytes ppos : Word) (past : string.length < ppos.toNat) :
    Slice string ⟨nbytes,ppos,[],⟨0,[],ppos⟩⟩ := by
  have none : string.length - ppos.toNat = 0 := by omega
  have short : string.bytes.length ≤ ppos.toNat := by
    simp only [KString.bytes,load,List.length_map,List.length_range]
    omega
  refine ⟨by simp,fun _ => rfl,by simp [Failed],fun _ => ?_⟩
  simp [none,List.drop_eq_nil_of_le short]

/-- The copy of a read at a position in the string. -/
def copied (string : KString) (nbytes ppos : Word)
    (missed : Fin ((clamp string.strlen nbytes ppos).toNat+1)) : Event Request.Answer :=
  ⟨.copyToUser (string.start + ppos.toNat) (clamp string.strlen nbytes ppos),missed⟩

section
variable (string : KString) (nbytes ppos : Word) (small : nbytes.toNat < 2^63)
  (below : ppos.toNat ≤ string.length) (missed : Fin ((clamp string.strlen nbytes ppos).toNat+1))
include small below

theorem copied_inside : ∀ event ∈ [copied string nbytes ppos missed], Inside string event := by
  have count := clamp_toNat string nbytes ppos small below
  intro event member
  rw [List.mem_singleton.mp member]
  exact ⟨by omega,by omega⟩

theorem slice_missed (short : missed.val ≠ 0) (buf : List Byte) :
    Slice string ⟨nbytes,ppos,[copied string nbytes ppos missed],⟨-efault,buf,ppos⟩⟩ := by
  have count := clamp_toNat string nbytes ppos small below
  have bound := missed.isLt
  refine ⟨copied_inside string nbytes ppos small below missed,?_,fun _ => ⟨rfl,rfl⟩,?_⟩
  · -- nothing is copied at the end, so nothing can be missed there
    intro past
    simp only at past
    omega
  · intro whole
    exact absurd ⟨_,List.mem_singleton_self _,short⟩ whole

theorem slice_copied (whole : missed.val = 0) :
    Slice string ⟨nbytes,ppos,[copied string nbytes ppos missed],
      ⟨(clamp string.strlen nbytes ppos).toInt,
        load string.memory (string.start + ppos.toNat) ((clamp string.strlen nbytes ppos).toNat - missed.val),
        ppos + clamp string.strlen nbytes ppos⟩⟩ := by
  have fits := string.fits
  have count := clamp_toNat string nbytes ppos small below
  have signed : (clamp string.strlen nbytes ppos).toInt = (clamp string.strlen nbytes ppos).toNat := by
    rw [BitVec.toInt_eq_toNat_of_lt (by omega)]
  have moved : (ppos + clamp string.strlen nbytes ppos).toNat =
      ppos.toNat + min nbytes.toNat (string.length - ppos.toNat) := by
    rw [BitVec.toNat_add,count,Nat.mod_eq_of_lt (by omega)]
  refine ⟨copied_inside string nbytes ppos small below missed,?_,?_,?_⟩
  · intro past
    simp only at past
    have zero : clamp string.strlen nbytes ppos = 0 := by
      apply BitVec.eq_of_toNat_eq
      rw [count]
      simp
      omega
    simp [zero,load]
  · rintro ⟨event,member,missing⟩
    rw [List.mem_singleton.mp member] at missing
    exact absurd whole missing
  · intro _
    refine ⟨signed.trans (congrArg Nat.cast count),?_,moved⟩
    change load string.memory (string.start + ppos.toNat) (_ - missed.val) = _
    rw [whole,Nat.sub_zero,count]
    exact load_slice string _ _ below
end

theorem slice (string : KString) (nbytes ppos : Word) (trace : Trace) (result : Read)
    (runs : Runs (stringRead nbytes ppos string) trace result) (small : nbytes.toNat < 2^63) :
    Slice string ⟨nbytes,ppos,trace,result⟩ := by
  have len := strlen_toNat string
  simp only [stringRead] at runs
  split at runs
  case isTrue above =>
    obtain ⟨rfl,rfl⟩ := (runs_pure _ _ _).mp runs
    rw [gt_iff_lt,BitVec.lt_def,len] at above
    exact slice_past string nbytes ppos above
  case isFalse below =>
    rw [gt_iff_lt,BitVec.lt_def,len,Nat.not_lt] at below
    obtain ⟨missed,rest,rfl,after⟩ := (runs_request_bind _ _ _ _).mp runs
    split at after
    case isTrue short =>
      obtain ⟨rfl,rfl⟩ := (runs_pure _ _ _).mp after
      exact slice_missed string nbytes ppos small below missed short _
    case isFalse whole =>
      obtain ⟨rfl,rfl⟩ := (runs_pure _ _ _).mp after
      exact slice_copied string nbytes ppos small below missed (not_not.mp whole)

/-! All reads of an open file. -/

inductive Session (entry : ProcEnt) (file : File) : Word → List Call → Word → Prop
  | nil (ppos) : Session entry file ppos [] ppos
  | cons (nbytes ppos trace result calls last) (runs : Runs (entry.read file nbytes ppos) trace result)
      (rest : Session entry file result.ppos calls last) :
      Session entry file ppos (⟨nbytes,ppos,trace,result⟩ :: calls) last

/-- The bytes that the user got: those of the reads that succeeded. -/
def delivered : List Call → List Byte
  | [] => []
  | call :: calls => (if 0 ≤ call.result.ret then call.result.buf else []) ++ delivered calls

variable {entry : ProcEnt} {file : File} {first last : Word} {calls : List Call}

theorem session_slices (session : Session entry file first calls last)
    (sizes : ∀ call ∈ calls, call.nbytes.toNat < 2^63) :
    ∀ call ∈ calls, Slice file.privateData call := by
  induction session with
  | nil ppos => simp
  | cons nbytes ppos trace result calls last runs rest ih =>
    have one : Slice file.privateData ⟨nbytes,ppos,trace,result⟩ := by
      apply slice _ _ _ _ _ _ (sizes _ List.mem_cons_self)
      cases entry <;> exact runs
    intro call member
    rcases List.mem_cons.mp member with rfl | later
    · exact one
    · exact ih (fun call member => sizes call (List.mem_cons_of_mem _ member)) call later

/-- One read delivers what lies between the position before and after it. -/
theorem Slice.delivers {string : KString} {call : Call} (one : Slice string call) :
    call.ppos.toNat ≤ call.result.ppos.toNat ∧
    (if 0 ≤ call.result.ret then call.result.buf else []) =
      (string.bytes.drop call.ppos.toNat).take (call.result.ppos.toNat - call.ppos.toNat) := by
  by_cases failed : Failed call.trace
  · obtain ⟨ret,same⟩ := one.failed failed
    rw [ret,same,if_neg (by decide)]
    simp
  · obtain ⟨ret,buf,moved⟩ := one.copied failed
    have length : (string.bytes.drop call.ppos.toNat).length = string.length - call.ppos.toNat := by
      simp [KString.bytes,load]
    rw [ret,if_pos (by omega),buf,moved,Nat.add_sub_cancel_left,← length,← List.take_take,
      List.take_length]
    exact ⟨by omega,rfl⟩

theorem session_delivers (session : Session entry file first calls last)
    (sizes : ∀ call ∈ calls, call.nbytes.toNat < 2^63) :
    first.toNat ≤ last.toNat ∧
    delivered calls = (file.privateData.bytes.drop first.toNat).take (last.toNat - first.toNat) := by
  have slices := session_slices session sizes
  induction session with
  | nil ppos => simp [delivered]
  | cons nbytes ppos trace result calls last runs rest ih =>
    obtain ⟨later,joined⟩ := ih (fun call member => sizes call (List.mem_cons_of_mem _ member))
      (fun call member => slices call (List.mem_cons_of_mem _ member))
    obtain ⟨moved,piece⟩ := (slices _ List.mem_cons_self).delivers
    simp only at moved piece
    refine ⟨by omega,?_⟩
    rw [delivered,piece,joined]
    obtain ⟨step,next⟩ := Nat.exists_eq_add_of_le moved
    have total : last.toNat - ppos.toNat = step + (last.toNat - result.ppos.toNat) := by omega
    rw [total,List.take_add,next,Nat.add_sub_cancel_left,List.drop_drop]

theorem session_end (session : Session entry file first calls last) (call : Call)
    (ends : calls.getLast? = some call) : last = call.result.ppos := by
  induction session with
  | nil ppos => simp at ends
  | cons nbytes ppos trace result calls last runs rest ih =>
    cases rest with
    | nil _ =>
      obtain rfl := Option.some.inj ends
      rfl
    | cons => exact ih (by simpa using ends)

/-- Whatever the reads of an open file ask for and whichever of their copies fail,
they return consecutive slices of its string and touch nothing else; reads from the
start until one returns 0 return the whole string. -/
theorem procfs_reads_slices (entry : ProcEnt) (file : File) (first last : Word) (calls : List Call)
    (session : Session entry file first calls last)
    (sizes : ∀ call ∈ calls, call.nbytes.toNat < 2^63) :
    (∀ call ∈ calls, Slice file.privateData call) ∧
    delivered calls = (file.privateData.bytes.drop first.toNat).take (last.toNat - first.toNat) ∧
    (∀ call, calls.getLast? = some call → 0 < call.nbytes.toNat → call.result.ret = 0 → first = 0 →
      delivered calls = file.privateData.bytes) := by
  have slices := session_slices session sizes
  obtain ⟨_,joined⟩ := session_delivers session sizes
  refine ⟨slices,joined,fun call ends positive nothing origin => ?_⟩
  have one := slices call (List.mem_of_getLast? ends)
  have untroubled : ¬ Failed call.trace := by
    intro failed
    have error := (one.failed failed).1
    rw [nothing] at error
    exact absurd error (by decide)
  -- a read that asked for something and got nothing was at the end
  obtain ⟨ret,_,moved⟩ := one.copied untroubled
  have past : file.privateData.length ≤ last.toNat := by
    rw [session_end session call ends,moved]
    omega
  have zero : first.toNat = 0 := by
    rw [origin]
    rfl
  rw [joined,zero,List.drop_zero,Nat.sub_zero,List.take_of_length_le]
  simpa [KString.bytes,load] using past

def helloFile : File :=
  ⟨⟨store (fun _ => 0) 16 [0x68,0x69],16,2,by decide,by decide,by decide⟩⟩

/-- A read whose copy leaves out all bytes, or none. -/
def helloRead (fails : Bool) (nbytes ppos : Word) : Call :=
  let reply : Nat → (asked : Request) → asked.Answer := fun
    | _, .copyToUser _ count => if fails then Fin.last count.toNat else 0
  let run := play reply 0 (ProcEnt.devno.read helloFile nbytes ppos)
  ⟨nbytes,ppos,run.1,run.2⟩

theorem procfs_reads_slices_hello :
    delivered [helloRead true 1 0,helloRead false 1 0,helloRead false 9 1,helloRead false 9 2] =
      helloFile.privateData.bytes := by
  refine (procfs_reads_slices .devno helloFile 0 2 _ ?_ (by decide)).2.2 (helloRead false 9 2) rfl
    (by decide) (by decide) rfl
  exact .cons 1 0 _ _ _ _ (runs_play _ _ _) (.cons 1 0 _ _ _ _ (runs_play _ _ _)
    (.cons 9 1 _ _ _ _ (runs_play _ _ _) (.cons 9 2 _ _ _ _ (runs_play _ _ _) (.nil 2))))

end Ostest.TestDrv.Procfs
