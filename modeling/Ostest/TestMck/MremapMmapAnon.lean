import Mathlib.Data.BitVec
import Ostest.Lib.Calls
import Ostest.Lib.Memory

/-! mremap_mmap_anon.c: the memory of the mremap tests, a reservation that is cut
into regions, some unmapped and some mapped anew. Sizes are whole pages, so that
the calls act on the ranges they are given. -/
namespace Ostest.TestMck.MremapMmapAnon
open Lib.Calls Lib.Memory

abbrev Byte := BitVec 8

structure Prot where
  read : Bool
  write : Bool
  exec : Bool
  deriving DecidableEq

def Prot.none : Prot := ⟨false,false,false⟩

structure Param (page : Nat) where
  size : Nat
  nopage : Bool
  shared : Bool
  prot : Prot
  positive : 0 < size
  aligned : page ∣ size
  fits : size < 2^64

inductive Request where
  | reserve (length : Nat)
  | mmapFixed (addr length : Nat) (prot : Prot) (shared : Bool)
  | munmap (addr length : Nat)
  | memset (addr : Nat) (byte : Byte) (length : Nat)

/-- A reservation is somewhere in the address space and not empty; the other two
system calls succeed or not. -/
abbrev Request.Answer : Request → Type
  | .reserve length => Option {addr : Nat // 0 < length ∧ addr+length ≤ 2^64}
  | .mmapFixed _ _ _ _ => Bool
  | .munmap _ _ => Bool
  | .memset _ _ _ => Unit

abbrev Code := Prog Request Request.Answer

abbrev Trace := List (Event Request.Answer)

def ask (asked : Request) : Code asked.Answer := request asked

/-- What is in the `addr` of a parameter. -/
inductive Addr where
  | untouched
  | mapFailed
  | at (address : Nat)
  deriving DecidableEq

/-- The index is an `int`: counting past its greatest value is undefined. -/
inductive Outcome where
  | undefined
  | returned (value : Nat) (addrs : List Addr)

inductive Summed where
  | wraps (i : Nat)
  | undefined
  | total (size : Nat)

variable {page : Nat}

/-- The first loop. -/
def sumSizes : Nat → Nat → List (Param page) → Summed
  | _, totalSize, [] => .total totalSize
  | i, totalSize, p :: ps =>
    let sum := (totalSize + p.size) % 2^64
    if sum < totalSize then .wraps i
    else if i + 1 = 2^31 then .undefined
    else sumSizes (i+1) sum ps

def ch (i : Nat) : Byte := BitVec.ofNat 8 ('0'.toNat + i)

def formatRegion (i addr : Nat) (p : Param page) : Code Bool :=
  if p.nopage then ask (.munmap addr p.size)
  else do
    let mapped ← ask (.mmapFixed addr p.size p.prot p.shared)
    if mapped && p.prot.write then
      ask (.memset addr (ch i) p.size)
      return true
    else return mapped

/-- The last loop; the first one has counted as far. -/
def format : Nat → Nat → List (Param page) → Code (Nat × List Addr)
  | i, _, [] => return (i,[])
  | i, addr, p :: ps => do
    let formatted ← formatRegion i addr p
    if formatted then
      let (count,addrs) ← format (i+1) (addr+p.size) ps
      return (count,.at addr :: addrs)
    else return (i,.at addr :: List.replicate ps.length .mapFailed)

def mremapMmapAnon (params : List (Param page)) : Code Outcome :=
  match sumSizes 0 0 params with
  | .wraps i => return .returned 0 (List.replicate i .mapFailed ++ List.replicate (params.length-i) .untouched)
  | .undefined => return .undefined
  | .total totalSize => do
    match ← ask (.reserve totalSize) with
    | none => return .returned 0 (List.replicate params.length .mapFailed)
    | some addr =>
      let (count,addrs) ← format 0 addr.val params
      return .returned count addrs

/-! What the calls do to the memory. -/

structure Cell where
  prot : Prot
  shared : Bool
  byte : Byte

abbrev Space := Nat → Option Cell

def Writable (cell : Option Cell) : Prop := ∃ mapped, cell = some mapped ∧ mapped.prot.write = true

instance (cell : Option Cell) : Decidable (Writable cell) :=
  match cell with
  | none => isFalse (by simp [Writable])
  | some mapped => decidable_of_iff (mapped.prot.write = true) (by simp [Writable])

def setBytes (space : Space) (addr : Nat) (byte : Byte) (length : Nat) : Space :=
  fun address => if addr ≤ address ∧ address < addr+length
    then (space address).map (fun cell => {cell with byte := byte}) else space address

/-- `none` is a fault. -/
def step (space : Space) : Event Request.Answer → Option Space
  | ⟨.reserve length,some addr⟩ => some (fill space addr.val length (some ⟨.none,true,0⟩))
  | ⟨.mmapFixed addr length prot shared,true⟩ => some (fill space addr length (some ⟨prot,shared,0⟩))
  | ⟨.munmap addr length,true⟩ => some (fill space addr length none)
  | ⟨.memset addr byte length,_⟩ =>
    if ∀ offset < length, Writable (space (addr+offset)) then some (setBytes space addr byte length)
    else none
  | _ => some space

def after : Space → Trace → Option Space
  | space, [] => some space
  | space, event :: trace => (step space event).bind (after · trace)

/-- On arm64 what may be written may be read. -/
def readByte (space : Space) (address : Nat) : Option Byte :=
  match space address with
  | none => none
  | some cell => if cell.prot.read || cell.prot.write then some cell.byte else none

/-- `mremap_mmap_anon_data_check`; an error is a fault. -/
def dataCheck (space : Space) : Nat → Nat → Byte → Except Nat (Option String)
  | _, 0, _ => .ok none
  | addr, len+1, exp =>
    match readByte space addr with
    | none => .error addr
    | some byte => if byte ≠ exp then .ok (some "data check error.") else dataCheck space (addr+1) len exp

theorem after_append (space : Space) (first second : Trace) :
    after space (first ++ second) = (after space first).bind (after · second) := by
  induction first generalizing space with
  | nil => rfl
  | cons event first ih =>
    simp only [List.cons_append,after,Option.bind_assoc,ih]

/-! One region. -/

/-- A region as its parameter asks for it. -/
structure Holds (space : Space) (i start : Nat) (p : Param page) : Prop where
  hole : p.nopage = true → ∀ offset < p.size, space (start+offset) = none
  mapped : p.nopage = false → ∀ offset < p.size, ∃ cell, space (start+offset) = some cell ∧
    cell.prot = p.prot ∧ cell.shared = p.shared ∧ (p.prot.write = true → cell.byte = ch i)

theorem Holds.congr {space other : Space} {i start : Nat} {p : Param page} (holds : Holds space i start p)
    (same : ∀ offset < p.size, other (start+offset) = space (start+offset)) : Holds other i start p := by
  refine ⟨?_,?_⟩
  · intro nopage offset inside
    rw [same offset inside]
    exact holds.hole nopage offset inside
  · intro nopage offset inside
    rw [same offset inside]
    exact holds.mapped nopage offset inside

theorem dataCheck_passes (space : Space) (start len : Nat) (exp : Byte)
    (filled : ∀ offset < len, readByte space (start+offset) = some exp) :
    dataCheck space start len exp = .ok none := by
  induction len generalizing start with
  | zero => rfl
  | succ len ih =>
    have here : readByte space start = some exp := filled 0 (Nat.succ_pos len)
    rw [dataCheck,here]
    simp only [ne_eq,not_true,if_false]
    apply ih
    intro offset inside
    have there := filled (offset+1) (by omega)
    rwa [Nat.add_comm offset 1,← Nat.add_assoc] at there

/-- Writable regions pass the check with their own byte. -/
theorem Holds.dataCheck {space : Space} {i start : Nat} {p : Param page} (holds : Holds space i start p)
    (nopage : p.nopage = false) (writable : p.prot.write = true) :
    dataCheck space start p.size (ch i) = .ok none := by
  apply dataCheck_passes
  intro offset inside
  obtain ⟨cell,there,prot,_,byte⟩ := holds.mapped nopage offset inside
  rw [readByte,there]
  simp [prot,writable,byte writable]

/-- The range of a region is all that its calls change. -/
def Frame (start length : Nat) (before after : Space) : Prop :=
  ∀ address, address < start ∨ start+length ≤ address → after address = before address

section
variable (space : Space) (i start : Nat) (p : Param page)

theorem fill_frame (cell : Option Cell) : Frame start p.size space (fill space start p.size cell) :=
  fun _ outside => fill_outside _ _ _ _ _ outside

theorem fill_cell (cell : Option Cell) (offset : Nat) (inside : offset < p.size) :
    fill space start p.size cell (start+offset) = cell :=
  fill_inside _ _ _ _ _ (Nat.le_add_right _ _) (by omega)

theorem munmap_holds (nopage : p.nopage = true) : Holds (fill space start p.size none) i start p := by
  refine ⟨?_,by simp [nopage]⟩
  intro _ offset inside
  exact fill_cell space start p none offset inside

/-- What MAP_FIXED leaves in the range of a region. -/
def fresh : Space := fill space start p.size (some ⟨p.prot,p.shared,0⟩)

theorem mmap_holds (nopage : p.nopage = false) (locked : p.prot.write = false) :
    Holds (fresh space start p) i start p := by
  refine ⟨by simp [nopage],?_⟩
  intro _ offset inside
  exact ⟨_,fill_cell space start p _ offset inside,rfl,rfl,by simp [locked]⟩

theorem memset_allowed (writable : p.prot.write = true) :
    ∀ offset < p.size, Writable (fresh space start p (start+offset)) :=
  fun offset inside => ⟨_,fill_cell space start p _ offset inside,writable⟩

theorem memset_holds (nopage : p.nopage = false) :
    Holds (setBytes (fresh space start p) start (ch i) p.size) i start p := by
  refine ⟨by simp [nopage],?_⟩
  intro _ offset inside
  refine ⟨⟨p.prot,p.shared,ch i⟩,?_,rfl,rfl,fun _ => rfl⟩
  rw [setBytes,if_pos (by omega),fresh,fill_cell space start p _ offset inside]
  rfl

theorem memset_frame : Frame start p.size space (setBytes (fresh space start p) start (ch i) p.size) := by
  intro address outside
  rw [setBytes,if_neg (by omega)]
  exact fill_frame space start p _ address outside
end

theorem formatRegion_holds (space : Space) (i addr : Nat) (p : Param page) (trace : Trace)
    (runs : Runs (formatRegion i addr p) trace true) :
    ∃ next, after space trace = some next ∧ Frame addr p.size space next ∧ Holds next i addr p := by
  unfold formatRegion at runs
  cases nopage : p.nopage with
  | true =>
    rw [nopage,if_pos rfl] at runs
    obtain ⟨answer,rest,rfl,ended⟩ := (runs_call _ _ _ _).mp runs
    cases ended
    exact ⟨_,rfl,fill_frame space addr p none,munmap_holds space i addr p nopage⟩
  | false =>
    rw [nopage,if_neg Bool.false_ne_true] at runs
    obtain ⟨mapped,rest,rfl,afterMap⟩ := (runs_request_bind _ _ _ _).mp runs
    cases mapped with
    | false =>
      have ended := ((runs_pure _ _ _).mp afterMap).2
      contradiction
    | true =>
      cases writable : p.prot.write with
      | false =>
        rw [writable] at afterMap
        obtain ⟨rfl,_⟩ := (runs_pure _ _ _).mp afterMap
        exact ⟨_,rfl,fill_frame space addr p _,mmap_holds space i addr p nopage writable⟩
      | true =>
        rw [writable] at afterMap
        obtain ⟨_,_,rfl,afterSet⟩ := (runs_request_bind _ _ _ _).mp afterMap
        obtain ⟨rfl,_⟩ := (runs_pure _ _ _).mp afterSet
        exact ⟨_,congrArg (Option.bind · _) (if_pos (memset_allowed space addr p writable)),
          memset_frame space i addr p,memset_holds space i addr p nopage⟩

/-! All regions. -/

def total : List (Param page) → Nat
  | [] => 0
  | p :: ps => p.size + total ps

/-- The regions lie one after the other from `start` on, `i` being the index of the first. -/
structure Laid (space : Space) (i start : Nat) (params : List (Param page)) (addrs : List Addr) : Prop where
  length : addrs.length = params.length
  region : ∀ k p, params[k]? = some p →
    addrs[k]? = some (.at (start + total (params.take k))) ∧
      Holds space (i+k) (start + total (params.take k)) p

theorem total_take_le (params : List (Param page)) (k : Nat) (p : Param page) (there : params[k]? = some p) :
    total (params.take k) + p.size ≤ total params := by
  induction params generalizing k with
  | nil => simp at there
  | cons first params ih =>
    cases k with
    | zero =>
      obtain rfl : first = p := by simpa using there
      simp only [List.take_zero,total]
      omega
    | succ k =>
      have bound := ih k (by simpa using there)
      simp only [List.take_succ_cons,total]
      omega

theorem laid_cons (space : Space) (i start : Nat) (p : Param page) (params : List (Param page))
    (addrs : List Addr) (holds : Holds space i start p)
    (laid : Laid space (i+1) (start+p.size) params addrs) :
    Laid space i start (p :: params) (.at start :: addrs) := by
  refine ⟨congrArg (·+1) laid.length,?_⟩
  intro k q there
  cases k with
  | zero =>
    obtain rfl : p = q := by simpa using there
    exact ⟨rfl,holds⟩
  | succ k =>
    have region := laid.region k q (by simpa using there)
    have index : i + (k+1) = i+1+k := by omega
    rw [List.take_succ_cons,total,← Nat.add_assoc,index]
    exact region

/-- The invariant of the last loop: what is formatted stays, since each step only
changes the range of its own region. -/
theorem format_laid (params : List (Param page)) (space : Space) (i addr count : Nat) (trace : Trace)
    (addrs : List Addr) (runs : Runs (format i addr params) trace (count,addrs))
    (all : count = i + params.length) :
    ∃ final, after space trace = some final ∧ Frame addr (total params) space final ∧
      Laid final i addr params addrs := by
  induction params generalizing space i addr trace addrs count with
  | nil =>
    obtain ⟨rfl,same⟩ := (runs_pure _ _ _).mp runs
    obtain ⟨_,rfl⟩ := Prod.mk.inj same
    exact ⟨space,rfl,fun _ _ => rfl,rfl,by simp⟩
  | cons p params ih =>
    obtain ⟨before,formatted,later,rfl,region,rest⟩ := (runs_bind _ _ _ _).mp runs
    cases formatted with
    | false =>
      obtain ⟨_,same⟩ := (runs_pure _ _ _).mp rest
      have stopped : count = i := (Prod.mk.inj same).1
      simp only [List.length_cons] at all
      omega
    | true =>
      obtain ⟨next,stepped,frame,holds⟩ := formatRegion_holds space i addr p before region
      obtain ⟨middle,⟨count',addrs'⟩,last,rfl,inner,ended⟩ := (runs_bind _ _ _ _).mp rest
      obtain ⟨rfl,same⟩ := (runs_pure _ _ _).mp ended
      obtain ⟨rfl,rfl⟩ := Prod.mk.inj same
      obtain ⟨final,stepped',frame',laid⟩ := ih next (i+1) (addr+p.size) count middle addrs' inner
        (by simp only [List.length_cons] at all; omega)
      refine ⟨final,?_,?_,laid_cons final i addr p params addrs' (holds.congr ?_) laid⟩
      · rw [List.append_nil,after_append,stepped]
        exact stepped'
      · intro address outside
        simp only [total] at outside
        rw [frame' address (by omega),frame address (by omega)]
      · intro offset inside
        exact frame' _ (.inl (by omega))

theorem regions_apart (params : List (Param page)) (j k : Nat) (p : Param page) (order : j < k)
    (there : params[j]? = some p) : total (params.take j) + p.size ≤ total (params.take k) := by
  have taken : (params.take k)[j]? = some p := by rw [List.getElem?_take_of_lt order,there]
  have bound := total_take_le (params.take k) j p taken
  rwa [List.take_take,Nat.min_eq_left (Nat.le_of_lt order)] at bound

/-- The first loop, with `room` steps left before the index overflows. -/
theorem sumSizes_eq (params : List (Param page)) (i totalSize room : Nat) (start : totalSize < 2^64)
    (left : i + (room+1) = 2^31) :
    (2^64 ≤ totalSize + total (params.take (room+1)) → ∃ j, sumSizes i totalSize params = .wraps j) ∧
    (totalSize + total (params.take (room+1)) < 2^64 → room < params.length →
      sumSizes i totalSize params = .undefined) ∧
    (totalSize + total (params.take (room+1)) < 2^64 → params.length ≤ room →
      sumSizes i totalSize params = .total (totalSize + total params)) := by
  induction params generalizing i totalSize room with
  | nil =>
    refine ⟨?_,?_,fun _ _ => rfl⟩
    · intro exceeds
      simp only [List.take_nil,total] at exceeds
      omega
    · intro _ long
      exact absurd long (Nat.not_lt_zero room)
  | cons p params ih =>
    have fits := p.fits
    simp only [List.take_succ_cons,total,List.length_cons]
    by_cases wraps : 2^64 ≤ totalSize + p.size
    · have sum : (totalSize + p.size) % 2^64 < totalSize := by omega
      have found : sumSizes i totalSize (p :: params) = .wraps i := by rw [sumSizes,if_pos sum]
      exact ⟨fun _ => ⟨i,found⟩,fun below => absurd below (by omega),fun below => absurd below (by omega)⟩
    · have sum : (totalSize + p.size) % 2^64 = totalSize + p.size := Nat.mod_eq_of_lt (by omega)
      cases room with
      | zero =>
        have found : sumSizes i totalSize (p :: params) = .undefined := by
          rw [sumSizes,sum,if_neg (by omega),if_pos left]
        refine ⟨?_,fun _ _ => found,?_⟩
        · intro exceeds
          simp only [List.take_zero,total] at exceeds
          omega
        · intro _ short
          omega
      | succ room =>
        have found : sumSizes i totalSize (p :: params) = sumSizes (i+1) (totalSize + p.size) params := by
          rw [sumSizes,sum,if_neg (by omega),if_neg (by omega)]
        obtain ⟨exceeds,long,short⟩ := ih (i+1) (totalSize + p.size) room (by omega) (by omega)
        rw [found,← Nat.add_assoc,← Nat.add_assoc]
        exact ⟨exceeds,fun below more => long below (by omega),fun below less => short below (by omega)⟩

/-- The regions are laid out in one reservation at `base`. -/
structure LaidOut (space final : Space) (params : List (Param page)) (trace : Trace) (addrs : List Addr)
    (base : Nat) : Prop where
  ran : after space trace = some final
  reserved : params ≠ [] → ∃ there, ⟨.reserve (total params),some ⟨base,there⟩⟩ ∈ trace
  frame : Frame base (total params) space final
  laid : Laid final 0 base params addrs
  inside : ∀ k p, params[k]? = some p → total (params.take k) + p.size ≤ total params
  apart : ∀ j k p, j < k → params[j]? = some p → total (params.take j) + p.size ≤ total (params.take k)
  checked : ∀ k p, params[k]? = some p → p.nopage = false → p.prot.write = true →
    dataCheck final (base + total (params.take k)) p.size (ch k) = .ok none

theorem laidOut (space final : Space) (params : List (Param page)) (trace : Trace) (addrs : List Addr)
    (base : Nat) (ran : after space trace = some final)
    (reserved : params ≠ [] → ∃ there, ⟨.reserve (total params),some ⟨base,there⟩⟩ ∈ trace)
    (frame : Frame base (total params) space final) (laid : Laid final 0 base params addrs) :
    LaidOut space final params trace addrs base := by
  refine ⟨ran,reserved,frame,laid,total_take_le params,regions_apart params,?_⟩
  intro k p there nopage writable
  have holds := (laid.region k p there).2
  rw [Nat.zero_add] at holds
  exact holds.dataCheck nopage writable

/-- What the function promises about a run from some memory. -/
def Formatted (space : Space) (params : List (Param page)) (trace : Trace) : Outcome → Prop
  | .undefined => False
  | .returned value addrs =>
    (value = params.length → ∃ base final, LaidOut space final params trace addrs base) ∧
    (2^64 ≤ total params → value = 0 ∧ trace = [])

theorem formatted_total (space : Space) (params : List (Param page)) (trace : Trace) (outcome : Outcome)
    (summed : sumSizes 0 0 params = .total (total params)) (fits : total params < 2^64)
    (runs : Runs (mremapMmapAnon params) trace outcome) : Formatted space params trace outcome := by
  rw [mremapMmapAnon,summed] at runs
  obtain ⟨reserved,_,rfl,afterReserve⟩ := (runs_request_bind _ _ _ _).mp runs
  cases reserved with
  | none =>
    obtain ⟨rfl,rfl⟩ := (runs_pure _ _ _).mp afterReserve
    refine ⟨?_,fun exceeds => absurd exceeds (by omega)⟩
    intro none
    -- only a count of 0 is returned when nothing could be reserved
    obtain rfl := List.eq_nil_of_length_eq_zero none.symm
    exact ⟨0,space,laidOut space space [] _ _ 0 rfl (by simp) (fun _ _ => rfl) ⟨rfl,by simp⟩⟩
  | some addr =>
    obtain ⟨middle,⟨count,addrs⟩,last,rfl,formatting,ended⟩ := (runs_bind _ _ _ _).mp afterReserve
    obtain ⟨rfl,rfl⟩ := (runs_pure _ _ _).mp ended
    refine ⟨?_,fun exceeds => absurd exceeds (by omega)⟩
    intro all
    let fresh := fill space addr.val (total params) (some ⟨.none,true,0⟩)
    obtain ⟨final,ran,frame,laid⟩ := format_laid params fresh 0 addr.val count middle addrs formatting
      (by omega)
    refine ⟨addr.val,final,laidOut space final params _ addrs addr.val ?_ ?_ ?_ laid⟩
    · rw [List.append_nil]
      exact ran
    · exact fun _ => ⟨addr.property,List.mem_cons_self⟩
    · intro address outside
      rw [frame address outside]
      exact fill_outside _ _ _ _ _ outside

/-- The index is too small for the count; up to that the function does what it should. -/
theorem formatted_iff (space : Space) (params : List (Param page)) (trace : Trace) (outcome : Outcome)
    (runs : Runs (mremapMmapAnon params) trace outcome) :
    Formatted space params trace outcome ↔
      params.length < 2^31 ∨ 2^64 ≤ total (params.take (2^31)) := by
  obtain ⟨exceeds,long,short⟩ := sumSizes_eq params 0 0 (2^31-1) (by decide) (by decide)
  rw [Nat.zero_add,Nat.sub_add_cancel (by decide)] at exceeds long short
  by_cases wraps : 2^64 ≤ total (params.take (2^31))
  · obtain ⟨j,summed⟩ := exceeds wraps
    rw [mremapMmapAnon,summed] at runs
    obtain ⟨rfl,rfl⟩ := (runs_pure _ _ _).mp runs
    refine ⟨fun _ => .inr wraps,fun _ => ⟨?_,fun _ => ⟨rfl,rfl⟩⟩⟩
    intro none
    obtain rfl := List.eq_nil_of_length_eq_zero none.symm
    simp only [List.take_nil,total] at wraps
    omega
  · by_cases many : params.length < 2^31
    · have whole : total (params.take (2^31)) = total params := by
        rw [List.take_of_length_le (Nat.le_of_lt many)]
      have summed := short (by omega) (by omega)
      rw [Nat.zero_add] at summed
      exact ⟨fun _ => .inl many,fun _ => formatted_total space params trace outcome summed (by omega) runs⟩
    · have summed := long (by omega) (by omega)
      rw [mremapMmapAnon,summed] at runs
      obtain ⟨_,rfl⟩ := (runs_pure _ _ _).mp runs
      exact ⟨False.elim,fun either => (either.elim many wraps).elim⟩

def writable : Param 0x1000 :=
  ⟨0x2000,false,false,⟨true,true,false⟩,by decide,by decide,by decide⟩

def hole : Param 0x1000 := ⟨0x1000,true,false,.none,by decide,by decide,by decide⟩

theorem formatted_iff_two :
    Formatted (fun _ => none) [writable,hole]
      [⟨.reserve 0x3000,some ⟨0x400000,by decide⟩⟩,
        ⟨.mmapFixed 0x400000 0x2000 ⟨true,true,false⟩ false,true⟩,⟨.memset 0x400000 0x30 0x2000,()⟩,
        ⟨.munmap 0x402000 0x1000,true⟩]
      (.returned 2 [.at 0x400000,.at 0x402000]) := by
  refine (formatted_iff _ _ _ _ ?_).mpr (.inl (by decide))
  exact .call _ _ _ _ _ (.call _ _ _ _ _ (.call _ _ _ _ _ (.call _ _ _ _ _ (.ret _))))

def wholeSpace : Param 0x1000 :=
  ⟨2^64-0x1000,true,false,.none,by decide,by decide,by decide⟩

/-- The sum only overflows behind what the index can reach. -/
def tooMany : List (Param 0x1000) := List.replicate (2^31) hole ++ [wholeSpace]

theorem total_append (first second : List (Param page)) :
    total (first ++ second) = total first + total second := by
  induction first with
  | nil => rw [List.nil_append,total,Nat.zero_add]
  | cons p first ih => rw [List.cons_append,total,total,ih,Nat.add_assoc]

theorem total_replicate (count : Nat) (p : Param page) : total (List.replicate count p) = count * p.size := by
  induction count with
  | zero => rw [Nat.zero_mul]; rfl
  | succ count ih => rw [List.replicate_succ,total,ih,Nat.succ_mul,Nat.add_comm]

theorem tooMany_undefined :
    2^64 ≤ total tooMany ∧ Runs (mremapMmapAnon tooMany) [] .undefined ∧
      ¬ Formatted (fun _ => none) tooMany [] .undefined := by
  have length : (List.replicate (2^31) hole).length = 2^31 := List.length_replicate
  have taken : tooMany.take (2^31) = List.replicate (2^31) hole := List.take_left' length
  have few : total (tooMany.take (2^31)) = 2^31 * 0x1000 := by rw [taken,total_replicate]; rfl
  have all : total tooMany = 2^31 * 0x1000 + (2^64 - 0x1000 + 0) := by
    rw [tooMany,total_append,total_replicate]; rfl
  have long : 2^31 - 1 < tooMany.length := by
    rw [tooMany,List.length_append,length]
    exact Nat.lt_add_right _ (by decide)
  have summed := (sumSizes_eq tooMany 0 0 (2^31-1) (by decide) (by decide)).2.1
  rw [Nat.zero_add,Nat.sub_add_cancel (by decide),few] at summed
  refine ⟨by rw [all]; decide,?_,id⟩
  rw [mremapMmapAnon,summed (by decide) long]
  exact .ret _

end Ostest.TestMck.MremapMmapAnon
