import Mathlib.Data.BitVec
import Mathlib.Logic.Function.Basic
import Ostest.Lib.Calls
import Ostest.Lib.Memory

/-! test_mck.c: the temporary files of the tests, and what the calls that make and
delete them leave behind. -/
namespace Ostest.TestMck.TempFile
open Lib.Calls Lib.Memory

abbrev Byte := BitVec 8

inductive Request where
  | asprintf (pre : String)
  | mkstemp (template : String)
  | lseek (fd offset : Nat)
  | write (fd : Nat) (bytes : List Byte)
  | fsync (fd : Nat)
  | close (fd : Nat)
  | unlink (path : String)
  | free (path : String)

/-- `none` and `false` are failures. mkstemp gives a descriptor and the path that
the template became, write the number of bytes. -/
abbrev Request.Answer : Request → Type
  | .asprintf _ => Bool
  | .mkstemp _ => Option (Nat × String)
  | .lseek _ _ => Bool
  | .write _ bytes => Option (Fin (bytes.length+1))
  | .fsync _ => Bool
  | .close _ => Bool
  | .unlink _ => Bool
  | .free _ => Unit

abbrev Code := Prog Request Request.Answer

abbrev Trace := List (Event Request.Answer)

def ask (asked : Request) : Code asked.Answer := request asked

/-- The sizes whose last byte lseek can be asked for. -/
abbrev Size := {size : Nat // 1 ≤ size ∧ size < 2^63}

/-- A result of lseek in an `int`. -/
def int (offset : Nat) : Int := (BitVec.ofNat 32 offset).toInt

def createTempFile (pre : String) (size : Size) : Code (Option String) := do
  match ← ask (.asprintf pre) with
  | false => return none
  | true =>
    let template := pre ++ "-XXXXXX"
    match ← ask (.mkstemp template) with
    | none =>
      ask (.free template)
      return none
    | some (fd,path) =>
      let moved ← ask (.lseek fd (size.val-1))
      let state := if moved then int (size.val-1) else -1
      if state = -1 then
        let _ ← ask (.close fd)
        let _ ← ask (.unlink path)
        ask (.free path)
        return none
      let _ ← ask (.write fd [0x5A])
      let _ ← ask (.fsync fd)
      let _ ← ask (.close fd)
      return some path

def deleteTempFile : Option String → Code Unit
  | none => return
  | some path => do
    let _ ← ask (.unlink path)
    ask (.free path)

/-! What is there after some calls. -/

structure File where
  length : Nat
  byte : Nat → Byte

structure World where
  file : String → Option File
  fd : Nat → Option (String × Nat)

def World.empty : World := ⟨fun _ => none,fun _ => none⟩

def File.write (file : File) (position : Nat) (bytes : List Byte) : File :=
  if bytes = [] then file
  else ⟨max file.length (position + bytes.length),store file.byte position bytes⟩

/-- close gives the descriptor back whatever it returns. -/
def World.step (world : World) : Event Request.Answer → World
  | ⟨.mkstemp _,some (fd,path)⟩ =>
    ⟨Function.update world.file path (some ⟨0,fun _ => 0⟩),Function.update world.fd fd (some (path,0))⟩
  | ⟨.lseek fd offset,true⟩ =>
    {world with fd := Function.update world.fd fd ((world.fd fd).map (fun (path,_) => (path,offset)))}
  | ⟨.write fd bytes,some count⟩ =>
    match world.fd fd with
    | none => world
    | some (path,position) =>
      ⟨Function.update world.file path ((world.file path).map (·.write position (bytes.take count))),
        Function.update world.fd fd (some (path,position + count))⟩
  | ⟨.close fd,_⟩ => {world with fd := Function.update world.fd fd none}
  | ⟨.unlink path,true⟩ => {world with file := Function.update world.file path none}
  | _ => world

def World.after (world : World) (trace : Trace) : World := trace.foldl World.step world

def Failed : Event Request.Answer → Prop
  | ⟨.asprintf _,made⟩ => made = false
  | ⟨.mkstemp _,made⟩ => made = none
  | ⟨.lseek _ _,moved⟩ => moved = false
  | ⟨.write _ bytes,count⟩ => ∀ written, count = some written → written.val < bytes.length
  | ⟨.fsync _,done⟩ => done = false
  | ⟨.close _,done⟩ => done = false
  | ⟨.unlink _,done⟩ => done = false
  | ⟨.free _,_⟩ => False

/-- What the function promises about a run. -/
def Kept (size : Nat) (trace : Trace) : Option String → Prop
  | none => World.empty.after trace = World.empty ∧ ∃ event ∈ trace, Failed event
  | some path => (∀ fd, (World.empty.after trace).fd fd = none) ∧
    ∃ file, (World.empty.after trace).file path = some file ∧ file.length = size ∧
      file.byte (size-1) = 0x5A

/-- Every way a call can go. -/
inductive Goes (pre : String) (size : Nat) : Trace → Option String → Prop
  | noPath : Goes pre size [⟨.asprintf pre,false⟩] none
  | noFile (template) : Goes pre size
      [⟨.asprintf pre,true⟩,⟨.mkstemp template,none⟩,⟨.free template,()⟩] none
  | gaveUp (template fd path moved closed unlinked) (state : moved = true → int (size-1) = -1) :
      Goes pre size [⟨.asprintf pre,true⟩,⟨.mkstemp template,some (fd,path)⟩,⟨.lseek fd (size-1),moved⟩,
        ⟨.close fd,closed⟩,⟨.unlink path,unlinked⟩,⟨.free path,()⟩] none
  | made (template fd path written synced closed) (state : int (size-1) ≠ -1) :
      Goes pre size [⟨.asprintf pre,true⟩,⟨.mkstemp template,some (fd,path)⟩,⟨.lseek fd (size-1),true⟩,
        ⟨.write fd [0x5A],written⟩,⟨.fsync fd,synced⟩,⟨.close fd,closed⟩] (some path)

theorem goes (pre : String) (size : Size) (trace : Trace) (result : Option String)
    (runs : Runs (createTempFile pre size) trace result) : Goes pre size.val trace result := by
  obtain ⟨printed,_,rfl,afterPath⟩ := (runs_request_bind _ _ _ _).mp runs
  cases printed with
  | false =>
    obtain ⟨rfl,rfl⟩ := (runs_pure _ _ _).mp afterPath
    exact .noPath
  | true =>
    obtain ⟨opened,_,rfl,afterOpen⟩ := (runs_request_bind _ _ _ _).mp afterPath
    cases opened with
    | none =>
      obtain ⟨_,_,rfl,afterFree⟩ := (runs_request_bind _ _ _ _).mp afterOpen
      obtain ⟨rfl,rfl⟩ := (runs_pure _ _ _).mp afterFree
      exact .noFile _
    | some created =>
      obtain ⟨fd,path⟩ := created
      obtain ⟨moved,_,rfl,afterSeek⟩ := (runs_request_bind _ _ _ _).mp afterOpen
      dsimp only at afterSeek
      by_cases state : (if moved then int (size.val-1) else -1) = -1
      · rw [if_pos state] at afterSeek
        obtain ⟨closed,_,rfl,afterClose⟩ := (runs_request_bind _ _ _ _).mp afterSeek
        obtain ⟨unlinked,_,rfl,afterUnlink⟩ := (runs_request_bind _ _ _ _).mp afterClose
        obtain ⟨_,_,rfl,afterFree⟩ := (runs_request_bind _ _ _ _).mp afterUnlink
        obtain ⟨rfl,rfl⟩ := (runs_pure _ _ _).mp afterFree
        refine .gaveUp _ fd path moved closed unlinked ?_
        intro success
        rwa [if_pos success] at state
      · rw [if_neg state] at afterSeek
        obtain ⟨written,_,rfl,afterWrite⟩ := (runs_request_bind _ _ _ _).mp afterSeek
        obtain ⟨synced,_,rfl,afterSync⟩ := (runs_request_bind _ _ _ _).mp afterWrite
        obtain ⟨closed,_,rfl,afterClose⟩ := (runs_request_bind _ _ _ _).mp afterSync
        obtain ⟨rfl,rfl⟩ := (runs_pure _ _ _).mp afterClose
        cases moved with
        | false => exact absurd (if_neg Bool.false_ne_true) state
        | true => exact .made _ fd path written synced closed state

theorem int_eq_iff (size : Nat) (positive : 1 ≤ size) : int (size-1) = -1 ↔ size % 2^32 = 0 := by
  rw [int,BitVec.toInt_eq_toNat_cond,BitVec.toNat_ofNat]
  split <;> omega

theorem after_gaveUp (pre template path : String) (fd offset : Nat) (moved closed unlinked : Bool) :
    World.empty.after [⟨.asprintf pre,true⟩,⟨.mkstemp template,some (fd,path)⟩,⟨.lseek fd offset,moved⟩,
      ⟨.close fd,closed⟩,⟨.unlink path,unlinked⟩,⟨.free path,()⟩] = World.empty ↔ unlinked = true := by
  cases moved <;> cases unlinked <;> simp [World.after,World.step,World.empty]

theorem after_made (pre template path : String) (fd offset : Nat) (written : Option (Fin 2))
    (synced closed : Bool) :
    World.empty.after [⟨.asprintf pre,true⟩,⟨.mkstemp template,some (fd,path)⟩,⟨.lseek fd offset,true⟩,
      ⟨.write fd [0x5A],written⟩,⟨.fsync fd,synced⟩,⟨.close fd,closed⟩] =
      ⟨Function.update (fun _ => none) path
        (some (if written = some 1 then ⟨offset+1,store (fun _ => 0) offset [0x5A]⟩ else ⟨0,fun _ => 0⟩)),
        fun _ => none⟩ := by
  match written with
  | none => simp [World.after,World.step,World.empty]
  | some 0 => simp [World.after,World.step,World.empty,File.write]
  | some 1 => simp [World.after,World.step,World.empty,File.write]

theorem kept_made_iff (pre template path : String) (size fd : Nat) (written : Option (Fin 2))
    (synced closed : Bool) (positive : 1 ≤ size) :
    Kept size [⟨.asprintf pre,true⟩,⟨.mkstemp template,some (fd,path)⟩,⟨.lseek fd (size-1),true⟩,
      ⟨.write fd [0x5A],written⟩,⟨.fsync fd,synced⟩,⟨.close fd,closed⟩] (some path) ↔ written = some 1 := by
  simp only [Kept,after_made,Function.update_self,Option.some.injEq,exists_eq_left',implies_true,true_and]
  by_cases whole : written = some 1
  · have last := store_inside (fun _ => (0 : Byte)) (size-1) [0x5A] 0 (by decide)
    rw [if_pos whole]
    exact ⟨fun _ => whole,fun _ => ⟨Nat.sub_add_cancel positive,last⟩⟩
  · rw [if_neg whole]
    refine ⟨?_,fun same => absurd same whole⟩
    rintro ⟨length,_⟩
    exact absurd (positive.trans_eq length.symm) (Nat.not_succ_le_zero 0)

/-- The size goes through an `int`, and the results of write and unlink are not
looked at. -/
theorem temp_file_kept_iff (pre : String) (size : Size) (trace : Trace) (result : Option String)
    (runs : Runs (createTempFile pre size) trace result) :
    Kept size trace result ↔
      (∀ path, ⟨.unlink path,false⟩ ∉ trace) ∧
      ∀ fd, ⟨.lseek fd (size.val-1),true⟩ ∈ trace →
        (size.val % 2^32 = 0 → ⟨.close fd,false⟩ ∈ trace) ∧
        (size.val % 2^32 ≠ 0 → ⟨.write fd [0x5A],some 1⟩ ∈ trace) := by
  obtain ⟨size,positive,fits⟩ := size
  have wraps := int_eq_iff size positive
  cases goes pre _ trace result runs with
  | noPath => simp [Kept,Failed,World.after,World.step]
  | noFile template => simp [Kept,Failed,World.after,World.step]
  | gaveUp template fd path moved closed unlinked state =>
    rw [Kept,after_gaveUp]
    cases moved with
    | false => cases unlinked <;> simp [Failed]
    | true =>
      -- nothing failed before the function gave up; only close can have
      have zero := wraps.mp (state rfl)
      have here : ∀ fd', (⟨.lseek fd' (size-1),true⟩ : Event Request.Answer) ∈
          [⟨.asprintf pre,true⟩,⟨.mkstemp template,some (fd,path)⟩,⟨.lseek fd (size-1),true⟩,
            ⟨.close fd,closed⟩,⟨.unlink path,unlinked⟩,⟨.free path,()⟩] ↔ fd' = fd := by
        simp
      simp only [here,forall_eq,zero,ne_eq,not_true,false_implies,and_true,true_implies]
      cases unlinked <;> cases closed <;> simp [Failed]
  | made template fd path written synced closed state =>
    have whole : size % 2^32 ≠ 0 := fun zero => state (wraps.mpr zero)
    have here : ∀ fd', (⟨.lseek fd' (size-1),true⟩ : Event Request.Answer) ∈
        [⟨.asprintf pre,true⟩,⟨.mkstemp template,some (fd,path)⟩,⟨.lseek fd (size-1),true⟩,
          ⟨.write fd [0x5A],written⟩,⟨.fsync fd,synced⟩,⟨.close fd,closed⟩] ↔ fd' = fd := by
      simp
    rw [kept_made_iff _ _ _ _ _ _ _ _ positive]
    simp only [here,forall_eq,whole,false_implies,true_and,ne_eq,not_false_iff,true_implies]
    simp [eq_comm]

def oneByte : Trace :=
  [⟨.asprintf "t",true⟩,⟨.mkstemp "t-XXXXXX",some (3,"t-abcdef")⟩,⟨.lseek 3 0,true⟩,
    ⟨.write 3 [0x5A],some 1⟩,⟨.fsync 3,true⟩,⟨.close 3,true⟩]

theorem temp_file_kept_iff_byte : Kept 1 oneByte (some "t-abcdef") := by
  refine (temp_file_kept_iff "t" ⟨1,by decide⟩ oneByte (some "t-abcdef") ?_).mpr ?_
  · exact .call _ _ _ _ _ (.call _ _ _ _ _ (.call _ _ _ _ _ (.call _ _ _ _ _ (.call _ _ _ _ _
      (.call _ _ _ _ _ (.ret _))))))
  · simp [oneByte]

/-- Every call of this run succeeds. -/
def fourGiga : Trace :=
  [⟨.asprintf "t",true⟩,⟨.mkstemp "t-XXXXXX",some (3,"t-abcdef")⟩,⟨.lseek 3 (2^32-1),true⟩,
    ⟨.close 3,true⟩,⟨.unlink "t-abcdef",true⟩,⟨.free "t-abcdef",()⟩]

theorem temp_file_four_giga :
    Runs (createTempFile "t" ⟨2^32,by decide⟩) fourGiga none ∧ ¬ Kept (2^32) fourGiga none := by
  refine ⟨?_,?_⟩
  · exact .call _ _ _ _ _ (.call _ _ _ _ _ (.call _ _ _ _ _ (.call _ _ _ _ _ (.call _ _ _ _ _
      (.call _ _ _ _ _ (.ret _))))))
  · rintro ⟨_,failed⟩
    simp [fourGiga,Failed] at failed

/-- A test that makes a file and deletes it leaves nothing behind if unlink does
what it is asked. -/
theorem delete_leaves_nothing (pre : String) (size : Size) (trace : Trace)
    (runs : Runs (createTempFile pre size >>= deleteTempFile) trace ())
    (unlinks : ∀ path, ⟨.unlink path,false⟩ ∉ trace) : World.empty.after trace = World.empty := by
  obtain ⟨first,result,second,rfl,created,deleted⟩ := (runs_bind _ _ _ _).mp runs
  rw [World.after,List.foldl_append]
  cases goes pre _ first result created with
  | noPath =>
    obtain ⟨rfl,_⟩ := (runs_pure _ _ _).mp deleted
    simp [World.step]
  | noFile template =>
    obtain ⟨rfl,_⟩ := (runs_pure _ _ _).mp deleted
    simp [World.step]
  | gaveUp template fd path moved closed unlinked state =>
    obtain ⟨rfl,_⟩ := (runs_pure _ _ _).mp deleted
    refine (after_gaveUp pre template path fd _ moved closed unlinked).mpr ?_
    simpa using unlinks path
  | made template fd path written synced closed state =>
    obtain ⟨unlinked,_,rfl,afterUnlink⟩ := (runs_request_bind _ _ _ _).mp deleted
    obtain ⟨_,_,rfl,afterFree⟩ := (runs_call _ _ _ _).mp afterUnlink
    cases afterFree
    have removed : unlinked = true := by simpa using unlinks path
    have there := after_made pre template path fd (size.val-1) written synced closed
    rw [World.after] at there
    rw [there,removed]
    simp [World.step,World.empty]

end Ostest.TestMck.TempFile
