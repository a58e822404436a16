import Ostest.TestMck.Ptrace

/-! arch_test_ptrace.c: what its functions make of the registers of the child. -/
namespace Ostest.TestMck.Ptrace
open Lib.Calls

abbrev Trace := List (Event Request.Answer)

/-- The registers of the child, set by set. -/
abbrev Child := (regset : Regset) → regset.Content

/-- A field that ends at byte `stop`, after a transfer of `len` bytes. Transfers end
between two fields. -/
def upTo {α : Type} (len stop : Nat) (new old : α) : α := if stop ≤ len then new else old

def DbgReg.transfer (len : Nat) (new old : DbgReg) : DbgReg where
  addr := upTo len 8 new.addr old.addr
  ctrl := upTo len 12 new.ctrl old.ctrl
  pad := upTo len 16 new.pad old.pad

/-- A register set after a transfer of the first `len` bytes of `new`. -/
def Regset.transfer : (regset : Regset) → (len : Nat) → (new old : regset.Content) → regset.Content
  | .prstatus, len, new, old => {
      regs := fun i => upTo len (8*i+8) (new.regs i) (old.regs i)
      sp := upTo len 256 new.sp old.sp
      pc := upTo len 264 new.pc old.pc
      pstate := upTo len 272 new.pstate old.pstate }
  | .prfpreg, len, new, old => {
      vregs := fun i => upTo len (16*i+16) (new.vregs i) (old.vregs i)
      fpsr := upTo len 516 new.fpsr old.fpsr
      fpcr := upTo len 520 new.fpcr old.fpcr
      reserved := fun i => upTo len (524+4*i) (new.reserved i) (old.reserved i) }
  | .armTls, len, new, old => upTo len 8 new old
  | .armHw _, len, new, old => {
      dbgInfo := upTo len 4 new.dbgInfo old.dbgInfo
      pad := upTo len 8 new.pad old.pad
      dbgRegs := fun i => (new.dbgRegs i).transfer (len-(8+16*i)) (old.dbgRegs i) }
  | .armSystemCall, len, new, old => upTo len 4 new old

def effect (child : Child) : Event Request.Answer → Child
  | ⟨.ptrace _ (.setregset regset value len),ret⟩ =>
    if ret = (0 : Int) then Function.update child regset (regset.transfer len value (child regset)) else child
  | _ => child

def after (child : Child) (trace : Trace) : Child := trace.foldl effect child

/-- A read may leave out the debug slots that the kernel does not report. -/
def Regset.Reads : (regset : Regset) → (held got : regset.Content) → Prop
  | .armHw _, held, got => got.dbgInfo = held.dbgInfo ∧ got.pad = held.pad ∧
      ∀ i : Fin 16, i.val < held.numReg → got.dbgRegs i = held.dbgRegs i
  | .prstatus, held, got | .prfpreg, held, got | .armTls, held, got | .armSystemCall, held, got => got = held

def Answered (doubted : List Regset) (child : Child) : Event Request.Answer → Prop
  | ⟨.ptrace _ (.getregset regset),(ret,value)⟩ =>
    ret = 0 → regset ∉ doubted → regset.Reads (child regset) value
  | _ => True

def written : Event Request.Answer → List Regset
  | ⟨.ptrace _ (.setregset regset _ _),ret⟩ => if ret = (0 : Int) then [regset] else []
  | _ => []

/-- A successful read hands out the registers as they are. What a register set is
read back as, after it has been written, is only fixed for a kernel without doubt. -/
def Faithful (doubt : Bool) : (doubted : List Regset) → Child → Trace → Prop
  | _, _, [] => True
  | doubted, child, event :: rest => Answered doubted child event ∧
      Faithful doubt (if doubt then written event ++ doubted else doubted) (effect child event) rest

theorem upTo_of_le {α : Type} (len stop : Nat) (new old : α) (inside : stop ≤ len) :
    upTo len stop new old = new := if_pos inside

theorem DbgReg.transfer_whole (len : Nat) (new old : DbgReg) (whole : 16 ≤ len) :
    new.transfer len old = new := by
  rw [DbgReg.transfer,upTo_of_le _ _ _ _ (by omega),upTo_of_le _ _ _ _ (by omega),upTo_of_le _ _ _ _ whole]

theorem transfer_size (regset : Regset) (new old : regset.Content) :
    regset.transfer regset.size new old = new := by
  cases regset with
  | prstatus =>
    have regs : (fun i : Fin 31 => upTo 272 (8*i.val+8) (new.regs i) (old.regs i)) = new.regs :=
      funext fun i => upTo_of_le _ _ _ _ (by omega)
    exact congrArg (fun regs => UserPtRegs.mk regs new.sp new.pc new.pstate) regs
  | prfpreg =>
    have vregs : (fun i : Fin 32 => upTo 528 (16*i.val+16) (new.vregs i) (old.vregs i)) = new.vregs :=
      funext fun i => upTo_of_le _ _ _ _ (by omega)
    have reserved : (fun i : Fin 2 => upTo 528 (524+4*i.val) (new.reserved i) (old.reserved i)) = new.reserved :=
      funext fun i => upTo_of_le _ _ _ _ (by omega)
    exact congrArg₂ (fun vregs reserved => UserFpsimdState.mk vregs new.fpsr new.fpcr reserved) vregs reserved
  | armTls => rfl
  | armHw kind =>
    have dbgRegs : (fun i : Fin 16 => (new.dbgRegs i).transfer (264-(8+16*i.val)) (old.dbgRegs i)) = new.dbgRegs :=
      funext fun i => DbgReg.transfer_whole _ _ _ (by omega)
    exact congrArg (fun dbgRegs => HwDebug.mk new.dbgInfo new.pad dbgRegs) dbgRegs
  | armSystemCall => rfl

theorem transfer_slots (kind : HwKind) (count : Nat) (new old : HwDebug) :
    (Regset.armHw kind).transfer (hwDebugLen count) new old =
      {new with dbgRegs := fun i => if i.val < count then new.dbgRegs i else old.dbgRegs i} := by
  have slots : (fun i : Fin 16 => (new.dbgRegs i).transfer (hwDebugLen count-(8+16*i.val)) (old.dbgRegs i)) =
      fun i => if i.val < count then new.dbgRegs i else old.dbgRegs i := by
    funext i
    simp only [hwDebugLen]
    split
    · exact DbgReg.transfer_whole _ _ _ (by omega)
    · have nothing : 8+16*count-(8+16*i.val) = 0 := by omega
      rw [nothing]
      rfl
  have header : 8 ≤ hwDebugLen count := by simp [hwDebugLen]
  rw [Regset.transfer,slots,upTo_of_le _ _ _ _ (by omega),upTo_of_le _ _ _ _ header]

/-! `setregset_check`. -/

/-- The successful write of a value, its read-back, and the write of the first value. -/
def exercised (cpid : Pid) (regset : Regset) (magic org : regset.Content) : Trace :=
  [⟨.ptrace cpid (.getregset regset),((0 : Int),org)⟩,
    ⟨.ptrace cpid (.setregset regset magic regset.size),(0 : Int)⟩,
    ⟨.ptrace cpid (.getregset regset),((0 : Int),magic)⟩,
    ⟨.ptrace cpid (.setregset regset org regset.size),(0 : Int)⟩]

inductive Stops (cpid : Pid) (regset : Regset) (magic : regset.Content) : Trace → Prop
  | notRead (ret : Int) (value : regset.Content) (failed : ret ≠ 0) :
      Stops cpid regset magic [⟨.ptrace cpid (.getregset regset),(ret,value)⟩]
  | notWritten (org : regset.Content) (ret : Int) (failed : ret ≠ 0) :
      Stops cpid regset magic [⟨.ptrace cpid (.getregset regset),((0 : Int),org)⟩,
        ⟨.ptrace cpid (.setregset regset magic regset.size),ret⟩]
  | misread (org value : regset.Content) (ret : Int) (wrong : ret ≠ 0 ∨ value ≠ magic) :
      Stops cpid regset magic [⟨.ptrace cpid (.getregset regset),((0 : Int),org)⟩,
        ⟨.ptrace cpid (.setregset regset magic regset.size),(0 : Int)⟩,
        ⟨.ptrace cpid (.getregset regset),(ret,value)⟩]
  | notRestored (org : regset.Content) (ret : Int) (failed : ret ≠ 0) :
      Stops cpid regset magic [⟨.ptrace cpid (.getregset regset),((0 : Int),org)⟩,
        ⟨.ptrace cpid (.setregset regset magic regset.size),(0 : Int)⟩,
        ⟨.ptrace cpid (.getregset regset),((0 : Int),magic)⟩,
        ⟨.ptrace cpid (.setregset regset org regset.size),ret⟩]

theorem runs_guard {α : Type} (ret : Int) (early : α) (rest : Code α) (trace : Trace) (result : α)
    (runs : Runs (if ret ≠ 0 then return early else rest) trace result) :
    (ret ≠ 0 ∧ trace = [] ∧ result = early) ∨ (ret = 0 ∧ Runs rest trace result) := by
  simpa only [not_not] using runs_check _ _ _ _ _ runs

theorem exercise_cases {α : Type} (cpid : Pid) (regset : Regset) [DecidableEq regset.Content] (magic : regset.Content)
    (rest : Code (Option α)) (trace : Trace) (result : Option α)
    (runs : Runs (do
      let (failed,org) ← ptrace cpid (.getregset regset)
      if failed ≠ 0 then return none
      if (← setregset cpid regset magic) ≠ 0 then return none
      let (failed,tmp) ← ptrace cpid (.getregset regset)
      if failed ≠ 0 then return none
      if tmp ≠ magic then return none
      if (← setregset cpid regset org) ≠ 0 then return none
      rest) trace result) :
    (result = none ∧ Stops cpid regset magic trace) ∨
      ∃ org later, trace = exercised cpid regset magic org ++ later ∧ Runs rest later result := by
  obtain ⟨⟨ret,org⟩,_,rfl,read⟩ := (runs_request_bind _ _ _ _).mp runs
  rcases runs_guard _ _ _ _ _ read with ⟨failed,rfl,rfl⟩ | ⟨rfl,afterRead⟩
  · exact .inl ⟨rfl,.notRead ret org failed⟩
  obtain ⟨set,_,rfl,write⟩ := (runs_request_bind _ _ _ _).mp afterRead
  rcases runs_guard _ _ _ _ _ write with ⟨failed,rfl,rfl⟩ | ⟨rfl,afterWrite⟩
  · exact .inl ⟨rfl,.notWritten org set failed⟩
  obtain ⟨⟨ret,tmp⟩,_,rfl,readBack⟩ := (runs_request_bind _ _ _ _).mp afterWrite
  rcases runs_guard _ _ _ _ _ readBack with ⟨failed,rfl,rfl⟩ | ⟨rfl,afterReadBack⟩
  · exact .inl ⟨rfl,.misread org tmp ret (.inl failed)⟩
  rcases runs_check _ _ _ _ _ afterReadBack with ⟨wrong,rfl,rfl⟩ | ⟨right,afterCheck⟩
  · exact .inl ⟨rfl,.misread org tmp 0 (.inr wrong)⟩
  obtain rfl : tmp = magic := not_not.mp right
  obtain ⟨set,later,rfl,restore⟩ := (runs_request_bind _ _ _ _).mp afterCheck
  rcases runs_guard _ _ _ _ _ restore with ⟨failed,rfl,rfl⟩ | ⟨rfl,afterRestore⟩
  · exact .inl ⟨rfl,.notRestored org set failed⟩
  · exact .inr ⟨org,later,rfl,afterRestore⟩

/-! What the function is to leave behind. -/

section
variable (regset : Regset) (child : Child) (trace : Trace)

def Overwritten : Prop := ∃ cpid value len, ⟨.ptrace cpid (.setregset regset value len),(0 : Int)⟩ ∈ trace

/-- A write of what the register has held before has failed. -/
def RestoreFailed : Prop :=
  ∃ cpid len ret, ret ≠ (0 : Int) ∧ ⟨.ptrace cpid (.setregset regset (child regset) len),ret⟩ ∈ trace

def Restored : Prop :=
  Overwritten regset trace → after child trace regset = child regset ∨ RestoreFailed regset child trace

/-- The value that overwrites the register has been read from it. -/
def Confirmed (magic : regset.Content) : Prop :=
  Overwritten regset trace → ∃ cpid, ⟨.ptrace cpid (.getregset regset),((0 : Int),magic)⟩ ∈ trace

end

/-! Only the calls for a register set matter for it. -/

def about (regset : Regset) : Event Request.Answer → Bool
  | ⟨.ptrace _ (.getregset other),_⟩ => other == regset
  | ⟨.ptrace _ (.setregset other _ _),_⟩ => other == regset
  | _ => false

theorem event_cases (event : Event Request.Answer) :
    (∃ cpid regset value len, ∃ ret : Int, event = ⟨.ptrace cpid (.setregset regset value len),ret⟩) ∨
      (∀ child, effect child event = child) ∧ written event = [] := by
  match event with
  | ⟨.ptrace cpid (.setregset regset value len),ret⟩ => exact .inl ⟨cpid,regset,value,len,ret,rfl⟩
  | ⟨.ptrace _ (.getregset _),_⟩ | ⟨.ptrace _ (.peekdata _),_⟩ | ⟨.ptrace _ (.peektext _),_⟩
  | ⟨.ptrace _ (.pokedata _ _),_⟩ | ⟨.ptrace _ (.poketext _ _),_⟩ | ⟨.ptrace _ .cont,_⟩
  | ⟨.ptrace _ .singlestep,_⟩ | ⟨.ptrace _ .getsiginfo,_⟩ | ⟨.fork,_⟩ | ⟨.wait,_⟩ => exact .inr ⟨fun _ => rfl,rfl⟩

theorem effect_apart (regset : Regset) (child : Child) (event : Event Request.Answer)
    (apart : about regset event = false) : effect child event regset = child regset := by
  rcases event_cases event with ⟨cpid,other,value,len,ret,rfl⟩ | ⟨nothing,_⟩
  · have differ : regset ≠ other := by
      rintro rfl
      simp [about] at apart
    simp only [effect]
    split
    · exact Function.update_of_ne differ _ _
    · rfl
  · rw [nothing]

theorem effect_about (regset : Regset) (child other : Child) (event : Event Request.Answer)
    (same : child regset = other regset) (isAbout : about regset event = true) :
    effect child event regset = effect other event regset := by
  rcases event_cases event with ⟨cpid,target,value,len,ret,rfl⟩ | ⟨nothing,_⟩
  · obtain rfl : target = regset := by simpa [about] using isAbout
    simp only [effect]
    split
    · rw [Function.update_self,Function.update_self,same]
    · exact same
  · rw [nothing,nothing,same]

theorem not_mem_written (regset : Regset) (event : Event Request.Answer) (apart : about regset event = false) :
    regset ∉ written event := by
  rcases event_cases event with ⟨cpid,other,value,len,ret,rfl⟩ | ⟨_,nothing⟩
  · have differ : regset ≠ other := by
      rintro rfl
      simp [about] at apart
    simp only [written]
    split
    · simpa using differ
    · simp
  · simp [nothing]

theorem after_about (regset : Regset) (child other : Child) (trace : Trace) (same : child regset = other regset) :
    after child trace regset = after other (trace.filter (about regset)) regset := by
  induction trace generalizing child other with
  | nil => exact same
  | cons event trace ih =>
    cases isAbout : about regset event with
    | true =>
      rw [List.filter_cons_of_pos isAbout]
      exact ih _ _ (effect_about regset child other event same isAbout)
    | false =>
      rw [List.filter_cons_of_neg (by simp [isAbout])]
      exact ih _ _ ((effect_apart regset child event isAbout).trans same)

theorem first_read (regset : Regset) (doubted : List Regset) (child : Child) (trace rest : Trace) (cpid : Pid)
    (value : regset.Content) (faithful : Faithful true doubted child trace) (trusted : regset ∉ doubted)
    (first : trace.filter (about regset) = ⟨.ptrace cpid (.getregset regset),((0 : Int),value)⟩ :: rest) :
    regset.Reads (child regset) value := by
  induction trace generalizing doubted child with
  | nil => contradiction
  | cons event trace ih =>
    obtain ⟨answered,later⟩ := faithful
    cases isAbout : about regset event with
    | true =>
      rw [List.filter_cons_of_pos isAbout] at first
      obtain ⟨rfl,_⟩ := List.cons.inj first
      exact answered rfl trusted
    | false =>
      rw [List.filter_cons_of_neg (by simp [isAbout])] at first
      rw [← effect_apart regset child event isAbout]
      refine ih _ _ later ?_ first
      -- only a write of the register set itself would make its reads doubtful
      rw [if_pos rfl,List.mem_append,not_or]
      exact ⟨not_mem_written regset event isAbout,trusted⟩

theorem restored_about (regset : Regset) (child : Child) (trace : Trace) :
    Restored regset child trace ↔ Restored regset child (trace.filter (about regset)) := by
  rw [Restored,Restored,after_about regset child child trace rfl]
  simp [Overwritten,RestoreFailed,List.mem_filter,about]

theorem confirmed_about (regset : Regset) (trace : Trace) (magic : regset.Content) :
    Confirmed regset trace magic ↔ Confirmed regset (trace.filter (about regset)) magic := by
  simp [Confirmed,Overwritten,List.mem_filter,about]

theorem stops_restored_iff (cpid : Pid) (regset : Regset) (magic : regset.Content) (child : Child) (trace : Trace)
    (stops : Stops cpid regset magic trace)
    (honest : ∀ rest value, trace = ⟨.ptrace cpid (.getregset regset),((0 : Int),value)⟩ :: rest →
      value = child regset) :
    Restored regset child trace ↔ Confirmed regset trace magic := by
  cases stops with
  | notRead ret value failed => simp [Restored,Confirmed,Overwritten]
  | notWritten org ret failed => simp [Restored,Confirmed,Overwritten,failed.symm]
  | misread org value ret wrong =>
    obtain rfl := honest _ org rfl
    have unread : ¬((0 : Int) = ret ∧ magic = value) := by
      rintro ⟨rfl,rfl⟩
      simp at wrong
    simp [Restored,Confirmed,Overwritten,RestoreFailed,after,effect,transfer_size,unread]
  | notRestored org ret failed =>
    obtain rfl := honest _ org rfl
    refine iff_of_true (fun _ => .inr ⟨cpid,regset.size,ret,failed,by simp⟩) (fun _ => ⟨cpid,by simp⟩)

theorem exercised_restored (cpid : Pid) (regset : Regset) (magic org : regset.Content) (child : Child)
    (honest : org = child regset) :
    Restored regset child (exercised cpid regset magic org) ∧
      Confirmed regset (exercised cpid regset magic org) magic := by
  refine ⟨fun _ => .inl ?_,fun _ => ⟨cpid,by simp [exercised]⟩⟩
  simp [exercised,after,effect,transfer_size,honest]

/-! The ways through `setregset_check`. -/

def magicGregs (gregs : UserPtRegs) (i : Fin 31) : UserPtRegs :=
  {gregs with regs := Function.update gregs.regs i (~~~BitVec.ofNat 64 i)}

def magicFregs (fregs : UserFpsimdState) : UserFpsimdState :=
  {fregs with vregs := Function.update fregs.vregs ⟨16,by decide⟩ (~~~16)}

def magicWritten (cpid : Pid) (gregs : UserPtRegs) (i : Fin 31) (fregs : UserFpsimdState) : Trace :=
  [⟨.ptrace cpid (.getregset .prstatus),((0 : Int),gregs)⟩,
    ⟨.ptrace cpid (.setregset .prstatus (magicGregs gregs i) 272),(0 : Int)⟩,
    ⟨.ptrace cpid (.getregset .prfpreg),((0 : Int),fregs)⟩,
    ⟨.ptrace cpid (.setregset .prfpreg (magicFregs fregs) 528),(0 : Int)⟩]

inductive Goes (cpid : Pid) : Trace → Option (Word × Word) → Prop
  | early (trace : Trace) (tls : trace.filter (about .armTls) = [])
      (sysno : trace.filter (about .armSystemCall) = []) : Goes cpid trace none
  | tls (gregs : UserPtRegs) (i : Fin 31) (fregs : UserFpsimdState) (trace : Trace)
      (stops : Stops cpid .armTls writeTlsVal trace) :
      Goes cpid (magicWritten cpid gregs i fregs ++ trace) none
  | sysno (gregs : UserPtRegs) (i : Fin 31) (fregs : UserFpsimdState) (org : Word) (trace : Trace)
      (stops : Stops cpid .armSystemCall writeSysno trace) :
      Goes cpid (magicWritten cpid gregs i fregs ++ (exercised cpid .armTls writeTlsVal org ++ trace)) none
  | done (gregs : UserPtRegs) (i : Fin 31) (fregs : UserFpsimdState) (orgTls : Word) (orgSysno : BitVec 32) :
      Goes cpid (magicWritten cpid gregs i fregs ++ (exercised cpid .armTls writeTlsVal orgTls ++
        exercised cpid .armSystemCall writeSysno orgSysno)) (some (BitVec.ofNat 64 i,16))

theorem setregsetCheck_goes (cpid : Pid) (trace : Trace) (result : Option (Word × Word))
    (runs : Runs (setregsetCheck cpid) trace result) : Goes cpid trace result := by
  obtain ⟨⟨ret,gregs⟩,_,rfl,getGregs⟩ := (runs_request_bind _ _ _ _).mp runs
  rcases runs_guard _ _ _ _ _ getGregs with ⟨_,rfl,rfl⟩ | ⟨rfl,afterGregs⟩
  · exact .early _ rfl rfl
  cases found : magicRegister gregs.regs with
  | none =>
    rw [found] at afterGregs
    obtain ⟨rfl,rfl⟩ := (runs_pure _ _ _).mp afterGregs
    exact .early _ rfl rfl
  | some i =>
    rw [found] at afterGregs
    obtain ⟨ret,_,rfl,setGregs⟩ := (runs_request_bind _ _ _ _).mp afterGregs
    rcases runs_guard _ _ _ _ _ setGregs with ⟨_,rfl,rfl⟩ | ⟨rfl,afterSetGregs⟩
    · exact .early _ rfl rfl
    obtain ⟨⟨ret,fregs⟩,_,rfl,getFregs⟩ := (runs_request_bind _ _ _ _).mp afterSetGregs
    rcases runs_guard _ _ _ _ _ getFregs with ⟨_,rfl,rfl⟩ | ⟨rfl,afterFregs⟩
    · exact .early _ rfl rfl
    obtain ⟨ret,_,rfl,setFregs⟩ := (runs_request_bind _ _ _ _).mp afterFregs
    rcases runs_guard _ _ _ _ _ setFregs with ⟨_,rfl,rfl⟩ | ⟨rfl,afterSetFregs⟩
    · exact .early _ rfl rfl
    rcases exercise_cases cpid .armTls writeTlsVal _ _ _ afterSetFregs with
      ⟨rfl,stops⟩ | ⟨orgTls,_,rfl,afterTls⟩
    · exact .tls gregs i fregs _ stops
    rcases exercise_cases cpid .armSystemCall writeSysno _ _ _ afterTls with
      ⟨rfl,stops⟩ | ⟨orgSysno,_,rfl,afterSysno⟩
    · exact .sysno gregs i fregs orgTls _ stops
    obtain ⟨rfl,rfl⟩ := (runs_pure _ _ _).mp afterSysno
    rw [List.append_nil]
    exact .done gregs i fregs orgTls orgSysno

theorem Stops.about_self {cpid : Pid} {regset : Regset} {magic : regset.Content} {trace : Trace}
    (stops : Stops cpid regset magic trace) : trace.filter (about regset) = trace := by
  cases stops <;> simp [about]

theorem Stops.about_other {cpid : Pid} {regset : Regset} {magic : regset.Content} {trace : Trace}
    (stops : Stops cpid regset magic trace) (other : Regset) (differ : regset ≠ other) :
    trace.filter (about other) = [] := by
  cases stops <;> simp [about,differ]

theorem restored_iff_confirmed (cpid : Pid) (regset : Regset) (magic : regset.Content) (child : Child) (trace : Trace)
    (part : Trace) (filtered : trace.filter (about regset) = part)
    (goes : part = [] ∨ Stops cpid regset magic part ∨ ∃ org, part = exercised cpid regset magic org)
    (faithful : Faithful true [] child trace) (exactly : ∀ held got, regset.Reads held got → got = held) :
    Restored regset child trace ↔ Confirmed regset trace magic := by
  rw [restored_about,confirmed_about,filtered]
  have honest : ∀ rest value, part = ⟨.ptrace cpid (.getregset regset),((0 : Int),value)⟩ :: rest →
      value = child regset := by
    intro rest value first
    exact exactly _ _ (first_read regset [] child trace rest cpid value faithful (by simp) (filtered.trans first))
  rcases goes with rfl | stops | ⟨org,rfl⟩
  · simp [Restored,Confirmed,Overwritten]
  · exact stops_restored_iff cpid regset magic child part stops honest
  · obtain ⟨restored,confirmed⟩ := exercised_restored cpid regset magic org child (honest _ org rfl)
    exact iff_of_true restored confirmed

theorem after_written (cpid : Pid) (regset : Regset) (child : Child) (trace : Trace) (org new : regset.Content)
    (filtered : trace.filter (about regset) = [⟨.ptrace cpid (.getregset regset),((0 : Int),org)⟩,
      ⟨.ptrace cpid (.setregset regset new regset.size),(0 : Int)⟩])
    (faithful : Faithful true [] child trace) (exactly : ∀ held got, regset.Reads held got → got = held) :
    org = child regset ∧ after child trace regset = new := by
  refine ⟨exactly _ _ (first_read regset [] child trace _ cpid org faithful (by simp) filtered),?_⟩
  rw [after_about regset child child trace rfl,filtered]
  simp [after,effect,transfer_size]

/-- The two registers that a success reports hold the complements of their numbers,
and all the others what they held before. -/
structure Marked (before now : Child) (gregno fregno : Word) : Prop where
  gregs : ∃ i : Fin 31, gregno = BitVec.ofNat 64 i ∧ now .prstatus =
    {before .prstatus with regs := Function.update (before .prstatus).regs i (~~~gregno)}
  fregs : ∃ i : Fin 32, fregno = BitVec.ofNat 64 i ∧ now .prfpreg =
    {before .prfpreg with vregs := Function.update (before .prfpreg).vregs i (~~~fregno.setWidth 128)}

theorem success_marks (cpid : Pid) (child : Child) (trace : Trace) (gregno fregno : Word)
    (runs : Runs (setregsetCheck cpid) trace (some (gregno,fregno))) (faithful : Faithful true [] child trace) :
    Marked child (after child trace) gregno fregno := by
  cases setregsetCheck_goes cpid trace _ runs with
  | done gregs i fregs orgTls orgSysno =>
    constructor
    · obtain ⟨same,now⟩ := after_written cpid .prstatus child _ gregs (magicGregs gregs i) rfl faithful
        (fun _ _ same => same)
      refine ⟨i,rfl,?_⟩
      rw [now,same,magicGregs]
    · obtain ⟨same,now⟩ := after_written cpid .prfpreg child _ fregs (magicFregs fregs) rfl faithful
        (fun _ _ same => same)
      refine ⟨16,rfl,?_⟩
      rw [now,same,magicFregs]
      rfl

structure Kept (child : Child) (trace : Trace) (result : Option (Word × Word)) : Prop where
  tls : Restored .armTls child trace
  sysno : Restored .armSystemCall child trace
  marked : ∀ gregno fregno, result = some (gregno,fregno) → Marked child (after child trace) gregno fregno

/-- A return after a register has been overwritten leaves it as it was, unless the
restoring write fails, only if the read-back was right: the function returns
without restoring when the value cannot be read or is another one. -/
theorem setregset_kept_iff (cpid : Pid) (child : Child) (trace : Trace) (result : Option (Word × Word))
    (runs : Runs (setregsetCheck cpid) trace result) (faithful : Faithful true [] child trace) :
    Kept child trace result ↔
      Confirmed .armTls trace writeTlsVal ∧ Confirmed .armSystemCall trace writeSysno := by
  have goes := setregsetCheck_goes cpid trace result runs
  have tls : Restored .armTls child trace ↔ Confirmed .armTls trace writeTlsVal := by
    refine restored_iff_confirmed cpid .armTls writeTlsVal child trace _ rfl ?_ faithful (fun _ _ same => same)
    cases goes with
    | early _ none _ => exact .inl none
    | tls gregs i fregs part stops => exact .inr (.inl (stops.about_self.symm ▸ stops))
    | sysno gregs i fregs org part stops =>
      exact .inr (.inr ⟨org,congrArg (exercised cpid .armTls writeTlsVal org ++ ·) (stops.about_other _ (by decide))⟩)
    | done gregs i fregs orgTls orgSysno => exact .inr (.inr ⟨orgTls,rfl⟩)
  have sysno : Restored .armSystemCall child trace ↔ Confirmed .armSystemCall trace writeSysno := by
    refine restored_iff_confirmed cpid .armSystemCall writeSysno child trace _ rfl ?_ faithful (fun _ _ same => same)
    cases goes with
    | early _ _ none => exact .inl none
    | tls gregs i fregs part stops => exact .inl (stops.about_other _ (by decide))
    | sysno gregs i fregs org part stops => exact .inr (.inl (stops.about_self.symm ▸ stops))
    | done gregs i fregs orgTls orgSysno => exact .inr (.inr ⟨orgSysno,rfl⟩)
  rw [← tls,← sysno]
  constructor
  · intro kept
    exact ⟨kept.tls,kept.sysno⟩
  · rintro ⟨restoredTls,restoredSysno⟩
    refine ⟨restoredTls,restoredSysno,?_⟩
    rintro gregno fregno rfl
    exact success_marks cpid child trace gregno fregno runs faithful

def numbered : Child
  | .prstatus => ⟨fun i => BitVec.ofNat 64 i,0,0,0⟩
  | .prfpreg => ⟨fun _ => 0,0,0,fun _ => 0⟩
  | .armTls => 0
  | .armHw _ => ⟨0,0,fun _ => ⟨0,0,0⟩⟩
  | .armSystemCall => 0

def childPid : Pid := ⟨100,by decide⟩

def numberedMarked : Trace := magicWritten childPid (numbered .prstatus) 30 (numbered .prfpreg)

def allConfirmed : Trace :=
  numberedMarked ++ (exercised childPid .armTls writeTlsVal 0 ++ exercised childPid .armSystemCall writeSysno 0)

theorem setregset_kept_iff_confirmed :
    Runs (setregsetCheck childPid) allConfirmed (some (30,16)) ∧ Faithful true [] numbered allConfirmed ∧
      Kept numbered allConfirmed (some (30,16)) := by
  have runs : Runs (setregsetCheck childPid) allConfirmed (some (30,16)) :=
    .call _ _ _ _ _ (.call _ _ _ _ _ (.call _ _ _ _ _ (.call _ _ _ _ _ (.call _ _ _ _ _ (.call _ _ _ _ _
      (.call _ _ _ _ _ (.call _ _ _ _ _ (.call _ _ _ _ _ (.call _ _ _ _ _ (.call _ _ _ _ _ (.call _ _ _ _ _
        (.ret _))))))))))))
  have faithful : Faithful true [] numbered allConfirmed := by
    simp [Faithful,Answered,allConfirmed,numberedMarked,magicWritten,exercised,Regset.Reads,effect,written,numbered]
  refine ⟨runs,faithful,(setregset_kept_iff _ _ _ _ runs faithful).mpr ⟨fun _ => ⟨childPid,?_⟩,fun _ => ⟨childPid,?_⟩⟩⟩
  · simp [allConfirmed,exercised]
  · simp [allConfirmed,exercised]

def tlsUnread : Trace :=
  numberedMarked ++ [⟨.ptrace childPid (.getregset .armTls),((0 : Int),0)⟩,
    ⟨.ptrace childPid (.setregset .armTls writeTlsVal 8),(0 : Int)⟩,
    ⟨.ptrace childPid (.getregset .armTls),((-1 : Int),0)⟩]

/-- The function returns -1, and the child goes on with a TLS register of 0x1234567890abcdef. -/
theorem tls_left_overwritten :
    Runs (setregsetCheck childPid) tlsUnread none ∧ Faithful true [] numbered tlsUnread ∧
      after numbered tlsUnread .armTls = 0x1234567890abcdef ∧ ¬RestoreFailed .armTls numbered tlsUnread ∧
      ¬Kept numbered tlsUnread none := by
  have now : after numbered tlsUnread .armTls = 0x1234567890abcdef := rfl
  have tried : ¬RestoreFailed .armTls numbered tlsUnread := by
    simp [RestoreFailed,tlsUnread,numberedMarked,magicWritten]
  refine ⟨?_,?_,now,tried,?_⟩
  · exact .call _ _ _ _ _ (.call _ _ _ _ _ (.call _ _ _ _ _ (.call _ _ _ _ _ (.call _ _ _ _ _ (.call _ _ _ _ _
      (.call _ _ _ _ _ (.ret _)))))))
  · simp [Faithful,Answered,tlsUnread,numberedMarked,magicWritten,Regset.Reads,effect,written,numbered]
  · intro kept
    have overwritten : Overwritten .armTls tlsUnread := ⟨childPid,writeTlsVal,8,by simp [tlsUnread]⟩
    rcases kept.tls overwritten with same | failed
    · rw [now] at same
      contradiction
    · exact tried failed

/-- `setregset_child_check`: the registers are those that the child finds in itself.
An index outside of them is not defined. -/
def setregsetChildCheck (gregno fregno : Word) (gregs : UserPtRegs) (qdata : Fin 32 → BitVec 128) : Option Int :=
  if inGregs : gregno.toNat < 31 then
    if gregs.regs ⟨gregno.toNat,inGregs⟩ ≠ ~~~gregno then some (-1)
    else if inFregs : fregno.toNat < 32 then
      if qdata ⟨fregno.toNat,inFregs⟩ ≠ ~~~fregno.setWidth 128 then some (-1) else some 0
    else none
  else none

/-- The child finds what the parent has reported, as long as nothing else changes
its registers. -/
theorem child_check_passes (cpid : Pid) (child : Child) (trace : Trace) (gregno fregno : Word)
    (runs : Runs (setregsetCheck cpid) trace (some (gregno,fregno))) (faithful : Faithful true [] child trace) :
    setregsetChildCheck gregno fregno (after child trace .prstatus) (after child trace .prfpreg).vregs = some 0 := by
  obtain ⟨⟨i,isGreg,gregs⟩,⟨j,isFreg,fregs⟩⟩ := success_marks cpid child trace gregno fregno runs faithful
  have numberGreg : gregno.toNat = i.val := by
    rw [isGreg,BitVec.toNat_ofNat]
    omega
  have numberFreg : fregno.toNat = j.val := by
    rw [isFreg,BitVec.toNat_ofNat]
    omega
  have inGregs : gregno.toNat < 31 := by omega
  have inFregs : fregno.toNat < 32 := by omega
  obtain rfl : (⟨gregno.toNat,inGregs⟩ : Fin 31) = i := Fin.ext numberGreg
  obtain rfl : (⟨fregno.toNat,inFregs⟩ : Fin 32) = j := Fin.ext numberFreg
  rw [setregsetChildCheck,dif_pos inGregs,dif_pos inFregs,gregs,fregs]
  simp

/-! The hardware breakpoints and watchpoints. -/

def HwKind.ctrl : HwKind → BitVec 32
  | .hwBreak => breakptCtrl
  | .hwWatch => watchptCtrl

def HwKind.set : HwKind → (cpid : Pid) → (addr : Word) → Code Int
  | .hwBreak => setHwBreakpt
  | .hwWatch => setHwWatchpt

def HwKind.clear : HwKind → (cpid : Pid) → Code Int
  | .hwBreak => clearHwBreakpt
  | .hwWatch => clearHwWatchpt

def setCalls (cpid : Pid) : List (HwKind × Word) → Code Unit
  | [] => return
  | (kind,addr) :: rest => do
    let _ ← kind.set cpid addr
    setCalls cpid rest

theorem HwKind.set_eq (kind : HwKind) : kind.set = setHwDebug kind kind.ctrl := by
  cases kind <;> rfl

theorem HwKind.clear_eq (kind : HwKind) : kind.clear = clearHwDebug kind := by
  cases kind <;> rfl

theorem after_append (child : Child) (first second : Trace) :
    after child (first ++ second) = after (after child first) second := List.foldl_append

theorem faithful_append (child : Child) (first second : Trace) :
    Faithful false [] child (first ++ second) ↔
      Faithful false [] child first ∧ Faithful false [] (after child first) second := by
  induction first generalizing child with
  | nil => simp [Faithful,after]
  | cons event first ih =>
    rw [List.cons_append,Faithful,Faithful]
    simp only [Bool.false_eq_true,if_false]
    rw [ih,and_assoc]
    rfl

/-- What setting and clearing share: the slots are read, changed, and those that the
child reports are written. -/
def rewrites (kind : HwKind) (change : HwDebug → Fin 16 → DbgReg) (cpid : Pid) : Code Int := do
  let (failed,pointRegs) ← ptrace cpid (.getregset (.armHw kind))
  if failed ≠ 0 then return -1
  let value := {pointRegs with dbgRegs := change pointRegs}
  if (← ptrace cpid (.setregset (.armHw kind) value (hwDebugLen pointRegs.numReg))) ≠ 0 then return -1
  return 0

def setSlot (ctrl : BitVec 32) (addr : Word) (regs : HwDebug) : Fin 16 → DbgReg :=
  Function.update regs.dbgRegs ⟨0,by decide⟩ {regs.dbgRegs ⟨0,by decide⟩ with addr, ctrl}

theorem setSlot_first (ctrl : BitVec 32) (addr : Word) (regs : HwDebug) :
    setSlot ctrl addr regs 0 = {regs.dbgRegs 0 with addr, ctrl} := Function.update_self _ _ _

theorem setSlot_other (ctrl : BitVec 32) (addr : Word) (regs : HwDebug) (i : Fin 16) (other : i ≠ 0) :
    setSlot ctrl addr regs i = regs.dbgRegs i := Function.update_of_ne other _ _

def clearSlots (regs : HwDebug) (i : Fin 16) : DbgReg :=
  if i.val < regs.numReg then {regs.dbgRegs i with addr := 0, ctrl := 0} else regs.dbgRegs i

theorem set_rewrites (kind : HwKind) (cpid : Pid) (addr : Word) :
    kind.set cpid addr = rewrites kind (setSlot kind.ctrl addr) cpid := by
  rw [kind.set_eq]
  rfl

theorem clear_rewrites (kind : HwKind) (cpid : Pid) : kind.clear cpid = rewrites kind clearSlots cpid := by
  rw [kind.clear_eq]
  rfl

/-- The call has returned 0. -/
def Succeeds : Event Request.Answer → Prop
  | ⟨.ptrace _ (.getregset _),(ret,_)⟩ => ret = 0
  | ⟨.ptrace _ (.setregset _ _ _),ret⟩ => ret = (0 : Int)
  | _ => True

theorem rewrites_cases (kind : HwKind) (change : HwDebug → Fin 16 → DbgReg) (cpid : Pid) (trace : Trace) (ret : Int)
    (runs : Runs (rewrites kind change cpid) trace ret) :
    (ret = -1 ∧ ∃ failed value, failed ≠ (0 : Int) ∧ trace = [⟨.ptrace cpid (.getregset (.armHw kind)),(failed,value)⟩]) ∨
      ∃ (value : HwDebug) (result : Int), ret = (if result = 0 then 0 else -1) ∧
        trace = [⟨.ptrace cpid (.getregset (.armHw kind)),((0 : Int),value)⟩,
          ⟨.ptrace cpid (.setregset (.armHw kind) {value with dbgRegs := change value} (hwDebugLen value.numReg)),result⟩] := by
  obtain ⟨⟨failed,value⟩,_,rfl,read⟩ := (runs_request_bind _ _ _ _).mp runs
  rcases runs_guard _ _ _ _ _ read with ⟨refused,rfl,rfl⟩ | ⟨rfl,afterRead⟩
  · exact .inl ⟨rfl,failed,value,refused,rfl⟩
  obtain ⟨result,_,rfl,write⟩ := (runs_request_bind _ _ _ _).mp afterRead
  refine .inr ⟨value,result,?_⟩
  rcases runs_guard _ _ _ _ _ write with ⟨refused,rfl,rfl⟩ | ⟨rfl,afterWrite⟩
  · exact ⟨(if_neg refused).symm,rfl⟩
  · obtain ⟨rfl,rfl⟩ := (runs_pure _ _ _).mp afterWrite
    exact ⟨rfl,rfl⟩

/-- The slots that are reported, changed, and the others as they were. -/
def rewritten (change : HwDebug → Fin 16 → DbgReg) (regs : HwDebug) : HwDebug :=
  {regs with dbgRegs := fun i => if i.val < regs.numReg then change regs i else regs.dbgRegs i}

/-- A change that looks at a reported slot only to change that slot. -/
def SlotWise (change : HwDebug → Fin 16 → DbgReg) : Prop :=
  ∀ one other : HwDebug, one.dbgInfo = other.dbgInfo → ∀ i : Fin 16, i.val < one.numReg →
    one.dbgRegs i = other.dbgRegs i → change one i = change other i

theorem numReg_congr (one other : HwDebug) (header : one.dbgInfo = other.dbgInfo) : one.numReg = other.numReg := by
  rw [HwDebug.numReg,header,HwDebug.numReg]

theorem transfer_changed (kind : HwKind) (change : HwDebug → Fin 16 → DbgReg) (slotWise : SlotWise change)
    (held got : HwDebug) (reads : (Regset.armHw kind).Reads held got) :
    (Regset.armHw kind).transfer (hwDebugLen got.numReg) {got with dbgRegs := change got} held =
      rewritten change held := by
  obtain ⟨header,pad,slots⟩ := reads
  have count := numReg_congr got held header
  have each : (fun i : Fin 16 => if i.val < held.numReg then change got i else held.dbgRegs i) =
      fun i => if i.val < held.numReg then change held i else held.dbgRegs i := by
    funext i
    by_cases reported : i.val < held.numReg
    · rw [if_pos reported,if_pos reported]
      exact slotWise got held header i (by omega) (slots i reported)
    · rw [if_neg reported,if_neg reported]
  rw [transfer_slots,rewritten,← each,count,header,pad]

theorem rewrites_returns (kind : HwKind) (change : HwDebug → Fin 16 → DbgReg) (cpid : Pid) (trace : Trace) (ret : Int)
    (runs : Runs (rewrites kind change cpid) trace ret) :
    (∀ event ∈ trace, Succeeds event) ∧ ret = 0 ∨ (∃ event ∈ trace, ¬Succeeds event) ∧ ret = -1 := by
  rcases rewrites_cases kind change cpid trace ret runs with ⟨rfl,failed,value,refused,rfl⟩ | ⟨value,result,rfl,rfl⟩
  · exact .inr ⟨⟨_,List.mem_singleton.mpr rfl,refused⟩,rfl⟩
  by_cases wrote : result = 0
  · subst wrote
    exact .inl ⟨by simp [Succeeds],rfl⟩
  · exact .inr ⟨⟨_,List.mem_cons_of_mem _ (List.mem_singleton.mpr rfl),wrote⟩,if_neg wrote⟩

theorem rewrites_after (kind : HwKind) (change : HwDebug → Fin 16 → DbgReg) (slotWise : SlotWise change) (cpid : Pid)
    (child : Child) (trace : Trace) (ret : Int) (runs : Runs (rewrites kind change cpid) trace ret)
    (faithful : Faithful false [] child trace) :
    after child trace = if ret = 0 then
        Function.update child (.armHw kind) (rewritten change (child (.armHw kind))) else child := by
  rcases rewrites_cases kind change cpid trace ret runs with ⟨rfl,failed,value,_,rfl⟩ | ⟨value,result,rfl,rfl⟩
  · rfl
  by_cases wrote : result = 0
  · subst wrote
    have reads := faithful.1 rfl (by simp)
    exact congrArg (Function.update child (.armHw kind)) (transfer_changed kind change slotWise _ value reads)
  · simp [after,effect,wrote]

theorem setSlot_slotWise (ctrl : BitVec 32) (addr : Word) : SlotWise (setSlot ctrl addr) := by
  intro one other _ i _ same
  by_cases first : i = 0
  · subst first
    rw [setSlot_first,setSlot_first,same]
  · rw [setSlot_other _ _ _ _ first,setSlot_other _ _ _ _ first,same]

theorem clearSlots_slotWise : SlotWise clearSlots := by
  intro one other header i reported same
  have count := numReg_congr other one header.symm
  simp only [clearSlots,count,reported,if_true,same]

theorem rewrites_writes (kind : HwKind) (change : HwDebug → Fin 16 → DbgReg) (cpid : Pid) (child : Child)
    (trace : Trace) (ret : Int) (runs : Runs (rewrites kind change cpid) trace ret)
    (faithful : Faithful false [] child trace) (pid : Pid) (regset : Regset) (value : regset.Content) (len : Nat)
    (result : Int) (member : ⟨.ptrace pid (.setregset regset value len),result⟩ ∈ trace) :
    regset = .armHw kind ∧ len = hwDebugLen (child (.armHw kind)).numReg := by
  rcases rewrites_cases kind change cpid trace ret runs with ⟨rfl,failed,got,_,rfl⟩ | ⟨got,_,rfl,rfl⟩
  · simp at member
  · obtain ⟨header,_,_⟩ := faithful.1 rfl (by simp)
    rcases List.mem_cons.mp member with same | member
    · cases same
    · cases List.mem_singleton.mp member
      exact ⟨rfl,congrArg hwDebugLen (numReg_congr _ _ header)⟩

/-! Sequences of calls. -/

def pointed (child : Child) (kind : HwKind) (addr : Word) : Child :=
  Function.update child (.armHw kind)
    {child (.armHw kind) with dbgRegs := setSlot kind.ctrl addr (child (.armHw kind))}

theorem rewritten_setSlot (ctrl : BitVec 32) (addr : Word) (regs : HwDebug) (some : 1 ≤ regs.numReg) :
    rewritten (setSlot ctrl addr) regs = {regs with dbgRegs := setSlot ctrl addr regs} := by
  have slots : (fun i : Fin 16 => if i.val < regs.numReg then setSlot ctrl addr regs i else regs.dbgRegs i) =
      setSlot ctrl addr regs := by
    funext i
    by_cases reported : i.val < regs.numReg
    · rw [if_pos reported]
    · have later : i ≠ 0 := by
        rintro rfl
        exact reported some
      rw [if_neg reported,setSlot_other _ _ _ _ later]
  rw [rewritten,slots]

/-- What setting a point keeps of the debug registers, however many are reported. -/
structure SameFrame (before now : HwDebug) : Prop where
  header : now.dbgInfo = before.dbgInfo
  pad : ∀ i, (now.dbgRegs i).pad = (before.dbgRegs i).pad

theorem SameFrame.refl (regs : HwDebug) : SameFrame regs regs := ⟨rfl,fun _ => rfl⟩

theorem SameFrame.trans {first second third : HwDebug} (one : SameFrame first second)
    (two : SameFrame second third) : SameFrame first third :=
  ⟨two.header.trans one.header,fun i => (two.pad i).trans (one.pad i)⟩

theorem rewritten_frame (ctrl : BitVec 32) (addr : Word) (regs : HwDebug) :
    SameFrame regs (rewritten (setSlot ctrl addr) regs) := by
  refine ⟨rfl,?_⟩
  intro i
  simp only [rewritten]
  split
  · by_cases first : i = 0
    · subst first
      rw [setSlot_first]
    · rw [setSlot_other _ _ _ _ first]
  · rfl

theorem setCalls_frame (kind : HwKind) (cpid : Pid) (calls : List (HwKind × Word)) (child : Child)
    (trace : Trace) (value : Unit) (runs : Runs (setCalls cpid calls) trace value)
    (faithful : Faithful false [] child trace) :
    SameFrame (child (.armHw kind)) (after child trace (.armHw kind)) := by
  induction calls generalizing child trace with
  | nil =>
    obtain ⟨rfl,_⟩ := (runs_pure _ _ _).mp runs
    exact .refl _
  | cons call calls ih =>
    obtain ⟨other,addr⟩ := call
    obtain ⟨first,ret,rest,rfl,setting,later⟩ := (runs_bind _ _ _ _).mp runs
    obtain ⟨faithfulFirst,faithfulRest⟩ := (faithful_append child first rest).mp faithful
    have frame : SameFrame (child (.armHw kind)) (after child first (.armHw kind)) := by
      rw [set_rewrites] at setting
      rw [rewrites_after other _ (setSlot_slotWise _ _) cpid child first ret setting faithfulFirst]
      split
      · by_cases same : kind = other
        · subst same
          rw [Function.update_self]
          exact rewritten_frame _ _ _
        · rw [Function.update_of_ne (by simpa using same)]
          exact .refl _
      · exact .refl _
    rw [after_append]
    exact frame.trans (ih (after child first) rest later faithfulRest)

/-- A set call whose ptrace calls return 0 succeeds and changes the first slot of its
kind and no other register; one with a call that fails returns -1 and changes nothing.
After any set calls, a clear call whose ptrace calls return 0 succeeds and leaves no
address and no control bits in a reported slot. What either writes is the header and
the reported slots. -/
theorem hw_slots (kind : HwKind) (cpid : Pid) (child : Child) (some : 1 ≤ (child (.armHw kind)).numReg)
    (most : (child (.armHw kind)).numReg ≤ 16) :
    (∀ addr trace ret, Runs (kind.set cpid addr) trace ret → Faithful false [] child trace →
      ((∀ event ∈ trace, Succeeds event) → ret = 0 ∧ after child trace = pointed child kind addr) ∧
      ((∃ event ∈ trace, ¬Succeeds event) → ret = -1 ∧ after child trace = child) ∧
      ∀ pid regset value len result, ⟨.ptrace pid (.setregset regset value len),result⟩ ∈ trace →
        regset = .armHw kind ∧ len = 8 + 16 * (child (.armHw kind)).numReg) ∧
    ∀ calls sets trace ret, Runs (setCalls cpid calls) sets () → Runs (kind.clear cpid) trace ret →
      Faithful false [] child (sets ++ trace) →
      ((∀ event ∈ trace, Succeeds event) → ret = 0 ∧
        ∀ i (reported : i < (child (.armHw kind)).numReg),
          (after child (sets ++ trace) (.armHw kind)).dbgRegs ⟨i,Nat.lt_of_lt_of_le reported most⟩ =
            ⟨0,0,((child (.armHw kind)).dbgRegs ⟨i,Nat.lt_of_lt_of_le reported most⟩).pad⟩) ∧
      ∀ pid regset value len result, ⟨.ptrace pid (.setregset regset value len),result⟩ ∈ trace →
        regset = .armHw kind ∧ len = 8 + 16 * (child (.armHw kind)).numReg := by
  constructor
  · intro addr trace ret runs faithful
    rw [set_rewrites] at runs
    have now := rewrites_after kind _ (setSlot_slotWise _ _) cpid child trace ret runs faithful
    refine ⟨fun succeeds => ?_,fun ⟨event,member,fails⟩ => ?_,rewrites_writes kind _ cpid child trace ret runs faithful⟩
    all_goals rcases rewrites_returns kind _ cpid trace ret runs with ⟨all,rfl⟩ | ⟨⟨_,inside,refused⟩,rfl⟩
    · rw [now,if_pos rfl,rewritten_setSlot _ _ _ some]
      exact ⟨rfl,rfl⟩
    · exact absurd (succeeds _ inside) refused
    · exact absurd (all event member) fails
    · exact ⟨rfl,now⟩
  · intro calls sets trace ret setting clearing faithful
    obtain ⟨faithfulSets,faithfulTrace⟩ := (faithful_append child sets trace).mp faithful
    have frame := setCalls_frame kind cpid calls child sets _ setting faithfulSets
    have count := numReg_congr _ _ frame.header
    rw [clear_rewrites] at clearing
    have now := rewrites_after kind _ clearSlots_slotWise cpid _ trace ret clearing faithfulTrace
    have writes := rewrites_writes kind _ cpid _ trace ret clearing faithfulTrace
    rw [count] at writes
    rw [after_append]
    refine ⟨fun succeeds => ?_,writes⟩
    rcases rewrites_returns kind _ cpid trace ret clearing with ⟨_,rfl⟩ | ⟨⟨_,inside,refused⟩,_⟩
    · refine ⟨rfl,fun i reported => ?_⟩
      rw [now,if_pos rfl,Function.update_self,rewritten]
      simp [count,reported,clearSlots,frame.pad]
    · exact absurd (succeeds _ inside) refused

def sixSlots : HwDebug := ⟨6,0,fun i => ⟨BitVec.ofNat 64 i,1,0⟩⟩

def sixReported : Child :=
  Function.update (Function.update numbered (.armHw .hwBreak) sixSlots) (.armHw .hwWatch) sixSlots

def sixPointed (kind : HwKind) : HwDebug := {sixSlots with dbgRegs := setSlot kind.ctrl 0x1000 sixSlots}

def sixSet (kind : HwKind) : Trace :=
  [⟨.ptrace childPid (.getregset (.armHw kind)),((0 : Int),sixSlots)⟩,
    ⟨.ptrace childPid (.setregset (.armHw kind) (sixPointed kind) 104),(0 : Int)⟩]

def sixCleared (kind : HwKind) : Trace :=
  [⟨.ptrace childPid (.getregset (.armHw kind)),((0 : Int),sixPointed kind)⟩,
    ⟨.ptrace childPid (.setregset (.armHw kind)
      {sixPointed kind with dbgRegs := clearSlots (sixPointed kind)} 104),(0 : Int)⟩]

theorem six_runs (kind : HwKind) :
    Runs (setCalls childPid [(kind,0x1000)]) (sixSet kind) () ∧ Runs (kind.set childPid 0x1000) (sixSet kind) 0 ∧
      Runs (kind.clear childPid) (sixCleared kind) 0 := by
  cases kind
  all_goals exact ⟨.call _ _ _ _ _ (.call _ _ _ _ _ (.ret _)),.call _ _ _ _ _ (.call _ _ _ _ _ (.ret _)),
    .call _ _ _ _ _ (.call _ _ _ _ _ (.ret _))⟩

theorem six_faithful (kind : HwKind) : Faithful false [] sixReported (sixSet kind ++ sixCleared kind) := by
  cases kind
  all_goals
    refine ⟨fun _ _ => ⟨rfl,rfl,fun _ _ => rfl⟩,trivial,fun _ _ => ⟨rfl,rfl,?_⟩,trivial,trivial⟩
    decide

/-- Six watchpoints and six breakpoints, the first of a kind set and all of that kind
cleared again. -/
theorem hw_slots_six :
    (after sixReported (sixSet .hwWatch) = pointed sixReported .hwWatch 0x1000 ∧
      (after sixReported (sixSet .hwWatch ++ sixCleared .hwWatch) (.armHw .hwWatch)).dbgRegs 5 = ⟨0,0,0⟩) ∧
    (after sixReported (sixSet .hwBreak) = pointed sixReported .hwBreak 0x1000 ∧
      (after sixReported (sixSet .hwBreak ++ sixCleared .hwBreak) (.armHw .hwBreak)).dbgRegs 5 = ⟨0,0,0⟩) := by
  have watches := hw_slots .hwWatch childPid sixReported (by decide) (by decide)
  have breaks := hw_slots .hwBreak childPid sixReported (by decide) (by decide)
  obtain ⟨watchCalls,watchSet,watchClear⟩ := six_runs .hwWatch
  obtain ⟨breakCalls,breakSet,breakClear⟩ := six_runs .hwBreak
  have watchFaithful := six_faithful .hwWatch
  have breakFaithful := six_faithful .hwBreak
  refine ⟨⟨?_,?_⟩,?_,?_⟩
  · exact ((watches.1 _ _ _ watchSet ((faithful_append _ _ _).mp watchFaithful).1).1 (by simp [sixSet,Succeeds])).2
  · exact ((watches.2 _ _ _ _ watchCalls watchClear watchFaithful).1 (by simp [sixCleared,Succeeds])).2 5 (by decide)
  · exact ((breaks.1 _ _ _ breakSet ((faithful_append _ _ _).mp breakFaithful).1).1 (by simp [sixSet,Succeeds])).2
  · exact ((breaks.2 _ _ _ _ breakCalls breakClear breakFaithful).1 (by simp [sixCleared,Succeeds])).2 5 (by decide)

end Ostest.TestMck.Ptrace
