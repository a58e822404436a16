import Ostest.Lib.Calls
import Ostest.Lib.Memory
import Ostest.Lib.Strtoll
import Ostest.Lib.WaitStatus
import Ostest.TestMck.Execve

/-! Tests process_vm_readv/000 and 999: the first passes the address of a local
buffer to a child in the arguments of the second, which reads the buffer out of
its parent. A byte is a character, as char is unsigned here. -/
namespace Ostest.TestMck.ProcessVmReadv
open Lib.Calls Lib.Getopt Lib.Memory Lib.Strtoll
open Lib.WaitStatus (Report)

abbrev Word := BitVec 64

def testSuite : Arg := "process_vm_readv".toList

def bufSize : Nat := 100

def childProcessTpNum : Int := 999

/-! process_vm_readv/000 -/

/-- The arrays `buf` and `addr` of the parent. -/
structure Locals where
  buf : Word
  addr : Word
  apart : buf.toNat+bufSize ≤ addr.toNat ∨ addr.toNat+19 ≤ buf.toNat

def prepared (locals : Locals) (memory : Nat → Char) : Nat → Char :=
  snprintf (fill memory locals.buf.toNat bufSize '0') locals.addr.toNat 19 (hex locals.buf.toNat)

def childArgv (theApp addr : Arg) : List Arg :=
  [theApp,"-s".toList,testSuite,"-n".toList,"999".toList,"--".toList,
    "-a".toList,addr,"-s".toList,"100".toList,"-e".toList,"0".toList]

inductive Fork where
  | failed
  | child (execve : Bool)
  | parent (wait4 : Option Report)

def run000 (locals : Locals) (memory : Nat → Char) (fork : Fork) (environ : List Arg) (s : State) :
    Ending :=
  match fork with
  | .failed => .result (some "fork error.")
  | .child false => .result (some "execve error.")
  | .child true =>
    -- main keeps argv[0] in the_app and in front of the arguments of the case
    let theApp := s.argv.headD []
    let addr := cString (prepared locals memory) locals.addr.toNat 19
    .execve theApp ((childArgv theApp addr).map some ++ [none]) environ
  | .parent none => .result (some "wait4 error.")
  | .parent (some report) =>
    .result (if report.status = 0 then none else some "invalid exit code.")

/-! process_vm_readv/999 -/

structure ProcessVmReadvArgs where
  addr : Word
  size : Word
  expr : Char
  deriving DecidableEq

def setupOption (args : ProcessVmReadvArgs) : Answer → Except Empty ProcessVmReadvArgs
  | .option 'a' (some optarg) => .ok {args with addr := BitVec.ofInt 64 (strtoul optarg).value}
  | .option 's' (some optarg) => .ok {args with size := BitVec.ofInt 64 (strtoul optarg).value}
  | .option 'e' (some optarg) => .ok {args with expr := optarg.headD '\x00'}
  -- an unknown option is passed over
  | _ => .ok args

def setup (s : State) : Option ProcessVmReadvArgs :=
  match scan (getopt "a:s:e:".toList) setupOption (fuel s) ⟨0,0,'\x00'⟩ s with
  | none => none
  | some (.error impossible) => impossible.elim
  | some (.ok (args,_)) => some args

structure Iovec where
  iovBase : Word
  iovLen : Word
  deriving DecidableEq

inductive Request where
  | malloc (size : Word)
  | getppid
  | processVmReadv (pid : Int) (lvec rvec : List Iovec) (flags : Nat)
  deriving DecidableEq

/-- malloc answers an address, getppid a process, and process_vm_readv its value
with the memory of the caller that it leaves. -/
abbrev Request.Answer : Request → Type
  | .malloc _ => Word
  | .getppid => Int
  | .processVmReadv .. => Int × (Nat → Char)

abbrev Code := Prog Request Request.Answer

def ask (asked : Request) : Code asked.Answer := request asked

def run (args : ProcessVmReadvArgs) : Code (Option String) := do
  let readBuf ← ask (.malloc args.size)
  if readBuf = 0 then return some "malloc error(read)."
  let pid ← ask .getppid
  let (nread,memory) ← ask (.processVmReadv pid [⟨readBuf,args.size⟩] [⟨args.addr,args.size⟩] 0)
  if nread = -1 then return some "process_vm_readv error."
  if BitVec.ofInt 64 nread ≠ args.size then return some "invalid read size."
  let exprBuf ← ask (.malloc args.size)
  if exprBuf = 0 then return some "malloc error(expr)."
  -- the buffer that memset fills with the expected byte
  let expected := List.replicate args.size.toNat args.expr
  if load memory readBuf.toNat args.size.toNat ≠ expected then return some "memcmp error."
  return none

/-- Case 999 of the table, around any run function. -/
def case999 (body : ProcessVmReadvArgs → Option String) : TestCase where
  testSuite := testSuite
  num := childProcessTpNum
  run := fun _ s => (setup s).map (fun args => .result (body args))

/-- How a system answers, told how many calls came before. -/
abbrev System := Nat → (asked : Request) → asked.Answer

/-- The run function on a system: its calls with their answers, and its message. -/
def runOn (system : System) (args : ProcessVmReadvArgs) : List (Event Request.Answer) × Option String :=
  play system 0 (run args)

/-! The arguments on their way to the child. -/

theorem hex_length (buf : Word) : (hex buf.toNat).length ≤ 18 := by
  have digits : (Nat.toDigits 16 buf.toNat).length ≤ 16 :=
    (Nat.length_toDigits_le_iff (by decide) (by decide)).mpr buf.isLt
  simp only [hex,List.length_cons]
  omega

theorem hex_plain (n : Nat) : '\x00' ∉ hex n := by
  intro member
  rcases List.mem_cons.mp member with zero | member
  · exact absurd zero (by decide)
  · rcases List.mem_cons.mp member with mark | digit
    · exact absurd mark (by decide)
    · exact absurd ((toDigits_hex n).2 _ digit) (by decide)

theorem addr_complete (locals : Locals) (memory : Nat → Char) :
    cString (prepared locals memory) locals.addr.toNat 19 = hex locals.buf.toNat :=
  cString_snprintf _ _ _ _ (hex_plain _) (Nat.lt_succ_of_le (hex_length locals.buf))

theorem prepared_buf (locals : Locals) (memory : Nat → Char) :
    load (prepared locals memory) locals.buf.toNat bufSize = List.replicate bufSize '0' := by
  have filled : load (fill memory locals.buf.toNat bufSize '0') locals.buf.toNat bufSize =
      List.replicate bufSize '0' := by
    have stored := load_store memory locals.buf.toNat (List.replicate bufSize '0')
    rwa [List.length_replicate] at stored
  rw [← filled]
  apply load_congr
  intro offset bound
  rcases locals.apart with before | after
  · exact snprintf_below _ _ _ _ _ (by omega)
  · exact snprintf_above _ _ _ _ _ (by omega)

theorem strtoul_hex (buf : Word) : BitVec.ofInt 64 (strtoul (hex buf.toNat)).value = buf := by
  rw [strtoul_value _ [] _ (number_hex buf.toNat) buf.isLt,BitVec.ofInt_natCast,BitVec.ofNat_toNat,
    BitVec.setWidth_eq]

theorem setup_decodes (theApp : Arg) (buf : Word) (s : State) (between : Between s)
    (argv : s.argv = [theApp,"-a".toList,hex buf.toNat,"-s".toList,"100".toList,"-e".toList,"0".toList])
    (optind : s.optind = 1) : setup s = some ⟨buf,100,'0'⟩ := by
  obtain ⟨count,enough⟩ := exists_fuel s between 4 (by simp [argv,optind])
  have size : BitVec.ofInt 64 (strtoul "100".toList).value = 100 := by decide
  -- main stopped at the dashes, so this -s is the one of the setup function
  obtain ⟨first,address,between,same,moved⟩ := scan_pair "a:s:e:".toList setupOption (count+3)
    ⟨0,0,'\x00'⟩ ⟨buf,0,'\x00'⟩ 'a' (hex buf.toNat) s between rfl (by decide)
    (by rw [argv,optind]; rfl) (by rw [argv,optind]; rfl) (by simp only [setupOption,strtoul_hex])
  obtain ⟨second,length,between,same',moved'⟩ := scan_pair "a:s:e:".toList setupOption (count+2)
    ⟨buf,0,'\x00'⟩ ⟨buf,100,'\x00'⟩ 's' "100".toList first between rfl (by decide)
    (by rw [same,moved,argv,optind]; rfl) (by rw [same,moved,argv,optind]; rfl)
    (by simp only [setupOption,size])
  obtain ⟨third,expected,between,same'',moved''⟩ := scan_pair "a:s:e:".toList setupOption (count+1)
    ⟨buf,100,'\x00'⟩ ⟨buf,100,'0'⟩ 'e' "0".toList second between rfl (by decide)
    (by rw [same',same,moved',moved,argv,optind]; rfl)
    (by rw [same',same,moved',moved,argv,optind]; rfl) rfl
  have last : third.argv.length ≤ third.optind := by
    rw [same'',same',same,moved'',moved',moved,argv,optind]
    exact Nat.le_refl 7
  obtain ⟨final,ended⟩ := scan_end "a:s:e:".toList setupOption count ⟨buf,100,'0'⟩ third between last
  rw [setup,enough,address,length,expected,ended]

theorem testMck_decodes (cases : List TestCase) (body : ProcessVmReadvArgs → Option String)
    (listed : findTestCase cases testSuite childProcessTpNum = some (case999 body))
    (environ : List Arg) (theApp : Arg) (buf : Word) :
    testMck cases environ (childArgv theApp (hex buf.toNat)) = some (.result (body ⟨buf,100,'0'⟩)) := by
  obtain ⟨s,argv,optind,between,dispatched⟩ := testMck_case cases environ theApp testSuite "999".toList
    ["-a".toList,hex buf.toNat,"-s".toList,"100".toList,"-e".toList,"0".toList]
  have number : atoi "999".toList = childProcessTpNum := by decide
  have decoded := setup_decodes theApp buf s between argv optind
  rw [childArgv,dispatched,number,dispatch_found _ _ _ _ s _ (by decide) listed]
  simp only [case999,decoded,Option.map_some]

/-! What the child does with them. -/

/-- The calls of a run that passes: the process that is read is the one getppid
has named, from the address and with the size of the arguments. -/
def calls (args : ProcessVmReadvArgs) (readBuf exprBuf : Word) (pid nread : Int) (memory : Nat → Char) :
    List (Event Request.Answer) :=
  [⟨.malloc args.size,readBuf⟩,⟨.getppid,pid⟩,
    ⟨.processVmReadv pid [⟨readBuf,args.size⟩] [⟨args.addr,args.size⟩] 0,(nread,memory)⟩,
    ⟨.malloc args.size,exprBuf⟩]

/-- The run function passes exactly on the runs in which both buffers are there,
the whole size was read, and every byte read is the expected one. -/
theorem run_passes_iff (args : ProcessVmReadvArgs) (trace : List (Event Request.Answer)) :
    Runs (run args) trace none ↔
      ∃ readBuf exprBuf pid nread memory, trace = calls args readBuf exprBuf pid nread memory ∧
        readBuf ≠ 0 ∧ exprBuf ≠ 0 ∧ nread ≠ -1 ∧ BitVec.ofInt 64 nread = args.size ∧
        load memory readBuf.toNat args.size.toNat = List.replicate args.size.toNat args.expr := by
  constructor
  · intro runs
    obtain ⟨readBuf,_,rfl,allocated⟩ := (runs_request_bind _ _ _ _).mp runs
    rcases runs_check _ _ _ _ _ allocated with ⟨_,_,failed⟩ | ⟨room,afterRoom⟩
    · contradiction
    obtain ⟨pid,_,rfl,knowing⟩ := (runs_request_bind _ _ _ _).mp afterRoom
    obtain ⟨⟨nread,memory⟩,_,rfl,called⟩ := (runs_request_bind _ _ _ _).mp knowing
    rcases runs_check _ _ _ _ _ called with ⟨_,_,failed⟩ | ⟨read,afterRead⟩
    · contradiction
    rcases runs_check _ _ _ _ _ afterRead with ⟨_,_,failed⟩ | ⟨whole,afterWhole⟩
    · contradiction
    obtain ⟨exprBuf,_,rfl,expecting⟩ := (runs_request_bind _ _ _ _).mp afterWhole
    rcases runs_check _ _ _ _ _ expecting with ⟨_,_,failed⟩ | ⟨roomToo,filled⟩
    · contradiction
    rcases runs_check _ _ _ _ _ filled with ⟨_,_,failed⟩ | ⟨same,compared⟩
    · contradiction
    obtain ⟨rfl,_⟩ := (runs_pure _ _ _).mp compared
    exact ⟨readBuf,exprBuf,pid,nread,memory,rfl,room,roomToo,read,not_not.mp whole,not_not.mp same⟩
  · rintro ⟨readBuf,exprBuf,pid,nread,memory,rfl,room,roomToo,read,whole,same⟩
    simp only [run,ask,calls,runs_request_cons,if_neg room,if_neg read,if_neg (not_not.mpr whole),
      if_neg roomToo,if_neg (not_not.mpr same)]
    exact .ret _

/-- The most that one call reads with pages of 64 KiB. -/
def maxRwCount : Nat := 0x7fff0000

/-- A system for a child of the process `parent`, whose memory is given: it has room
for the two buffers, knows the parent, and reads what is mapped there, all of it
at once. -/
structure Correct (parent : Int) (memory : Nat → Char) (mapped : Nat → Prop) (system : System) : Prop where
  malloc : ∀ count, system count (.malloc 100) ≠ 0
  getppid : ∀ count, system count .getppid = parent
  reads : ∀ (count : Nat) (readBuf addr size : Word), size.toNat ≤ maxRwCount →
    (∀ offset < size.toNat, mapped (addr.toNat+offset)) →
    ∃ after, system count (.processVmReadv parent [⟨readBuf,size⟩] [⟨addr,size⟩] 0) =
        ((size.toNat : Int),after) ∧
      load after readBuf.toNat size.toNat = load memory addr.toNat size.toNat

theorem runOn_correct (parent : Int) (memory : Nat → Char) (mapped : Nat → Prop) (system : System)
    (correct : Correct parent memory mapped system) (buf : Word) (expr : Char)
    (present : ∀ offset < bufSize, mapped (buf.toNat+offset))
    (contents : load memory buf.toNat bufSize = List.replicate bufSize expr) :
    ∃ readBuf exprBuf after,
      runOn system ⟨buf,100,expr⟩ = (calls ⟨buf,100,expr⟩ readBuf exprBuf parent 100 after,none) ∧
      load after readBuf.toNat bufSize = load memory buf.toNat bufSize := by
  obtain ⟨after,read,same⟩ := correct.reads 2 (system 0 (.malloc 100)) buf 100 (by decide) present
  have passes : Runs (run ⟨buf,100,expr⟩)
      (calls ⟨buf,100,expr⟩ (system 0 (.malloc 100)) (system 3 (.malloc 100)) parent 100 after) none :=
    (run_passes_iff _ _).mpr ⟨_,_,_,_,_,rfl,correct.malloc 0,correct.malloc 3,by decide,rfl,
      same.trans contents⟩
  refine ⟨_,_,after,play_of_runs system 0 passes ?_,same⟩
  intro count event answered
  match count with
  | 0 | 3 =>
    cases answered
    rfl
  | 1 =>
    cases answered
    exact (correct.getppid 1).symm
  | 2 =>
    cases answered
    exact read.symm
  | count+4 => simp [calls] at answered

/-- The text in the array is complete, main and the setup function of the child
decode the address of the parent's buffer with its size and contents, and on a
correct system the child then reads that buffer out of its parent and passes. -/
theorem child_reads_parent (cases : List TestCase) (locals : Locals) (memory : Nat → Char)
    (environ : List Arg) (s : State) :
    cString (prepared locals memory) locals.addr.toNat 19 = hex locals.buf.toNat ∧
    load (prepared locals memory) locals.buf.toNat bufSize = List.replicate bufSize '0' ∧
    ∃ theApp vector, run000 locals memory (.child true) environ s = .execve theApp vector environ ∧
      (∀ body, findTestCase cases testSuite childProcessTpNum = some (case999 body) →
        testMck cases environ (vectorArgs vector) = some (.result (body ⟨locals.buf,100,'0'⟩))) ∧
      (∀ trace, Runs (run ⟨locals.buf,100,'0'⟩) trace none ↔
        ∃ readBuf exprBuf pid nread after,
          trace = calls ⟨locals.buf,100,'0'⟩ readBuf exprBuf pid nread after ∧
          readBuf ≠ 0 ∧ exprBuf ≠ 0 ∧ nread ≠ -1 ∧ BitVec.ofInt 64 nread = 100 ∧
          load after readBuf.toNat bufSize = List.replicate bufSize '0') ∧
      ∀ (system : System) (parent : Int) (mapped : Nat → Prop),
        findTestCase cases testSuite childProcessTpNum =
          some (case999 (fun args => (runOn system args).2)) →
        Correct parent (prepared locals memory) mapped system →
        (∀ offset < bufSize, mapped (locals.buf.toNat+offset)) →
        (∃ readBuf exprBuf after,
          (runOn system ⟨locals.buf,100,'0'⟩).1 =
            calls ⟨locals.buf,100,'0'⟩ readBuf exprBuf parent 100 after ∧
          load after readBuf.toNat bufSize = load (prepared locals memory) locals.buf.toNat bufSize) ∧
        testMck cases environ (vectorArgs vector) = some (.result none) := by
  have complete := addr_complete locals memory
  have contents := prepared_buf locals memory
  have decodes : ∀ body, findTestCase cases testSuite childProcessTpNum = some (case999 body) →
      testMck cases environ (vectorArgs ((childArgv (s.argv.headD []) (hex locals.buf.toNat)).map some ++
        [none])) = some (.result (body ⟨locals.buf,100,'0'⟩)) := by
    intro body listed
    rw [vectorArgs_terminated]
    exact testMck_decodes cases body listed environ _ locals.buf
  refine ⟨complete,contents,_,_,by rw [run000,complete],decodes,run_passes_iff _,?_⟩
  intro system parent mapped listed correct present
  obtain ⟨readBuf,exprBuf,after,ran,same⟩ :=
    runOn_correct parent _ mapped system correct locals.buf '0' present contents
  refine ⟨⟨readBuf,exprBuf,after,by rw [ran],same⟩,?_⟩
  rw [decodes _ listed,ran]

/-- A buffer near the top of the addresses, so that its text has all 18 characters. -/
def topLocals : Locals := ⟨0xfffffffffffff000,0xffffffffffffe000,by decide⟩

/-- Process 7 is the parent; the buffers are at 0x1000 and 0x2000. -/
def reading (memory : Nat → Char) : System
  | count, .malloc _ => if count = 0 then 0x1000 else 0x2000
  | _, .getppid => 7
  | _, .processVmReadv _ [⟨readBuf,size⟩] [⟨addr,_⟩] _ =>
    ((size.toNat : Int),store (fun _ => '\x00') readBuf.toNat (load memory addr.toNat size.toNat))
  | _, .processVmReadv .. => (-1,fun _ => '\x00')

theorem reading_correct (memory : Nat → Char) :
    Correct 7 memory (fun _ => True) (reading memory) := by
  refine ⟨?_,fun _ => rfl,?_⟩
  · intro count
    rw [reading]
    split <;> decide
  · intro count readBuf addr size _ _
    have stored := load_store (fun _ => '\x00') readBuf.toNat (load memory addr.toNat size.toNat)
    rw [load_length] at stored
    exact ⟨_,rfl,stored⟩

theorem child_reads_top :
    ∃ theApp vector, run000 topLocals (fun _ => 'A') (.child true) []
        (State.initial false ["test_mck".toList]) = .execve theApp vector [] ∧
      testMck [case999 (fun args => (runOn (reading (prepared topLocals (fun _ => 'A'))) args).2)] []
        (vectorArgs vector) = some (.result none) := by
  obtain ⟨_,_,theApp,vector,executes,_,_,passes⟩ := child_reads_parent
    [case999 (fun args => (runOn (reading (prepared topLocals (fun _ => 'A'))) args).2)] topLocals
    (fun _ => 'A') [] (State.initial false ["test_mck".toList])
  exact ⟨theApp,vector,executes,
    (passes _ 7 _ rfl (reading_correct _) (fun _ _ => trivial)).2⟩

end Ostest.TestMck.ProcessVmReadv
