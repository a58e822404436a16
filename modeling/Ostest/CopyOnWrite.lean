import Mathlib.Data.List.Basic
import Mathlib.Logic.Function.Basic

/-! lv11_copy_on_write: the program, which maps a file and reads or writes it, and
the fourteen command lines of run_testset.sh with their checks. -/
namespace Ostest.CopyOnWrite

abbrev Byte := BitVec 8

def bytes (text : String) : List Byte := text.toList.map (fun c => BitVec.ofNat 8 c.toNat)

inductive Mode where
  | null
  | write
  | read
  deriving DecidableEq

structure Prot where
  read : Bool
  write : Bool
  exec : Bool
  deriving DecidableEq

structure Flags where
  mapShared : Bool
  mapPrivate : Bool
  deriving DecidableEq

structure Args where
  mode : Mode
  sync : Bool
  mmapProt : Prot
  mmapFlags : Flags
  path : List Char
  deriving DecidableEq

/-! parse_argument. -/

def initial : Args := ⟨.null,false,⟨false,false,false⟩,⟨false,false⟩,[]⟩

def modeLetter (args : Args) : Char → Option Args
  | 'w' => some {args with mode := .write}
  | 'r' => some {args with mode := .read}
  | 's' => some {args with sync := true}
  | _ => none

def protLetter (args : Args) : Char → Option Args
  | 'r' => some {args with mmapProt := {args.mmapProt with read := true}}
  | 'w' => some {args with mmapProt := {args.mmapProt with write := true}}
  | 'e' => some {args with mmapProt := {args.mmapProt with exec := true}}
  | 's' => some {args with mmapFlags := {args.mmapFlags with mapShared := true}}
  | 'p' => some {args with mmapFlags := {args.mmapFlags with mapPrivate := true}}
  | _ => none

/-- The two loops; an error is the way to `fault`, with what has been read so far. -/
def letters (letter : Args → Char → Option Args) : Args → List Char → Except Args Args
  | args, [] => .ok args
  | args, c :: cs =>
    match letter args c with
    | none => .error args
    | some args => letters letter args cs

def bufSize : Nat := 1024

def parseArgument : List (List Char) → Args
  | _ :: mode :: prot :: path :: _ =>
    match (do letters protLetter (← letters modeLetter initial mode) prot) with
    | .ok args => {args with path := path.take (bufSize-1)}
    | .error args => {args with mode := .null}
  | _ => {initial with mode := .null}

/-! The files and the kernel. -/

/-- Each path is a file of its own. -/
abbrev Files := List Char → Option (List Byte)

/-- A kernel that does not enforce the protection of a mapping, or that writes to
the file through private mappings too, is a wrong one. Whether a mapping that may be
written or executed may be read as well is up to the architecture. -/
structure Kernel where
  page : Nat
  enforces : Bool
  copies : Bool
  writeReads : Bool
  execReads : Bool

def Kernel.readable (kernel : Kernel) (prot : Prot) : Bool :=
  !kernel.enforces || prot.read || prot.write && kernel.writeReads || prot.exec && kernel.execReads

/-- The system calls that may fail in a run. -/
structure Calls where
  opens : Bool
  stats : Bool
  mmaps : Bool
  msyncs : Bool
  munmaps : Bool

def working : Calls := ⟨true,true,true,true,true⟩

inductive Complaint where
  | open
  | stat
  | stringSize
  | mmap
  | msync
  | munmap
  | usage
  deriving DecidableEq

/-- `overrun` is a read behind the end of the mapping, of whatever is there. -/
inductive Ended where
  | exited (status : Nat)
  | segv
  | overrun
  deriving DecidableEq

structure Outcome where
  ended : Ended
  stdout : List Byte
  stderr : List Complaint
  files : Files

def mmapped (calls : Calls) (flags : Flags) (size : Nat) : Bool :=
  calls.mmaps && decide (size ≠ 0) && (flags.mapShared || flags.mapPrivate)

/-- The last page of a mapping is filled up with zeros. -/
def mapping (kernel : Kernel) (content : List Byte) : List Byte :=
  content ++ List.replicate ((kernel.page - content.length % kernel.page) % kernel.page) 0

/-- The string that `%s` prints, if there is an end to it. -/
def printed (memory : List Byte) : Option (List Byte) :=
  if 0 ∈ memory then some (memory.takeWhile (· ≠ 0)) else none

def strcpy (content string : List Byte) : List Byte := string ++ 0 :: content.drop (string.length+1)

/-! The program. -/

def failed (files : Files) (complaint : Complaint) : Outcome := ⟨.exited 255,[],[complaint],files⟩

/-- The end of both functions, with the message of a munmap that fails. -/
def out (calls : Calls) (sync : Bool) (files : Files) (stdout : List Byte) (unmapFailed : List Complaint) :
    Outcome :=
  if sync && !calls.msyncs then ⟨.exited 255,stdout,.msync :: unmapFailed,files⟩
  else ⟨.exited 0,stdout,unmapFailed,files⟩

def writeToFile (kernel : Kernel) (calls : Calls) (files : Files) (args : Args) (string : List Byte) : Outcome :=
  match files args.path with
  | none => failed files .open
  | some content =>
    if !calls.opens then failed files .open
    else if !calls.stats then failed files .stat
    else if content.length ≤ string.length then failed files .stringSize
    else if !mmapped calls args.mmapFlags content.length then failed files .mmap
    else if kernel.enforces && !args.mmapProt.write then ⟨.segv,[],[],files⟩
    else
      let written := strcpy content string
      let files := if args.mmapFlags.mapShared || !kernel.copies
        then Function.update files args.path (some written) else files
      if !kernel.readable args.mmapProt then ⟨.segv,[],[],files⟩
      else
        match printed (mapping kernel written) with
        | none => ⟨.overrun,[],[],files⟩
        | some text => out calls args.sync files text (if calls.munmaps then [] else [.munmap])

def readFromFile (kernel : Kernel) (calls : Calls) (files : Files) (args : Args) : Outcome :=
  match files args.path with
  | none => failed files .open
  | some content =>
    if !calls.opens then failed files .open
    else if !calls.stats then failed files .stat
    else if !mmapped calls args.mmapFlags content.length then failed files .mmap
    else if !kernel.readable args.mmapProt then ⟨.segv,[],[],files⟩
    else
      match printed (mapping kernel content) with
      | none => ⟨.overrun,[],[],files⟩
      | some text => out calls args.sync files text []

def mmapWrite : List Byte := bytes "mmap-write"

def main (kernel : Kernel) (calls : Calls) (files : Files) (argv : List (List Char)) : Outcome :=
  let args := parseArgument argv
  match args.mode with
  | .read => readFromFile kernel calls files args
  | .write => writeToFile kernel calls files args mmapWrite
  | .null => failed files .usage

/-! What a run does to the files. -/

/-- The file with the string at its start. -/
def stamp (content : List Byte) : List Byte := strcpy content mmapWrite

theorem length_stamp (content : List Byte) (long : mmapWrite.length < content.length) :
    (stamp content).length = content.length := by
  rw [stamp,strcpy,List.length_append,List.length_cons,List.length_drop]
  omega

theorem stamp_stamp (content : List Byte) : stamp (stamp content) = stamp content := by
  have cut : (stamp content).drop (mmapWrite.length+1) = content.drop (mmapWrite.length+1) := by
    rw [stamp,strcpy,List.drop_append,List.drop_of_length_le (by omega),List.nil_append,
      Nat.add_sub_cancel_left]
    rfl
  rw [stamp,strcpy,cut]
  rfl

theorem zero_mem_stamp (content : List Byte) : 0 ∈ stamp content := by simp [stamp,strcpy]

theorem printed_mapping (kernel : Kernel) (content : List Byte) (ends : 0 ∈ content) :
    ∃ text, printed (mapping kernel content) = some text := by
  refine ⟨_,if_pos ?_⟩
  rw [mapping,List.mem_append]
  exact .inl ends

/-- The runs that leave the string in the file. -/
structure Stamps (kernel : Kernel) (calls : Calls) (args : Args) (content : List Byte) : Prop where
  mode : args.mode = .write
  opens : calls.opens = true
  stats : calls.stats = true
  long : mmapWrite.length < content.length
  mmaps : calls.mmaps = true
  flags : args.mmapFlags.mapShared = true ∨ args.mmapFlags.mapPrivate = true
  allowed : kernel.enforces = true → args.mmapProt.write = true
  through : args.mmapFlags.mapShared = true ∨ kernel.copies = false

theorem out_files (calls : Calls) (sync : Bool) (files : Files) (stdout : List Byte)
    (unmapFailed : List Complaint) : (out calls sync files stdout unmapFailed).files = files := by
  rw [out]
  split <;> rfl

theorem readFromFile_files (kernel : Kernel) (calls : Calls) (files : Files) (args : Args) :
    (readFromFile kernel calls files args).files = files := by
  rw [readFromFile]
  split
  next => rfl
  next =>
    iterate 4 (split; next => rfl)
    split
    next => rfl
    next => exact out_files _ _ _ _ _

theorem writeToFile_files (kernel : Kernel) (calls : Calls) (files : Files) (args : Args)
    (content : List Byte) (there : files args.path = some content) (mode : args.mode = .write) :
    (Stamps kernel calls args content → (writeToFile kernel calls files args mmapWrite).files =
      Function.update files args.path (some (stamp content))) ∧
    (¬Stamps kernel calls args content → (writeToFile kernel calls files args mmapWrite).files = files) := by
  obtain ⟨text,shown⟩ := printed_mapping kernel (stamp content) (zero_mem_stamp content)
  rw [writeToFile,there]
  refine ⟨?_,?_⟩
  · intro stamps
    have mapped : mmapped calls args.mmapFlags content.length = true := by
      have long := stamps.long
      have flags := stamps.flags
      simp only [mmapped,stamps.mmaps,Bool.true_and,Bool.and_eq_true,decide_eq_true_eq,Bool.or_eq_true]
      exact ⟨by omega,flags⟩
    have permitted : (kernel.enforces && !args.mmapProt.write) = false := by
      cases enforces : kernel.enforces with
      | false => rfl
      | true => simp [stamps.allowed enforces]
    have through : (args.mmapFlags.mapShared || !kernel.copies) = true := by
      simpa using stamps.through
    simp only [stamps.opens,stamps.stats,Nat.not_le.mpr stamps.long,mapped,permitted,through,Bool.not_true,
      Bool.false_eq_true,if_false,if_true]
    rw [← stamp,shown]
    split
    next => rfl
    next => exact out_files _ _ _ _ _
  · intro unstamped
    dsimp only
    split
    next => rfl
    next opens =>
      split
      next => rfl
      next stats =>
        split
        next => rfl
        next long =>
          split
          next => rfl
          next mapped =>
            split
            next => rfl
            next permitted =>
              suffices kept : ¬(args.mmapFlags.mapShared || !kernel.copies) = true by
                rw [← stamp,shown,if_neg kept]
                split
                next => rfl
                next => exact out_files _ _ _ _ _
              intro through
              simp only [mmapped,Bool.not_eq_false,Bool.and_eq_true,Bool.or_eq_true,
                Bool.not_eq_eq_eq_not,Bool.not_true,decide_eq_true_eq] at opens stats mapped permitted through
              refine unstamped ⟨mode,opens,stats,Nat.not_le.mp long,mapped.1.1,mapped.2,?_,through⟩
              intro enforces
              simpa [enforces] using permitted

structure Run where
  calls : Calls
  argv : List (List Char)

def StampsAt (kernel : Kernel) (path : List Char) (content : List Byte) (run : Run) : Prop :=
  (parseArgument run.argv).path = path ∧ Stamps kernel run.calls (parseArgument run.argv) content

theorem main_unwritten (kernel : Kernel) (calls : Calls) (files : Files) (argv : List (List Char))
    (not : (parseArgument argv).mode ≠ .write) : (main kernel calls files argv).files = files := by
  rw [main]
  split
  next => exact readFromFile_files _ _ _ _
  next writes => exact absurd writes not
  next => rfl

open Classical in
/-- One run: a file is stamped or stays as it is. -/
theorem main_files (kernel : Kernel) (files : Files) (path : List Char) (run : Run) :
    (main kernel run.calls files run.argv).files path = (files path).map
      (fun content => if StampsAt kernel path content run then stamp content else content) := by
  by_cases mode : (parseArgument run.argv).mode = .write
  · have unfolded : main kernel run.calls files run.argv =
        writeToFile kernel run.calls files (parseArgument run.argv) mmapWrite := by rw [main,mode]
    rw [unfolded]
    cases there : files (parseArgument run.argv).path with
    | none =>
      have refused : (writeToFile kernel run.calls files (parseArgument run.argv) mmapWrite).files = files := by
        rw [writeToFile,there]
        rfl
      rw [refused]
      cases found : files path with
      | none => rfl
      | some content =>
        have apart : ¬StampsAt kernel path content run := by
          rintro ⟨rfl,_⟩
          simp [there] at found
        simp [apart]
    | some content =>
      obtain ⟨stamped,unstamped⟩ := writeToFile_files kernel run.calls files _ content there mode
      by_cases stamps : Stamps kernel run.calls (parseArgument run.argv) content
      · rw [stamped stamps]
        by_cases same : (parseArgument run.argv).path = path
        · subst same
          have here : StampsAt kernel (parseArgument run.argv).path content run := ⟨rfl,stamps⟩
          simp [there,here]
        · rw [Function.update_of_ne (Ne.symm same)]
          simp [StampsAt,same]
      · rw [unstamped stamps]
        by_cases same : (parseArgument run.argv).path = path
        · subst same
          have not : ¬StampsAt kernel (parseArgument run.argv).path content run := fun here => stamps here.2
          simp [there,not]
        · simp [StampsAt,same]
  · rw [main_unwritten kernel run.calls files run.argv mode]
    have never (content : List Byte) : ¬StampsAt kernel path content run := fun here => mode here.2.mode
    simp [never]

def history (kernel : Kernel) : Files → List Run → Files
  | files, [] => files
  | files, run :: runs => history kernel (main kernel run.calls files run.argv).files runs

open Classical in
theorem history_map (kernel : Kernel) (runs : List Run) (files : Files) (path : List Char) :
    history kernel files runs path = (files path).map (fun content =>
      if ∃ run ∈ runs, StampsAt kernel path content run then stamp content else content) := by
  induction runs generalizing files with
  | nil => simp [history]
  | cons run runs ih =>
    rw [history,ih,main_files,Option.map_map]
    apply congrArg (Option.map · (files path))
    funext content
    by_cases first : StampsAt kernel path content run
    · -- a second stamp changes nothing
      have some : ∃ other ∈ run :: runs, StampsAt kernel path content other := ⟨run,List.mem_cons_self,first⟩
      rw [if_pos some,Function.comp,if_pos first]
      split
      next => exact stamp_stamp content
      next => rfl
    · simp [Function.comp,first]

/-- After any number of runs on any files, with whatever calls failing, a file has
its old size and its old bytes, or the string over the first of them. It has the
string exactly when one of the runs could write it through, which on a kernel that
copies takes MAP_SHARED and, if protection is enforced, PROT_WRITE. -/
theorem history_stamped (kernel : Kernel) (runs : List Run) (files : Files) (path : List Char)
    (content : List Byte) (there : files path = some content) :
    ∃ final, history kernel files runs path = some final ∧ final.length = content.length ∧
      ((∃ run ∈ runs, StampsAt kernel path content run) → final = stamp content) ∧
      ((∀ run ∈ runs, ¬StampsAt kernel path content run) → final = content) := by
  classical
  rw [history_map,there,Option.map_some]
  refine ⟨_,rfl,?_,?_,?_⟩
  · split
    next written =>
      obtain ⟨run,_,stamps⟩ := written
      exact length_stamp content stamps.2.long
    next => rfl
  · intro written
    exact if_pos written
  · intro unwritten
    exact if_neg (by simpa using unwritten)

def privateAndShared : List Run :=
  [⟨working,["lv11".toList,"w".toList,"rwp".toList,"tempfile".toList]⟩,
    ⟨working,["lv11".toList,"ws".toList,"rws".toList,"tempfile".toList]⟩]

theorem history_stamped_shared :
    history ⟨4096,true,true,true,true⟩ (fun _ => some (List.replicate 12 7)) privateAndShared "tempfile".toList =
      some (mmapWrite ++ [0,7]) := by
  obtain ⟨final,ran,_,stamped,_⟩ := history_stamped ⟨4096,true,true,true,true⟩ privateAndShared
    (fun _ => some (List.replicate 12 7)) "tempfile".toList (List.replicate 12 7) rfl
  rw [ran,stamped ⟨_,List.mem_cons_of_mem _ List.mem_cons_self,rfl,rfl,rfl,rfl,by decide,rfl,.inl rfl,
    fun _ => rfl,.inl rfl⟩]
  rfl

/-! The command lines of run_testset.sh. -/

inductive CheckScript where
  | segv
  | exitStatus
  deriving DecidableEq

def status : Ended → Option Nat
  | .exited status => some status
  | .segv => some 139
  | .overrun => none

/-- `rc` after the check script. -/
def check : CheckScript → Option Nat → Nat
  | .segv, status => if status ≠ some 139 then 1 else 0
  | .exitStatus, status => if status ≠ some 0 then 1 else 0

structure Line where
  mode : String
  prot : String
  script : CheckScript

def lines : List Line :=
  [⟨"w","rp",.segv⟩,⟨"w","rwp",.exitStatus⟩,⟨"w","rep",.segv⟩,⟨"w","rwep",.exitStatus⟩,⟨"w","wp",.exitStatus⟩,
    ⟨"w","wep",.exitStatus⟩,⟨"w","ep",.segv⟩,⟨"r","rp",.exitStatus⟩,⟨"r","rwp",.exitStatus⟩,
    ⟨"r","rep",.exitStatus⟩,⟨"r","rwep",.exitStatus⟩,⟨"r","wp",.exitStatus⟩,⟨"r","wep",.exitStatus⟩,
    ⟨"r","ep",.exitStatus⟩]

def Line.argv (temp : List Char) (line : Line) : List (List Char) :=
  ["lv11".toList,line.mode.toList,line.prot.toList,temp]

/-- The lines one after the other on the same file, with the results of their checks. -/
def session (kernel : Kernel) (temp : List Char) : Files → List Line → List Nat
  | _, [] => []
  | files, line :: rest =>
    let outcome := main kernel working files (line.argv temp)
    check line.script (status outcome.ended) :: session kernel temp outcome.files rest

/-- A file that has room for the string and a string in it that ends. -/
def Fit (files : Files) (temp : List Char) : Prop :=
  ∃ content, files temp = some content ∧ mmapWrite.length < content.length ∧ 0 ∈ content

theorem fit_after (kernel : Kernel) (files : Files) (temp : List Char) (run : Run) (fit : Fit files temp) :
    Fit (main kernel run.calls files run.argv).files temp := by
  classical
  obtain ⟨content,there,long,ends⟩ := fit
  rw [Fit,main_files,there,Option.map_some]
  split
  next => exact ⟨_,rfl,(length_stamp content long).symm ▸ long,zero_mem_stamp content⟩
  next => exact ⟨content,rfl,long,ends⟩

def Line.protBits (line : Line) : Prot := (parseArgument (line.argv [])).mmapProt

/-- All the lines map privately; those that are to fault write without PROT_WRITE. -/
theorem lines_parsed (temp : List Char) (short : temp.length < bufSize) (line : Line) (listed : line ∈ lines) :
    ∃ mode, parseArgument (line.argv temp) = ⟨mode,false,line.protBits,⟨false,true⟩,temp⟩ ∧
      (mode = .write ∧ (line.script = .segv ↔ line.protBits.write = false) ∨
        mode = .read ∧ line.script = .exitStatus) := by
  have whole : temp.take (bufSize-1) = temp := List.take_of_length_le (by omega)
  simp only [lines,List.mem_cons,List.not_mem_nil,or_false] at listed
  rcases listed with rfl | rfl | rfl | rfl | rfl | rfl | rfl | rfl | rfl | rfl | rfl | rfl | rfl | rfl
  all_goals
    refine ⟨_,congrArg (Args.mk _ _ _ _) whole,?_⟩
    decide

section
variable (kernel : Kernel) (files : Files) (prot : Prot) (temp : List Char) (fit : Fit files temp)
include fit

theorem write_ended :
    (writeToFile kernel working files ⟨.write,false,prot,⟨false,true⟩,temp⟩ mmapWrite).ended =
      if kernel.enforces && !prot.write then .segv else if kernel.readable prot then .exited 0 else .segv := by
  obtain ⟨content,there,long,_⟩ := fit
  obtain ⟨text,shown⟩ := printed_mapping kernel (stamp content) (zero_mem_stamp content)
  have mapped : mmapped working ⟨false,true⟩ content.length = true := by
    simp only [mmapped,working,Bool.true_and,Bool.or_true,Bool.and_true,decide_eq_true_eq]
    omega
  rw [writeToFile,there]
  simp only [working,Bool.not_true,Bool.false_eq_true,if_false,Nat.not_le.mpr long]
  rw [← working,mapped,← stamp,shown,if_neg (by decide)]
  cases kernel.readable prot <;> split <;> rfl

theorem read_ended :
    (readFromFile kernel working files ⟨.read,false,prot,⟨false,true⟩,temp⟩).ended =
      if kernel.readable prot then .exited 0 else .segv := by
  obtain ⟨content,there,long,ends⟩ := fit
  obtain ⟨text,shown⟩ := printed_mapping kernel content ends
  have mapped : mmapped working ⟨false,true⟩ content.length = true := by
    simp only [mmapped,working,Bool.true_and,Bool.or_true,Bool.and_true,decide_eq_true_eq]
    omega
  have calls : working.opens = true ∧ working.stats = true := ⟨rfl,rfl⟩
  rw [readFromFile,there]
  simp only [calls,mapped,shown,Bool.not_true,Bool.false_eq_true,if_false]
  cases kernel.readable prot <;> rfl
end

theorem line_rc (kernel : Kernel) (files : Files) (temp : List Char) (short : temp.length < bufSize)
    (fit : Fit files temp) (line : Line) (listed : line ∈ lines) :
    check line.script (status (main kernel working files (line.argv temp)).ended) = 0 ↔
      (line.script = .segv → kernel.enforces = true) ∧
        (line.script = .exitStatus → kernel.readable line.protBits = true) := by
  obtain ⟨mode,parsed,either⟩ := lines_parsed temp short line listed
  rw [main,parsed]
  rcases either with ⟨rfl,faults⟩ | ⟨rfl,script⟩
  · dsimp only
    rw [write_ended kernel files line.protBits temp fit]
    cases script : line.script with
    | segv =>
      -- without protection the mapping can be written, and read
      cases enforces : kernel.enforces <;> simp [faults.mp script,Kernel.readable,enforces,check,status]
    | exitStatus =>
      have writable : line.protBits.write = true := by
        rw [← Bool.not_eq_false,← faults,script]
        decide
      cases readable : kernel.readable line.protBits <;> simp [writable,check,status]
  · dsimp only
    rw [read_ended kernel files line.protBits temp fit,script]
    cases readable : kernel.readable line.protBits <;> simp [check,status]

theorem session_passes_iff (kernel : Kernel) (temp : List Char) (short : temp.length < bufSize) (rest : List Line)
    (listed : ∀ line ∈ rest, line ∈ lines) (files : Files) (fit : Fit files temp) :
    (∀ rc ∈ session kernel temp files rest, rc = 0) ↔
      ∀ line ∈ rest, (line.script = .segv → kernel.enforces = true) ∧
        (line.script = .exitStatus → kernel.readable line.protBits = true) := by
  induction rest generalizing files with
  | nil => simp [session]
  | cons line rest ih =>
    rw [List.forall_mem_cons] at listed
    have next := fit_after kernel files temp ⟨working,line.argv temp⟩ fit
    rw [session,List.forall_mem_cons,List.forall_mem_cons,line_rc kernel files temp short fit line listed.1,
      ih listed.2 _ next]

/-- The fourteen lines on a file that has room for the string are accepted by their
checks exactly on kernels that enforce protection and let mappings be read that may
be written or that may be executed. Whether a private mapping is copied on a write
makes no difference. -/
theorem lines_accepted_iff (kernel : Kernel) (temp : List Char) (short : temp.length < bufSize) (files : Files)
    (content : List Byte) (there : files temp = some content) (long : mmapWrite.length < content.length)
    (ends : 0 ∈ content) :
    (∀ rc ∈ session kernel temp files lines, rc = 0) ↔
      kernel.enforces = true ∧ kernel.writeReads = true ∧ kernel.execReads = true := by
  rw [session_passes_iff kernel temp short lines (fun _ listed => listed) files ⟨content,there,long,ends⟩]
  constructor
  · intro all
    have enforces := (all ⟨"w","rp",.segv⟩ (by simp [lines])).1 rfl
    have writes : kernel.readable ⟨false,true,false⟩ = true := (all ⟨"r","wp",.exitStatus⟩ (by simp [lines])).2 rfl
    have execs : kernel.readable ⟨false,false,true⟩ = true := (all ⟨"r","ep",.exitStatus⟩ (by simp [lines])).2 rfl
    simp only [Kernel.readable,enforces,Bool.not_true,Bool.false_or,Bool.true_and,Bool.false_and,Bool.or_false]
      at writes execs
    exact ⟨enforces,writes,execs⟩
  · rintro ⟨enforces,writes,execs⟩ line listed
    have some : line.script = .exitStatus →
        (line.protBits.read || line.protBits.write || line.protBits.exec) = true := by
      revert line
      decide
    exact ⟨fun _ => enforces,fun script => by simpa [Kernel.readable,enforces,writes,execs] using some script⟩

/-- A kernel without copy-on-write. -/
theorem lines_accepted_iff_uncopied : mmapWrite.length < 12 ∧
    ∀ rc ∈ session ⟨4096,true,false,true,true⟩ "tempfile".toList (fun _ => some (List.replicate 12 0)) lines, rc = 0 :=
  ⟨by decide,(lines_accepted_iff ⟨4096,true,false,true,true⟩ "tempfile".toList (by decide) _ (List.replicate 12 0) rfl
    (by decide) (by decide)).mpr ⟨rfl,rfl,rfl⟩⟩

end Ostest.CopyOnWrite
