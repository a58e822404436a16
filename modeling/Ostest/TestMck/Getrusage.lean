import Ostest.Lib.Decimal
import Ostest.Lib.Stdio

/-! Tests getrusage/000 to 002 and what they leave in the record: the usage before and
after two seconds of computing and two of sleeping, of a process, of its children
and of a thread. What getrusage counts is not negative. -/
namespace Ostest.TestMck.Getrusage
open Lib.Decimal Lib.Stdio

abbrev Line := List Char

structure Timeval where
  sec : Nat
  usec : Nat
  deriving DecidableEq

/-- The fields that are printed when they are not 0. -/
inductive Counter where
  | ixrss
  | idrss
  | isrss
  | minflt
  | majflt
  | nswap
  | inblock
  | oublock
  | msgsnd
  | msgrcv
  | nsignals
  | nvcsw
  | nivcsw

def Counter.name : Counter → String
  | .ixrss => "ru_ixrss"
  | .idrss => "ru_idrss"
  | .isrss => "ru_isrss"
  | .minflt => "ru_minflt"
  | .majflt => "ru_majflt"
  | .nswap => "ru_nswap"
  | .inblock => "ru_inblock"
  | .oublock => "ru_oublock"
  | .msgsnd => "ru_msgsnd"
  | .msgrcv => "ru_msgrcv"
  | .nsignals => "ru_nsignals"
  | .nvcsw => "ru_nvcsw"
  | .nivcsw => "ru_nivcsw"

def counters : List Counter :=
  [.ixrss,.idrss,.isrss,.minflt,.majflt,.nswap,.inblock,.oublock,.msgsnd,.msgrcv,.nsignals,.nvcsw,.nivcsw]

structure Usage where
  utime : Timeval
  stime : Timeval
  maxrss : Nat
  counter : Counter → Nat

def fieldLine (name : String) (value : Line) : Line := "  ".toList ++ name.toList ++ '=' :: value

/-- `%lds + %ldus` -/
def Timeval.text (time : Timeval) : Line := decimal time.sec ++ "s + ".toList ++ decimal time.usec ++ "us".toList

def dashes : Line := "------------------------------".toList

def showRusage (usage : Usage) : List Line :=
  [dashes,"show_rusage():".toList,fieldLine "ru_utime" usage.utime.text,fieldLine "ru_stime" usage.stime.text,
    fieldLine "ru_maxrss" (decimal usage.maxrss)] ++
  (counters.filter (fun c => usage.counter c ≠ 0)).map (fun c => fieldLine c.name (decimal (usage.counter c))) ++
  [dashes]

inductive Message where
  | signalFailed
  | getrusageFailed
  | mmapFailed
  | forkFailed
  | threadFailed
  | checkRusage
  deriving DecidableEq

def Message.text : Message → String
  | .signalFailed => "signal(SIGALRM) failed"
  | .getrusageFailed => "getrusage() failed."
  | .mmapFailed => "mmap() failed."
  | .forkFailed => "fork() Failed."
  | .threadFailed => "failed to create thread"
  | .checkRusage => "you need check rusage value"

inductive Text where
  | testSuite
  | testNumber (number : Fin 3)
  | args
  | allocation
  | alarm
  | sleep
  | free
  | signalFailed
  | mmapFailed
  | parentBefore
  | parentAfter
  | childBefore
  | childAfter
  | result (message : Message)

def Text.text : Text → String
  | .testSuite => "TEST_SUITE: getrusage"
  | .testNumber 0 => "TEST_NUMBER: 0"
  | .testNumber 1 => "TEST_NUMBER: 1"
  | .testNumber 2 => "TEST_NUMBER: 2"
  | .args => "ARGS: "
  | .allocation => "allocation memory 16777216 byte(16384 KiB)"
  | .alarm => "alarm 2 seconds wait."
  | .sleep => "sleep 2 seconds wait."
  | .free => "free memory 16777216 byte(16384 KiB)"
  | .signalFailed => "signal(SIGALRM) failed."
  | .mmapFailed => "mmap() failed."
  | .parentBefore => "[parent before]"
  | .parentAfter => "[parent after]"
  | .childBefore => "[child before]"
  | .childAfter => "[child after]"
  | .result message => "RESULT: " ++ message.text

/-- What is printed in one piece. -/
inductive Item where
  | text (line : Text)
  | usage (used : Usage)
  | failed (errno : Int)

def Item.lines : Item → List Line
  | .text line => [line.text.toList]
  | .usage used => showRusage used
  | .failed errno => ["getrusage() failed. (".toList ++ integer errno ++ [')']]

/-- How getrusage is answered: errno, or the usage. -/
abbrev Answer := Except Int Usage

def sendAndShowRusage : Answer → Item
  | .ok usage => .usage usage
  | .error errno => .failed errno

/-- How mmap can be answered; the tests only ask for NULL, and write to the address
that stands for a failure. -/
inductive Mapping where
  | null
  | failed
  | mapped
  deriving DecidableEq

inductive Process where
  | parent
  | child
  deriving DecidableEq

abbrev Stdout := Io Process Item

inductive Ending where
  | returned (message : Message)
  | crashed

def texts (list : List Text) : List Item := list.map .text

/-! Test 000. -/

structure Answers000 where
  signalled : Bool
  first : Answer
  mapping : Mapping
  second : Answer
  third : Answer

def runFunc000 (answers : Answers000) (io : Stdout) : Stdout × Ending :=
  if !answers.signalled then (io,.returned .signalFailed)
  else
    let io := io.print .parent [sendAndShowRusage answers.first]
    if answers.first.isOk then
      let io := io.print .parent (texts [.allocation])
      match answers.mapping with
      | .null => (io,.returned .mmapFailed)
      | .failed => (io,.crashed)
      | .mapped =>
        let io := io.print .parent (texts [.alarm,.sleep])
        let io := io.print .parent [sendAndShowRusage answers.second]
        if answers.second.isOk then
          let io := io.print .parent (texts [.free])
          let io := io.print .parent [sendAndShowRusage answers.third]
          if answers.third.isOk then (io,.returned .checkRusage) else (io,.returned .getrusageFailed)
        else (io,.returned .getrusageFailed)
    else (io,.returned .getrusageFailed)

/-! Test 001. -/

/-- What becomes of the child: it can fail on the way, and still exits with 0, or die. -/
inductive Course where
  | signalFailed
  | unmapped
  | crashed
  | finished
  deriving DecidableEq

/-- `getrusage001_child` and the exit behind it. -/
def child001 (course : Course) (io : Stdout) : Stdout :=
  match course with
  | .signalFailed => (io.print .child (texts [.signalFailed])).flush .child
  | .unmapped => (io.print .child (texts [.allocation,.mmapFailed])).flush .child
  | .crashed => (io.print .child (texts [.allocation])).kill .child
  | .finished => (io.print .child (texts [.allocation,.alarm,.sleep,.free])).flush .child

structure Answers001 where
  first : Answer
  forked : Bool
  course : Course
  second : Answer

def runFunc001 (answers : Answers001) (io : Stdout) : Stdout × Ending :=
  let io := io.print .parent [sendAndShowRusage answers.first]
  if answers.first.isOk then
    if answers.forked then
      -- The parent waits for the child, so that the child is through with its output.
      let io := child001 answers.course (io.fork .parent .child)
      let io := io.print .parent [sendAndShowRusage answers.second]
      if answers.second.isOk then (io,.returned .checkRusage) else (io,.returned .getrusageFailed)
    else (io,.returned .forkFailed)
  else (io,.returned .getrusageFailed)

/-! Test 002. -/

structure Answers002 where
  first : Answer
  created : Bool
  childFirst : Answer
  signalled : Bool
  mapping : Mapping
  childSecond : Answer
  second : Answer

/-- `getrusage002_child`, and whether it comes to its end: what kills a thread kills
the process. -/
def child002 (answers : Answers002) (io : Stdout) : Stdout × Bool :=
  let io := io.print .parent [.text .childBefore,sendAndShowRusage answers.childFirst]
  if answers.childFirst.isOk then
    if !answers.signalled then (io.print .parent (texts [.signalFailed]),true)
    else
      let io := io.print .parent (texts [.allocation])
      match answers.mapping with
      | .null => (io.print .parent (texts [.mmapFailed]),true)
      | .failed => (io,false)
      | .mapped =>
        let io := io.print .parent (texts [.alarm,.sleep,.free,.childAfter])
        (io.print .parent [sendAndShowRusage answers.childSecond],true)
  else (io,true)

def runFunc002 (answers : Answers002) (io : Stdout) : Stdout × Ending :=
  let io := io.print .parent [.text .parentBefore,sendAndShowRusage answers.first]
  if answers.first.isOk then
    if answers.created then
      let (io,alive) := child002 answers io
      if alive then
        let io := io.print .parent [.text .parentAfter,sendAndShowRusage answers.second]
        if answers.second.isOk then (io,.returned .checkRusage) else (io,.returned .getrusageFailed)
      else (io,.crashed)
    else (io,.returned .threadFailed)
  else (io,.returned .getrusageFailed)

/-- What main leaves in the record: it flushes before the run, and on its return. -/
def record (buffered : Bool) (number : Fin 3) (runFunc : Stdout → Stdout × Ending) : List Item :=
  let io := ((start buffered).print .parent (texts [.testSuite,.testNumber number,.args])).flush .parent
  match runFunc io with
  | (io,.returned message) => ((io.print .parent (texts [.result message])).flush .parent).record
  | (io,.crashed) => (io.kill .parent).record

def record000 (buffered : Bool) (answers : Answers000) : List Item := record buffered 0 (runFunc000 answers)

def record001 (buffered : Bool) (answers : Answers001) : List Item := record buffered 1 (runFunc001 answers)

def record002 (buffered : Bool) (answers : Answers002) : List Item := record buffered 2 (runFunc002 answers)

end Ostest.TestMck.Getrusage
