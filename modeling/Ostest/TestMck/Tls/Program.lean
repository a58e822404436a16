import Ostest.Lib.Threads
import Ostest.TestMck.Main

/-! Test tls/001: threads that count in a variable of their own and in a common
one, each between a semaphore for the main thread and one for itself. -/
namespace Ostest.TestMck.Tls
open Lib.Calls Lib.Runs Lib.Threads

/-- The switch in SETUP_FUNC; atol is strtol. -/
def setupOption (_ : Int) : Lib.Getopt.Answer → Except Int Int
  | .option 't' (some optarg) => .ok (strtol optarg)
  | _ => .error 0

def setupFunc (s : Lib.Getopt.State) : Option Int :=
  match Lib.Getopt.scan (Lib.Getopt.getopt "t:".toList) setupOption (Lib.Getopt.fuel s) (-1) s with
  | none => none
  | some (.error arg) => some arg
  | some (.ok (t,_)) => some t

/-- The counts that `int i` can reach. -/
abbrev Count := {count : Int // count < 2^31}

@[irreducible]
def incCount : Nat := 10000

inductive Party (n : Nat) where
  | main
  | thread (i : Fin n)
  deriving DecidableEq

/-- `sync` and `start` of `children[i]`. -/
inductive Sem where
  | sync (i : Nat)
  | start (i : Nat)
  deriving DecidableEq

inductive Line where
  | wait (num : Nat)
  | start (num : Nat)
  | counts (num : Nat) (tls notls : Int)

inductive Message where
  | mandatory
  | callocError
  | invalidTls
  deriving DecidableEq

def Message.text : Message → String
  | .mandatory => "mandatory parameter '-t <child_thread_count>'\n"
  | .callocError => "calloc error."
  | .invalidTls => "invalid TLS value."

abbrev Msg := Option Message

inductive Request where
  | calloc
  | pthreadCreate (i : Nat)
  /-- The thread comes into being. -/
  | begin (i : Nat)
  | semPost (sem : Sem)
  | semWait (sem : Sem)
  | printf (line : Line)
  | fflush
  | loadTls
  | storeTls (value : Int)
  | loadNotls
  | storeNotls (value : Int)
  | loadChild (i : Nat)
  | storeChild (i : Nat) (value : Int)
  /-- The thread returns. -/
  | finish (i : Nat)
  | pthreadJoin (i : Nat)
  | semDestroy (sem : Sem)
  | free

/-- calloc is answered by whether there is memory. -/
abbrev Request.Answer : Request → Type
  | .calloc => Bool
  | .pthreadCreate _ | .loadTls | .loadNotls | .loadChild _ => Int
  | _ => Unit

abbrev Code := Prog Request Request.Answer

def ask (asked : Request) : Code asked.Answer := request asked

/-- One round of the loop in `func`; each `++` is a read and a write. -/
def increment : Code PUnit := do
  let tls ← ask .loadTls
  let _ ← ask (.storeTls (tls+1))
  let notls ← ask .loadNotls
  let _ ← ask (.storeNotls (notls+1))
  return

def func (i : Nat) : Code Unit := do
  let _ ← ask (.begin i)
  let _ ← ask (.semPost (.sync i))
  let _ ← ask (.printf (.wait i))
  let _ ← ask (.semWait (.start i))
  let _ ← ask (.printf (.start i))
  (List.range incCount).forM fun _ => increment
  let tls ← ask .loadTls
  let _ ← ask (.storeChild i tls)
  let tls ← ask (.loadChild i)
  let notls ← ask .loadNotls
  let _ ← ask (.printf (.counts i tls notls))
  let _ ← ask (.finish i)
  return

def checkTls : List Nat → Code Msg
  | [] => do
    let _ ← ask .free
    return none
  | i :: rest => do
    let tls ← ask (.loadChild i)
    if tls = incCount then checkTls rest else return some .invalidTls

def destroy (i : Nat) : Code PUnit := do
  let _ ← ask (.pthreadJoin i)
  let _ ← ask (.semDestroy (.sync i))
  let _ ← ask (.semDestroy (.start i))
  return

/-- RUN_FUNC from the creation of the threads on. What `pthread_create` returns is
not looked at. -/
def runThreads (n : Nat) : Code Msg := do
  (List.range n).forM fun i => do
    let _ ← ask (.pthreadCreate i)
    return
  (List.range n).forM fun i => do
    let _ ← ask (.semWait (.sync i))
    return
  let _ ← ask .fflush
  (List.range n).forM fun i => do
    let _ ← ask (.semPost (.start i))
    return
  (List.range n).forM destroy
  checkTls (List.range n)

def runFunc (childCount : Count) : Code Msg :=
  if 0 < childCount.val then do
    let memory ← ask .calloc
    if memory then runThreads childCount.val.toNat else return some .callocError
  else return some .mandatory

/-- What the threads synchronise on, and the values that are checked. The value of
a semaphore is the number of its posts less that of the waits that have returned. -/
structure Sync (n : Nat) where
  created : Nat → Bool
  posts : Sem → Nat
  waits : Sem → Nat
  tls : Party n → Int
  childTls : Nat → Int
  done : Nat → Bool

structure Shared (n : Nat) extends Sync n where
  notls : Int
  output : List Line

def Sync.serve {n : Nat} (who : Party n) (v : Sync n) : (asked : Request) → asked.Answer → Option (Sync n)
  | .pthreadCreate i, reply => some {v with created := Function.update v.created i (v.created i || reply == 0)}
  | .begin i, _ => if v.created i then some v else none
  | .semPost sem, _ => some {v with posts := Function.update v.posts sem (v.posts sem+1)}
  | .semWait sem, _ =>
    if v.waits sem < v.posts sem then some {v with waits := Function.update v.waits sem (v.waits sem+1)}
    else none
  | .loadTls, reply => if reply = v.tls who then some v else none
  | .storeTls value, _ => some {v with tls := Function.update v.tls who value}
  | .loadChild i, reply => if reply = v.childTls i then some v else none
  | .storeChild i value, _ => some {v with childTls := Function.update v.childTls i value}
  | .finish i, _ => some {v with done := Function.update v.done i true}
  | .pthreadJoin i, _ => if v.done i then some v else none
  | _, _ => some v

/-- How a call is answered. -/
def serve {n : Nat} (who : Party n) (s : Shared n) : (asked : Request) → asked.Answer → Option (Shared n)
  | .printf line, _ => some {s with output := s.output ++ [line]}
  | .loadNotls, reply => if reply = s.notls then some s else none
  | .storeNotls value, _ => some {s with notls := value}
  | asked, reply => (s.toSync.serve who asked reply).map (fun v => {s with toSync := v})

abbrev Value {n : Nat} : Party n → Type
  | .main => Msg
  | .thread _ => Unit

abbrev System (n : Nat) := World (Party n) Request.Answer Value (Shared n)

def start (childCount : Count) : System childCount.val.toNat where
  progs
    | .main => runFunc childCount
    | .thread i => func i
  shared := ⟨⟨fun _ => false,fun _ => 0,fun _ => 0,fun _ => 0,fun _ => 0,fun _ => false⟩,0,[]⟩

instance (asked : Request) : Inhabited asked.Answer := by
  cases asked <;> exact inferInstance

end Ostest.TestMck.Tls
