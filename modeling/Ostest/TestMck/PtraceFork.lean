import Ostest.Lib.Runs
import Ostest.TestMck.Ptrace

/-! Test ptrace/015: a tracing parent, its child, and the grandchild that is
traced from its fork on, under every interleaving and every choice wait() has.
A ptrace request to a child that is stopped succeeds. Between two waits the
parent touches only the child it has stopped, so such a stretch is one step. -/
namespace Ostest.TestMck.PtraceFork
open Lib.Runs Lib.WaitStatus
open Ptrace (Msg verdict)

/-- Results of the calls that are not about tracing: the forks of the test and
of its child, PTRACE_TRACEME, and the pid of the grandchild. -/
structure Calls where
  fork : Bool
  traceme : Bool
  childFork : Bool
  gcpid : Nat

inductive Who where
  | child
  | grandchild
  deriving DecidableEq

/-- Where the child stands. A stop or an end is `seen` once a wait reported it. -/
inductive Child where
  | begins
  | trap1 (seen : Bool)
  | forking
  | forked
  | event (seen : Bool)
  | storing
  | trap2 (seen : Bool)
  | leaving
  | ended (code : BitVec 8) (seen : Bool)
  deriving DecidableEq

inductive Grandchild where
  | absent
  | young
  | stopped (seen : Bool)
  | dead (seen : Bool)
  deriving DecidableEq

/-- The wait at which the parent stands; the last one is that of the RUN_FUNC.
`read` is what the verdict was taken from. -/
inductive Parent where
  | firstWait
  | eventWait
  | trapWait
  | finalWait (funcRet : Int)
  | returned (msg : Msg) (read : Option (Who × Report))
  deriving DecidableEq

structure State where
  child : Child
  grandchild : Grandchild
  killed : Bool
  eventpid : Nat
  eventmsg : Nat
  parent : Parent
  deriving DecidableEq

inductive Action where
  | child
  | grandchild
  /-- `pick` is the process whose report the wait of this step returns. -/
  | parent (pick : Who)
  deriving DecidableEq

def start (calls : Calls) : State where
  child := .begins
  grandchild := .absent
  killed := false
  eventpid := 0
  eventmsg := 0
  parent := if calls.fork then .firstWait else .returned (some "fork() failed.") none

/-! The child and the grandchild. -/

/-- `child_func` up to its next stop, and the exit with its value. -/
def childStep (calls : Calls) (s : State) : Option State :=
  match s.child with
  | .begins => some {s with child := if calls.traceme then .trap1 false else .ended 255 false}
  | .forking =>
    if calls.childFork then
      some {s with child := .forked, grandchild := .young, eventmsg := calls.gcpid}
    else some {s with child := .ended 255 false}
  | .forked => some {s with child := .event false}
  | .storing => some {s with child := .trap2 false, eventpid := calls.gcpid}
  | .leaving => some {s with child := .ended 0 false}
  | _ => none

/-- It stops before its first instruction and is never continued. -/
def grandchildStep (s : State) : Option State :=
  match s.grandchild,s.killed with
  | .young,false => some {s with grandchild := .stopped false}
  | .young,true | .stopped _,true => some {s with grandchild := .dead false}
  | _,_ => none

/-! The waits of the parent. -/

def ptraceEventFork : Nat := 1

def pending (s : State) : Who → Option Report
  | .child =>
    match s.child with
    | .trap1 false | .trap2 false => some (.stopped sigtrap 0)
    | .event false => some (.stopped sigtrap ptraceEventFork)
    | .ended code false => some (.exited code)
    | _ => none
  | .grandchild =>
    match s.grandchild with
    | .stopped false => some (.stopped sigstop 0)
    | .dead false => some (.signaled sigkill false)
    | _ => none

def collect (s : State) : Who → State
  | .child =>
    match s.child with
    | .trap1 _ => {s with child := .trap1 true}
    | .event _ => {s with child := .event true}
    | .trap2 _ => {s with child := .trap2 true}
    | .ended code _ => {s with child := .ended code true}
    | _ => s
  | .grandchild =>
    match s.grandchild with
    | .stopped _ => {s with grandchild := .stopped true}
    | .dead _ => {s with grandchild := .dead true}
    | _ => s

def waitable (s : State) : Who → Bool
  | .child => match s.child with
    | .ended _ true => false
    | _ => true
  | .grandchild => match s.grandchild with
    | .absent | .dead true => false
    | _ => true

/-- A wait that covers the processes `among`; `none` when it blocks. -/
def waited (among : List Who) (s : State) (pick : Who) :
    Option (Option (Who × Report) × State) :=
  if among.all (fun who => !waitable s who) then some (none,s)
  else if pick ∈ among then (pending s pick).map fun report => (some (pick,report),collect s pick)
  else none

/-! The parent. -/

/-- PTRACE_CONT; `none` when the child is not stopped. -/
def Child.cont : Child → Option Child
  | .trap1 _ => some .forking
  | .event _ => some .storing
  | .trap2 _ => some .leaving
  | _ => none

def isStop : Option (Who × Report) → Bool
  | some (.child,report) => wifstopped report.status
  | _ => false

def onward (s : State) (got : Option (Who × Report)) (next : State → Child → State) : State :=
  if isStop got then
    match s.child.cont with
    | some child => next s child
    | none => {s with parent := .finalWait (-1)}
  else {s with parent := .finalWait (-1)}

/-- `rewrite_brk_inst`, PTRACE_SETOPTIONS and PTRACE_CONT. -/
def afterFirstTrap (s : State) (child : Child) : State :=
  {s with child, parent := .eventWait}

def afterEvent (s : State) (child : Child) : State :=
  {s with child, parent := .trapWait}

/-- `rewrite_brk_inst`, the two readings of the pid, the kill and PTRACE_CONT. -/
def afterSecondTrap (calls : Calls) (s : State) (child : Child) : State :=
  if s.eventpid = s.eventmsg then
    {s with child, killed := s.eventmsg == calls.gcpid, parent := .finalWait 0}
  else {s with child, parent := .finalWait (-1)}

def parentStep (calls : Calls) (s : State) (pick : Who) : Option State :=
  match s.parent with
  | .firstWait => (waited [.child,.grandchild] s pick).map fun (got,s) => onward s got afterFirstTrap
  | .eventWait => (waited [.child,.grandchild] s pick).map fun (got,s) => onward s got afterEvent
  | .trapWait => (waited [.child] s pick).map fun (got,s) => onward s got (afterSecondTrap calls)
  | .finalWait funcRet => (waited [.child,.grandchild] s pick).map fun (got,s) =>
    {s with parent := .returned (verdict funcRet (got.map Prod.snd)) got}
  | .returned _ _ => none

def step (calls : Calls) (s : State) : Action → Option State
  | .child => childStep calls s
  | .grandchild => grandchildStep s
  | .parent pick => parentStep calls s pick

/-! What holds as long as no wait returns a report of the grandchild, and after
one has. -/

def OnTrack (calls : Calls) (s : State) : Prop :=
  match s.parent with
  | .firstWait => (s.child = .begins ∨ s.child = .trap1 false) ∧ s.grandchild = .absent
  | .eventWait => (s.child = .forking ∧ s.grandchild = .absent) ∨
      ((s.child = .forked ∨ s.child = .event false) ∧ s.eventmsg = calls.gcpid)
  | .trapWait => s.eventmsg = calls.gcpid ∧
      (s.child = .storing ∨ (s.child = .trap2 false ∧ s.eventpid = calls.gcpid))
  | .finalWait funcRet => funcRet = 0 ∧ (s.child = .leaving ∨ s.child = .ended 0 false)
  | .returned msg read => msg = none ∧ read = some (.child,.exited 0)

def OffTrack (s : State) : Prop :=
  match s.parent with
  | .finalWait funcRet => funcRet = -1 ∧ (s.child = .forked ∨ s.child = .event false)
  | .returned _ read => ∀ code, read ≠ some (.child,.exited code)
  | _ => False

def Calls.Succeed (calls : Calls) : Prop :=
  calls.fork = true ∧ calls.traceme = true ∧ calls.childFork = true

theorem childStep_onTrack (calls : Calls) (succeed : calls.Succeed) (s next : State)
    (on : OnTrack calls s) (taken : childStep calls s = some next) : OnTrack calls next := by
  obtain ⟨_,traceme,childFork⟩ := succeed
  rcases s with ⟨child,grandchild,killed,eventpid,eventmsg,parent⟩
  cases child <;> simp only [childStep,traceme,childFork,if_true,reduceCtorEq] at taken
  all_goals
    cases Option.some.inj taken
    cases parent <;> simp_all [OnTrack]

theorem grandchildStep_keeps (s next : State) (taken : grandchildStep s = some next) :
    s.grandchild ≠ .absent ∧ next.child = s.child ∧ next.parent = s.parent ∧
      next.eventpid = s.eventpid ∧ next.eventmsg = s.eventmsg := by
  unfold grandchildStep at taken
  split at taken
  all_goals first
    | contradiction
    | cases Option.some.inj taken
      simp_all

theorem grandchildStep_onTrack (calls : Calls) (s next : State) (on : OnTrack calls s)
    (taken : grandchildStep s = some next) : OnTrack calls next := by
  obtain ⟨present,child,parent,eventpid,eventmsg⟩ := grandchildStep_keeps s next taken
  unfold OnTrack at on ⊢
  rw [child,parent,eventpid,eventmsg]
  split at on <;> simp_all

theorem waited_some (among : List Who) (inside : .child ∈ among) (s after : State) (pick : Who)
    (got : Option (Who × Report)) (alive : waitable s .child = true)
    (computed : waited among s pick = some (got,after)) :
    ∃ report, pending s pick = some report ∧ got = some (pick,report) ∧ after = collect s pick := by
  have some : among.all (fun who => !waitable s who) = false :=
    List.all_eq_false.mpr ⟨.child,inside,by simp [alive]⟩
  rw [waited,some,if_neg Bool.false_ne_true] at computed
  split at computed
  · obtain ⟨report,found,same⟩ := Option.map_eq_some_iff.mp computed
    cases same
    exact ⟨report,found,rfl,rfl⟩
  · contradiction

theorem parentStep_pending (calls : Calls) (s next : State) (pick : Who)
    (alive : waitable s .child = true) (taken : parentStep calls s pick = some next) :
    pending s pick ≠ none := by
  unfold parentStep at taken
  split at taken
  case h_5 => contradiction
  all_goals
    obtain ⟨⟨got,after⟩,computed,_⟩ := Option.map_eq_some_iff.mp taken
    obtain ⟨report,found,_⟩ := waited_some _ (by simp) s after pick got alive computed
    simp [found]

theorem collect_grandchild (s : State) : (collect s .grandchild).child = s.child := by
  unfold collect
  dsimp only
  split <;> rfl

theorem parentStep_onTrack (calls : Calls) (s next : State) (on : OnTrack calls s)
    (taken : parentStep calls s .child = some next) : OnTrack calls next := by
  rcases s with ⟨child,grandchild,killed,eventpid,eventmsg,parent⟩
  cases parent with
  | firstWait =>
    obtain ⟨rfl | rfl,absent⟩ := on
    · exact absurd rfl (parentStep_pending calls _ _ _ rfl taken)
    · cases Option.some.inj taken
      exact .inl ⟨rfl,absent⟩
  | eventWait =>
    rcases on with ⟨rfl,_⟩ | ⟨rfl | rfl,message⟩
    · exact absurd rfl (parentStep_pending calls _ _ _ rfl taken)
    · exact absurd rfl (parentStep_pending calls _ _ _ rfl taken)
    · cases Option.some.inj taken
      exact ⟨message,.inl rfl⟩
  | trapWait =>
    obtain ⟨rfl,rfl | ⟨rfl,rfl⟩⟩ := on
    · exact absurd rfl (parentStep_pending calls _ _ _ rfl taken)
    · have stopped : onward ⟨.trap2 true,grandchild,killed,calls.gcpid,calls.gcpid,.trapWait⟩
          (some (.child,.stopped sigtrap 0)) (afterSecondTrap calls) = next := Option.some.inj taken
      have passed : next = ⟨.leaving,grandchild,true,calls.gcpid,calls.gcpid,.finalWait 0⟩ := by
        simp [← stopped,onward,isStop,Child.cont,afterSecondTrap]
      rw [passed]
      exact ⟨rfl,.inl rfl⟩
  | finalWait funcRet =>
    obtain ⟨rfl,rfl | rfl⟩ := on
    · exact absurd rfl (parentStep_pending calls _ _ _ rfl taken)
    · cases Option.some.inj taken
      exact ⟨(Ptrace.verdict_none_iff 0 _).mpr ⟨rfl,.inl rfl⟩,rfl⟩
  | returned msg read => contradiction

theorem finalWait_grandchild (calls : Calls) (s next : State) (funcRet : Int)
    (place : s.parent = .finalWait funcRet) (alive : waitable s .child = true)
    (taken : parentStep calls s .grandchild = some next) : OffTrack next := by
  rw [parentStep,place] at taken
  obtain ⟨⟨got,after⟩,computed,rfl⟩ := Option.map_eq_some_iff.mp taken
  obtain ⟨report,_,rfl,_⟩ := waited_some _ (by simp) _ _ _ _ alive computed
  intro code same
  cases same

/-- The first report of the grandchild that a wait returns ends the chances of
the test: either `parent_func` gives up, or the RUN_FUNC takes it for the child. -/
theorem parentStep_diverts (calls : Calls) (s next : State) (on : OnTrack calls s)
    (taken : parentStep calls s .grandchild = some next) : OffTrack next := by
  rcases s with ⟨child,grandchild,killed,eventpid,eventmsg,parent⟩
  cases parent with
  | firstWait =>
    obtain ⟨rfl | rfl,rfl⟩ := on <;> exact absurd rfl (parentStep_pending calls _ _ _ rfl taken)
  | eventWait =>
    rcases on with ⟨rfl,rfl⟩ | ⟨place,_⟩
    · exact absurd rfl (parentStep_pending calls _ _ _ rfl taken)
    · obtain ⟨⟨got,after⟩,computed,rfl⟩ := Option.map_eq_some_iff.mp taken
      have alive : waitable ⟨child,grandchild,killed,eventpid,eventmsg,.eventWait⟩ .child = true := by
        rcases place with rfl | rfl <;> rfl
      obtain ⟨report,_,rfl,rfl⟩ := waited_some _ (by simp) _ _ _ _ alive computed
      exact ⟨rfl,by simpa [onward,isStop,collect_grandchild] using place⟩
  | trapWait =>
    obtain ⟨_,rfl | ⟨rfl,_⟩⟩ := on <;> simp [parentStep,waited,waitable] at taken
  | finalWait funcRet =>
    obtain ⟨_,place⟩ := on
    refine finalWait_grandchild calls _ next funcRet rfl ?_ taken
    rcases place with rfl | rfl <;> rfl
  | returned msg read => contradiction

theorem childStep_parent (calls : Calls) (s next : State) (taken : childStep calls s = some next) :
    next.parent = s.parent := by
  unfold childStep at taken
  split at taken
  case h_2 =>
    split at taken <;> cases Option.some.inj taken <;> rfl
  all_goals first
    | contradiction
    | cases Option.some.inj taken
      rfl

theorem step_offTrack (calls : Calls) (s : State) (action : Action) (next : State) (off : OffTrack s)
    (taken : step calls s action = some next) : OffTrack next := by
  cases action with
  | grandchild =>
    obtain ⟨_,child,parent,_,_⟩ := grandchildStep_keeps s next taken
    unfold OffTrack at off ⊢
    rwa [child,parent]
  | child =>
    have parent := childStep_parent calls s next taken
    rcases s with ⟨child,grandchild,killed,eventpid,eventmsg,parent'⟩
    unfold OffTrack at off ⊢
    rw [parent]
    cases parent' with
    | finalWait funcRet =>
      obtain ⟨value,rfl | rfl⟩ := off
      · cases Option.some.inj taken
        exact ⟨value,.inr rfl⟩
      · contradiction
    | returned msg read => exact off
    | firstWait | eventWait | trapWait => contradiction
  | parent pick =>
    rw [step] at taken
    rcases s with ⟨child,grandchild,killed,eventpid,eventmsg,parent⟩
    cases parent with
    | finalWait funcRet =>
      obtain ⟨_,place⟩ := off
      cases pick with
      | child =>
        rcases place with rfl | rfl
        · exact absurd rfl (parentStep_pending calls _ _ _ rfl taken)
        · cases Option.some.inj taken
          intro code same
          cases same
      | grandchild =>
        refine finalWait_grandchild calls _ next funcRet rfl ?_ taken
        rcases place with rfl | rfl <;> rfl
    | returned msg read => contradiction
    | firstWait | eventWait | trapWait => contradiction

/-! Whole runs. -/

/-- The verdict of a run was taken from the exit status of the child, and is a
success when that is 0. -/
def FromChild (msg : Msg) (read : Option (Who × Report)) : Prop :=
  ∃ code, read = some (.child,.exited code) ∧ (code = 0 → msg = none)

theorem start_onTrack (calls : Calls) (succeed : calls.Succeed) : OnTrack calls (start calls) := by
  simp [OnTrack,start,succeed.1]

theorem run_track (calls : Calls) (succeed : calls.Succeed) (actions : List Action) (s : State)
    (computed : run (step calls) actions (start calls) = some s) :
    (.parent .grandchild ∉ actions → OnTrack calls s) ∧
      (.parent .grandchild ∈ actions → OffTrack s) := by
  have track := run_diverted (step calls) (OnTrack calls) OffTrack (· = .parent .grandchild)
    (fun s action next on other taken => by
      rcases action with _ | _ | _ | _
      · exact childStep_onTrack calls succeed s next on taken
      · exact grandchildStep_onTrack calls s next on taken
      · exact parentStep_onTrack calls s next on taken
      · exact absurd rfl other)
    (fun s action next on picked taken => by
      subst picked
      exact parentStep_diverts calls s next on taken)
    (step_offTrack calls) actions (start calls) s (start_onTrack calls succeed) computed
  constructor
  · intro absent
    apply track.1
    intro action member same
    exact absent (same ▸ member)
  · intro present
    exact track.2 ⟨_,present,rfl⟩

/-- The verdict is the child's unless one of the waits for anyone returned a
report of the grandchild: its first stop, or its death. -/
theorem verdict_from_child_iff (calls : Calls) (succeed : calls.Succeed) (actions : List Action)
    (s : State) (computed : run (step calls) actions (start calls) = some s) (msg : Msg)
    (read : Option (Who × Report)) (returned : s.parent = .returned msg read) :
    FromChild msg read ↔ .parent .grandchild ∉ actions := by
  obtain ⟨on,off⟩ := run_track calls succeed actions s computed
  constructor
  · rintro ⟨code,same,_⟩ present
    have apart := off present
    simp only [OffTrack,returned] at apart
    exact apart code same
  · intro absent
    have kept := on absent
    simp only [OnTrack,returned] at kept
    exact ⟨0,kept.2,fun _ => kept.1⟩

def plainCalls : Calls := ⟨true,true,true,7⟩

def inOrder : List Action :=
  [.child,.parent .child,.child,.child,.parent .child,.child,.parent .child,.child,.parent .child]

theorem verdict_from_child_in_order :
    ∃ s, run (step plainCalls) inOrder (start plainCalls) = some s ∧
      s.parent = .returned none (some (.child,.exited 0)) ∧
      (FromChild none (some (.child,.exited 0)) ↔ .parent .grandchild ∉ inOrder) := by
  have computed : run (step plainCalls) inOrder (start plainCalls) =
      some ⟨.ended 0 true,.young,true,7,7,.returned none (some (.child,.exited 0))⟩ := by decide
  exact ⟨_,computed,rfl,verdict_from_child_iff _ ⟨rfl,rfl,rfl⟩ _ _ computed _ _ rfl⟩

/-- Two runs with a child that does all it should. In the first the wait for
the fork event gets the stop of the grandchild, and the test fails without the
child ever leaving that event. In the second the last wait gets the death of the
grandchild, and the test succeeds before the child has exited. -/
theorem verdict_from_grandchild :
    (∃ s, run (step plainCalls)
        [.child,.parent .child,.child,.child,.grandchild,.parent .grandchild,.parent .child]
        (start plainCalls) = some s ∧
      s.parent = .returned (some "TP failed.") (some (.child,.stopped sigtrap ptraceEventFork))) ∧
    (∃ s, run (step plainCalls)
        [.child,.parent .child,.child,.child,.parent .child,.child,.parent .child,.grandchild,
          .parent .grandchild] (start plainCalls) = some s ∧
      s.parent = .returned none (some (.grandchild,.signaled sigkill false)) ∧
      s.child = .leaving) := by
  refine ⟨⟨⟨.event true,.stopped true,false,0,7,
      .returned (some "TP failed.") (some (.child,.stopped sigtrap ptraceEventFork))⟩,?_,rfl⟩,
    ⟨⟨.leaving,.dead true,true,7,7,.returned none (some (.grandchild,.signaled sigkill false))⟩,
      ?_,rfl,rfl⟩⟩
  · decide
  · decide

/-! Every run comes to its verdict. -/

def Child.left : Child → Nat
  | .begins => 11
  | .trap1 _ => 10
  | .forking => 9
  | .forked => 5
  | .event _ => 4
  | .storing => 3
  | .trap2 _ => 2
  | .leaving => 1
  | .ended _ _ => 0

def Grandchild.left : Grandchild → Nat
  | .absent => 3
  | .young => 2
  | .stopped _ => 1
  | .dead _ => 0

def Parent.left : Parent → Nat
  | .firstWait => 4
  | .eventWait => 3
  | .trapWait => 2
  | .finalWait _ => 1
  | .returned _ _ => 0

def State.left (s : State) : Nat := s.child.left + s.grandchild.left + s.parent.left

theorem childStep_left (calls : Calls) (s next : State) (taken : childStep calls s = some next) :
    next.left < s.left := by
  rcases s with ⟨child,grandchild,killed,eventpid,eventmsg,parent⟩
  cases child <;> simp only [childStep,reduceCtorEq] at taken
  case begins =>
    cases Option.some.inj taken
    cases calls.traceme <;> simp [State.left,Child.left]
  case forking =>
    split at taken
    · cases Option.some.inj taken
      simp only [State.left,Child.left,Grandchild.left]
      omega
    · cases Option.some.inj taken
      simp [State.left,Child.left]
  all_goals
    cases Option.some.inj taken
    simp [State.left,Child.left]

theorem grandchildStep_left (s next : State) (taken : grandchildStep s = some next) :
    next.left < s.left := by
  unfold grandchildStep at taken
  split at taken
  all_goals first
    | contradiction
    | cases Option.some.inj taken
      simp_all [State.left,Grandchild.left]

theorem collect_left (s : State) (who : Who) :
    (collect s who).left = s.left ∧ (collect s who).parent = s.parent := by
  rcases s with ⟨child,grandchild,killed,eventpid,eventmsg,parent⟩
  cases who with
  | child => cases child <;> exact ⟨rfl,rfl⟩
  | grandchild => cases grandchild <;> exact ⟨rfl,rfl⟩

theorem waited_left (among : List Who) (s after : State) (pick : Who) (got : Option (Who × Report))
    (computed : waited among s pick = some (got,after)) :
    after.left = s.left ∧ after.parent = s.parent := by
  unfold waited at computed
  split at computed
  · cases Option.some.inj computed
    exact ⟨rfl,rfl⟩
  · split at computed
    · obtain ⟨report,_,same⟩ := Option.map_eq_some_iff.mp computed
      cases same
      exact collect_left s pick
    · contradiction

theorem cont_left (child next : Child) (continued : child.cont = some next) :
    next.left < child.left := by
  cases child <;> simp only [Child.cont,reduceCtorEq] at continued
  all_goals
    cases Option.some.inj continued
    simp [Child.left]

theorem onward_left (s : State) (got : Option (Who × Report)) (next : State → Child → State)
    (waits : 1 < s.parent.left)
    (lower : ∀ child, child.left < s.child.left → (next s child).left < s.left) :
    (onward s got next).left < s.left := by
  have gaveUp : ({s with parent := .finalWait (-1)} : State).left < s.left := by
    change s.child.left + s.grandchild.left + 1 < s.child.left + s.grandchild.left + s.parent.left
    omega
  unfold onward
  split
  · split
    · rename_i child continued
      exact lower child (cont_left _ _ continued)
    · exact gaveUp
  · exact gaveUp

theorem waited_onward_left (among : List Who) (s result : State) (pick : Who)
    (next : State → Child → State) (waits : 1 < s.parent.left)
    (lower : ∀ after child, after.parent = s.parent → child.left < after.child.left →
      (next after child).left < after.left)
    (taken : (waited among s pick).map (fun (got,s) => onward s got next) = some result) :
    result.left < s.left := by
  obtain ⟨⟨got,after⟩,computed,rfl⟩ := Option.map_eq_some_iff.mp taken
  obtain ⟨same,parent⟩ := waited_left _ _ _ _ _ computed
  rw [← same]
  exact onward_left after got next (parent ▸ waits) (fun child => lower after child parent)

theorem parentStep_left (calls : Calls) (s next : State) (pick : Who)
    (taken : parentStep calls s pick = some next) : next.left < s.left := by
  unfold parentStep at taken
  split at taken
  case h_4 place =>
    obtain ⟨⟨got,after⟩,computed,rfl⟩ := Option.map_eq_some_iff.mp taken
    obtain ⟨same,parent⟩ := waited_left _ _ _ _ _ computed
    rw [← same]
    simp only [State.left,parent,place,Parent.left]
    omega
  case h_5 => contradiction
  all_goals
    rename_i place
    refine waited_onward_left _ s next pick _ (by simp [place,Parent.left]) ?_ taken
    intro after child parent lower
    rw [place] at parent
  · simp only [afterFirstTrap,State.left,parent,Parent.left]
    omega
  · simp only [afterEvent,State.left,parent,Parent.left]
    omega
  · unfold afterSecondTrap
    split <;> simp only [State.left,parent,Parent.left] <;> omega

theorem step_left (calls : Calls) (s : State) (action : Action) (next : State)
    (taken : step calls s action = some next) : next.left < s.left := by
  cases action with
  | child => exact childStep_left calls s next taken
  | grandchild => exact grandchildStep_left s next taken
  | parent pick => exact parentStep_left calls s next pick taken

theorem onTrack_enabled (calls : Calls) (s : State) (on : OnTrack calls s)
    (stuck : Stuck (step calls) s) : ∃ msg read, s.parent = .returned msg read := by
  have child := stuck .child
  have parent := stuck (.parent .child)
  rcases s with ⟨place,grandchild,killed,eventpid,eventmsg,waits⟩
  cases waits with
  | returned msg read => exact ⟨msg,read,rfl⟩
  | firstWait => obtain ⟨rfl | rfl,_⟩ := on <;> contradiction
  | eventWait =>
    rcases on with ⟨rfl,_⟩ | ⟨rfl | rfl,_⟩
    · simp only [step,childStep] at child
      split at child <;> contradiction
    · contradiction
    · contradiction
  | trapWait => obtain ⟨_,rfl | ⟨rfl,_⟩⟩ := on <;> contradiction
  | finalWait funcRet => obtain ⟨_,rfl | rfl⟩ := on <;> contradiction

theorem offTrack_enabled (calls : Calls) (s : State) (off : OffTrack s)
    (stuck : Stuck (step calls) s) : ∃ msg read, s.parent = .returned msg read := by
  have child := stuck .child
  have parent := stuck (.parent .child)
  rcases s with ⟨place,grandchild,killed,eventpid,eventmsg,waits⟩
  cases waits with
  | returned msg read => exact ⟨msg,read,rfl⟩
  | finalWait funcRet => obtain ⟨_,rfl | rfl⟩ := off <;> contradiction
  | firstWait | eventWait | trapWait => contradiction

/-- No run goes on for ever or ends without a verdict. -/
theorem run_ends (calls : Calls) (succeed : calls.Succeed) (actions : List Action) (s : State)
    (computed : run (step calls) actions (start calls) = some s) :
    actions.length ≤ 18 ∧ (Stuck (step calls) s → ∃ msg read, s.parent = .returned msg read) := by
  have bound := run_bounded (step calls) (fun _ => True) State.left (fun _ _ _ _ _ => trivial)
    (fun s action next _ taken => step_left calls s action next taken) actions _ s trivial computed
  have initial : (start calls).left = 18 := by
    simp [start,State.left,Child.left,Grandchild.left,Parent.left,succeed.1]
  refine ⟨by omega,?_⟩
  intro stuck
  obtain ⟨on,off⟩ := run_track calls succeed actions s computed
  by_cases present : Action.parent .grandchild ∈ actions
  · exact offTrack_enabled calls s (off present) stuck
  · exact onTrack_enabled calls s (on present) stuck

end Ostest.TestMck.PtraceFork
