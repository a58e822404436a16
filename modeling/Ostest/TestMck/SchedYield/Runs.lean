import Ostest.TestMck.SchedYield.Program

/-! Test sched_yield/000: in which orders the flag can be written and read, and what
every run comes to. -/
namespace Ostest.TestMck.SchedYield
open Lib.Calls Lib.Runs Lib.Threads Lib.WaitStatus

/-- The parent clears the flag. -/
def cleared : Access := .stored .parent 0

/-- The child sets it. -/
def raised : Access := .stored .child 1

/-- The orders in which the flag can be accessed: the child never sets it before
the parent has cleared it. -/
def orders : List (List Access) :=
  [[],[cleared],[cleared,raised],[cleared,raised,.loaded 1],[cleared,.loaded 0],[cleared,.loaded 0,raised]]

structure Invariant (v : Sync) : Prop where
  ordered : v.history ∈ orders
  flag : v.history ≠ [] → v.orderFlag = if raised ∈ v.history then 1 else 0
  mapped : v.history ≠ [] → v.mapped .orderFlag = true
  posted : 0 < v.posts .syncSem2 → v.history ≠ []
  opened : raised ∈ v.history → 0 < v.posts .syncSem2
  passed : ∀ sem, v.waits sem ≤ v.posts sem
  childEnded : ∀ report, v.ended .child = some report → report = .exited 0 ∨ report = .exited 255
  parentEnded : v.ended .parent ≠ none →
    v.ended .parent = some crashed ∧ v.history = [] ∧ v.posts .syncSem2 = 0 ∧ v.childPid ≠ none

structure ChildRelies (v later : Sync) : Prop where
  posts : later.posts .syncSem1 = v.posts .syncSem1
  waits : later.waits .syncSem2 = v.waits .syncSem2
  raised : raised ∈ later.history ↔ raised ∈ v.history
  ended : later.ended .child = v.ended .child

structure ParentRelies (v later : Sync) : Prop where
  posts : later.posts .syncSem2 = v.posts .syncSem2
  waits : later.waits .syncSem1 = v.waits .syncSem1
  mapped : later.mapped = v.mapped
  history : later.history = v.history ∨ raised ∉ v.history ∧ later.history = v.history ++ [raised]
  childPid : later.childPid = v.childPid
  ended : later.ended .parent = v.ended .parent
  childEnded : v.ended .child ≠ none → later.ended .child = v.ended .child

def Relies : Party → Sync → Sync → Prop
  | .child => ChildRelies
  | .parent => ParentRelies

theorem relies_refl (who : Party) (v : Sync) : Relies who v v := by
  cases who with
  | child => exact ⟨rfl,rfl,Iff.rfl,rfl⟩
  | parent => exact ⟨rfl,rfl,rfl,.inl rfl,rfl,rfl,fun _ => rfl⟩

theorem relies_trans (who : Party) (v middle later : Sync) (first : Relies who v middle)
    (second : Relies who middle later) : Relies who v later := by
  cases who with
  | child =>
    exact ⟨second.posts.trans first.posts,second.waits.trans first.waits,second.raised.trans first.raised,
      second.ended.trans first.ended⟩
  | parent =>
    have history : later.history = v.history ∨ raised ∉ v.history ∧ later.history = v.history ++ [raised] := by
      rcases first.history with same | ⟨fresh,set⟩
      · rw [← same]
        exact second.history
      · rcases second.history with same | ⟨fresh',_⟩
        · exact .inr ⟨fresh,same.trans set⟩
        · exact absurd (set ▸ List.mem_append_right _ List.mem_cons_self) fresh'
    exact ⟨second.posts.trans first.posts,second.waits.trans first.waits,second.mapped.trans first.mapped,history,
      second.childPid.trans first.childPid,second.ended.trans first.ended,
      fun ended => (second.childEnded (first.childEnded ended ▸ ended)).trans (first.childEnded ended)⟩

/-- Where the child is: what it has posted and waited for, and whether it has set
the flag. -/
structure ChildAt (posts waits : Nat) (set : Bool) (v : Sync) : Prop where
  posts : v.posts .syncSem1 = posts
  waits : v.waits .syncSem2 = waits
  set : decide (raised ∈ v.history) = set
  running : v.ended .child = none

/-- Where the parent is, with the orders that are possible there. -/
structure ParentAt (posts waits : Nat) (possible : List (List Access)) (pid : Option Int) (v : Sync) : Prop where
  posts : v.posts .syncSem2 = posts
  waits : v.waits .syncSem1 = waits
  possible : v.history ∈ possible
  childPid : v.childPid = pid
  running : v.ended .parent = none

def Pending : Party → Request → Sync → Prop
  | .child, .semWait sem, v => sem = .syncSem2 ∧ ChildAt 1 0 false v
  | .child, .wait, _ => False
  | .child, _, v => v.ended .child = none
  | .parent, .semWait sem, v => sem = .syncSem1 ∧ ∃ pid, ParentAt 0 0 [[]] (some pid) v
  | .parent, .wait, v => ∃ pid, ParentAt 1 1 [[cleared,raised,.loaded 1]] (some pid) v
  | .parent, .begin, _ => False
  | .parent, _, _ => True

def childPost (v : Sync) : Prop :=
  v.posts .syncSem1 = 1 ∧ raised ∈ v.history ∧ v.ended .child ≠ none

def parentPost (message : Msg) (v : Sync) : Prop :=
  match message with
  | some .mmapFailed | some .forkFailed => v.childPid = none
  | some .childNotBound | some .parentNotBound => ∃ pid, ParentAt 0 1 [[]] (some pid) v
  | some .yieldFailed => ∃ pid, ParentAt 1 1 [[cleared],[cleared,raised]] (some pid) v
  | some .notScheduled => ∃ pid, ParentAt 1 1 [[cleared,.loaded 0],[cleared,.loaded 0,raised]] (some pid) v
  | some .childFailed => v.history = [cleared,raised,.loaded 1] ∧ v.ended .child = some (.exited 255)
  | some .waitFailed => False
  | none => v.history = [cleared,raised,.loaded 1] ∧ v.ended .child = some (.exited 0)

def contract : Contract Party Request Shared Value where
  invariant s := Invariant s.toSync
  rely who s later := Relies who s.toSync later.toSync
  pending who asked s := Pending who asked s.toSync
  post
    | .child, _, s => childPost s.toSync
    | .parent, message, s => parentPost message s.toSync
  refl who s := relies_refl who s.toSync
  trans who s middle later := relies_trans who s.toSync middle.toSync later.toSync

abbrev Keeps {β : Type} (who : Party) (post : β → Sync → Prop) (code : Code β) (s : Shared) : Prop :=
  Upholds serve contract who (fun value s => post value s.toSync) code s

abbrev Lasting (who : Party) (assertion : Sync → Prop) : Prop :=
  Stable contract who (fun s => assertion s.toSync)

/-- A call of a process that is running. -/
theorem keeps_ask {β : Type} {who : Party} {post : β → Sync → Prop} (asked : Request)
    (next : asked.Answer → Code β) (s : Shared) (assertion : Sync → Prop) (lasting : Lasting who assertion)
    (now : assertion s.toSync) (pending : ∀ v, assertion v → Pending who asked v)
    (served : ∀ s reply after, Invariant s.toSync → assertion s.toSync → s.ended who = none →
      respond who s asked reply = some after →
        Invariant after.toSync ∧ (∀ other, other ≠ who → Relies other s.toSync after.toSync) ∧
        Keeps who post (next reply) after) :
    Keeps who post (ask asked >>= next) s := by
  apply upholds_request asked next s (fun s => assertion s.toSync) lasting now
  intro s kept holds
  refine ⟨pending s.toSync holds,?_⟩
  intro reply after taken
  rw [serve] at taken
  split at taken
  next running => exact served s reply after kept holds running taken
  next => contradiction

/-! Calls that leave the agreement alone. -/

def quiet : Request → Bool
  | .schedGetcpu | .printf _ | .fflush | .loadCore | .storeCore _ | .schedSetaffinity _ _ | .errno
  | .usleep _ | .schedYield => true
  | _ => false

theorem respond_quiet (who : Party) (s after : Shared) (asked : Request) (reply : asked.Answer)
    (isQuiet : quiet asked = true) (served : respond who s asked reply = some after) :
    after.toSync = s.toSync := by
  cases asked
  case loadCore =>
    simp only [respond] at served
    split at served
    · cases served
      rfl
    · contradiction
  all_goals first | contradiction | (cases served; rfl)

theorem pending_quiet (who : Party) (asked : Request) (v : Sync) (isQuiet : quiet asked = true)
    (running : v.ended who = none) : Pending who asked v := by
  cases asked <;> first | contradiction | (cases who <;> first | exact running | trivial)

theorem keeps_only {β : Type} {who : Party} (code : Code β) (s : Shared) (assertion : Sync → Prop)
    (lasting : Lasting who assertion) (now : assertion s.toSync) (running : ∀ v, assertion v → v.ended who = none)
    (only : Only (fun asked => quiet asked = true) code) : Keeps who (fun _ => assertion) code s := by
  refine upholds_only _ (fun s => assertion s.toSync) lasting ?_ code only s now
  intro asked s isQuiet kept holds
  refine ⟨pending_quiet who asked s.toSync isQuiet (running s.toSync holds),?_⟩
  intro reply after taken
  rw [serve] at taken
  split at taken
  next =>
    have same := respond_quiet who s after asked reply isQuiet taken
    refine ⟨?_,fun other _ => ?_,same ▸ holds⟩
    · change Invariant after.toSync
      rwa [same]
    · change Relies other s.toSync after.toSync
      rw [same]
      exact relies_refl other s.toSync
  next => contradiction

theorem say_only (line : Line) : Only (fun asked => quiet asked = true) (say line) :=
  ⟨rfl,fun _ => ⟨rfl,fun _ => trivial⟩⟩

theorem ask_only (asked : Request) (isQuiet : quiet asked = true) :
    Only (fun asked => quiet asked = true) (ask asked) := ⟨isQuiet,fun _ => trivial⟩

/-! Semaphores and the flag. -/

theorem Invariant.semPost {v : Sync} (kept : Invariant v) (sem : Sem)
    (allowed : sem = .syncSem2 → v.history ≠ [] ∧ v.ended .parent = none) :
    Invariant {v with posts := Function.update v.posts sem (v.posts sem+1)} := by
  have more (other : Sem) : v.posts other ≤ Function.update v.posts sem (v.posts sem+1) other := by
    by_cases same : other = sem
    · subst same
      rw [Function.update_self]
      omega
    · rw [Function.update_of_ne same]
  refine ⟨kept.ordered,kept.flag,kept.mapped,?_,?_,?_,kept.childEnded,?_⟩
  · intro posted
    by_cases same : sem = .syncSem2
    · exact (allowed same).1
    · exact kept.posted (by simpa [Function.update_of_ne (Ne.symm same)] using posted)
  · exact fun set => Nat.lt_of_lt_of_le (kept.opened set) (more .syncSem2)
  · exact fun other => (kept.passed other).trans (more other)
  · intro ended
    obtain ⟨dead,empty,closed,forked⟩ := kept.parentEnded ended
    by_cases same : sem = .syncSem2
    · exact absurd (allowed same).2 ended
    · exact ⟨dead,empty,by simpa [Function.update_of_ne (Ne.symm same)] using closed,forked⟩

theorem Invariant.semWait {v : Sync} (kept : Invariant v) (sem : Sem) (posted : v.waits sem < v.posts sem) :
    Invariant {v with waits := Function.update v.waits sem (v.waits sem+1)} := by
  refine ⟨kept.ordered,kept.flag,kept.mapped,kept.posted,kept.opened,fun other => ?_,kept.childEnded,kept.parentEnded⟩
  by_cases same : other = sem
  · subst same
    exact (Function.update_self other _ v.waits).trans_le posted
  · simpa [Function.update_of_ne same] using kept.passed other

/-- The places in which the child can set the flag. -/
theorem orders_raised (history : List Access) (ordered : history ∈ orders) (begun : history ≠ [])
    (fresh : raised ∉ history) : history ++ [raised] ∈ orders := by
  simp only [orders,List.mem_cons,List.not_mem_nil,or_false] at ordered
  rcases ordered with rfl | rfl | rfl | rfl | rfl | rfl
  · contradiction
  · decide
  · exact absurd (by decide) fresh
  · exact absurd (by decide) fresh
  · decide
  · exact absurd (by decide) fresh

/-! The child. -/

theorem childAt_lasts (posts waits : Nat) (set : Bool) : Lasting .child (ChildAt posts waits set) := by
  intro s later moved _ here
  have moved : ChildRelies s.toSync later.toSync := moved
  exact ⟨moved.posts.trans here.posts,moved.waits.trans here.waits,
    (decide_eq_decide.mpr moved.raised).trans here.set,moved.ended.trans here.running⟩

theorem childQuiet {β γ : Type} {post : γ → Sync → Prop} (code : Code β) (next : β → Code γ) (s : Shared)
    {posts waits : Nat} {set : Bool} (here : ChildAt posts waits set s.toSync)
    (only : Only (fun asked => quiet asked = true) code)
    (rest : ∀ value s, ChildAt posts waits set s.toSync → Keeps .child post (next value) s) :
    Keeps .child post (code >>= next) s :=
  upholds_bind code next s
    (keeps_only code s _ (childAt_lasts posts waits set) here (fun _ here => here.running) only)
    (fun value s _ here => rest value s here)

theorem exit_keeps (code : BitVec 8) (s : Shared) (here : ChildAt 1 1 true s.toSync)
    (known : (Report.exited code) = .exited 0 ∨ (Report.exited code) = .exited 255) :
    Keeps .child (fun _ => childPost) (do
      let _ ← ask (.exitNow code)
      return) s := by
  refine keeps_ask _ _ s _ (childAt_lasts 1 1 true) here (fun _ here => here.running) ?_
  intro s reply after kept here _ served
  cases served
  refine ⟨⟨kept.ordered,kept.flag,kept.mapped,kept.posted,kept.opened,kept.passed,?_,kept.parentEnded⟩,?_,?_⟩
  · intro report ended
    have same : some (Report.exited code) = some report := ended
    cases same
    exact known
  · intro other different
    cases other with
    | child => contradiction
    | parent =>
      exact ⟨rfl,rfl,rfl,.inl rfl,rfl,rfl,fun ended => absurd here.running ended⟩
  · have lasting : Lasting .child childPost := by
      intro s later moved _ here
      have moved : ChildRelies s.toSync later.toSync := moved
      exact ⟨moved.posts.trans here.1,moved.raised.mpr here.2.1,moved.ended ▸ here.2.2⟩
    refine upholds_pure _ _ _ lasting ⟨here.posts,of_decide_eq_true here.set,?_⟩ (fun _ _ here => here)
    simp

theorem leave_keeps (s : Shared) (here : ChildAt 1 1 true s.toSync) : Keeps .child (fun _ => childPost) leave s :=
  childQuiet _ _ s here (say_only _) fun _ s here => exit_keeps 0 s here (.inl rfl)

theorem child_keeps (s : Shared) (here : ChildAt 0 0 false s.toSync) :
    Keeps .child (fun _ => childPost) child s := by
  refine keeps_ask .begin _ s _ (childAt_lasts 0 0 false) here (fun _ here => here.running) ?_
  intro s reply after kept here _ served
  simp only [respond] at served
  split at served
  case isFalse => contradiction
  case isTrue =>
  cases served
  refine ⟨kept,fun other _ => relies_refl other s.toSync,?_⟩
  refine childQuiet (ask .schedGetcpu) _ s here (ask_only _ rfl) fun oldMycore s here => ?_
  refine childQuiet (say _) _ s here (say_only _) fun _ s here => ?_
  refine keeps_ask (.semPost .syncSem1) _ s _ (childAt_lasts 0 0 false) here (fun _ here => here.running) ?_
  intro s reply after kept here _ served
  cases served
  refine ⟨kept.semPost .syncSem1 (by simp),?_,?_⟩
  · intro other different
    cases other with
    | child => contradiction
    | parent => exact ⟨rfl,rfl,rfl,.inl rfl,rfl,rfl,fun _ => rfl⟩
  refine keeps_ask (.semWait .syncSem2) _ _ _ (childAt_lasts 1 0 false)
    ⟨congrArg (· + 1) here.posts,here.waits,here.set,here.running⟩ (fun _ here => ⟨rfl,here⟩) ?_
  intro s reply after kept here _ served
  simp only [respond] at served
  split at served
  case isFalse => contradiction
  case isTrue posted =>
  cases served
  refine ⟨kept.semWait .syncSem2 posted,?_,?_⟩
  · intro other different
    cases other with
    | child => contradiction
    | parent => exact ⟨rfl,rfl,rfl,.inl rfl,rfl,rfl,fun _ => rfl⟩
  refine keeps_ask (.storeOrder 1) _ _ _ (childAt_lasts 1 1 false)
    ⟨here.posts,congrArg (· + 1) here.waits,here.set,here.running⟩ (fun _ here => here.running) ?_
  intro s reply after kept here _ served
  cases served
  -- The parent has posted, so it has cleared the flag before.
  have begun : s.history ≠ [] := kept.posted (by have := kept.passed .syncSem2; have := here.waits; omega)
  have fresh : raised ∉ s.history := of_decide_eq_false here.set
  have set : raised ∈ s.history ++ [raised] := List.mem_append_right _ List.mem_cons_self
  rw [touchFlag,if_pos (kept.mapped begun)]
  refine ⟨⟨orders_raised _ kept.ordered begun fresh,fun _ => (if_pos set).symm,fun _ => kept.mapped begun,
    fun _ => by simp,fun _ => ?_,kept.passed,kept.childEnded,
    fun ended => absurd (kept.parentEnded ended).2.1 begun⟩,?_,?_⟩
  · have := kept.passed .syncSem2
    have := here.waits
    change 0 < s.posts .syncSem2
    omega
  · intro other different
    cases other with
    | child => contradiction
    | parent => exact ⟨rfl,rfl,rfl,.inr ⟨fresh,rfl⟩,rfl,rfl,fun _ => rfl⟩
  have here : ChildAt 1 1 true {s with orderFlag := 1,history := s.history ++ [raised]}.toSync :=
    ⟨here.posts,here.waits,decide_eq_true set,here.running⟩
  refine childQuiet (ask .schedGetcpu) _ _ here (ask_only _ rfl) fun newMycore s here => ?_
  refine childQuiet (ask .loadCore) _ s here (ask_only _ rfl) fun parentCore s here => ?_
  split
  · refine childQuiet (say _) _ s here (say_only _) fun _ s here => ?_
    split
    · exact childQuiet (say _) _ s here (say_only _) fun _ s here => exit_keeps 255 s here (.inr rfl)
    · exact leave_keeps s here
  · exact childQuiet (say _) _ s here (say_only _) fun _ s here => leave_keeps s here

/-! The parent. -/

/-- The child only adds to the order, and only once it has been let go. -/
theorem parentAt_lasts (posts waits : Nat) (possible : List (List Access)) (pid : Option Int)
    (closed : posts = 0 ∨ ∀ history ∈ possible, raised ∉ history → history ++ [raised] ∈ possible) :
    Lasting .parent (ParentAt posts waits possible pid) := by
  intro s later moved kept here
  have moved : ParentRelies s.toSync later.toSync := moved
  have kept : Invariant later.toSync := kept
  have posted := moved.posts.trans here.posts
  refine ⟨posted,moved.waits.trans here.waits,?_,moved.childPid.trans here.childPid,moved.ended.trans here.running⟩
  rcases moved.history with same | ⟨fresh,set⟩
  · exact same ▸ here.possible
  · rcases closed with none | closed
    · have := kept.opened (set ▸ List.mem_append_right _ List.mem_cons_self)
      omega
    · exact set ▸ closed _ here.possible fresh

theorem parentQuiet {β γ : Type} {post : γ → Sync → Prop} (code : Code β) (next : β → Code γ) (s : Shared)
    {posts waits : Nat} {possible : List (List Access)} {pid : Option Int}
    (closed : posts = 0 ∨ ∀ history ∈ possible, raised ∉ history → history ++ [raised] ∈ possible)
    (here : ParentAt posts waits possible pid s.toSync) (only : Only (fun asked => quiet asked = true) code)
    (rest : ∀ value s, ParentAt posts waits possible pid s.toSync → Keeps .parent post (next value) s) :
    Keeps .parent post (code >>= next) s :=
  upholds_bind code next s
    (keeps_only code s _ (parentAt_lasts posts waits possible pid closed) here (fun _ here => here.running) only)
    (fun value s _ here => rest value s here)

/-- What the parent does that the child does not see. -/
theorem child_relies (v later : Sync) (posts : later.posts .syncSem1 = v.posts .syncSem1)
    (waits : later.waits .syncSem2 = v.waits .syncSem2) (history : raised ∈ later.history ↔ raised ∈ v.history)
    (ended : later.ended .child = v.ended .child) (other : Party) (different : other ≠ .parent) :
    Relies other v later := by
  cases other with
  | child => exact ⟨posts,waits,history,ended⟩
  | parent => contradiction

theorem waitChild_keeps (pid : Int) (s : Shared)
    (here : ParentAt 1 1 [[cleared,raised,.loaded 1]] (some pid) s.toSync) :
    Keeps .parent parentPost (waitChild pid) s := by
  have lasting := parentAt_lasts 1 1 [[cleared,raised,.loaded 1]] (some pid) (.inr (by decide))
  refine keeps_ask .wait _ s _ lasting here (fun _ here => ⟨pid,here⟩) ?_
  intro s reply after kept here _ served
  simp only [respond] at served
  split at served
  case isFalse => contradiction
  case isTrue waited =>
  cases served
  refine ⟨kept,fun other _ => relies_refl other s.toSync,?_⟩
  obtain ⟨retPid,report⟩ := reply
  obtain ⟨own,ended⟩ := waited
  have same : retPid = pid := Option.some.inj (own.symm.trans here.childPid)
  have order : s.history = [cleared,raised,.loaded 1] := by simpa using here.possible
  have stays : Lasting .parent (fun v => v.history = [cleared,raised,.loaded 1] ∧ v.ended .child = some report) := by
    intro s later moved _ here
    have moved : ParentRelies s.toSync later.toSync := moved
    refine ⟨?_,(moved.childEnded (by simp [here.2])).trans here.2⟩
    rcases moved.history with same | ⟨fresh,_⟩
    · exact same.trans here.1
    · exact absurd (here.1 ▸ by decide) fresh
  change Keeps .parent parentPost (if retPid = pid then
    if wifexited report.status ∧ wexitstatus report.status ≠ 0 then return some .childFailed else return none
    else return some .waitFailed) s
  rw [if_pos same]
  rcases kept.childEnded report ended with rfl | rfl
  · rw [if_neg (by decide)]
    exact upholds_pure _ s _ stays ⟨order,ended⟩ (fun _ _ here => here)
  · rw [if_pos (by decide)]
    exact upholds_pure _ s _ stays ⟨order,ended⟩ (fun _ _ here => here)

theorem affinityFailed_keeps (message : Message) (pid : Int) (s : Shared)
    (said : message = .childNotBound ∨ message = .parentNotBound)
    (here : ParentAt 0 1 [[]] (some pid) s.toSync) : Keeps .parent parentPost (affinityFailed message) s := by
  refine parentQuiet (ask .errno) _ s (.inl rfl) here (ask_only _ rfl) fun number s here => ?_
  refine parentQuiet (say _) _ s (.inl rfl) here (say_only _) fun _ s here => ?_
  refine upholds_pure _ s _ (parentAt_lasts 0 1 [[]] (some pid) (.inl rfl)) here (fun s _ here => ?_)
  rcases said with rfl | rfl <;> exact ⟨pid,here⟩

/-- A process that has crashed makes no call any more. -/
theorem crashed_keeps {β : Type} {post : β → Sync → Prop} (asked : Request) (next : asked.Answer → Code β) (s : Shared)
    (pending : ∀ v, Pending .parent asked v) (dead : s.ended .parent = some crashed) :
    Keeps .parent post (ask asked >>= next) s := by
  have lasting : Lasting .parent (fun v => v.ended .parent = some crashed) := by
    intro s later moved _ here
    have moved : ParentRelies s.toSync later.toSync := moved
    exact moved.ended.trans here
  refine keeps_ask asked next s _ lasting dead (fun v _ => pending v) ?_
  intro s reply after _ dead running
  simp [running] at dead

theorem looked_keeps (pid : Int) (s : Shared) (here : ParentAt 1 1 [[cleared],[cleared,raised]] (some pid) s.toSync) :
    Keeps .parent parentPost (do
      let orderFlag ← ask .loadOrder
      if orderFlag ≠ 1 then return some .notScheduled
      else
        say (.endProcess .parent)
        waitChild pid) s := by
  refine keeps_ask .loadOrder _ s _ (parentAt_lasts 1 1 _ (some pid) (.inr (by decide))) here (fun _ _ => trivial) ?_
  intro s orderFlag after kept here running served
  simp only [respond] at served
  split at served
  case isFalse => contradiction
  case isTrue value =>
  cases served
  have posted : 0 < s.posts .syncSem2 := by
    have := here.posts
    omega
  have begun := kept.posted posted
  have flag := kept.flag begun
  rw [touchFlag,if_pos (kept.mapped begun)]
  have seen : raised ∈ s.history ++ [.loaded s.orderFlag] ↔ raised ∈ s.history := by
    simp [raised]
  have others := child_relies s.toSync {s with history := s.history ++ [Access.loaded s.orderFlag]}.toSync rfl rfl seen rfl
  have keeps (ordered : s.history ++ [.loaded s.orderFlag] ∈ orders) :
      Invariant {s with history := s.history ++ [Access.loaded s.orderFlag]}.toSync :=
    ⟨ordered,fun _ => by simpa only [seen] using flag,fun _ => kept.mapped begun,fun _ => by simp,fun _ => posted,
      kept.passed,kept.childEnded,fun ended => absurd running ended⟩
  have order := here.possible
  simp only [List.mem_cons,List.not_mem_nil,or_false] at order
  rcases order with order | order
  · have zero : s.orderFlag = 0 := by simpa [order,cleared,raised] using flag
    rw [order,zero] at keeps others ⊢
    rw [if_pos (by simp [value,zero])]
    refine ⟨keeps (by decide),others,?_⟩
    exact upholds_pure _ _ _ (parentAt_lasts 1 1 [[cleared,.loaded 0],[cleared,.loaded 0,raised]] (some pid)
      (.inr (by decide))) ⟨here.posts,here.waits,by simp,here.childPid,running⟩ (fun _ _ here => ⟨pid,here⟩)
  · have one : s.orderFlag = 1 := by simpa [order] using flag
    rw [order,one] at keeps others ⊢
    rw [if_neg (by simp [value,one])]
    refine ⟨keeps (by decide),others,?_⟩
    have here : ParentAt 1 1 [[cleared,raised,.loaded 1]] (some pid)
        {s with orderFlag := 1,history := [cleared,raised] ++ [Access.loaded 1]}.toSync :=
      ⟨here.posts,here.waits,by simp,here.childPid,running⟩
    exact parentQuiet (say _) _ _ (.inr (by decide)) here (say_only _) fun _ s here => waitChild_keeps pid s here

theorem giveWay_keeps (pid : Int) (s : Shared) (here : ParentAt 0 1 [[]] (some pid) s.toSync) :
    Keeps .parent parentPost (giveWay pid) s := by
  refine parentQuiet (ask (.usleep 10000)) _ s (.inl rfl) here (ask_only _ rfl) fun _ s here => ?_
  refine parentQuiet (say _) _ s (.inl rfl) here (say_only _) fun _ s here => ?_
  refine keeps_ask (.storeOrder 0) _ s _ (parentAt_lasts 0 1 [[]] (some pid) (.inl rfl)) here (fun _ _ => trivial) ?_
  intro s reply after kept here running served
  cases served
  have empty : s.history = [] := by simpa using here.possible
  rw [touchFlag]
  split
  case isFalse unmapped =>
    refine ⟨⟨kept.ordered,kept.flag,kept.mapped,kept.posted,kept.opened,kept.passed,kept.childEnded,
      fun _ => ⟨rfl,empty,here.posts,by simp [here.childPid]⟩⟩,child_relies _ _ rfl rfl Iff.rfl rfl,?_⟩
    exact crashed_keeps (.semPost .syncSem2) _ _ (fun _ => trivial) rfl
  case isTrue mapped =>
  have set : s.history ++ [.stored .parent 0] = [cleared] := by
    rw [empty]
    rfl
  rw [set]
  refine ⟨⟨show [cleared] ∈ orders by decide,fun _ => rfl,fun _ => mapped,fun _ => by simp,
    fun set => absurd (show raised ∈ [cleared] from set) (by decide),kept.passed,
    kept.childEnded,fun ended => absurd running ended⟩,child_relies _ _ rfl rfl (by simp [empty,cleared,raised]) rfl,?_⟩
  have here : ParentAt 0 1 [[cleared]] (some pid) {s with orderFlag := 0,history := [cleared]}.toSync :=
    ⟨here.posts,here.waits,by simp,here.childPid,running⟩
  refine keeps_ask (.semPost .syncSem2) _ _ _ (parentAt_lasts 0 1 [[cleared]] (some pid) (.inl rfl)) here
    (fun _ _ => trivial) ?_
  intro s reply after kept here running served
  cases served
  have order : s.history = [cleared] := by simpa using here.possible
  refine ⟨kept.semPost .syncSem2 (fun _ => ⟨by simp [order],running⟩),child_relies _ _ rfl rfl Iff.rfl rfl,?_⟩
  have here : ParentAt 1 1 [[cleared],[cleared,raised]] (some pid)
      {s with posts := Function.update s.posts .syncSem2 (s.posts .syncSem2+1)}.toSync :=
    ⟨congrArg (· + 1) here.posts,here.waits,by simp [order],here.childPid,running⟩
  refine parentQuiet (ask .schedYield) _ _ (.inr (by decide)) here (ask_only _ rfl) fun result s here => ?_
  split
  · exact upholds_pure _ s _ (parentAt_lasts 1 1 _ (some pid) (.inr (by decide))) here (fun _ _ here => ⟨pid,here⟩)
  · exact looked_keeps pid s here

theorem bindBoth_keeps (pid : Int) (s : Shared) (here : ParentAt 0 0 [[]] (some pid) s.toSync) :
    Keeps .parent parentPost (bindBoth pid) s := by
  refine keeps_ask (.semWait .syncSem1) _ s _ (parentAt_lasts 0 0 [[]] (some pid) (.inl rfl)) here
    (fun _ here => ⟨rfl,pid,here⟩) ?_
  intro s reply after kept here running served
  simp only [respond] at served
  split at served
  case isFalse => contradiction
  case isTrue posted =>
  cases served
  refine ⟨kept.semWait .syncSem1 posted,child_relies _ _ rfl rfl Iff.rfl rfl,?_⟩
  have here : ParentAt 0 1 [[]] (some pid)
      {s with waits := Function.update s.waits .syncSem1 (s.waits .syncSem1+1)}.toSync :=
    ⟨here.posts,congrArg (· + 1) here.waits,here.possible,here.childPid,running⟩
  refine parentQuiet (ask .schedGetcpu) _ _ (.inl rfl) here (ask_only _ rfl) fun core s here => ?_
  refine parentQuiet (ask (.storeCore core)) _ s (.inl rfl) here (ask_only _ rfl) fun _ s here => ?_
  refine parentQuiet (ask .loadCore) _ s (.inl rfl) here (ask_only _ rfl) fun core s here => ?_
  refine parentQuiet (ask (.printf (.running .parent core))) _ s (.inl rfl) here (ask_only _ rfl) fun _ s here => ?_
  refine parentQuiet (ask .loadCore) _ s (.inl rfl) here (ask_only _ rfl) fun core s here => ?_
  refine parentQuiet (say _) _ s (.inl rfl) here (say_only _) fun _ s here => ?_
  refine parentQuiet (ask .loadCore) _ s (.inl rfl) here (ask_only _ rfl) fun core s here => ?_
  refine parentQuiet (ask (.schedSetaffinity pid core)) _ s (.inl rfl) here (ask_only _ rfl) fun result s here => ?_
  split
  · exact affinityFailed_keeps _ pid s (.inl rfl) here
  refine parentQuiet (ask .loadCore) _ s (.inl rfl) here (ask_only _ rfl) fun core s here => ?_
  refine parentQuiet (say _) _ s (.inl rfl) here (say_only _) fun _ s here => ?_
  refine parentQuiet (ask (.schedSetaffinity 0 core)) _ s (.inl rfl) here (ask_only _ rfl) fun result s here => ?_
  split
  · exact affinityFailed_keeps _ pid s (.inr rfl) here
  · exact giveWay_keeps pid s here

theorem runFunc_keeps (syncSem1 syncSem2 parentCore : Bool) (s : Shared) (here : ParentAt 0 0 [[]] none s.toSync) :
    Keeps .parent parentPost (runFunc syncSem1 syncSem2 parentCore) s := by
  have lasting := parentAt_lasts 0 0 [[]] none (.inl rfl)
  unfold runFunc
  split
  · exact upholds_pure _ s _ lasting here (fun _ _ here => here.childPid)
  refine keeps_ask .fork _ s _ lasting here (fun _ _ => trivial) ?_
  intro s pid after kept here running served
  simp only [respond] at served
  split at served
  next failed =>
    cases served
    rw [if_pos failed]
    refine ⟨kept,fun other _ => relies_refl other s.toSync,?_⟩
    exact upholds_pure _ s _ lasting here (fun _ _ here => here.childPid)
  next forked =>
    split at served
    · cases served
      rw [if_neg forked]
      refine ⟨⟨kept.ordered,kept.flag,kept.mapped,kept.posted,kept.opened,kept.passed,kept.childEnded,
        fun ended => absurd running ended⟩,child_relies _ _ rfl rfl Iff.rfl rfl,?_⟩
      exact bindBoth_keeps pid _ ⟨here.posts,here.waits,here.possible,rfl,running⟩
    · contradiction

theorem mmap_keeps {β : Type} {post : β → Sync → Prop} (region : Region) (next : Bool → Code β) (s : Shared)
    (here : ParentAt 0 0 [[]] none s.toSync)
    (rest : ∀ done s, ParentAt 0 0 [[]] none s.toSync → Keeps .parent post (next done) s) :
    Keeps .parent post (ask (.mmap region) >>= next) s := by
  refine keeps_ask (.mmap region) _ s _ (parentAt_lasts 0 0 [[]] none (.inl rfl)) here (fun _ _ => trivial) ?_
  intro s done after kept here running served
  cases served
  have empty : s.history = [] := by simpa using here.possible
  refine ⟨⟨kept.ordered,kept.flag,fun begun => absurd empty begun,kept.posted,kept.opened,kept.passed,kept.childEnded,
    kept.parentEnded⟩,child_relies _ _ rfl rfl Iff.rfl rfl,rest done _ ?_⟩
  exact ⟨here.posts,here.waits,here.possible,here.childPid,running⟩

theorem setUpAndRun_keeps (s : Shared) (here : ParentAt 0 0 [[]] none s.toSync) :
    Keeps .parent parentPost setUpAndRun s := by
  refine mmap_keeps _ _ s here fun syncSem1 s here => ?_
  refine mmap_keeps _ _ s here fun syncSem2 s here => ?_
  refine mmap_keeps _ _ s here fun parentCore s here => ?_
  exact mmap_keeps _ _ s here fun _ s here => runFunc_keeps syncSem1 syncSem2 parentCore s here

theorem start_holds : Holds serve contract start := by
  refine ⟨⟨by decide,by simp [start],by simp [start],by simp [start],by simp [start],by simp [start],by simp [start],
    by simp [start]⟩,?_⟩
  intro who
  cases who with
  | child => exact child_keeps _ ⟨rfl,rfl,rfl,rfl⟩
  | parent => exact setUpAndRun_keeps _ ⟨rfl,rfl,List.mem_cons_self,rfl,rfl⟩

/-! What every run comes to. -/

theorem blocked_cases (who : Party) (s : Shared) (asked : Request)
    (blocked : ∀ reply, serve who s asked reply = none) :
    s.ended who ≠ none ∨ (asked = .begin ∧ s.childPid = none) ∨
      (∃ sem, asked = .semWait sem ∧ s.posts sem ≤ s.waits sem) ∨
      (asked = .wait ∧ (s.childPid = none ∨ s.ended .child = none)) := by
  by_cases running : s.ended who = none
  case neg => exact .inl running
  have blocked (reply : asked.Answer) : respond who s asked reply = none := by
    simpa [serve,running] using blocked reply
  refine .inr ?_
  cases asked with
  | begin => exact .inl ⟨rfl,by simpa [respond] using blocked ()⟩
  | semWait sem => exact .inr (.inl ⟨sem,rfl,by simpa [respond] using blocked ()⟩)
  | wait =>
    refine .inr (.inr ⟨rfl,?_⟩)
    cases forked : s.childPid with
    | none => exact .inl rfl
    | some pid =>
      cases ended : s.ended .child with
      | none => exact .inr rfl
      | some report => simpa [respond,forked,ended] using blocked (pid,report)
  | mmap => simpa [respond] using blocked true
  | fork => simpa [respond] using blocked (-1)
  | loadCore => simpa [respond] using blocked s.parentCore
  | loadOrder => simpa [respond] using blocked s.orderFlag
  | schedGetcpu | schedSetaffinity | errno | schedYield => simpa [respond] using blocked 0
  | printf | fflush | semPost | storeCore | storeOrder | usleep | exitNow => simpa [respond] using blocked ()

/-- Where a child can be when nothing can happen any more. -/
theorem stuck_child (world : System) (holds : Holds serve contract world) (stuck : Stuck (step serve) world)
    (forked : world.shared.childPid ≠ none) :
    childPost world.shared.toSync ∨
    (∃ next, world.progs .child = .call (.semWait .syncSem2) next) ∧ ChildAt 1 0 false world.shared.toSync ∧
      world.shared.posts .syncSem2 = 0 := by
  cases prog : world.progs .child with
  | ret value => exact .inl (holds_returned holds .child value prog)
  | call asked next =>
    have pending : Pending .child asked world.shared.toSync := holds_pending holds .child asked next prog
    have running : world.shared.ended .child = none := by
      cases asked with
      | semWait => exact pending.2.running
      | wait => exact pending.elim
      | _ => exact pending
    have blocked := blocked_cases _ _ _ (stuck_blocked serve world stuck .child asked next prog)
    rcases blocked with dead | ⟨rfl,unforked⟩ | ⟨sem,rfl,closed⟩ | ⟨rfl,_⟩
    · exact absurd running dead
    · exact absurd unforked forked
    · obtain ⟨rfl,here⟩ := pending
      exact .inr ⟨⟨next,rfl⟩,here,by have := here.waits; omega⟩
    · exact pending.elim

/-- How it can be with the two processes when nothing can happen any more. -/
inductive Outcome (world : System) : Prop where
  | childless (message : Message) (early : message ∈ [Message.mmapFailed,.forkFailed])
      (returned : world.progs .parent = .ret (some message)) (unforked : world.shared.childPid = none)
  /-- The parent has died of the flag that is not mapped, and the child waits for ever. -/
  | crashed (dead : world.shared.ended .parent = some crashed)
      (waiting : ∃ next, world.progs .child = .call (.semWait .syncSem2) next)
  /-- The parent has reported a failure, and the child waits for ever. -/
  | abandoned (message : Message) (binding : message ∈ [Message.childNotBound,.parentNotBound])
      (returned : world.progs .parent = .ret (some message))
      (waiting : ∃ next, world.progs .child = .call (.semWait .syncSem2) next)
  | yieldFailed (returned : world.progs .parent = .ret (some .yieldFailed))
      (order : world.shared.history = [cleared,raised]) (ended : world.shared.ended .child ≠ none)
  | notScheduled (returned : world.progs .parent = .ret (some .notScheduled))
      (order : world.shared.history = [cleared,.loaded 0,raised]) (ended : world.shared.ended .child ≠ none)
  | childFailed (returned : world.progs .parent = .ret (some .childFailed))
      (order : world.shared.history = [cleared,raised,.loaded 1])
      (ended : world.shared.ended .child = some (.exited 255))
  | passed (returned : world.progs .parent = .ret none)
      (order : world.shared.history = [cleared,raised,.loaded 1])
      (ended : world.shared.ended .child = some (.exited 0))

/-- Before the parent has cleared the flag the child can only wait. -/
theorem stuck_waits (world : System) (holds : Holds serve contract world) (stuck : Stuck (step serve) world)
    (forked : world.shared.childPid ≠ none) (empty : world.shared.history = []) :
    ∃ next, world.progs .child = .call (.semWait .syncSem2) next := by
  rcases stuck_child world holds stuck forked with post | ⟨waiting,_⟩
  · have set := post.2.1
    simp [empty] at set
  · exact waiting

/-- Once the parent has posted the child comes to its end. -/
theorem stuck_finished (world : System) (holds : Holds serve contract world) (stuck : Stuck (step serve) world)
    (forked : world.shared.childPid ≠ none) (posted : world.shared.posts .syncSem2 = 1) :
    raised ∈ world.shared.history ∧ world.shared.ended .child ≠ none := by
  rcases stuck_child world holds stuck forked with post | ⟨_,_,closed⟩
  · exact post.2
  · omega

theorem stuck_outcome (world : System) (holds : Holds serve contract world)
    (stuck : Stuck (step serve) world) : Outcome world := by
  have kept : Invariant world.shared.toSync := holds.1
  cases prog : world.progs .parent with
  | ret message =>
    have post : parentPost message world.shared.toSync := holds_returned holds .parent message prog
    have waits (pid : Int) (here : ParentAt 0 1 [[]] (some pid) world.shared.toSync) :=
      stuck_waits world holds stuck (by simp [here.childPid]) (by simpa using here.possible)
    have finished (possible : List (List Access)) (pid : Int)
        (here : ParentAt 1 1 possible (some pid) world.shared.toSync) :=
      stuck_finished world holds stuck (by simp [here.childPid]) here.posts
    cases message with
    | none => exact .passed prog post.1 post.2
    | some message =>
      cases message with
      | mmapFailed | forkFailed => exact .childless _ (by decide) prog post
      | childNotBound | parentNotBound =>
        obtain ⟨pid,here⟩ := post
        exact .abandoned _ (by decide) prog (waits pid here)
      | yieldFailed =>
        obtain ⟨pid,here⟩ := post
        obtain ⟨set,ended⟩ := finished _ pid here
        refine .yieldFailed prog ?_ ended
        have order := here.possible
        simp only [List.mem_cons,List.not_mem_nil,or_false] at order
        rcases order with order | order
        · exact absurd (order ▸ set) (by decide)
        · exact order
      | notScheduled =>
        obtain ⟨pid,here⟩ := post
        obtain ⟨set,ended⟩ := finished _ pid here
        refine .notScheduled prog ?_ ended
        have order := here.possible
        simp only [List.mem_cons,List.not_mem_nil,or_false] at order
        rcases order with order | order
        · exact absurd (order ▸ set) (by decide)
        · exact order
      | childFailed => exact .childFailed prog post.1 post.2
      | waitFailed => exact post.elim
  | call asked next =>
    have pending : Pending .parent asked world.shared.toSync := holds_pending holds .parent asked next prog
    have blocked := blocked_cases _ _ _ (stuck_blocked serve world stuck .parent asked next prog)
    rcases blocked with dead | ⟨rfl,_⟩ | ⟨sem,rfl,closed⟩ | ⟨rfl,unended⟩
    · obtain ⟨dead,empty,_,forked⟩ := kept.parentEnded dead
      exact .crashed dead (stuck_waits world holds stuck forked empty)
    · exact pending.elim
    · obtain ⟨rfl,pid,here⟩ := pending
      -- A child that has come into being posts before it waits.
      have posted : world.shared.posts .syncSem1 = 1 := by
        rcases stuck_child world holds stuck (by simp [here.childPid]) with post | ⟨_,child,_⟩
        · exact post.1
        · exact child.posts
      have := here.waits
      omega
    · obtain ⟨pid,here⟩ := pending
      have ended := (stuck_finished world holds stuck (by simp [here.childPid]) here.posts).2
      rcases unended with unforked | unended
      · simp [here.childPid] at unforked
      · exact absurd unended ended

theorem say_within {β : Type} (line : Line) (next : PUnit → Code β) (bound : Nat)
    (rest : ∀ value, Within (next value) bound) : Within (say line >>= next) (bound+2) :=
  ⟨by omega,fun _ => ⟨by omega,fun _ => rest ()⟩⟩

theorem child_within : Within child 14 := by
  have exits (code : BitVec 8) : Within (do
      let _ ← ask (.exitNow code)
      return : Code Unit) 1 := within_request _ _ 0 fun _ => within_pure _ _
  have leaves : Within leave 3 := say_within _ _ 1 fun _ => exits 0
  exact within_request _ _ 13 fun _ => within_request _ _ 12 fun _ => say_within _ _ 10 fun _ =>
    within_request _ _ 9 fun _ => within_request _ _ 8 fun _ => within_request _ _ 7 fun _ =>
    within_request _ _ 6 fun _ => within_request _ _ 5 fun _ => within_ite _ _ 5
      (say_within _ _ 3 fun _ => within_ite _ _ 3 (say_within _ _ 1 fun _ => exits 255) leaves)
      (say_within _ _ 3 fun _ => leaves)

theorem giveWay_within (pid : Int) : Within (giveWay pid) 10 := by
  have waits : Within (waitChild pid) 1 := within_request _ _ 0 fun _ =>
    within_ite _ _ 0 (within_ite _ _ 0 (within_pure _ _) (within_pure _ _)) (within_pure _ _)
  exact within_request _ _ 9 fun _ => say_within _ _ 7 fun _ => within_request _ _ 6 fun _ =>
    within_request _ _ 5 fun _ => within_request _ _ 4 fun _ => within_ite _ _ 4 (within_pure _ _)
      (within_request _ _ 3 fun _ => within_ite _ _ 3 (within_pure _ _) (say_within _ _ 1 fun _ => waits))

theorem bindBoth_within (pid : Int) : Within (bindBoth pid) 24 := by
  have fails (message : Message) (bound : Nat) (three : 3 ≤ bound) : Within (affinityFailed message) bound :=
    within_mono _ 3 bound three (within_request _ _ 2 fun _ => say_within _ _ 0 fun _ => within_pure _ _)
  exact within_request _ _ 23 fun _ => within_request _ _ 22 fun _ => within_request _ _ 21 fun _ =>
    within_request _ _ 20 fun _ => within_request _ _ 19 fun _ => within_request _ _ 18 fun _ =>
    say_within _ _ 16 fun _ => within_request _ _ 15 fun _ => within_request _ _ 14 fun _ =>
    within_ite _ _ 14 (fails _ 14 (by decide)) (within_request _ _ 13 fun _ => say_within _ _ 11 fun _ =>
      within_request _ _ 10 fun _ => within_ite _ _ 10 (fails _ 10 (by decide)) (giveWay_within pid))

theorem setUpAndRun_within : Within setUpAndRun 29 :=
  within_request _ _ 28 fun _ => within_request _ _ 27 fun _ => within_request _ _ 26 fun _ =>
    within_request _ _ 25 fun _ => within_ite _ _ 25 (within_pure _ _)
      (within_request _ _ 24 fun _ => within_ite _ _ 24 (within_pure _ _) (bindBoth_within _))

/-- Every run is over after 43 calls at most, the store of the child is never
overwritten by the parent, and then the run has one of the outcomes: what the
parent reports about the yield is whether the child has set the flag before the
parent has looked. -/
theorem order_outcome (actions : List (Action Party Request.Answer)) (world : System)
    (computed : run (step serve) actions start = some world) :
    actions.length ≤ 43 ∧ world.shared.history ∈ orders ∧ (Stuck (step serve) world → Outcome world) := by
  have holds := run_holds serve contract actions _ world start_holds computed
  refine ⟨?_,holds.1.ordered,stuck_outcome world holds⟩
  have bound := run_within serve actions start world
    (fun who => if who = .child then 14 else 29) ?_ computed
  · exact bound
  · intro who
    cases who with
    | child => exact child_within
    | parent => exact setUpAndRun_within

/-- A kernel in which every call succeeds; both processes are on core 3, and the
flag is read before it is set. -/
def answers : (asked : Request) → asked.Answer
  | .mmap _ => true
  | .fork => 100
  | .schedGetcpu | .loadCore => 3
  | .loadOrder | .schedSetaffinity _ _ | .errno | .schedYield => 0
  | .wait => (100,.exited 0)
  | .begin | .printf _ | .fflush | .semPost _ | .semWait _ | .storeCore _ | .storeOrder _ | .usleep _
  | .exitNow _ => ()

/-- The parent has looked before the child, which it has let go, runs. -/
def early : List (Action Party Request.Answer) :=
  List.replicate 5 ⟨.parent,answers⟩ ++ List.replicate 5 ⟨.child,answers⟩ ++
    List.replicate 21 ⟨.parent,answers⟩ ++ List.replicate 9 ⟨.child,answers⟩

theorem order_outcome_early : ∃ world, run (step serve) early start = some world ∧ Outcome world := by
  obtain ⟨world,computed⟩ := Option.isSome_iff_exists.mp
    (show (run (step serve) early start).isSome = true from rfl)
  refine ⟨world,computed,(order_outcome _ world computed).2.2 ?_⟩
  rintro ⟨who,reply⟩
  have stuck : (run (step serve) early start).bind (fun world => step serve world ⟨who,reply⟩) = none := by
    cases who <;> rfl
  rwa [computed] at stuck

end Ostest.TestMck.SchedYield
