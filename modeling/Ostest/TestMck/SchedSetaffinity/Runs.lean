import Ostest.TestMck.SchedSetaffinity.Program

/-! Test sched_setaffinity/010: what the three processes agree on, and what every
run comes to. -/
namespace Ostest.TestMck.SchedSetaffinity
open Lib.Calls Lib.Runs Lib.Threads Lib.WaitStatus

def killed : Report := .signaled sigkill false

/-- The news that a child gives before it waits: its CPU, or a signal. -/
def Sync.announced (v : Sync) : Child → Bool
  | .one => v.told.isSome
  | .two => v.raised

/-- A signal finds a handler, or one has been counted. -/
def Armed (c : Child) (v : Sync) : Prop := v.handler c = true ∨ 0 < v.count c

structure Invariant (v : Sync) : Prop where
  armed : ∀ c, v.announced c = true → Armed c v
  ended : ∀ c report, v.ended c = some report → report = .exited 0 ∨ report = killed

structure ChildRelies (c : Child) (v later : Sync) : Prop where
  announced : later.announced c = v.announced c
  armed : later.handler c = v.handler c ∧ later.count c = v.count c ∨ v.count c < later.count c
  ended : later.ended c = v.ended c ∨ v.ended c = none ∧ later.ended c = some killed

structure ParentRelies (v later : Sync) : Prop where
  forked : later.forked = v.forked
  told : v.told ≠ none → later.told = v.told
  handler : ∀ c, v.handler c = true → later.handler c = true
  count : later.count = v.count
  group : later.group = v.group
  raised : later.raised = v.raised ∧ later.parentCount = v.parentCount ∨
    later.raised = true ∧ 0 < later.parentCount
  affinity : later.affinity = v.affinity
  ended : ∀ c, later.ended c = v.ended c ∨
    v.ended c = none ∧ 0 < later.count c ∧ later.ended c = some (.exited 0)

def Relies : Party → Sync → Sync → Prop
  | .child c => ChildRelies c
  | .parent => ParentRelies

theorem relies_refl (who : Party) (v : Sync) : Relies who v v := by
  cases who with
  | child c => exact ⟨rfl,.inl ⟨rfl,rfl⟩,.inl rfl⟩
  | parent => exact ⟨rfl,fun _ => rfl,fun _ => id,rfl,rfl,.inl ⟨rfl,rfl⟩,rfl,fun _ => .inl rfl⟩

theorem childRelies_trans (c : Child) (v middle later : Sync) (first : ChildRelies c v middle)
    (second : ChildRelies c middle later) : ChildRelies c v later := by
  refine ⟨second.announced.trans first.announced,?_,?_⟩
  · have monotone : middle.count c ≤ later.count c := by
      rcases second.armed with ⟨_,same⟩ | more <;> omega
    rcases first.armed with ⟨handler,same⟩ | more
    · rw [← handler,← same]
      exact second.armed
    · exact .inr (by omega)
  · rcases first.ended with same | ⟨none,dead⟩
    · rw [← same]
      exact second.ended
    · rcases second.ended with same | ⟨none',_⟩
      · exact .inr ⟨none,same.trans dead⟩
      · simp [dead] at none'

theorem parentRelies_trans (v middle later : Sync) (first : ParentRelies v middle)
    (second : ParentRelies middle later) : ParentRelies v later where
  forked := second.forked.trans first.forked
  told written := (second.told (first.told written ▸ written)).trans (first.told written)
  handler c set := second.handler c (first.handler c set)
  count := second.count.trans first.count
  group := second.group.trans first.group
  raised := by
    rcases second.raised with ⟨raised,count⟩ | raised
    · rw [raised,count]
      exact first.raised
    · exact .inr raised
  affinity := second.affinity.trans first.affinity
  ended c := by
    rcases first.ended c with same | ⟨none,counted,exited⟩
    · rw [← same]
      exact second.ended c
    · rcases second.ended c with same | ⟨none',_⟩
      · exact .inr ⟨none,second.count ▸ counted,same.trans exited⟩
      · simp [exited] at none'

theorem relies_trans (who : Party) (v middle later : Sync) (first : Relies who v middle)
    (second : Relies who middle later) : Relies who v later := by
  cases who with
  | child c => exact childRelies_trans c v middle later first second
  | parent => exact parentRelies_trans v middle later first second

/-- A child that has not come to its end; it may have been killed. -/
def Unfinished (c : Child) (v : Sync) : Prop := v.ended c = none ∨ v.ended c = some killed

/-- How far the parent has got: which children it has, before it has signalled any. -/
structure Stage (one two : Bool) (v : Sync) : Prop where
  one : v.forked .one = one
  two : v.forked .two = two
  count : ∀ c, v.count c = 0
  ended : ∀ c, v.ended c = none

/-- The count of the parent has not been cleared. -/
def Synced (v : Sync) : Prop := v.raised = true ↔ 0 < v.parentCount

structure Released (c : Child) (v : Sync) : Prop where
  forked : v.forked c = true
  count : 0 < v.count c
  spared : v.ended c ≠ some killed

def Pending : Party → Request → Sync → Prop
  | .child c, .spin, v => Unfinished c v ∧ v.announced c = true
  | .child c, .begin child, v => Unfinished c v ∧ child = c
  | .child _, .read, _ | .child _, .waitpid _, _ => False
  | .child c, _, v => Unfinished c v
  | .parent, .read, v => Stage true false v
  | .parent, .spin, v => Stage true true v ∧ Synced v
  | .parent, .waitpid c, v => Released c v
  | .parent, .begin _, _ | .parent, .exit, _ => False
  | .parent, _, _ => True

def parentPost (message : Msg) (v : Sync) : Prop :=
  match message with
  | some .mandatory | some .pipeFailed | some .fork1Failed => Stage false false v
  | some .fork2Failed => v.forked .two = false ∧ Released .one v
  | some .setpgid1Failed | some .setpgid2Failed => ∀ c, v.ended c = some killed
  | some .allocFailed | some .affinityFailed => Stage true true v
  | none => (∀ c, v.ended c = some (.exited 0)) ∧ v.told ≠ none ∧ v.affinity = v.told

def contract : Contract Party Request Shared Value where
  invariant s := Invariant s.toSync
  rely who s later := Relies who s.toSync later.toSync
  pending who asked s := Pending who asked s.toSync
  post
    | .child c, _, s => s.ended c = some (.exited 0)
    | .parent, message, s => parentPost message s.toSync
  refl who s := relies_refl who s.toSync
  trans who s middle later := relies_trans who s.toSync middle.toSync later.toSync

abbrev Keeps {β : Type} (who : Party) (post : β → Sync → Prop) (code : Code β) (s : Shared) : Prop :=
  Upholds serve contract who (fun value s => post value s.toSync) code s

abbrev Lasting (who : Party) (assertion : Sync → Prop) : Prop :=
  Stable contract who (fun s => assertion s.toSync)

/-- A call of a party that is alive. -/
theorem keeps_ask {β : Type} {who : Party} {post : β → Sync → Prop} (asked : Request)
    (next : asked.Answer → Code β) (s : Shared) (assertion : Sync → Prop) (lasting : Lasting who assertion)
    (now : assertion s.toSync) (pending : ∀ v, assertion v → Pending who asked v)
    (served : ∀ s reply after, Invariant s.toSync → assertion s.toSync → s.alive who = true →
      respond who s asked reply = some after →
        Invariant after.toSync ∧ (∀ other, other ≠ who → Relies other s.toSync after.toSync) ∧
        Keeps who post (next reply) after) :
    Keeps who post (ask asked >>= next) s := by
  apply upholds_request asked next s (fun s => assertion s.toSync) lasting now
  intro s kept holds
  refine ⟨pending s.toSync holds,?_⟩
  intro reply after taken
  rw [serve] at taken
  split at taken
  next alive => exact served s reply after kept holds alive taken
  next => contradiction

/-! Calls that leave the agreement alone. -/

def quiet : Request → Bool
  | .pipe | .getpid | .getCpuId | .printf _ | .close | .cpuAlloc | .cpuFree => true
  | _ => false

theorem respond_quiet (who : Party) (s after : Shared) (asked : Request) (reply : asked.Answer)
    (isQuiet : quiet asked = true) (served : respond who s asked reply = some after) :
    after.toSync = s.toSync := by
  cases asked <;> first | contradiction | (cases served; rfl)

theorem keeps_quiet {β : Type} {who : Party} {post : β → Sync → Prop} (asked : Request)
    (next : asked.Answer → Code β) (s : Shared) (assertion : Sync → Prop) (lasting : Lasting who assertion)
    (now : assertion s.toSync) (pending : ∀ v, assertion v → Pending who asked v) (isQuiet : quiet asked = true)
    (rest : ∀ reply s, assertion s.toSync → Keeps who post (next reply) s) :
    Keeps who post (ask asked >>= next) s := by
  refine keeps_ask asked next s assertion lasting now pending ?_
  intro s reply after kept here _ served
  have same := respond_quiet who s after asked reply isQuiet served
  rw [same]
  exact ⟨kept,fun other _ => relies_refl other s.toSync,rest reply after (same ▸ here)⟩

/-! The children. -/

/-- Before its handler is set up. -/
def Starting (c : Child) (v : Sync) : Prop := Unfinished c v ∧ v.announced c = false

def Ready (c : Child) (v : Sync) : Prop := Starting c v ∧ Armed c v

def Waiting (c : Child) (v : Sync) : Prop := Unfinished c v ∧ v.announced c = true

def Going (c : Child) (v : Sync) : Prop := Unfinished c v ∧ 0 < v.count c

section
variable {c : Child} {v later : Sync} (moved : ChildRelies c v later)
include moved

theorem unfinished_later (here : Unfinished c v) : Unfinished c later := by
  rcases moved.ended with same | ⟨_,dead⟩
  · rw [Unfinished,same]
    exact here
  · exact .inr dead

theorem armed_later (here : Armed c v) : Armed c later := by
  rcases moved.armed with ⟨handler,count⟩ | more
  · rw [Armed,handler,count]
    exact here
  · exact .inr (by omega)

theorem count_later (counted : 0 < v.count c) : 0 < later.count c := by
  rcases moved.armed with ⟨_,count⟩ | more <;> omega
end

theorem starting_lasts (c : Child) : Lasting (.child c) (Starting c) := by
  intro s later moved _ here
  have moved : ChildRelies c s.toSync later.toSync := moved
  exact ⟨unfinished_later moved here.1,moved.announced.trans here.2⟩

theorem ready_lasts (c : Child) : Lasting (.child c) (Ready c) := by
  intro s later moved kept here
  exact ⟨starting_lasts c s later moved kept here.1,armed_later moved here.2⟩

theorem waiting_lasts (c : Child) : Lasting (.child c) (Waiting c) := by
  intro s later moved _ here
  have moved : ChildRelies c s.toSync later.toSync := moved
  exact ⟨unfinished_later moved here.1,moved.announced.trans here.2⟩

theorem going_lasts (c : Child) : Lasting (.child c) (Going c) := by
  intro s later moved _ here
  have moved : ChildRelies c s.toSync later.toSync := moved
  exact ⟨unfinished_later moved here.1,count_later moved here.2⟩

theorem begin_keeps {β : Type} {post : β → Sync → Prop} (c : Child) (next : Unit → Code β) (s : Shared)
    (here : Starting c s.toSync) (rest : ∀ s, Starting c s.toSync → Keeps (.child c) post (next ()) s) :
    Keeps (.child c) post (ask (.begin c) >>= next) s := by
  refine keeps_ask _ _ s _ (starting_lasts c) here (fun _ here => ⟨here.1,rfl⟩) ?_
  intro s reply after kept here _ served
  simp only [respond] at served
  split at served
  next =>
    cases served
    exact ⟨kept,fun other _ => relies_refl other s.toSync,rest s here⟩
  next => contradiction

theorem sigaction_keeps {β : Type} {post : β → Sync → Prop} (c : Child) (next : Unit → Code β) (s : Shared)
    (here : Starting c s.toSync) (rest : ∀ s, Ready c s.toSync → Keeps (.child c) post (next ()) s) :
    Keeps (.child c) post (ask .sigaction >>= next) s := by
  refine keeps_ask _ _ s _ (starting_lasts c) here (fun _ here => here.1) ?_
  intro s reply after kept here _ served
  cases served
  have armed (other : Child) (before : Armed other s.toSync) :
      Armed other {s with handler := Function.update s.handler c true}.toSync := by
    rcases before with set | counted
    · refine .inl ?_
      by_cases same : other = c
      · subst same
        exact Function.update_self _ _ _
      · exact (Function.update_of_ne same _ _).trans set
    · exact .inr counted
  refine ⟨⟨fun other announced => armed other (kept.armed other (by cases other <;> exact announced)),kept.ended⟩,
    ?_,rest _ ⟨⟨here.1,by cases c <;> exact here.2⟩,.inl (Function.update_self _ _ _)⟩⟩
  intro other different
  cases other with
  | child other =>
    have apart : other ≠ c := fun same => different (congrArg _ same)
    exact ⟨by cases other <;> rfl,.inl ⟨Function.update_of_ne apart _ _,rfl⟩,.inl rfl⟩
  | parent =>
    refine ⟨rfl,fun _ => rfl,?_,rfl,rfl,.inl ⟨rfl,rfl⟩,rfl,fun _ => .inl rfl⟩
    intro other set
    by_cases same : other = c
    · subst same
      exact Function.update_self _ _ _
    · exact (Function.update_of_ne same _ _).trans set

theorem spin_keeps {β : Type} {post : β → Sync → Prop} (c : Child) (next : Unit → Code β) (s : Shared)
    (here : Waiting c s.toSync) (rest : ∀ s, Going c s.toSync → Keeps (.child c) post (next ()) s) :
    Keeps (.child c) post (ask .spin >>= next) s := by
  refine keeps_ask _ _ s _ (waiting_lasts c) here (fun _ here => here) ?_
  intro s reply after kept here _ served
  simp only [respond] at served
  split at served
  next counted =>
    cases served
    exact ⟨kept,fun other _ => relies_refl other s.toSync,rest s ⟨here.1,Nat.pos_of_ne_zero counted⟩⟩
  next => contradiction

theorem exit_keeps (c : Child) (s : Shared) (here : Going c s.toSync) :
    Keeps (.child c) (fun _ v => v.ended c = some (.exited 0)) (do
      let _ ← ask .exit
      return) s := by
  refine keeps_ask _ _ s _ (going_lasts c) here (fun _ here => here.1) ?_
  intro s reply after kept here alive served
  cases served
  have unended : s.ended c = none := by simpa [Sync.alive] using alive
  refine ⟨⟨fun other announced => kept.armed other (by cases other <;> exact announced),?_⟩,?_,?_⟩
  · intro other report ended
    by_cases same : other = c
    · subst same
      exact .inl (Option.some.inj (ended.symm.trans (Function.update_self _ _ _)))
    · exact kept.ended other report ((Function.update_of_ne same _ _).symm.trans ended)
  · intro other different
    cases other with
    | child other =>
      have apart : other ≠ c := fun same => different (congrArg _ same)
      exact ⟨by cases other <;> rfl,.inl ⟨rfl,rfl⟩,.inl (Function.update_of_ne apart _ _)⟩
    | parent =>
      refine ⟨rfl,fun _ => rfl,fun _ => id,rfl,rfl,.inl ⟨rfl,rfl⟩,rfl,?_⟩
      intro other
      by_cases same : other = c
      · subst same
        exact .inr ⟨unended,here.2,Function.update_self _ _ _⟩
      · exact .inl (Function.update_of_ne same _ _)
  · have lasting : Lasting (.child c) (fun v => v.ended c = some (.exited 0)) := by
      intro s later moved _ ended
      have moved : ChildRelies c s.toSync later.toSync := moved
      rcases moved.ended with same | ⟨none,_⟩
      · exact same.trans ended
      · simp [none] at ended
    exact upholds_pure _ _ _ lasting (Function.update_self _ _ _) (fun _ _ ended => ended)

theorem write_keeps {β : Type} {post : β → Sync → Prop} (cpu : Int) (next : Unit → Code β) (s : Shared)
    (here : Ready .one s.toSync) (rest : ∀ s, Waiting .one s.toSync → Keeps (.child .one) post (next ()) s) :
    Keeps (.child .one) post (ask (.write cpu) >>= next) s := by
  refine keeps_ask _ _ s _ (ready_lasts .one) here (fun _ here => here.1.1) ?_
  intro s reply after kept here _ served
  cases served
  have untold : s.told = none := by simpa [Sync.announced] using here.1.2
  refine ⟨⟨?_,kept.ended⟩,?_,rest _ ⟨here.1.1,rfl⟩⟩
  · intro c announced
    cases c with
    | one => exact here.2
    | two => exact kept.armed .two announced
  · intro other different
    cases other with
    | child c =>
      cases c with
      | one => contradiction
      | two => exact ⟨rfl,.inl ⟨rfl,rfl⟩,.inl rfl⟩
    | parent =>
      exact ⟨rfl,fun told => absurd untold told,fun _ => id,rfl,rfl,.inl ⟨rfl,rfl⟩,rfl,fun _ => .inl rfl⟩

theorem killParent_keeps {β : Type} {post : β → Sync → Prop} (next : Unit → Code β) (s : Shared)
    (here : Ready .two s.toSync) (rest : ∀ s, Waiting .two s.toSync → Keeps (.child .two) post (next ()) s) :
    Keeps (.child .two) post (ask .killParent >>= next) s := by
  refine keeps_ask _ _ s _ (ready_lasts .two) here (fun _ here => here.1.1) ?_
  intro s reply after kept here _ served
  cases served
  refine ⟨⟨?_,kept.ended⟩,?_,rest _ ⟨here.1.1,rfl⟩⟩
  · intro c announced
    cases c with
    | one => exact kept.armed .one announced
    | two => exact here.2
  · intro other different
    cases other with
    | child c =>
      cases c with
      | one => exact ⟨rfl,.inl ⟨rfl,rfl⟩,.inl rfl⟩
      | two => contradiction
    | parent =>
      exact ⟨rfl,fun _ => rfl,fun _ => id,rfl,rfl,.inr ⟨rfl,Nat.succ_pos _⟩,rfl,fun _ => .inl rfl⟩

theorem child1_keeps (s : Shared) (here : Starting .one s.toSync) :
    Keeps (.child .one) (fun _ v => v.ended .one = some (.exited 0)) child1 s := by
  refine begin_keeps .one _ s here fun s here => ?_
  refine keeps_quiet .getpid _ s _ (starting_lasts .one) here (fun _ here => here.1) rfl fun pid s here => ?_
  refine sigaction_keeps .one _ s here fun s here => ?_
  refine keeps_quiet .getCpuId _ s _ (ready_lasts .one) here (fun _ here => here.1.1) rfl fun cpu s here => ?_
  refine keeps_quiet (.printf _) _ s _ (ready_lasts .one) here (fun _ here => here.1.1) rfl fun _ s here => ?_
  refine keeps_quiet (.printf _) _ s _ (ready_lasts .one) here (fun _ here => here.1.1) rfl fun _ s here => ?_
  refine keeps_quiet .getCpuId _ s _ (ready_lasts .one) here (fun _ here => here.1.1) rfl fun cpu s here => ?_
  refine write_keeps cpu _ s here fun s here => ?_
  refine spin_keeps .one _ s here fun s here => ?_
  refine keeps_quiet .getCpuId _ s _ (going_lasts .one) here (fun _ here => here.1) rfl fun cpu s here => ?_
  refine keeps_quiet (.printf _) _ s _ (going_lasts .one) here (fun _ here => here.1) rfl fun _ s here => ?_
  refine keeps_quiet (.printf _) _ s _ (going_lasts .one) here (fun _ here => here.1) rfl fun _ s here => ?_
  refine keeps_quiet .close _ s _ (going_lasts .one) here (fun _ here => here.1) rfl fun _ s here => ?_
  refine keeps_quiet .close _ s _ (going_lasts .one) here (fun _ here => here.1) rfl fun _ s here => ?_
  exact exit_keeps .one s here

theorem child2_keeps (s : Shared) (here : Starting .two s.toSync) :
    Keeps (.child .two) (fun _ v => v.ended .two = some (.exited 0)) child2 s := by
  refine begin_keeps .two _ s here fun s here => ?_
  refine keeps_quiet .getpid _ s _ (starting_lasts .two) here (fun _ here => here.1) rfl fun pid s here => ?_
  refine sigaction_keeps .two _ s here fun s here => ?_
  refine keeps_quiet .getCpuId _ s _ (ready_lasts .two) here (fun _ here => here.1.1) rfl fun cpu s here => ?_
  refine keeps_quiet (.printf _) _ s _ (ready_lasts .two) here (fun _ here => here.1.1) rfl fun _ s here => ?_
  refine keeps_quiet (.printf _) _ s _ (ready_lasts .two) here (fun _ here => here.1.1) rfl fun _ s here => ?_
  refine killParent_keeps _ s here fun s here => ?_
  refine spin_keeps .two _ s here fun s here => ?_
  refine keeps_quiet .getCpuId _ s _ (going_lasts .two) here (fun _ here => here.1) rfl fun cpu s here => ?_
  refine keeps_quiet (.printf _) _ s _ (going_lasts .two) here (fun _ here => here.1) rfl fun _ s here => ?_
  refine keeps_quiet (.printf _) _ s _ (going_lasts .two) here (fun _ here => here.1) rfl fun _ s here => ?_
  exact exit_keeps .two s here

/-! The parent. -/

theorem stage_lasts (one two : Bool) : Lasting .parent (Stage one two) := by
  intro s later moved _ here
  have moved : ParentRelies s.toSync later.toSync := moved
  have counts (c : Child) : later.count c = 0 := (congrFun moved.count c).trans (here.count c)
  refine ⟨moved.forked ▸ here.one,moved.forked ▸ here.two,counts,fun c => ?_⟩
  rcases moved.ended c with same | ⟨_,counted,_⟩
  · exact same.trans (here.ended c)
  · exact absurd (counts c) (Nat.pos_iff_ne_zero.mp counted)

theorem synced_lasts : Lasting .parent Synced := by
  intro s later moved _ here
  have moved : ParentRelies s.toSync later.toSync := moved
  rcases moved.raised with ⟨raised,count⟩ | ⟨raised,counted⟩
  · rw [Synced,raised,count]
    exact here
  · exact ⟨fun _ => counted,fun _ => raised⟩

theorem told_lasts (cpu : Int) : Lasting .parent (fun v => v.told = some cpu) := by
  intro s later moved _ here
  have moved : ParentRelies s.toSync later.toSync := moved
  exact (moved.told (by simp [here])).trans here

theorem affinity_lasts (cpu : Int) : Lasting .parent (fun v => v.affinity = some cpu) := by
  intro s later moved _ here
  have moved : ParentRelies s.toSync later.toSync := moved
  exact moved.affinity.trans here

theorem ended_lasts (c : Child) (report : Report) : Lasting .parent (fun v => v.ended c = some report) := by
  intro s later moved _ here
  have moved : ParentRelies s.toSync later.toSync := moved
  rcases moved.ended c with same | ⟨unended,_⟩
  · exact same.trans here
  · simp [here] at unended

theorem released_lasts (c : Child) : Lasting .parent (Released c) := by
  intro s later moved _ here
  have moved : ParentRelies s.toSync later.toSync := moved
  refine ⟨moved.forked ▸ here.forked,moved.count ▸ here.count,?_⟩
  rcases moved.ended c with same | ⟨_,_,exited⟩
  · exact same ▸ here.spared
  · rw [exited]
    decide

/-- What the children rely on is as it was. -/
structure Unseen (v later : Sync) : Prop where
  told : later.told = v.told
  raised : later.raised = v.raised
  handler : later.handler = v.handler
  count : later.count = v.count
  ended : later.ended = v.ended

theorem Unseen.announced {v later : Sync} (unseen : Unseen v later) (c : Child) :
    later.announced c = v.announced c := by
  cases c with
  | one => exact congrArg Option.isSome unseen.told
  | two => exact unseen.raised

theorem Unseen.invariant {v later : Sync} (unseen : Unseen v later) (kept : Invariant v) : Invariant later := by
  refine ⟨fun c announced => ?_,?_⟩
  · rw [Armed,unseen.handler,unseen.count]
    exact kept.armed c (unseen.announced c ▸ announced)
  · rw [unseen.ended]
    exact kept.ended

theorem Unseen.relies {v later : Sync} (unseen : Unseen v later) (c : Child) : ChildRelies c v later :=
  ⟨unseen.announced c,.inl ⟨congrFun unseen.handler c,congrFun unseen.count c⟩,.inl (congrFun unseen.ended c)⟩

theorem keeps_unseen {β : Type} {post : β → Sync → Prop} (asked : Request) (next : asked.Answer → Code β)
    (s : Shared) (assertion : Sync → Prop) (lasting : Lasting .parent assertion) (here : assertion s.toSync)
    (pending : ∀ v, assertion v → Pending .parent asked v)
    (unseen : ∀ s reply after, respond .parent s asked reply = some after → Unseen s.toSync after.toSync)
    (rest : ∀ s reply after, assertion s.toSync → respond .parent s asked reply = some after →
      Keeps .parent post (next reply) after) :
    Keeps .parent post (ask asked >>= next) s := by
  refine keeps_ask asked next s assertion lasting here pending ?_
  intro s reply after kept here _ served
  have unseen := unseen s reply after served
  refine ⟨unseen.invariant kept,fun other different => ?_,rest s reply after here served⟩
  cases other with
  | child c => exact unseen.relies c
  | parent => contradiction

/-- The first child has told its CPU. -/
structure Told (two : Bool) (cpu : Int) (v : Sync) : Prop where
  stage : Stage true two v
  synced : Synced v
  told : v.told = some cpu

theorem informed_lasts (two : Bool) (cpu : Int) : Lasting .parent (Told two cpu) := by
  intro s later moved kept here
  exact ⟨stage_lasts true two s later moved kept here.stage,synced_lasts s later moved kept here.synced,
    told_lasts cpu s later moved kept here.told⟩

/-- A child that a signal would release. -/
structure Held (c : Child) (v : Sync) : Prop where
  forked : v.forked c = true
  handler : v.handler c = true
  count : v.count c = 0
  ended : v.ended c = none

theorem held_lasts (c : Child) : Lasting .parent (Held c) := by
  intro s later moved _ here
  have moved : ParentRelies s.toSync later.toSync := moved
  have count : later.count c = 0 := (congrFun moved.count c).trans here.count
  refine ⟨moved.forked ▸ here.forked,moved.handler c here.handler,count,?_⟩
  rcases moved.ended c with same | ⟨_,counted,_⟩
  · exact same.trans here.ended
  · omega

/-- A child that has given its news and has not been signalled is held. -/
theorem held_announced {one two : Bool} (c : Child) (v : Sync) (stage : Stage one two v) (kept : Invariant v)
    (forked : v.forked c = true) (announced : v.announced c = true) : Held c v := by
  refine ⟨forked,?_,stage.count c,stage.ended c⟩
  rcases kept.armed c announced with handler | counted
  · exact handler
  · exact absurd (stage.count c) (Nat.pos_iff_ne_zero.mp counted)

theorem Told.held {two : Bool} {cpu : Int} {v : Sync} (here : Told two cpu v) (kept : Invariant v) : Held .one v :=
  held_announced .one v here.stage kept here.stage.one (by simp [Sync.announced,here.told])

def released (c : Child) (v : Sync) : Sync :=
  {v with count := Function.update v.count c (v.count c+1),handler := Function.update v.handler c false}

theorem deliver_held (c : Child) (v : Sync) (held : Held c v) : deliver .sigusr1 v c = released c v := by
  simp [deliver,held.ended,held.handler,released]

theorem released_invariant (c : Child) (v : Sync) (kept : Invariant v) : Invariant (released c v) := by
  refine ⟨fun other announced => ?_,kept.ended⟩
  by_cases same : other = c
  · subst same
    exact .inr (by simp [released])
  · have armed := kept.armed other (by cases other <;> exact announced)
    simpa [Armed,released,Function.update_of_ne same] using armed

theorem released_relies (c other : Child) (v : Sync) : ChildRelies other v (released c v) := by
  refine ⟨by cases other <;> rfl,?_,.inl rfl⟩
  by_cases same : other = c
  · subst same
    exact .inr (by simp [released])
  · exact .inl ⟨Function.update_of_ne same _ _,Function.update_of_ne same _ _⟩

theorem held_released (c : Child) (v : Sync) (held : Held c v) : Released c (released c v) :=
  ⟨held.forked,by simp [released],by simp [released,held.ended]⟩

theorem release_keeps {β : Type} {post : β → Sync → Prop} (c : Child) (next : Unit → Code β) (s : Shared)
    (assertion : Sync → Prop) (lasting : Lasting .parent assertion) (here : assertion s.toSync)
    (held : ∀ v, Invariant v → assertion v → Held c v)
    (rest : ∀ v s, Held c v → assertion v → s.toSync = released c v → Keeps .parent post (next ()) s) :
    Keeps .parent post (ask (.kill (.process c) .sigusr1) >>= next) s := by
  refine keeps_ask _ _ s _ lasting here (fun _ _ => trivial) ?_
  intro s reply after kept here _ served
  cases served
  have held := held s.toSync kept here
  have moved : kill s.toSync (.process c) .sigusr1 = released c s.toSync := deliver_held c s.toSync held
  refine ⟨moved ▸ released_invariant c s.toSync kept,?_,rest s.toSync _ held here moved⟩
  intro other different
  cases other with
  | child other => exact moved ▸ released_relies c other s.toSync
  | parent => contradiction

def slain (c : Child) (v : Sync) : Sync := {v with ended := Function.update v.ended c (some killed)}

theorem slay_keeps {β : Type} {post : β → Sync → Prop} (c : Child) (next : Unit → Code β) (s : Shared)
    (assertion : Sync → Prop) (lasting : Lasting .parent assertion) (here : assertion s.toSync)
    (unended : ∀ v, assertion v → v.ended c = none)
    (rest : ∀ v s, assertion v → s.toSync = slain c v → Keeps .parent post (next ()) s) :
    Keeps .parent post (ask (.kill (.process c) .sigkill) >>= next) s := by
  refine keeps_ask _ _ s _ lasting here (fun _ _ => trivial) ?_
  intro s reply after kept here _ served
  cases served
  have unended := unended s.toSync here
  have moved : kill s.toSync (.process c) .sigkill = slain c s.toSync := by
    simp [kill,deliver,unended,slain,killed]
  refine ⟨moved ▸ ⟨?_,?_⟩,?_,rest s.toSync _ here moved⟩
  · exact fun other announced => kept.armed other (by cases other <;> exact announced)
  · intro other report ended
    by_cases same : other = c
    · subst same
      exact .inr (Option.some.inj (ended.symm.trans (Function.update_self _ _ _)))
    · exact kept.ended other report ((Function.update_of_ne same _ _).symm.trans ended)
  · intro other different
    cases other with
    | child other =>
      refine moved ▸ ⟨by cases other <;> rfl,.inl ⟨rfl,rfl⟩,?_⟩
      by_cases same : other = c
      · subst same
        exact .inr ⟨unended,Function.update_self _ _ _⟩
      · exact .inl (Function.update_of_ne same _ _)
    | parent => contradiction

theorem killBoth_keeps (message : Message) (cpu : Int) (s : Shared) (here : Told true cpu s.toSync)
    (said : ∀ v, (∀ c, v.ended c = some killed) → parentPost (some message) v) :
    Keeps .parent parentPost (killBoth message) s := by
  refine slay_keeps .one _ s _ (informed_lasts true cpu) here (fun _ here => here.stage.ended .one) ?_
  intro v s here moved
  have lasting : Lasting .parent (fun v => v.ended .one = some killed ∧ v.ended .two = none ∧ v.count .two = 0) := by
    intro s later moved kept here
    refine ⟨ended_lasts .one killed s later moved kept here.1,?_⟩
    have moved : ParentRelies s.toSync later.toSync := moved
    have count : later.count .two = 0 := (congrFun moved.count .two).trans here.2.2
    refine ⟨?_,count⟩
    rcases moved.ended .two with same | ⟨_,counted,_⟩
    · exact same.trans here.2.1
    · omega
  refine slay_keeps .two _ s _ lasting (moved ▸ ⟨rfl,here.stage.ended .two,here.stage.count .two⟩) (fun _ here => here.2.1) ?_
  intro v s here moved
  have both : ∀ c, s.ended c = some killed := by
    rw [moved]
    intro c
    cases c with
    | one => exact here.1
    | two => rfl
  refine upholds_pure _ _ (fun s => ∀ c, s.ended c = some killed) ?_ both (fun s _ => said s.toSync)
  exact fun s later moved kept here c => ended_lasts c killed s later moved kept (here c)

/-- Both children wait for their signal, in one group. -/
structure Reached (cpu : Int) (v : Sync) : Prop where
  held : ∀ c, Held c v
  told : v.told = some cpu
  group : ∀ c, v.group c = some .one

theorem reached_lasts (cpu : Int) : Lasting .parent (Reached cpu) := by
  intro s later moved kept here
  refine ⟨fun c => held_lasts c s later moved kept (here.held c),told_lasts cpu s later moved kept here.told,?_⟩
  have moved : ParentRelies s.toSync later.toSync := moved
  exact fun c => (congrFun moved.group c).trans (here.group c)

theorem Reached.stage {cpu : Int} {v : Sync} (here : Reached cpu v) : Stage true true v :=
  ⟨(here.held .one).forked,(here.held .two).forked,fun c => (here.held c).count,fun c => (here.held c).ended⟩

/-- The group that the parent signals when sched_setaffinity fails has no member. -/
theorem kill_nobody (cpu : Int) (v : Sync) (signal : Signal) (here : Reached cpu v) :
    kill v (.group .two) signal = v := by
  simp [kill,here.group]

theorem wake_keeps (cpu : Int) (s : Shared) (here : Reached cpu s.toSync) (moved : s.affinity = some cpu) :
    Keeps .parent parentPost (do
      let _ ← ask (.kill (.process .two) .sigusr1)
      let _ ← ask (.kill (.process .one) .sigusr1)
      let _ ← ask (.waitpid .one)
      let _ ← ask (.waitpid .two)
      let _ ← ask (.printf .pleaseCheck)
      return none) s := by
  have aligned (assertion : Sync → Prop) (lasting : Lasting .parent assertion) :
      Lasting .parent (fun v => assertion v ∧ v.told = some cpu ∧ v.affinity = some cpu) :=
    fun s later moved kept here => ⟨lasting s later moved kept here.1,
      told_lasts cpu s later moved kept here.2.1,affinity_lasts cpu s later moved kept here.2.2⟩
  have wait {β : Type} {post : β → Sync → Prop} (c : Child) (next : Unit → Code β) (s : Shared)
      (assertion : Sync → Prop) (lasting : Lasting .parent assertion) (here : assertion s.toSync)
      (held : ∀ v, assertion v → Released c v)
      (rest : ∀ s, assertion s.toSync → s.ended c = some (.exited 0) → Keeps .parent post (next ()) s) :
      Keeps .parent post (ask (.waitpid c) >>= next) s := by
    refine keeps_ask _ _ s _ lasting here held ?_
    intro s reply after kept here _ served
    simp only [respond] at served
    split at served
    next ended =>
      cases served
      obtain ⟨report,reported⟩ := Option.isSome_iff_exists.mp ended
      refine ⟨kept,fun other _ => relies_refl other s.toSync,rest s here ?_⟩
      rcases kept.ended c report reported with exited | dead
      · exact exited ▸ reported
      · exact absurd (dead ▸ reported) (held s.toSync here).spared
    next => contradiction
  refine release_keeps .two _ s _ (aligned _ (reached_lasts cpu)) ⟨here,here.told,moved⟩ (fun _ _ here => here.1.held .two) ?_
  intro v s held here moved
  have halfway : Lasting .parent (fun v => Held .one v ∧ Released .two v) :=
    fun s later moved kept here =>
      ⟨held_lasts .one s later moved kept here.1,released_lasts .two s later moved kept here.2⟩
  refine release_keeps .one _ s _ (aligned _ halfway) ?_ (fun _ _ here => here.1.1) ?_
  · rw [moved]
    have one := here.1.held .one
    exact ⟨⟨⟨one.forked,one.handler,one.count,one.ended⟩,held_released .two v held⟩,here.2⟩
  intro v s held here moved
  have released : Lasting .parent (fun v => Released .one v ∧ Released .two v) :=
    fun s later moved kept here =>
      ⟨released_lasts .one s later moved kept here.1,released_lasts .two s later moved kept here.2⟩
  refine wait .one _ s _ (aligned _ released) ?_ (fun _ here => here.1.1) ?_
  · rw [moved]
    have two := here.1.2
    exact ⟨⟨held_released .one v held,⟨two.forked,two.count,two.spared⟩⟩,here.2⟩
  intro s here one
  have waited : Lasting .parent (fun v => v.ended .one = some (.exited 0) ∧ Released .two v) :=
    fun s later moved kept here =>
      ⟨ended_lasts .one _ s later moved kept here.1,released_lasts .two s later moved kept here.2⟩
  refine wait .two _ s _ (aligned _ waited) ⟨⟨one,here.1.2⟩,here.2⟩ (fun _ here => here.1.2) ?_
  intro s here two
  have both : Lasting .parent (fun v => ∀ c, v.ended c = some (.exited 0)) :=
    fun s later moved kept here c => ended_lasts c _ s later moved kept (here c)
  have exited : ∀ c, s.ended c = some (.exited 0) := fun c => by
    cases c with
    | one => exact here.1.1
    | two => exact two
  refine keeps_quiet (.printf .pleaseCheck) _ s _ (aligned _ both) ⟨exited,here.2⟩ (fun _ _ => trivial) rfl ?_
  intro _ s here
  refine upholds_pure _ s _ (aligned _ both) here ?_
  intro s _ here
  exact ⟨here.1,by simp [here.2.1],here.2.2.trans here.2.1.symm⟩

theorem migrate_keeps (cpu : Int) (s : Shared) (here : Told true cpu s.toSync)
    (group : ∀ c, s.group c = some .one) : Keeps .parent parentPost (migrate cpu) s := by
  have lasting : Lasting .parent (fun v => Told true cpu v ∧ ∀ c, v.group c = some .one) := by
    intro s later moved kept here
    refine ⟨informed_lasts true cpu s later moved kept here.1,fun c => ?_⟩
    have moved : ParentRelies s.toSync later.toSync := moved
    exact (congrFun moved.group c).trans (here.2 c)
  refine keeps_ask .spin _ s _ lasting ⟨here,group⟩ (fun _ here => ⟨here.1.stage,here.1.synced⟩) ?_
  intro s reply after kept here _ served
  simp only [respond] at served
  split at served
  case isFalse => contradiction
  case isTrue counted =>
  cases served
  -- The signal that ends the wait says that the second child has its handler.
  have raised : s.raised = true := here.1.synced.mpr (Nat.pos_of_ne_zero counted)
  have reached : Reached cpu s.toSync := by
    refine ⟨fun c => ?_,here.1.told,here.2⟩
    cases c with
    | one => exact here.1.held kept
    | two => exact held_announced .two s.toSync here.1.stage kept here.1.stage.two raised
  refine ⟨kept,fun other _ => relies_refl other s.toSync,?_⟩
  refine keeps_unseen .clearCount _ s _ (reached_lasts cpu) reached (fun _ _ => trivial) ?_ ?_
  · intro s reply after served
    cases served
    exact ⟨rfl,rfl,rfl,rfl,rfl⟩
  intro s reply after here served
  cases served
  have cleared : Reached cpu {s with parentCount := 0}.toSync :=
    ⟨fun c => ⟨(here.held c).forked,(here.held c).handler,(here.held c).count,(here.held c).ended⟩,here.told,here.group⟩
  refine keeps_unseen (.schedSetaffinity .two cpu) _ _ _ (reached_lasts cpu) cleared (fun _ _ => trivial) ?_ ?_
  · intro s result after served
    cases served
    split <;> exact ⟨rfl,rfl,rfl,rfl,rfl⟩
  intro s result after here served
  cases served
  split
  next failed =>
    refine keeps_quiet .cpuFree _ s _ (reached_lasts cpu) here (fun _ _ => trivial) rfl fun _ s here => ?_
    refine keeps_ask (.kill (.group .two) .sigusr1) _ s _ (reached_lasts cpu) here (fun _ _ => trivial) ?_
    intro s reply after kept here _ served
    cases served
    rw [kill_nobody cpu s.toSync .sigusr1 here]
    refine ⟨kept,fun other _ => relies_refl other s.toSync,?_⟩
    exact upholds_pure _ s _ (reached_lasts cpu) here (fun _ _ here => here.stage)
  next moved =>
    have bound : Lasting .parent (fun v => Reached cpu v ∧ v.affinity = some cpu) :=
      fun s later moved kept here =>
        ⟨reached_lasts cpu s later moved kept here.1,affinity_lasts cpu s later moved kept here.2⟩
    have now : Reached cpu {s with affinity := some cpu}.toSync :=
      ⟨fun c => ⟨(here.held c).forked,(here.held c).handler,(here.held c).count,(here.held c).ended⟩,here.told,here.group⟩
    refine keeps_quiet .cpuFree _ _ _ bound ⟨now,rfl⟩ (fun _ _ => trivial) rfl fun _ s here => ?_
    exact wake_keeps cpu s here.1 here.2

theorem setpgid_unseen (c leader : Child) (s : Shared) (result : Int) (after : Shared)
    (served : respond .parent s (.setpgid c leader) result = some after) : Unseen s.toSync after.toSync := by
  cases served
  split <;> exact ⟨rfl,rfl,rfl,rfl,rfl⟩

theorem regroup_keeps (cpu : Int) (s : Shared) (here : Told true cpu s.toSync) :
    Keeps .parent parentPost (regroup cpu) s := by
  refine keeps_unseen (.setpgid .one .one) _ s _ (informed_lasts true cpu) here (fun _ _ => trivial)
    (setpgid_unseen .one .one) ?_
  intro s result after here served
  cases served
  split
  next => exact killBoth_keeps _ cpu s here (fun _ both => both)
  next =>
  have grouped (members : List Child) :
      Lasting .parent (fun v => Told true cpu v ∧ ∀ c ∈ members, v.group c = some .one) := by
    intro s later moved kept here
    refine ⟨informed_lasts true cpu s later moved kept here.1,fun c member => ?_⟩
    have moved : ParentRelies s.toSync later.toSync := moved
    exact (congrFun moved.group c).trans (here.2 c member)
  refine keeps_unseen (.setpgid .two .one) _ _ _ (grouped [.one])
    ⟨⟨⟨here.stage.one,here.stage.two,here.stage.count,here.stage.ended⟩,here.synced,here.told⟩,by simp⟩ (fun _ _ => trivial)
    (setpgid_unseen .two .one) ?_
  intro s result after here served
  cases served
  split
  next => exact killBoth_keeps _ cpu s here.1 (fun _ both => both)
  next =>
  have both : Told true cpu {s with group := Function.update s.group .two (some .one)}.toSync ∧
      ∀ c ∈ [Child.one,Child.two], Function.update s.group .two (some .one) c = some .one := by
    have stage := here.1.stage
    refine ⟨⟨⟨stage.one,stage.two,stage.count,stage.ended⟩,here.1.synced,here.1.told⟩,fun c _ => ?_⟩
    cases c with
    | one => exact here.2 .one (by simp)
    | two => rfl
  refine keeps_quiet .cpuAlloc _ _ _ (grouped [.one,.two]) both (fun _ _ => trivial) rfl fun done s here => ?_
  split
  · exact migrate_keeps cpu s here.1 (fun c => here.2 c (by cases c <;> simp))
  · exact upholds_pure _ s _ (grouped [.one,.two]) here (fun _ _ here => here.1.stage)

theorem runFunc_keeps (numOfCpus : Int) (s : Shared) (here : Stage false false s.toSync) (synced : Synced s.toSync) :
    Keeps .parent parentPost (runFunc numOfCpus) s := by
  have lasting (one two : Bool) : Lasting .parent (fun v => Stage one two v ∧ Synced v) :=
    fun s later moved kept here =>
      ⟨stage_lasts one two s later moved kept here.1,synced_lasts s later moved kept here.2⟩
  have fork_unseen (c : Child) (s : Shared) (done : Bool) (after : Shared)
      (served : respond .parent s (.fork c) done = some after) : Unseen s.toSync after.toSync := by
    cases served
    exact ⟨rfl,rfl,rfl,rfl,rfl⟩
  unfold runFunc
  split
  next => exact upholds_pure _ s _ (stage_lasts false false) here (fun _ _ here => here)
  next =>
  refine keeps_unseen .sigaction _ s _ (lasting false false) ⟨here,synced⟩ (fun _ _ => trivial) ?_ ?_
  · intro s reply after served
    cases served
    exact ⟨rfl,rfl,rfl,rfl,rfl⟩
  intro s reply after here served
  cases served
  refine keeps_quiet .pipe _ s _ (lasting false false) here (fun _ _ => trivial) rfl fun result s here => ?_
  split
  next => exact upholds_pure _ s _ (lasting false false) here (fun _ _ here => here.1)
  next =>
  refine keeps_unseen (.fork .one) _ s _ (lasting false false) here (fun _ _ => trivial) (fork_unseen .one) ?_
  intro s done after here served
  cases served
  have stage := here.1
  cases done with
  | false =>
    exact upholds_pure _ _ _ (stage_lasts false false) ⟨rfl,stage.two,stage.count,stage.ended⟩ (fun _ _ here => here)
  | true =>
  refine keeps_ask .read _ _ _ (lasting true false) ⟨⟨rfl,stage.two,stage.count,stage.ended⟩,here.2⟩
    (fun _ here => here.1) ?_
  intro s cpu after kept here _ served
  simp only [respond] at served
  split at served
  case isFalse => contradiction
  case isTrue told =>
  cases served
  refine ⟨kept,fun other _ => relies_refl other s.toSync,?_⟩
  have here : Told false cpu s.toSync := ⟨here.1,here.2,told⟩
  refine keeps_quiet .close _ s _ (informed_lasts false cpu) here (fun _ _ => trivial) rfl fun _ s here => ?_
  refine keeps_quiet .close _ s _ (informed_lasts false cpu) here (fun _ _ => trivial) rfl fun _ s here => ?_
  refine keeps_unseen (.fork .two) _ s _ (informed_lasts false cpu) here (fun _ _ => trivial) (fork_unseen .two) ?_
  intro s done after here served
  cases served
  have stage := here.stage
  cases done with
  | true => exact regroup_keeps cpu _ ⟨⟨stage.one,rfl,stage.count,stage.ended⟩,here.synced,here.told⟩
  | false =>
    have here : Told false cpu {s with forked := Function.update s.forked .two false}.toSync :=
      ⟨⟨stage.one,rfl,stage.count,stage.ended⟩,here.synced,here.told⟩
    refine release_keeps .one _ _ _ (informed_lasts false cpu) here (fun _ kept here => here.held kept) ?_
    intro v s held here moved
    have lasting : Lasting .parent (fun v => v.forked .two = false ∧ Released .one v) := by
      intro s later moved kept here
      have unforked : ParentRelies s.toSync later.toSync := moved
      exact ⟨unforked.forked ▸ here.1,released_lasts .one s later moved kept here.2⟩
    exact upholds_pure _ s _ lasting (moved ▸ ⟨here.stage.two,held_released .one v held⟩) (fun _ _ here => here)

theorem start_holds (numOfCpus : Int) : Holds serve contract (start numOfCpus) := by
  refine ⟨⟨fun c announced => by cases c <;> simp [start,Sync.announced] at announced,by simp [start]⟩,?_⟩
  intro who
  rcases who with (_ | _) | _
  · exact child1_keeps _ ⟨.inl rfl,rfl⟩
  · exact child2_keeps _ ⟨.inl rfl,rfl⟩
  · exact runFunc_keeps numOfCpus _ ⟨rfl,rfl,fun _ => rfl,fun _ => rfl⟩ (by simp [Synced,start])

/-! What every run comes to. -/

theorem blocked_cases (who : Party) (s : Shared) (asked : Request)
    (blocked : ∀ reply, serve who s asked reply = none) :
    s.alive who = false ∨ (∃ c, asked = .begin c ∧ s.forked c = false) ∨ (asked = .read ∧ s.told = none) ∨
      (asked = .spin ∧ s.counted who = 0) ∨ (∃ c, asked = .waitpid c ∧ s.ended c = none) ∨
      (asked = .exit ∧ who = .parent) := by
  cases alive : s.alive who with
  | false => exact .inl rfl
  | true =>
    have blocked (reply : asked.Answer) : respond who s asked reply = none := by
      simpa [serve,alive] using blocked reply
    refine .inr ?_
    cases asked with
    | begin c => exact .inl ⟨c,rfl,by simpa [respond] using blocked ()⟩
    | read =>
      refine .inr (.inl ⟨rfl,?_⟩)
      cases told : s.told with
      | none => rfl
      | some cpu => simpa [respond,told] using blocked cpu
    | spin => exact .inr (.inr (.inl ⟨rfl,by simpa [respond] using blocked ()⟩))
    | waitpid c => exact .inr (.inr (.inr (.inl ⟨c,rfl,by simpa [respond] using blocked ()⟩)))
    | exit =>
      cases who with
      | child c => simpa [respond] using blocked ()
      | parent => exact .inr (.inr (.inr (.inr ⟨rfl,rfl⟩)))
    | sigaction => cases who <;> simpa [respond] using blocked ()
    | fork | cpuAlloc => simpa [respond] using blocked true
    | pipe | getpid | getCpuId | setpgid | schedSetaffinity => simpa [respond] using blocked 0
    | printf | write | close | cpuFree | kill | killParent | clearCount => simpa [respond] using blocked ()

/-- Where a child can be when nothing can happen any more. -/
theorem stuck_child (world : System) (holds : Holds serve contract world) (stuck : Stuck (step serve) world)
    (c : Child) (forked : world.shared.forked c = true) :
    world.shared.ended c = some (.exited 0) ∨ world.shared.ended c = some killed ∨
      (∃ next, world.progs (.child c) = .call .spin next) ∧ world.shared.announced c = true ∧
        world.shared.count c = 0 := by
  cases prog : world.progs (.child c) with
  | ret value => exact .inl (holds_returned holds (.child c) value prog)
  | call asked next =>
    have pending : Pending (.child c) asked world.shared.toSync := holds_pending holds (.child c) asked next prog
    have unfinished : Unfinished c world.shared.toSync := by
      cases asked with
      | spin | begin => exact pending.1
      | read | waitpid => exact pending.elim
      | _ => exact pending
    have blocked := blocked_cases _ _ _ (stuck_blocked serve world stuck (.child c) asked next prog)
    rcases blocked with dead | ⟨child,rfl,unforked⟩ | ⟨rfl,_⟩ | ⟨rfl,uncounted⟩ | ⟨child,rfl,_⟩ | ⟨_,same⟩
    · rcases unfinished with unended | slain
      · simp [Sync.alive,unended] at dead
      · exact .inr (.inl slain)
    · obtain rfl := pending.2
      exact absurd (forked.symm.trans unforked) (by decide)
    · exact pending.elim
    · exact .inr (.inr ⟨⟨next,rfl⟩,pending.2,uncounted⟩)
    · exact pending.elim
    · contradiction

/-- A child that has been signalled comes to its end. -/
theorem stuck_released (world : System) (holds : Holds serve contract world) (stuck : Stuck (step serve) world)
    (c : Child) (released : Released c world.shared.toSync) : world.shared.ended c = some (.exited 0) := by
  rcases stuck_child world holds stuck c released.forked with exited | dead | ⟨_,_,uncounted⟩
  · exact exited
  · exact absurd dead released.spared
  · exact absurd uncounted (Nat.pos_iff_ne_zero.mp released.count)

/-- A child that nobody has signalled spins, and has given its news. -/
theorem stuck_spins (world : System) (holds : Holds serve contract world) (stuck : Stuck (step serve) world)
    (c : Child) (forked : world.shared.forked c = true) (unended : world.shared.ended c = none) :
    (∃ next, world.progs (.child c) = .call .spin next) ∧ world.shared.announced c = true := by
  rcases stuck_child world holds stuck c forked with exited | dead | ⟨spins,announced,_⟩
  · simp [unended] at exited
  · simp [unended] at dead
  · exact ⟨spins,announced⟩

/-- How it can be with the three processes when nothing can happen any more. -/
inductive Outcome (world : System) : Prop where
  | childless (message : Message) (early : message ∈ [Message.mandatory,.pipeFailed,.fork1Failed])
      (returned : world.progs .parent = .ret (some message)) (forked : ∀ c, world.shared.forked c = false)
  | fork2Failed (returned : world.progs .parent = .ret (some .fork2Failed))
      (exited : world.shared.ended .one = some (.exited 0)) (forked : world.shared.forked .two = false)
  | setpgidFailed (message : Message) (regrouping : message ∈ [Message.setpgid1Failed,.setpgid2Failed])
      (returned : world.progs .parent = .ret (some message)) (dead : ∀ c, world.shared.ended c = some killed)
  /-- The parent has reported a failure, and its children spin for ever. -/
  | abandoned (message : Message) (migrating : message ∈ [Message.allocFailed,.affinityFailed])
      (returned : world.progs .parent = .ret (some message))
      (spinning : ∀ c, ∃ next, world.progs (.child c) = .call .spin next)
      (alive : ∀ c, world.shared.ended c = none)
  | passed (returned : world.progs .parent = .ret none) (exited : ∀ c, world.shared.ended c = some (.exited 0))
      (told : world.shared.told ≠ none) (moved : world.shared.affinity = world.shared.told)

theorem stuck_outcome (world : System) (holds : Holds serve contract world)
    (stuck : Stuck (step serve) world) : Outcome world := by
  cases prog : world.progs .parent with
  | ret message =>
    have post : parentPost message world.shared.toSync := holds_returned holds .parent message prog
    have childless (message : Message) (early : message ∈ [Message.mandatory,.pipeFailed,.fork1Failed])
        (prog : world.progs .parent = .ret (some message)) (stage : Stage false false world.shared.toSync) :
        Outcome world :=
      .childless message early prog (fun c => by
        cases c with
        | one => exact stage.one
        | two => exact stage.two)
    have abandoned (message : Message) (migrating : message ∈ [Message.allocFailed,.affinityFailed])
        (prog : world.progs .parent = .ret (some message)) (stage : Stage true true world.shared.toSync) :
        Outcome world :=
      .abandoned message migrating prog (fun c => (stuck_spins world holds stuck c (by
        cases c with
        | one => exact stage.one
        | two => exact stage.two) (stage.ended c)).1) stage.ended
    cases message with
    | none => exact .passed prog post.1 post.2.1 post.2.2
    | some message =>
      cases message with
      | mandatory | pipeFailed | fork1Failed => exact childless _ (by decide) prog post
      | fork2Failed => exact .fork2Failed prog (stuck_released world holds stuck .one post.2) post.1
      | setpgid1Failed | setpgid2Failed => exact .setpgidFailed _ (by decide) prog post
      | allocFailed | affinityFailed => exact abandoned _ (by decide) prog post
  | call asked next =>
    -- The parent waits only for what a child that can go on will bring about.
    have pending : Pending .parent asked world.shared.toSync := holds_pending holds .parent asked next prog
    have blocked := blocked_cases _ _ _ (stuck_blocked serve world stuck .parent asked next prog)
    rcases blocked with dead | ⟨child,rfl,_⟩ | ⟨rfl,untold⟩ | ⟨rfl,uncounted⟩ | ⟨child,rfl,unended⟩ | ⟨rfl,_⟩
    · contradiction
    · exact pending.elim
    · have stage : Stage true false world.shared.toSync := pending
      have announced := (stuck_spins world holds stuck .one stage.one (stage.ended .one)).2
      simp [Sync.announced,untold] at announced
    · obtain ⟨stage,synced⟩ : Stage true true world.shared.toSync ∧ Synced world.shared.toSync := pending
      have raised := (stuck_spins world holds stuck .two stage.two (stage.ended .two)).2
      exact absurd uncounted (Nat.pos_iff_ne_zero.mp (synced.mp raised))
    · have exited := stuck_released world holds stuck child pending
      simp [unended] at exited
    · exact pending.elim

theorem child1_within : Within child1 15 :=
  within_request _ _ 14 fun _ => within_request _ _ 13 fun _ => within_request _ _ 12 fun _ =>
    within_request _ _ 11 fun _ => within_request _ _ 10 fun _ => within_request _ _ 9 fun _ =>
    within_request _ _ 8 fun _ => within_request _ _ 7 fun _ => within_request _ _ 6 fun _ =>
    within_request _ _ 5 fun _ => within_request _ _ 4 fun _ => within_request _ _ 3 fun _ =>
    within_request _ _ 2 fun _ => within_request _ _ 1 fun _ => within_request _ _ 0 fun _ => within_pure _ _

theorem child2_within : Within child2 12 :=
  within_request _ _ 11 fun _ => within_request _ _ 10 fun _ => within_request _ _ 9 fun _ =>
    within_request _ _ 8 fun _ => within_request _ _ 7 fun _ => within_request _ _ 6 fun _ =>
    within_request _ _ 5 fun _ => within_request _ _ 4 fun _ => within_request _ _ 3 fun _ =>
    within_request _ _ 2 fun _ => within_request _ _ 1 fun _ => within_request _ _ 0 fun _ => within_pure _ _

theorem killBoth_within (message : Message) : Within (killBoth message) 2 :=
  within_request _ _ 1 fun _ => within_request _ _ 0 fun _ => within_pure _ _

theorem migrate_within (cpu : Int) : Within (migrate cpu) 9 := by
  refine within_request _ _ 8 fun _ => within_request _ _ 7 fun _ => within_request _ _ 6 fun _ =>
    within_request _ _ 5 fun _ => within_ite _ _ 5 ?_ ?_
  · exact within_request _ _ 4 fun _ => within_pure _ _
  · exact within_request _ _ 4 fun _ => within_request _ _ 3 fun _ => within_request _ _ 2 fun _ =>
      within_request _ _ 1 fun _ => within_request _ _ 0 fun _ => within_pure _ _

theorem regroup_within (cpu : Int) : Within (regroup cpu) 12 := by
  have fails (message : Message) (bound : Nat) (two : 2 ≤ bound) : Within (killBoth message) bound :=
    within_mono _ 2 bound two (killBoth_within message)
  exact within_request _ _ 11 fun _ => within_ite _ _ 11 (fails _ 11 (by decide)) (within_request _ _ 10 fun _ =>
    within_ite _ _ 10 (fails _ 10 (by decide)) (within_request _ _ 9 fun _ =>
      within_ite _ _ 9 (migrate_within cpu) (within_pure _ _)))

theorem runFunc_within (numOfCpus : Int) : Within (runFunc numOfCpus) 19 :=
  within_ite _ _ 19 (within_pure _ _) (within_request _ _ 18 fun _ => within_request _ _ 17 fun _ =>
    within_ite _ _ 17 (within_pure _ _) (within_request _ _ 16 fun _ => within_ite _ _ 16
      (within_request _ _ 15 fun _ => within_request _ _ 14 fun _ => within_request _ _ 13 fun _ =>
        within_request _ _ 12 fun _ => within_ite _ _ 12 (regroup_within _)
          (within_request _ _ 11 fun _ => within_pure _ _))
      (within_pure _ _)))

/-- Every run is over after 46 calls at most, no child dies of the signal that is to
release it, and then the run has one of the outcomes: the parent never hangs, but
when it cannot move the second child it leaves both of them spinning. -/
theorem children_outcome (numOfCpus : Int) (actions : List (Action Party Request.Answer)) (world : System)
    (computed : run (step serve) actions (start numOfCpus) = some world) :
    actions.length ≤ 46 ∧
    (∀ c report, world.shared.ended c = some report → report = .exited 0 ∨ report = killed) ∧
    (Stuck (step serve) world → Outcome world) := by
  have holds := run_holds serve contract actions _ world (start_holds numOfCpus) computed
  refine ⟨?_,holds.1.ended,stuck_outcome world holds⟩
  have bound := run_within serve actions (start numOfCpus) world
    (fun who => if who = .parent then 19 else if who = .child .one then 15 else 12) ?_ computed
  · exact bound
  · intro who
    rcases who with (_ | _) | _
    · exact child1_within
    · exact child2_within
    · exact runFunc_within numOfCpus

/-- A kernel in which every call succeeds but sched_setaffinity. -/
def answers : (asked : Request) → asked.Answer
  | .schedSetaffinity _ _ => -1
  | .pipe | .setpgid _ _ => 0
  | .getpid => 100
  | .getCpuId | .read => 1
  | .fork _ | .cpuAlloc => true
  | .sigaction | .begin _ | .printf _ | .write _ | .close | .cpuFree | .kill _ _ | .killParent | .spin
  | .clearCount | .waitpid _ | .exit => ()

/-- The parent goes as far as it can, and each child when the parent waits for it. -/
def unmoved : List (Action Party Request.Answer) :=
  List.replicate 3 ⟨.parent,answers⟩ ++ List.replicate 8 ⟨.child .one,answers⟩ ++
    List.replicate 7 ⟨.parent,answers⟩ ++ List.replicate 7 ⟨.child .two,answers⟩ ++
    List.replicate 5 ⟨.parent,answers⟩

theorem children_outcome_unmoved :
    ∃ world, run (step serve) unmoved (start 2) = some world ∧ Outcome world := by
  obtain ⟨world,computed⟩ := Option.isSome_iff_exists.mp
    (show (run (step serve) unmoved (start 2)).isSome = true from rfl)
  refine ⟨world,computed,(children_outcome 2 _ world computed).2.2 ?_⟩
  rintro ⟨who,reply⟩
  have stuck : (run (step serve) unmoved (start 2)).bind (fun world => step serve world ⟨who,reply⟩) = none := by
    rcases who with (_ | _) | _ <;> rfl
  rwa [computed] at stuck

end Ostest.TestMck.SchedSetaffinity
