import Ostest.TestMck.Futex.Program

/-! Test uti/015: what the two threads agree on, and what every run comes to. -/
namespace Ostest.TestMck.Futex
open Lib.Calls Lib.Runs Lib.Threads

def note (who : Party) : Line → Option Note
  | .futex party note => if party = who then some note else none
  | _ => none

structure View where
  created : Bool
  woken : Flag → Bool
  returned : Bool
  said : Party → List Note

def view (s : Shared) : View := ⟨s.created,s.woken,s.returned,fun who => s.output.filterMap (note who)⟩

structure Invariant (v : View) : Prop where
  answered : v.woken .futexFlag2 = true → v.woken .futexFlag1 = true ∧ v.said .child = []
  finished : v.returned = true → v.woken .futexFlag1 = true

structure ChildRelies (v later : View) : Prop where
  woken1 : v.woken .futexFlag1 = true → later.woken .futexFlag1 = true
  woken2 : later.woken .futexFlag2 = v.woken .futexFlag2
  returned : later.returned = v.returned
  said : later.said .child = v.said .child

structure ParentRelies (v later : View) : Prop where
  created : later.created = v.created
  woken1 : later.woken .futexFlag1 = v.woken .futexFlag1
  woken2 : v.woken .futexFlag2 = true → later.woken .futexFlag2 = true
  said : later.said .parent = v.said .parent

def Relies : Party → View → View → Prop
  | .child => ChildRelies
  | .parent => ParentRelies

/-- The child has not been heard of. -/
structure Sleeping (v : View) : Prop where
  woken2 : v.woken .futexFlag2 = false
  returned : v.returned = false
  said : v.said .child = []

/-- Where a wake has got to: it has reached a sleeper, or it is lost and that has
been said. -/
def Woke (flag : Flag) (who : Party) (v : View) : Prop :=
  (v.woken flag = true ∧ v.said who = []) ∨ (v.woken flag = false ∧ v.said who = [.wakeFailed])

def Unwoken (v : View) : Prop := v.created = true ∧ v.woken .futexFlag1 = false ∧ v.said .parent = []

def Answered (v : View) : Prop := v.created = true ∧ v.woken .futexFlag2 = true ∧ v.said .parent = [.ok]

def Pending : Party → Request → View → Prop
  | .child, .begin, v => Sleeping v
  | .child, .futexWoken flag, v => flag = .futexFlag1 ∧ Sleeping v
  | .parent, .futexWoken flag, v => flag = .futexFlag2 ∧ v.created = true ∧ Woke .futexFlag1 .parent v
  | .parent, .pthreadJoin, v => Unwoken v ∨ Answered v
  | _, .begin, _ | _, .pthreadJoin, _ => False
  | _, _, _ => True

def childPost (v : View) : Prop :=
  v.returned = true ∧ v.woken .futexFlag1 = true ∧ Woke .futexFlag2 .child v

def parentPost (message : Msg) (v : View) : Prop :=
  message = some .createError ∨ (message = some .checkLogs ∧ Answered v)

theorem relies_refl (who : Party) (v : View) : Relies who v v := by
  cases who with
  | child => exact ⟨id,rfl,rfl,rfl⟩
  | parent => exact ⟨rfl,rfl,id,rfl⟩

theorem relies_trans (who : Party) (v middle later : View) (first : Relies who v middle)
    (second : Relies who middle later) : Relies who v later := by
  cases who with
  | child =>
    exact ⟨second.woken1 ∘ first.woken1,second.woken2.trans first.woken2,
      second.returned.trans first.returned,second.said.trans first.said⟩
  | parent =>
    exact ⟨second.created.trans first.created,second.woken1.trans first.woken1,
      second.woken2 ∘ first.woken2,second.said.trans first.said⟩

/-- Only a break that has not moved gets the process killed. -/
def Faulted (s : Shared) : Prop := s.killed = true → s.grown = false

theorem answer_faulted (s after : Shared) (asked : Request) (reply : asked.Answer) (alive : s.killed = false)
    (served : answer s asked reply = some after) : Faulted after := by
  have still : after.killed = false ∨ ∃ area, asked = .fill area := by
    cases asked with
    | fill area => exact .inr ⟨area,rfl⟩
    | begin | futexWake | futexWoken | pthreadJoin =>
      simp only [answer] at served
      repeat' split at served
      all_goals first | contradiction | exact .inl (Option.some.inj served ▸ alive)
    | _ =>
      cases served
      exact .inl alive
  rcases still with still | ⟨area,rfl⟩
  · intro killed
    exact absurd (killed.symm.trans still) (by decide)
  · cases served
    simp [Faulted]

def contract : Contract Party Request Shared Value where
  invariant s := Invariant (view s) ∧ Faulted s
  rely who s later := Relies who (view s) (view later)
  pending who asked s := Pending who asked (view s)
  post
    | .child, _, s => childPost (view s)
    | .parent, message, s => parentPost message (view s)
  refl who s := relies_refl who (view s)
  trans who s middle later := relies_trans who (view s) (view middle) (view later)

abbrev Keeps {β : Type} (who : Party) (post : β → View → Prop) (code : Code β) (s : Shared) : Prop :=
  Upholds serve contract who (fun value s => post value (view s)) code s

abbrev Lasting (who : Party) (assertion : View → Prop) : Prop :=
  Stable contract who (fun s => assertion (view s))

def Party.other : Party → Party
  | .child => .parent
  | .parent => .child

theorem serve_answer (who : Party) (s after : Shared) (asked : Request) (reply : asked.Answer)
    (served : serve who s asked reply = some after) :
    s.killed = false ∧ answer s asked reply = some after := by
  unfold serve at served
  split at served
  · contradiction
  next alive => exact ⟨Bool.eq_false_iff.mpr alive,served⟩

theorem keeps_ask {β : Type} {who : Party} {post : β → View → Prop} (asked : Request)
    (next : asked.Answer → Code β) (s : Shared) (assertion : View → Prop) (lasting : Lasting who assertion)
    (now : assertion (view s)) (pending : ∀ v, assertion v → Pending who asked v)
    (served : ∀ s reply after, Invariant (view s) → assertion (view s) →
      answer s asked reply = some after →
        Invariant (view after) ∧ Relies who.other (view s) (view after) ∧ Keeps who post (next reply) after) :
    Keeps who post (ask asked >>= next) s := by
  apply upholds_request asked next s (fun s => assertion (view s)) lasting now
  intro s kept holds
  refine ⟨pending (view s) holds,?_⟩
  intro reply after taken
  obtain ⟨alive,taken⟩ := serve_answer who s after asked reply taken
  obtain ⟨keeps,relies,rest⟩ := served s reply after kept.1 holds taken
  refine ⟨⟨keeps,answer_faulted s after asked reply alive taken⟩,?_,rest⟩
  intro other different
  cases who <;> cases other <;> first | contradiction | exact relies

/-! Calls that leave the agreement alone. -/

def quiet : Request → Bool
  | .pthreadCreate | .begin | .printf (.futex _ _) | .futexWake _ | .futexWoken _ | .finish | .pthreadJoin => false
  | _ => true

theorem answer_quiet (s after : Shared) (asked : Request) (reply : asked.Answer)
    (isQuiet : quiet asked = true) (served : answer s asked reply = some after) :
    view after = view s := by
  cases asked with
  | printf line =>
    cases served
    have silent (who : Party) : note who line = none := by
      cases line <;> first | rfl | contradiction
    simp [view,List.filterMap_append,silent]
  | pthreadCreate | begin | futexWake | futexWoken | finish | pthreadJoin => contradiction
  | _ =>
    cases served
    rfl

theorem keeps_only {β : Type} {who : Party} (code : Code β) (s : Shared) (assertion : View → Prop)
    (lasting : Lasting who assertion) (now : assertion (view s))
    (only : Only (fun asked => quiet asked = true) code) : Keeps who (fun _ => assertion) code s := by
  refine upholds_only _ (fun s => assertion (view s)) lasting ?_ code only s now
  intro asked s isQuiet kept holds
  refine ⟨?_,?_⟩
  · cases asked <;> cases who <;> trivial
  · intro reply after served
    obtain ⟨alive,served⟩ := serve_answer who s after asked reply served
    have same := answer_quiet s after asked reply isQuiet served
    refine ⟨⟨?_,answer_faulted s after asked reply alive served⟩,fun other _ => ?_,?_⟩
    · rw [same]
      exact kept.1
    · change Relies other (view s) (view after)
      rw [same]
      exact relies_refl other (view s)
    · rwa [same]

theorem view_say (s : Shared) (who : Party) (heard : Note) :
    view {s with output := s.output ++ [.futex who heard]} =
      {view s with said := Function.update (view s).said who ((view s).said who ++ [heard])} := by
  simp only [view,View.mk.injEq,true_and]
  funext other
  by_cases same : other = who
  · subst same
    simp [List.filterMap_append,note]
  · have silent : note other (.futex who heard) = none := if_neg (Ne.symm same)
    simp [List.filterMap_append,silent,same]

/-! The child. -/

theorem sleeping_lasts : Lasting .child Sleeping := by
  intro s later moved _ here
  have moved : ChildRelies (view s) (view later) := moved
  exact ⟨moved.woken2.trans here.woken2,moved.returned.trans here.returned,moved.said.trans here.said⟩

def Roused (v : View) : Prop := Sleeping v ∧ v.woken .futexFlag1 = true

theorem roused_lasts : Lasting .child Roused := by
  intro s later moved kept here
  have relies : ChildRelies (view s) (view later) := moved
  exact ⟨sleeping_lasts s later moved kept here.1,relies.woken1 here.2⟩

def Replied (v : View) : Prop :=
  v.returned = false ∧ v.woken .futexFlag1 = true ∧ Woke .futexFlag2 .child v

theorem replied_lasts : Lasting .child Replied := by
  intro s later moved _ here
  have moved : ChildRelies (view s) (view later) := moved
  refine ⟨moved.returned.trans here.1,moved.woken1 here.2.1,?_⟩
  unfold Woke
  rw [moved.woken2,moved.said]
  exact here.2.2

theorem childPost_lasts : Lasting .child childPost := by
  intro s later moved _ post
  have moved : ChildRelies (view s) (view later) := moved
  refine ⟨moved.returned.trans post.1,moved.woken1 post.2.1,?_⟩
  unfold Woke
  rw [moved.woken2,moved.said]
  exact post.2.2

theorem finish_keeps (s : Shared) (here : Replied (view s)) :
    Keeps .child (fun _ => childPost) (do
      let _ ← ask .finish
      return) s := by
  refine keeps_ask _ _ s _ replied_lasts here (fun _ _ => trivial) ?_
  intro s reply after kept here served
  cases served
  refine ⟨⟨kept.answered,fun _ => here.2.1⟩,⟨rfl,rfl,id,rfl⟩,?_⟩
  exact upholds_pure _ _ _ childPost_lasts ⟨rfl,here.2⟩ (fun _ _ post => post)

theorem childWake_keeps (s : Shared) (here : Roused (view s)) :
    Keeps .child (fun _ => childPost) (do
      let ret ← ask (.futexWake .futexFlag2)
      if ret ≠ 1 then say (.futex .child .wakeFailed)
      let _ ← ask .finish
      return) s := by
  refine keeps_ask _ _ s _ roused_lasts here (fun _ _ => trivial) ?_
  intro s ret after kept here served
  simp only [answer] at served
  split at served
  · split at served
    next one =>
      cases served
      refine ⟨⟨fun _ => ⟨here.2,here.1.said⟩,kept.finished⟩,⟨rfl,rfl,fun _ => rfl,rfl⟩,?_⟩
      rw [if_neg (by simpa using one)]
      exact finish_keeps _ ⟨here.1.returned,here.2,.inl ⟨rfl,here.1.said⟩⟩
    · contradiction
  · split at served
    next zero =>
      cases served
      refine ⟨kept,relies_refl _ _,?_⟩
      rw [if_pos (by simp [zero])]
      -- The wake is lost, and the child says so.
      refine keeps_ask _ _ s _ roused_lasts here (fun _ _ => trivial) ?_
      intro s reply after kept here served
      cases served
      rw [view_say]
      refine ⟨⟨fun woken => ?_,kept.finished⟩,⟨rfl,rfl,id,rfl⟩,?_⟩
      · exact absurd (woken.symm.trans here.1.woken2) (by decide)
      refine finish_keeps _ ?_
      rw [view_say]
      exact ⟨here.1.returned,here.2,.inr ⟨here.1.woken2,by simp [here.1.said]⟩⟩
    · contradiction

theorem childThread_keeps (s : Shared) (here : Sleeping (view s)) :
    Keeps .child (fun _ => childPost) childThread s := by
  refine keeps_ask _ _ s _ sleeping_lasts here (fun _ here => here) ?_
  intro s reply after kept here served
  simp only [answer] at served
  split at served
  · cases served
    refine ⟨kept,relies_refl _ _,?_⟩
    refine keeps_ask (.futexSleep .futexFlag1) _ s _ sleeping_lasts here (fun _ _ => trivial) ?_
    intro s reply after kept here served
    cases served
    refine ⟨kept,relies_refl _ _,?_⟩
    refine keeps_ask (.futexWoken .futexFlag1) _ _ _ sleeping_lasts here (fun _ here => ⟨rfl,here⟩) ?_
    intro s ret after kept here served
    simp only [answer] at served
    split at served
    next woken =>
      cases served
      refine ⟨kept,relies_refl _ _,?_⟩
      have roused : Roused (view s) := ⟨here,woken.1⟩
      rw [if_neg (by simp [woken.2])]
      refine upholds_bind _ _ s (keeps_only (ask (.usleep 100000)) s _ roused_lasts roused ⟨rfl,fun _ => trivial⟩) ?_
      intro _ s _ roused
      exact childWake_keeps s roused
    · contradiction
  · contradiction

/-! The parent. -/

theorem unwoken_lasts : Lasting .parent Unwoken := by
  intro s later moved _ here
  have moved : ParentRelies (view s) (view later) := moved
  exact ⟨moved.created.trans here.1,moved.woken1.trans here.2.1,moved.said.trans here.2.2⟩

theorem answered_lasts : Lasting .parent Answered := by
  intro s later moved _ here
  have moved : ParentRelies (view s) (view later) := moved
  exact ⟨moved.created.trans here.1,moved.woken2 here.2.1,moved.said.trans here.2.2⟩

def Called (v : View) : Prop := v.created = true ∧ Woke .futexFlag1 .parent v

theorem called_lasts : Lasting .parent Called := by
  intro s later moved _ here
  have moved : ParentRelies (view s) (view later) := moved
  refine ⟨moved.created.trans here.1,?_⟩
  unfold Woke
  rw [moved.woken1,moved.said]
  exact here.2

theorem joinOut_keeps (s : Shared) (here : Unwoken (view s) ∨ Answered (view s)) :
    Keeps .parent parentPost joinOut s := by
  have lasting : Lasting .parent (fun v => Unwoken v ∨ Answered v) := by
    intro s later moved kept here
    rcases here with unwoken | answered
    · exact .inl (unwoken_lasts s later moved kept unwoken)
    · exact .inr (answered_lasts s later moved kept answered)
  refine keeps_ask _ _ s _ lasting here (fun _ here => here) ?_
  intro s ret after kept here served
  simp only [answer] at served
  split at served
  next joined =>
    cases served
    refine ⟨kept,relies_refl _ _,?_⟩
    rw [if_pos joined.2]
    -- A child that nobody has woken does not return.
    rcases here with unwoken | answered
    · have woken := kept.finished joined.1
      exact absurd (woken.symm.trans unwoken.2.1) (by decide)
    · exact upholds_pure _ s _ answered_lasts answered (fun _ _ answered => .inr ⟨rfl,answered⟩)
  · contradiction

theorem parentWait_keeps (s : Shared) (here : Called (view s)) :
    Keeps .parent (fun _ => Answered) (do
      let ret ← futexWait .futexFlag2
      if ret = -1 then say (.futex .parent .waitFailed) else say (.futex .parent .ok)) s := by
  refine keeps_ask (.futexSleep .futexFlag2) _ s _ called_lasts here (fun _ _ => trivial) ?_
  intro s reply after kept here served
  cases served
  refine ⟨kept,relies_refl _ _,?_⟩
  refine keeps_ask (.futexWoken .futexFlag2) _ _ _ called_lasts here (fun _ here => ⟨rfl,here⟩) ?_
  intro s ret after kept here served
  simp only [answer] at served
  split at served
  next woken =>
    cases served
    refine ⟨kept,relies_refl _ _,?_⟩
    have heard : (view s).said .parent = [] := by
      rcases here.2 with ⟨_,heard⟩ | ⟨unwoken,_⟩
      · exact heard
      · exact absurd ((kept.answered woken.1).1.symm.trans unwoken) (by decide)
    have lasting : Lasting .parent (fun v => v.created = true ∧ v.woken .futexFlag2 = true ∧ v.said .parent = []) := by
      intro s later moved _ here
      have moved : ParentRelies (view s) (view later) := moved
      exact ⟨moved.created.trans here.1,moved.woken2 here.2.1,moved.said.trans here.2.2⟩
    change Keeps .parent (fun _ => Answered)
      (if ret = -1 then say (.futex .parent .waitFailed) else say (.futex .parent .ok)) s
    rw [if_neg (by simp [woken.2])]
    refine keeps_ask (.printf (.futex .parent .ok)) _ s _ lasting ⟨here.1,woken.1,heard⟩ (fun _ _ => trivial) ?_
    intro s reply after kept here served
    cases served
    rw [view_say]
    refine ⟨⟨kept.answered,kept.finished⟩,⟨id,rfl,rfl,rfl⟩,?_⟩
    refine upholds_pure _ _ _ answered_lasts ?_ (fun _ _ answered => answered)
    rw [view_say]
    exact ⟨here.1,here.2.1,by simp [here.2.2]⟩
  · contradiction

theorem checkFutex_keeps (s : Shared) (here : Unwoken (view s)) :
    Keeps .parent (fun _ => Answered) checkFutex s := by
  refine upholds_bind _ _ s (keeps_only (say .sendFutex) s _ unwoken_lasts here ⟨rfl,fun _ => trivial⟩) ?_
  intro _ s _ here
  refine keeps_ask _ _ s _ unwoken_lasts here (fun _ _ => trivial) ?_
  intro s ret after kept here served
  simp only [answer] at served
  split at served
  · split at served
    next one =>
      cases served
      refine ⟨⟨fun answered => ⟨rfl,(kept.answered answered).2⟩,fun _ => rfl⟩,⟨fun _ => rfl,rfl,rfl,rfl⟩,?_⟩
      rw [if_neg (by simpa using one)]
      exact parentWait_keeps _ ⟨here.1,.inl ⟨rfl,here.2.2⟩⟩
    · contradiction
  · split at served
    next zero =>
      cases served
      refine ⟨kept,relies_refl _ _,?_⟩
      rw [if_pos (by simp [zero])]
      refine keeps_ask (.printf (.futex .parent .wakeFailed)) _ s _ unwoken_lasts here (fun _ _ => trivial) ?_
      intro s reply after kept here served
      cases served
      rw [view_say]
      refine ⟨⟨kept.answered,kept.finished⟩,⟨id,rfl,rfl,rfl⟩,?_⟩
      refine parentWait_keeps _ ?_
      rw [view_say]
      exact ⟨here.1,.inr ⟨here.2.1,by simp [here.2.2]⟩⟩
    · contradiction

theorem say_only (line : Line) (silent : quiet (.printf line) = true) :
    Only (fun asked => quiet asked = true) (say line) := ⟨silent,fun _ => trivial⟩

theorem checkIds_only (lpid ltid : Int) : Only (fun asked => quiet asked = true) (checkIds lpid ltid) := by
  refine ⟨rfl,fun _ => ⟨rfl,fun rpid => ⟨rfl,fun rtid => ?_⟩⟩⟩
  have tids : Only (fun asked => quiet asked = true)
      (if ltid ≠ rtid then say (.tidDiffers ltid rtid) else say .tidOk) :=
    only_ite (say_only _ rfl) (say_only _ rfl)
  exact only_ite (only_bind (say_only _ rfl) fun _ => tids) (only_bind (say_only _ rfl) fun _ => tids)

theorem checkMmap_only : Only (fun asked => quiet asked = true) checkMmap := by
  have failed (line : Int → Line) (silent : ∀ errno, quiet (.printf (line errno)) = true) :
      Only (fun asked => quiet asked = true) (do
        let errno ← ask .errno
        say (line errno)) := ⟨rfl,fun errno => say_only _ (silent errno)⟩
  refine ⟨rfl,fun _ => ⟨rfl,fun buf => only_ite (failed .mmapFailed fun _ => rfl) ?_⟩⟩
  have unmaps : Only (fun asked => quiet asked = true) (do
      let ret ← ask .munmap
      if ret ≠ 0 then
        let errno ← ask .errno
        say (.munmapFailed errno)
      else say .munmapOk) :=
    ⟨rfl,fun ret => only_ite (failed .munmapFailed fun _ => rfl) (say_only _ rfl)⟩
  refine ⟨rfl,fun _ => ⟨rfl,fun ret => only_ite ⟨rfl,fun errno => ?_⟩ ⟨rfl,fun kept => ?_⟩⟩⟩
  · exact only_bind (only_pure errno) fun errno =>
      only_bind (say_only (.mprotectFailed errno) rfl) fun _ => unmaps
  · exact only_ite (only_bind (say_only _ rfl) fun _ => unmaps)
      (only_bind (say_only _ rfl) fun _ => unmaps)

theorem checkBrk_only : Only (fun asked => quiet asked = true) checkBrk :=
  ⟨rfl,fun _ => ⟨rfl,fun _ => ⟨rfl,fun _ => only_ite (say_only _ rfl)
    ⟨rfl,fun _ => only_ite (say_only _ rfl) (say_only _ rfl)⟩⟩⟩⟩

def Uncreated (v : View) : Prop := v.created = false ∧ v.woken .futexFlag1 = false ∧ v.said .parent = []

theorem uncreated_lasts : Lasting .parent Uncreated := by
  intro s later moved _ here
  have moved : ParentRelies (view s) (view later) := moved
  exact ⟨moved.created.trans here.1,moved.woken1.trans here.2.1,moved.said.trans here.2.2⟩

/-- The ways out to `join_out`. -/
theorem leave_keeps (line : Line) (silent : quiet (.printf line) = true) (s : Shared)
    (here : Unwoken (view s)) :
    Keeps .parent parentPost (do
      say line
      joinOut) s :=
  upholds_bind _ _ s (keeps_only _ s _ unwoken_lasts here (say_only line silent))
    (fun _ s _ here => joinOut_keeps s (.inl here))

theorem runFunc_keeps (s : Shared) (here : Uncreated (view s)) : Keeps .parent parentPost runFunc s := by
  have quietly {β : Type} (code : Code β) (s : Shared) (here : Unwoken (view s))
      (only : Only (fun asked => quiet asked = true) code) :=
    keeps_only code s _ unwoken_lasts here only
  refine upholds_bind _ _ s (keeps_only (ask .getpid) s _ uncreated_lasts here ⟨rfl,fun _ => trivial⟩) ?_
  intro lpid s _ here
  refine upholds_bind _ _ s (keeps_only (ask .gettid) s _ uncreated_lasts here ⟨rfl,fun _ => trivial⟩) ?_
  intro ltid s _ here
  refine keeps_ask _ _ s _ uncreated_lasts here (fun _ _ => trivial) ?_
  intro s ret after kept here served
  cases served
  refine ⟨⟨kept.answered,kept.finished⟩,⟨id,rfl,rfl,rfl⟩,?_⟩
  split
  next created =>
    have here : Unwoken (view {s with created := s.created || ret == 0}) :=
      ⟨by simp [view,created],here.2⟩
    refine upholds_bind _ _ _ (quietly (ask .utilMigrateInterKernel) _ here ⟨rfl,fun _ => trivial⟩) ?_
    intro ret s _ here
    split
    · exact leave_keeps .notMigrated rfl s here
    refine upholds_bind _ _ s (quietly (ask .getSystem) s here ⟨rfl,fun _ => trivial⟩) ?_
    intro ret s _ here
    split
    · exact leave_keeps .onMcKernel rfl s here
    split
    · exact leave_keeps (.illegalSystem ret) rfl s here
    refine upholds_bind _ _ s (quietly (checkIds lpid ltid) s here (checkIds_only lpid ltid)) ?_
    intro _ s _ here
    refine upholds_bind _ _ s (quietly checkMmap s here checkMmap_only) ?_
    intro _ s _ here
    refine upholds_bind _ _ s (quietly checkBrk s here checkBrk_only) ?_
    intro _ s _ here
    exact upholds_bind _ _ s (checkFutex_keeps s here) (fun _ s _ here => joinOut_keeps s (.inr here))
  · exact fun _ _ _ => .inl rfl

theorem start_holds : Holds serve contract start := by
  refine ⟨⟨⟨by simp [start,view],by simp [start,view]⟩,by simp [Faulted,start]⟩,?_⟩
  intro who
  cases who with
  | child => exact childThread_keeps _ ⟨rfl,rfl,rfl⟩
  | parent => exact runFunc_keeps _ ⟨rfl,rfl,rfl⟩

/-! What every run comes to. -/

theorem blocked_cases (who : Party) (s : Shared) (asked : Request) (alive : s.killed = false)
    (blocked : ∀ reply, serve who s asked reply = none) :
    (asked = .begin ∧ s.created = false) ∨ (∃ flag, asked = .futexWoken flag ∧ s.woken flag = false) ∨
      (asked = .pthreadJoin ∧ s.returned = false) := by
  have blocked : ∀ reply, answer s asked reply = none := by
    intro reply
    have refused := blocked reply
    rwa [serve,alive,if_neg Bool.false_ne_true] at refused
  cases asked with
  | begin =>
    refine .inl ⟨rfl,?_⟩
    by_contra created
    simpa [answer,created] using blocked ()
  | futexWoken flag =>
    refine .inr (.inl ⟨flag,rfl,?_⟩)
    by_contra woken
    simpa [answer,woken] using blocked 0
  | pthreadJoin =>
    refine .inr (.inr ⟨rfl,?_⟩)
    by_contra returned
    simpa [answer,returned] using blocked 0
  | futexWake flag =>
    cases sleeps : s.sleeps flag with
    | true => simpa [answer,sleeps] using blocked 1
    | false => simpa [answer,sleeps] using blocked 0
  | printf | usleep | futexSleep | finish => simpa [answer] using blocked ()
  | fill => simpa [answer] using blocked true
  | _ => simpa [answer] using blocked 0

/-- How it can be with the two threads when nothing can happen any more. -/
inductive Outcome (world : System) : Prop where
  /-- The parent has written above the break that sbrk has not moved. -/
  | faulted (killed : world.shared.killed = true) (refused : world.shared.grown = false)
  | createError (returned : world.progs .parent = .ret (some .createError))
  | checkLogs (returned : world.progs .parent = .ret (some .checkLogs))
      (parent : (view world.shared).said .parent = [.ok]) (child : (view world.shared).said .child = [])
  /-- The parent has not got to the other kernel, and waits for a child that
  nobody will wake. -/
  | unmigrated (joining : ∃ next, world.progs .parent = .call .pthreadJoin next)
      (asleep : ∃ next, world.progs .child = .call (.futexWoken .futexFlag1) next)
      (parent : (view world.shared).said .parent = [])
  /-- The parent has called before the child slept, and both sleep. -/
  | wakeLost (waiting : ∃ next, world.progs .parent = .call (.futexWoken .futexFlag2) next)
      (asleep : ∃ next, world.progs .child = .call (.futexWoken .futexFlag1) next)
      (parent : (view world.shared).said .parent = [.wakeFailed])
  /-- The child has answered before the parent slept. -/
  | answerLost (waiting : ∃ next, world.progs .parent = .call (.futexWoken .futexFlag2) next)
      (returned : world.progs .child = .ret ()) (child : (view world.shared).said .child = [.wakeFailed])

/-- Where the child can be when nothing can happen any more. -/
theorem stuck_child (world : System) (holds : Holds serve contract world) (stuck : Stuck (step serve) world)
    (alive : world.shared.killed = false) (created : world.shared.created = true) :
    ((∃ next, world.progs .child = .call (.futexWoken .futexFlag1) next) ∧
      world.shared.woken .futexFlag1 = false ∧ Sleeping (view world.shared)) ∨
    (world.progs .child = .ret () ∧ childPost (view world.shared)) := by
  cases prog : world.progs .child with
  | ret value => exact .inr ⟨rfl,holds_returned holds .child value prog⟩
  | call asked next =>
    have pending : Pending .child asked (view world.shared) := holds_pending holds .child asked next prog
    have blocked := blocked_cases _ _ _ alive (stuck_blocked serve world stuck .child asked next prog)
    rcases blocked with ⟨rfl,uncreated⟩ | ⟨flag,rfl,unwoken⟩ | ⟨rfl,_⟩
    · exact absurd (created.symm.trans uncreated) (by decide)
    · obtain ⟨rfl,sleeping⟩ := pending
      exact .inl ⟨⟨next,rfl⟩,unwoken,sleeping⟩
    · contradiction

theorem stuck_outcome (world : System) (holds : Holds serve contract world)
    (stuck : Stuck (step serve) world) : Outcome world := by
  obtain ⟨kept,fault⟩ := show Invariant (view world.shared) ∧ Faulted world.shared from holds.1
  by_cases killed : world.shared.killed = true
  · exact .faulted killed (fault killed)
  have alive := Bool.eq_false_iff.mpr killed
  cases prog : world.progs .parent with
  | ret message =>
    have post : parentPost message (view world.shared) := holds_returned holds .parent message prog
    rcases post with rfl | ⟨rfl,answered⟩
    · exact .createError prog
    · exact .checkLogs prog answered.2.2 (kept.answered answered.2.1).2
  | call asked next =>
    have pending : Pending .parent asked (view world.shared) := holds_pending holds .parent asked next prog
    have blocked := blocked_cases _ _ _ alive (stuck_blocked serve world stuck .parent asked next prog)
    rcases blocked with ⟨rfl,_⟩ | ⟨flag,rfl,unanswered⟩ | ⟨rfl,unreturned⟩
    · contradiction
    · obtain ⟨rfl,created,woke⟩ := pending
      rcases stuck_child world holds stuck alive created with ⟨asleep,unwoken,_⟩ | ⟨returned,_,woken,reply⟩
      · rcases woke with ⟨woken,_⟩ | ⟨_,heard⟩
        · exact absurd (woken.symm.trans unwoken) (by decide)
        · exact .wakeLost ⟨next,prog⟩ asleep heard
      · rcases reply with ⟨answered,_⟩ | ⟨_,heard⟩
        · exact absurd (answered.symm.trans unanswered) (by decide)
        · exact .answerLost ⟨next,prog⟩ returned heard
    · have created : world.shared.created = true := by
        rcases pending with unwoken | answered
        · exact unwoken.1
        · exact answered.1
      rcases stuck_child world holds stuck alive created with ⟨asleep,unwoken,_⟩ | ⟨_,returned,_⟩
      · rcases pending with here | answered
        · exact .unmigrated ⟨next,prog⟩ asleep here.2.2
        · exact absurd ((kept.answered answered.2.1).1.symm.trans unwoken) (by decide)
      · exact absurd (returned.symm.trans unreturned) (by decide)

theorem say_within {β : Type} (line : Line) (next : PUnit → Code β) (bound : Nat)
    (rest : ∀ value, Within (next value) bound) : Within (say line >>= next) (bound+1) :=
  ⟨by omega,fun _ => rest ()⟩

theorem childThread_within : Within childThread 8 := by
  have ending : Within (do
      let _ ← ask .finish
      return : Code Unit) 1 := within_request _ _ 0 fun _ => within_pure _ _
  have wakes : Within (do
      let _ ← ask (.usleep 100000)
      let ret ← ask (.futexWake .futexFlag2)
      if ret ≠ 1 then say (.futex .child .wakeFailed)
      let _ ← ask .finish
      return : Code Unit) 4 :=
    within_request _ _ 3 fun _ => within_request _ _ 2 fun _ =>
      within_ite _ _ 2 (say_within _ _ 1 fun _ => ending) (within_mono _ 1 2 (by decide) ending)
  exact within_request _ _ 7 fun _ => within_request _ _ 6 fun _ => within_request _ _ 5 fun _ =>
    within_ite _ _ 5 (say_within _ _ 4 fun _ => wakes) (within_mono _ 4 5 (by decide) wakes)

theorem line_within (line : Line) : Within (say line) 1 := ⟨by omega,fun _ => trivial⟩

theorem checkIds_within (lpid ltid : Int) : Within (checkIds lpid ltid) 5 := by
  refine say_within _ _ 4 fun _ => within_request _ _ 3 fun rpid => within_request _ _ 2 fun rtid => ?_
  have tids : Within (if ltid ≠ rtid then say (.tidDiffers ltid rtid) else say .tidOk) 1 :=
    within_ite _ _ 1 (line_within _) (line_within _)
  exact within_ite _ _ 2 (say_within _ _ 1 fun _ => tids) (say_within _ _ 1 fun _ => tids)

theorem checkMmap_within : Within checkMmap 9 := by
  have failed (line : Int → Line) : Within (do
      let errno ← ask .errno
      say (line errno)) 2 := within_request _ _ 1 fun _ => line_within _
  have unmaps : Within (do
      let ret ← ask .munmap
      if ret ≠ 0 then
        let errno ← ask .errno
        say (.munmapFailed errno)
      else say .munmapOk) 3 :=
    within_request _ _ 2 fun _ => within_ite _ _ 2 (failed _) (within_mono _ 1 2 (by decide) (line_within _))
  have tells (line : Line) : Within (say line >>= fun _ => (do
      let ret ← ask .munmap
      if ret ≠ 0 then
        let errno ← ask .errno
        say (.munmapFailed errno)
      else say .munmapOk)) 4 := say_within _ _ 3 fun _ => unmaps
  refine say_within _ _ 8 fun _ => within_request _ _ 7 fun buf => within_ite _ _ 7
    (within_mono _ 2 7 (by decide) (failed _)) (say_within _ _ 6 fun _ => within_request _ _ 5 fun ret => ?_)
  exact within_ite _ _ 5 (within_request _ _ 4 fun _ => tells _)
    (within_request _ _ 4 fun kept => within_ite _ _ 4 (tells _) (tells _))

theorem checkBrk_within : Within checkBrk 5 :=
  say_within _ _ 4 fun _ => within_request _ _ 3 fun _ => within_request _ _ 2 fun _ => within_ite _ _ 2
    (within_mono _ 1 2 (by decide) (line_within _))
    (within_request _ _ 1 fun _ => within_ite _ _ 1 (line_within _) (line_within _))

theorem checkFutex_within : Within checkFutex 6 := by
  have waits : Within (do
      let ret ← futexWait .futexFlag2
      if ret = -1 then say (.futex .parent .waitFailed) else say (.futex .parent .ok)) 3 :=
    ⟨by decide,fun _ => ⟨by decide,fun _ => within_ite _ _ 1 (line_within _) (line_within _)⟩⟩
  exact say_within _ _ 5 fun _ => within_request _ _ 4 fun _ => within_ite _ _ 4
    (say_within _ _ 3 fun _ => waits) (within_mono _ 3 4 (by decide) waits)

theorem runFunc_within : Within runFunc 31 := by
  have joins : Within joinOut 1 :=
    within_request _ _ 0 fun _ => within_ite _ _ 0 (within_pure _ _) (within_pure _ _)
  have leaves (line : Line) : Within (do
      say line
      joinOut) 2 := say_within _ _ 1 fun _ => joins
  refine within_request _ _ 30 fun lpid => within_request _ _ 29 fun ltid => within_request _ _ 28 fun _ =>
    within_ite _ _ 28 (within_request _ _ 27 fun _ => within_ite _ _ 27
      (within_mono _ 2 27 (by decide) (leaves _)) (within_request _ _ 26 fun _ => within_ite _ _ 26
        (within_mono _ 2 26 (by decide) (leaves _)) (within_ite _ _ 26
          (within_mono _ 2 26 (by decide) (leaves _)) ?_))) (within_pure _ _)
  exact within_bind _ _ 5 21 (checkIds_within lpid ltid) fun _ => within_bind _ _ 9 12 checkMmap_within fun _ =>
    within_bind _ _ 5 7 checkBrk_within fun _ => within_bind _ _ 6 1 checkFutex_within fun _ => joins

/-- Every run is over after 39 calls at most, and then it has one of the outcomes:
unless the break has not moved and the process is killed, the test only comes to its
end when each of the two sleeps before the other wakes it, and otherwise it hangs. -/
theorem wakes_outcome (actions : List (Action Party Request.Answer)) (world : System)
    (computed : run (step serve) actions start = some world) :
    actions.length ≤ 39 ∧ (Stuck (step serve) world → Outcome world) := by
  have holds := run_holds serve contract actions _ world start_holds computed
  refine ⟨?_,stuck_outcome world holds⟩
  have bound := run_within serve actions start world
    (fun who => if who = .child then 8 else 31) ?_ computed
  · exact bound
  · intro who
    cases who with
    | child => exact childThread_within
    | parent => exact runFunc_within

/-- A kernel in which the calls before the futexes succeed; a wake finds nobody. -/
def answers : (asked : Request) → asked.Answer
  | .getSystem => -1
  | .mmap | .getpid | .gettid => 1
  | .errno | .pthreadCreate | .utilMigrateInterKernel | .mprotect | .munmap | .sbrk _ | .futexWake _
  | .futexWoken _ | .pthreadJoin => 0
  | .fill _ => true
  | .begin | .printf _ | .usleep _ | .futexSleep _ | .finish => ()

/-- The parent is through with its calls before the child has started. -/
def early : List (Action Party Request.Answer) :=
  List.replicate 27 ⟨.parent,answers⟩ ++ List.replicate 2 ⟨.child,answers⟩

theorem wakes_outcome_early : ∃ world, run (step serve) early start = some world ∧ Outcome world := by
  obtain ⟨world,computed⟩ := Option.isSome_iff_exists.mp
    (show (run (step serve) early start).isSome = true from rfl)
  refine ⟨world,computed,(wakes_outcome _ world computed).2 ?_⟩
  rintro ⟨who,reply⟩
  have stuck : (run (step serve) early start).bind (fun world => step serve world ⟨who,reply⟩) = none := by
    cases who <;> rfl
  rwa [computed] at stuck

end Ostest.TestMck.Futex
