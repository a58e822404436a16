import Ostest.TestMck.TimeSharing.Agreement

/-! Test time_sharing/000: both processes keep to the agreement, and what every
run comes to. -/
namespace Ostest.TestMck.TimeSharing
open Lib.Calls Lib.Runs Lib.Threads Lib.WaitStatus

/-! The child. -/

theorem view_finish (who : Party) (s : Shared) (code : BitVec 8) :
    view (s.finish who code) = {view s with ended := Function.update (view s).ended who (some (.exited code))} := rfl

theorem view_flush_empty (who : Party) (s : Shared) (empty : (view s).unwritten who = []) :
    view (s.flush who) = view s := by
  rw [view_flush,View.flush,empty,List.append_nil,← empty,Function.update_eq_self]

theorem waits_first (flag : Int) (count : Nat) (waits : Waits .child 0 flag count) (set : flag ≠ 0) :
    flag = 1 ∧ count = 0 := by
  unfold Waits at waits
  simp at waits
  omega

theorem childPost_stable : Stable contract .child (fun s => childPost (view s)) := by
  rintro s later moved _ ⟨posted,waited,ended⟩
  have moved : Relies .child (view s) (view later) := moved
  have same := moved.ended
  refine ⟨moved.posts.trans posted,moved.waits.trans waited,?_⟩
  rcases ended with ⟨ended,waits⟩ | ⟨ended,waits⟩
  · exact .inl ⟨same.trans ended,waits_stays .child 5 _ _ _ _ moved.moves waits⟩
  · exact .inr ⟨same.trans ended,waits_stays .child 0 _ _ _ _ moved.moves waits⟩

/-- The last call of the child, with a code that fits what it has done. -/
theorem exit_keeps (pid : Int) (asked : Request) (next : asked.Answer → Code Unit) (s : Shared)
    (code : BitVec 8) (i : Nat) (fits : (code = 0 ∧ i = 5) ∨ (code = 255 ∧ i = 0))
    (here : At .child (some pid) 1 1 [] (Waits .child i) (view s))
    (untouched : touched asked = none) (free : ∀ v, Awaits .child asked v) (last : ∀ reply, next reply = pure ())
    (ends : ∀ s reply after, respond .child s asked reply = some after → (view s).unwritten .child = [] →
      view after = {view s with ended := Function.update (view s).ended .child (some (.exited code))}) :
    Keeps .child (fun _ s => childPost (view s)) (ask asked >>= next) s := by
  refine keeps_apart _ _ s _ (at_firm .child (some pid) 1 1 [] _ (waits_stays .child i)) here
    untouched (fun v _ => free v) ?_
  intro s reply after kept here served
  have same := ends s reply after served here.unwritten
  have flagged := kept.flagged (by simp [here.born (.inr (by simp))])
  rw [last,same]
  refine ⟨{kept with ending := ?_},?_,?_⟩
  · rintro report ended
    obtain rfl : Report.exited code = report := by simpa using ended
    rcases fits with ⟨rfl,rfl⟩ | ⟨rfl,rfl⟩
    · exact .inl rfl
    · obtain ⟨flag,count⟩ := waits_first _ _ here.turn flagged
      exact .inr ⟨rfl,List.length_eq_zero_iff.mp count,flag⟩
  · have parent : Function.update s.ended .child (some (.exited code)) .parent = s.ended .parent :=
      Function.update_of_ne (by decide) _ _
    exact ⟨fun _ => rfl,rfl,rfl,rfl,fun _ => rfl,parent,fun finished => absurd here.running finished,
      .inl ⟨rfl,rfl⟩,fun _ _ => rfl⟩
  · refine upholds_pure _ _ _ childPost_stable ?_ (fun _ _ post => post)
    have ended : Function.update s.ended .child (some (.exited code)) .child = some (.exited code) :=
      Function.update_self _ _ _
    rw [same]
    refine ⟨here.posts,here.waits,?_⟩
    rcases fits with ⟨rfl,rfl⟩ | ⟨rfl,rfl⟩
    · exact .inl ⟨ended,here.turn⟩
    · exact .inr ⟨ended,here.turn⟩

theorem childLoop_keeps (pid : Int) (s : Shared) (here : At .child (some pid) 1 1 [] (Waits .child 0) (view s)) :
    Keeps .child (fun _ s => childPost (view s)) childLoop s := by
  refine upholds_bind _ _ s (rounds_keep .child pid s here) ?_
  intro _ s _ here
  refine exit_keeps pid (.exit 0) _ s 0 5 (.inl ⟨rfl,rfl⟩) here rfl (fun _ => trivial) (fun _ => rfl) ?_
  intro s reply after served empty
  cases served
  rw [view_finish,view_flush_empty .child s empty]

theorem child_keeps (s : Shared) (here : At .child none 0 0 [] (Waits .child 0) (view s)) :
    Keeps .child (fun _ s => childPost (view s)) child s := by
  have waits := waits_stays .child 0
  refine keeps_apart _ _ s _ (at_firm .child none 0 0 [] _ waits) here rfl (fun _ _ => rfl) ?_
  intro s reply after kept here served
  have born : after = s ∧ ∃ pid, s.childPid = some pid := by
    simp only [respond] at served
    split at served
    next alive => exact ⟨(Option.some.inj served).symm,Option.isSome_iff_exists.mp alive⟩
    · contradiction
  obtain ⟨rfl,pid,born⟩ := born
  refine ⟨kept,relies_refl _ _,?_⟩
  have here : At .child (some pid) 0 0 [] (Waits .child 0) (view after) := {here with born := fun _ => born}
  have firm := at_firm .child (some pid) 0 0 [] _ waits
  refine keeps_quiet _ _ _ _ firm here rfl rfl ?_
  intro oldMycore s here
  refine keeps_quiet _ _ _ _ firm here rfl rfl ?_
  intro _ s here
  refine semPost_keeps .child pid _ waits _ s 0 ⟨here,Party.noConfusion⟩ ?_
  intro s here
  refine semWait_keeps .child pid _ waits _ s 1 (fun _ => rfl) here ?_
  intro s here
  have firm := at_firm .child (some pid) 1 1 [] _ waits
  refine keeps_quiet _ _ _ _ firm here rfl rfl ?_
  intro newMycore s here
  refine keeps_reaching _ _ _ _ firm here rfl ?_ ?_
  · intro v kept here region touches
    cases touches
    exact kept.cored (here.opened kept)
  intro parentCore s here
  split
  · refine keeps_quiet _ _ _ _ firm here rfl rfl ?_
    intro _ s here
    split
    · refine keeps_quiet _ _ _ _ firm here rfl rfl ?_
      intro _ s here
      refine exit_keeps pid (.exitNow 255) _ s 255 0 (.inr ⟨rfl,rfl⟩) here rfl (fun _ => trivial)
        (fun _ => rfl) ?_
      intro s reply after served _
      cases served
      rfl
    · exact childLoop_keeps pid s here
  · refine keeps_quiet _ _ _ _ firm here rfl rfl ?_
    intro _ s here
    exact childLoop_keeps pid s here

/-! The parent. -/

theorem parentPost_stable (message : Msg) : Stable contract .parent (fun s => parentPost message (view s)) := by
  rintro s later moved kept post
  have moved : Relies .parent (view s) (view later) := moved
  have kept : Invariant (view later) := kept
  have pid := moved.born (.inl rfl)
  rcases post with ⟨failed,unborn,closed,_⟩ | ⟨failed,born,closed,_⟩ | ⟨checked,ended,written⟩
  · have closed := moved.posts.trans closed
    exact .inl ⟨failed,pid.trans unborn,closed,kept.opened closed⟩
  · have closed := moved.posts.trans closed
    exact .inr (.inl ⟨failed,pid ▸ born,closed,kept.opened closed⟩)
  · have finished : (view s).ended .child ≠ none := by simp [ended]
    exact .inr (.inr ⟨checked,(moved.finished finished).trans ended,(moved.still rfl finished).trans written⟩)

/-- The parent has its message, and nothing of its turns is left in the buffer. -/
structure Concluded (message : Msg) (v : View) : Prop where
  post : parentPost message v
  unwritten : v.unwritten .parent = []
  running : v.ended .parent = none

abbrev Concludes (code : Code Msg) (s : Shared) : Prop :=
  Keeps .parent (fun message s => Concluded message (view s)) code s

theorem concluded_firm (message : Msg) : Firm .parent (Concluded message) := by
  refine ⟨?_,fun _ concluded => concluded.running⟩
  intro s later moved kept concluded
  have moved : Relies .parent (view s) (view later) := moved
  exact ⟨parentPost_stable message s later moved kept concluded.post,moved.unwritten.trans concluded.unwritten,
    moved.ended.trans concluded.running⟩

theorem return_keeps (message : Msg) (s : Shared) (concluded : Concluded message (view s)) :
    Concludes (return message) s :=
  upholds_pure message s _ (concluded_firm message).stable concluded (fun _ _ holds => holds)

theorem waits_over (flag : Int) (count : Nat) (waits : Waits .parent 5 flag count) : 10 ≤ count := by
  unfold Waits at waits
  simp at waits
  omega

theorem waitChild_keeps (pid : Int) (s : Shared)
    (here : At .parent (some pid) 1 1 [] (Waits .parent 5) (view s)) :
    Concludes (waitChild pid) s := by
  refine keeps_apart _ _ s _ (at_firm .parent (some pid) 1 1 [] _ (waits_stays .parent 5)) here rfl ?_ ?_
  · intro v here
    exact ⟨rfl,by simp [here.born (.inl rfl)],here.posts,waits_over _ _ here.turn⟩
  intro s reply after kept here served
  simp only [respond] at served
  split at served
  next reported =>
    cases served
    obtain ⟨born,ended⟩ := reported
    have long := waits_over _ _ here.turn
    have normal : reply.2 = .exited 0 := by
      rcases kept.ending reply.2 ended with normal | ⟨_,empty,_⟩
      · exact normal
      · simp [empty] at long
    have same : reply.1 = pid := by
      have known : s.childPid = some pid := here.born (.inl rfl)
      simpa [known] using born.symm
    have written : (view s).written = (List.range 10).map alternate := by
      rw [kept.alternates,show (view s).written.length = 10 from by have most := kept.bounded; omega]
    refine ⟨kept,relies_refl _ _,?_⟩
    simp only [same,if_true,normal,wifexited_exited,wexitstatus_exited,true_and]
    rw [if_neg (by decide)]
    exact return_keeps _ s ⟨.inr (.inr ⟨rfl,normal ▸ ended,written⟩),here.unwritten,here.running⟩
  · contradiction

theorem affinityFailed_keeps (pid : Int) (message : Message) (s : Shared)
    (failed : message = .childNotBound ∨
      message = .parentNotBound)
    (here : At .parent (some pid) 0 1 [] (Waits .parent 0) (view s)) :
    Concludes (affinityFailed message) s := by
  have firm := at_firm .parent (some pid) 0 1 [] _ (waits_stays .parent 0)
  refine keeps_quiet _ _ _ _ firm here rfl rfl ?_
  intro _ s here
  refine keeps_quiet _ _ _ _ firm here rfl rfl ?_
  intro _ s here
  refine upholds_pure _ s _ firm.stable here ?_
  intro s kept here
  have kept : Invariant (view s) := kept
  refine ⟨.inr (.inl ⟨by simpa using failed,?_,here.posts,kept.opened here.posts⟩),here.unwritten,here.running⟩
  simp [here.born (.inl rfl)]

/-- The parent from the first semaphore on. -/
theorem bound_keeps (pid : Int) (s : Shared) (here : At .parent (some pid) 1 1 [] (Waits .parent 0) (view s)) :
    Concludes (do
      parentFunc
      waitChild pid) s :=
  upholds_bind _ _ s (rounds_keep .parent pid s here) (fun _ s _ here => waitChild_keeps pid s here)

/-- The parent from where it has stored its core. -/
theorem bindBoth_keeps (pid : Int) (s : Shared)
    (here : AtMapped .parent (some pid) 0 1 (Waits .parent 0) [.cell .parentCore] (view s)) :
    Concludes (bindBoth pid) s := by
  have waits := waits_stays .parent 0
  have firm := atMapped_firm .parent (some pid) 0 1 _ waits [.cell .parentCore]
  have reaches : ∀ v, Invariant v → AtMapped .parent (some pid) 0 1 (Waits .parent 0) [.cell .parentCore] v →
      ∀ region, touched (.load .parentCore) = some region → v.mapped region = true := by
    intro v _ here region touches
    cases touches
    exact here.there rfl _ List.mem_cons_self
  refine keeps_reaching _ _ _ _ firm here rfl reaches ?_
  intro core s here
  refine keeps_quiet _ _ _ _ firm here rfl rfl ?_
  intro _ s here
  refine keeps_reaching _ _ _ _ firm here rfl reaches ?_
  intro core s here
  refine keeps_quiet _ _ _ _ firm here rfl rfl ?_
  intro _ s here
  refine keeps_reaching _ _ _ _ firm here rfl reaches ?_
  intro core s here
  refine keeps_quiet _ _ _ _ firm here rfl rfl ?_
  intro result s here
  split
  · exact affinityFailed_keeps pid _ s (.inl rfl) here.toAt
  refine keeps_reaching _ _ _ _ firm here rfl reaches ?_
  intro core s here
  refine keeps_quiet _ _ _ _ firm here rfl rfl ?_
  intro _ s here
  refine keeps_quiet _ _ _ _ firm here rfl rfl ?_
  intro result s here
  split
  · exact affinityFailed_keeps pid _ s (.inr rfl) here.toAt
  refine semPost_keeps .parent pid _ waits _ s 1 here ?_
  intro s here
  exact bound_keeps pid s here

theorem lead_keeps (pid : Int) (s : Shared) (here : At .parent (some pid) 0 0 [] (Waits .parent 0) (view s)) :
    Concludes (lead pid) s := by
  have waits := waits_stays .parent 0
  refine semWait_keeps .parent pid _ waits _ _ 0 (by simp) here ?_
  intro s here
  have firm := at_firm .parent (some pid) 0 1 [] _ waits
  refine keeps_quiet _ _ _ _ firm here rfl rfl ?_
  intro core s here
  refine touch_keeps _ _ _ s _ firm here (.cell .parentCore) rfl (fun _ => trivial) ?_ ?_
  · intro v here
    exact .inr ⟨by simp [here.born (.inl rfl)],rfl,here.posts⟩
  intro s reply after kept here there served
  have same := respond_quiet .parent s after (.store .parentCore core) reply rfl served
  rw [same]
  refine ⟨kept,relies_refl _ _,bindBoth_keeps pid after ?_⟩
  rw [same]
  exact ⟨here,fun _ region member => by rwa [List.mem_singleton.mp member]⟩

/-- What the parent has used before it forks, the flag last. -/
def used : List Region := [.cell .runningFlag,.sem .syncSem2,.sem .syncSem1]

theorem used_all (region : Region) (other : region ≠ .cell .parentCore) : region ∈ used := by
  rcases region with sem | cell
  · cases sem <;> decide
  · cases cell
    · contradiction
    · decide

theorem fork_keeps (s : Shared) (here : AtMapped .parent none 0 0 (Waits .parent 0) used (view s)) :
    Concludes (do
      let pid ← ask .fork
      if pid = -1 then return some .forkFailed
      else lead pid) s := by
  refine keeps_apart _ _ _ _ (atMapped_firm .parent none 0 0 _ (waits_stays .parent 0) used) here
    rfl (fun _ _ => trivial) ?_
  intro s pid after kept here served
  have unborn : s.childPid = none := here.born (.inl rfl)
  simp only [respond] at served
  split at served
  next failed =>
    cases served
    refine ⟨kept,relies_refl _ _,?_⟩
    rw [if_pos failed]
    exact return_keeps _ s ⟨.inl ⟨.inr rfl,unborn,here.posts,kept.opened here.posts⟩,here.unwritten,here.running⟩
  next forked =>
  split at served
  · cases served
    have flagged : (view s).flag ≠ 0 := by
      have turn := here.turn
      unfold Waits at turn
      simp at turn
      omega
    refine ⟨{kept with flagged := fun _ => flagged,unborn := (absurd · (Option.some_ne_none pid)),reached := ?_},?_,?_⟩
    · intro _ region other
      exact here.there rfl region (used_all region other)
    · refine ⟨fun _ => rfl,rfl,rfl,rfl,?_,rfl,fun _ => rfl,.inl ⟨rfl,rfl⟩,fun _ _ => rfl⟩
      rintro (parent | born)
      · contradiction
      · exact absurd unborn born
    rw [if_neg forked]
    exact lead_keeps pid _ {here.toAt with born := fun _ => rfl}
  · contradiction

def Unset (flag : Int) (count : Nat) : Prop := flag = 0 ∧ count = 0

theorem unset_stays : Stays .parent Unset := by
  intro flag count flag' count' moves unset
  unfold Moves at moves
  unfold Unset at *
  simp at moves
  omega

section
variable (regions : List Region) (s : Shared)

theorem takeTurns_keeps (here : AtMapped .parent none 0 0 Unset [.sem .syncSem2,.sem .syncSem1] (view s)) :
    Concludes takeTurns s := by
  refine touch_keeps _ _ _ s _ (atMapped_firm .parent none 0 0 _ unset_stays _) here (.cell .runningFlag) rfl
    (fun _ => trivial) (fun v here => .inl ⟨here.born (.inl rfl),by simp⟩) ?_
  intro s reply after kept here there served
  cases served
  have unset := here.turn
  have unended : (view s).ended .child ≠ some (.exited 255) := by
    intro ended
    rcases kept.ending _ ended with normal | ⟨_,_,flag⟩
    · contradiction
    · simp [unset.1] at flag
  rw [view_store]
  refine ⟨kept.store _ 1 (by decide) unended,
    relies_other .parent _ _ rfl rfl rfl rfl rfl rfl ?_ here.running,fork_keeps _ ?_⟩
  · exact .inr (.inl ⟨rfl,unset.1,rfl,rfl⟩)
  · rw [view_store]
    refine ⟨{here.toAt with turn := .inr (.inl ⟨rfl,by decide,.inr (by simp [unset.2])⟩)},?_⟩
    intro parent region member
    rcases List.mem_cons.mp member with rfl | member
    · exact there
    · exact here.there parent region member

/-- A semaphore of which nothing has been heard stays as it is. -/
theorem semInit_keeps {post : Msg → Shared → Prop} (sem : Sem) (more : Request) (next : more.Answer → Code Msg)
    (here : AtMapped .parent none 0 0 Unset regions (view s))
    (rest : ∀ s, AtMapped .parent none 0 0 Unset (.sem sem :: regions) (view s) →
      Keeps .parent post (ask more >>= next) s) :
    Keeps .parent post (do
      let _ ← ask (.semInit sem)
      let reply ← ask more
      next reply) s := by
  refine touch_keeps _ _ _ s _ (atMapped_firm .parent none 0 0 _ unset_stays _) here (.sem sem) rfl
    (fun _ => trivial) (fun v here => .inl ⟨here.born (.inl rfl),by simp⟩) ?_
  intro s reply after kept here there served
  cases served
  have zero := kept.unborn (here.born (.inl rfl)) sem
  have posts : Function.update s.posts sem 0 = s.posts := by
    rw [← (show s.posts sem = 0 from zero.1),Function.update_eq_self]
  have waits : Function.update s.waits sem 0 = s.waits := by
    rw [← (show s.waits sem = 0 from zero.2),Function.update_eq_self]
  rw [posts,waits]
  refine ⟨kept,relies_refl _ _,rest s ⟨here.toAt,?_⟩⟩
  intro parent region member
  rcases List.mem_cons.mp member with rfl | member
  · exact there
  · exact here.there parent region member
end

theorem runFunc_keeps (syncSem1 syncSem2 parentCore : Word) (s : Shared)
    (here : At .parent none 0 0 [] Unset (view s)) : Concludes (runFunc syncSem1 syncSem2 parentCore) s := by
  unfold runFunc
  split
  · refine upholds_pure _ s _ (at_firm .parent none 0 0 [] _ unset_stays).stable here ?_
    intro s kept here
    exact ⟨.inl ⟨.inl rfl,here.born (.inl rfl),here.posts,kept.opened here.posts⟩,here.unwritten,here.running⟩
  refine semInit_keeps [] s .syncSem1 _ _ ⟨here,fun _ _ => (absurd · List.not_mem_nil)⟩ ?_
  intro s here
  refine semInit_keeps _ s .syncSem2 _ _ here ?_
  intro s here
  exact takeTurns_keeps s here

theorem mmap_keeps {post : Msg → Shared → Prop} (region : Region) (next : Word → Code Msg) (s : Shared)
    (here : At .parent none 0 0 [] Unset (view s))
    (rest : ∀ address s, At .parent none 0 0 [] Unset (view s) → Keeps .parent post (next address) s) :
    Keeps .parent post (ask (.mmap region) >>= next) s := by
  refine keeps_apart _ _ s _ (at_firm .parent none 0 0 [] _ unset_stays) here rfl (fun _ _ => trivial) ?_
  intro s address after kept here served
  cases served
  have unborn : s.childPid = none := here.born (.inl rfl)
  refine ⟨{kept with reached := (absurd unborn ·),cored := (absurd here.posts ·)},?_,rest address _ {here with}⟩
  exact ⟨Party.noConfusion,rfl,rfl,rfl,fun _ => rfl,rfl,fun _ => rfl,.inl ⟨rfl,rfl⟩,fun _ _ => rfl⟩

theorem setUpAndRun_keeps (s : Shared) (here : At .parent none 0 0 [] Unset (view s)) :
    Concludes setUpAndRun s := by
  refine mmap_keeps _ _ s here fun syncSem1 s here => ?_
  refine mmap_keeps _ _ s here fun syncSem2 s here => ?_
  refine mmap_keeps _ _ s here fun parentCore s here => ?_
  exact mmap_keeps _ _ s here fun _ s here => runFunc_keeps syncSem1 syncSem2 parentCore s here

theorem main_keeps (s : Shared) (here : At .parent none 0 0 [] Unset (view s)) :
    Keeps .parent (fun message s => parentPost message (view s)) main s := by
  refine upholds_bind _ _ s (setUpAndRun_keeps s here) ?_
  intro message s _ concluded
  have firm := concluded_firm message
  refine keeps_quiet _ _ s (Concluded message) firm concluded rfl rfl ?_
  intro _ s concluded
  refine keeps_apart _ _ s (Concluded message) firm concluded rfl (fun _ _ => trivial) ?_
  intro s reply after kept concluded served
  cases served
  have child : Function.update s.ended .parent (some (.exited (if message.isSome then 1 else 0))) .child =
      s.ended .child := Function.update_of_ne (by decide) _ _
  rw [view_finish,view_flush_empty .parent s concluded.unwritten]
  refine ⟨{kept with ending := fun report ended => kept.ending report (child.symm.trans ended)},
    ⟨fun _ => rfl,rfl,rfl,rfl,fun _ => rfl,child,fun _ => child,.inl ⟨rfl,rfl⟩,fun _ _ => rfl⟩,?_⟩
  refine upholds_pure _ _ _ (parentPost_stable message) ?_ (fun _ _ post => post)
  rw [view_finish,view_flush_empty .parent s concluded.unwritten]
  rcases concluded.post with early | failed | ⟨checked,ended,written⟩
  · exact .inl early
  · exact .inr (.inl failed)
  · exact .inr (.inr ⟨checked,child.trans ended,written⟩)

theorem start_holds : Holds serve contract start := by
  refine ⟨⟨rfl,(absurd rfl ·),fun _ => Nat.le_refl 0,fun _ => rfl,by decide,fun _ ended => ?_,
    fun _ _ => ⟨rfl,rfl⟩,(absurd rfl ·),(absurd rfl ·)⟩,?_⟩
  · cases ended
  intro who
  cases who with
  | child => exact child_keeps _ ⟨rfl,rfl,rfl,by simp,rfl,.inr (.inr ⟨rfl,rfl,rfl,rfl⟩)⟩
  | parent => exact main_keeps _ ⟨rfl,rfl,rfl,fun _ => rfl,rfl,rfl,rfl⟩

/-! What every run comes to. -/

/-- A kernel in which `fork()` returns 7, the caller is on the core, and the parent
is on core 0. -/
def answers (core : Int) : (asked : Request) → asked.Answer
  | .mmap _ => 0x10000
  | .fork => 7
  | .schedGetcpu => core
  | .load _ | .schedSetaffinity _ _ | .errno => 0
  | .wait => (7,.exited 0)
  | .semInit _ | .begin | .printf _ | .fflush | .semPost _ | .semWait _ | .store _ _ | .spin _ | .exit _ | .exitNow _ => ()

def acts (who : Party) (core : Int) (count : Nat) : List (Action Party Request.Answer) :=
  List.replicate count ⟨who,answers core⟩

/-- Both get to know each other's core, and the child is let go on from its own. -/
def handshake (core : Int) : List (Action Party Request.Answer) :=
  acts .parent 0 8 ++ acts .child core 4 ++ acts .parent 0 13 ++ acts .child core 3

theorem run_alternates (actions : List (Action Party Request.Answer)) (world : System)
    (computed : run (step serve) actions start = some world) :
    ∃ count ≤ 10, turns world.shared.record = (List.range count).map alternate := by
  have holds := run_holds serve contract actions _ world start_holds computed
  have kept : Invariant (view world.shared) := holds.1
  exact ⟨_,kept.bounded,kept.alternates⟩

theorem blocked_respond (who : Party) (s : Shared) (asked : Request)
    (blocked : ∀ reply, serve who s asked reply = none) :
    s.ended who ≠ none ∨ ∀ reply, respond who s asked reply = none := by
  by_cases dead : s.ended who ≠ none
  · exact .inl dead
  refine .inr (fun reply => ?_)
  have unserved := blocked reply
  rw [serve,if_neg dead] at unserved
  split at unserved
  · exact unserved
  · contradiction

/-- A call that has no answer waits for the other process. -/
theorem blocked_cases (who : Party) (s : Shared) (asked : Request)
    (blocked : ∀ reply, respond who s asked reply = none) :
    (asked = .begin ∧ s.childPid = none) ∨ (∃ sem, asked = .semWait sem ∧ s.posts sem ≤ s.waits sem) ∨
      (∃ value, asked = .spin value ∧ s.cells .runningFlag ≠ value) ∨
      (asked = .wait ∧ (s.childPid ≠ none → s.ended .child = none)) := by
  cases asked with
  | begin =>
    have none := blocked ()
    simp only [respond] at none
    split at none
    · contradiction
    next unborn => exact .inl ⟨rfl,by simpa using unborn⟩
  | semWait sem =>
    have none := blocked ()
    simp only [respond] at none
    split at none
    · contradiction
    next empty => exact .inr (.inl ⟨sem,rfl,by omega⟩)
  | spin value =>
    have none := blocked ()
    simp only [respond] at none
    split at none
    · contradiction
    next other => exact .inr (.inr (.inl ⟨value,rfl,other⟩))
  | wait =>
    refine .inr (.inr (.inr ⟨rfl,fun born => ?_⟩))
    obtain ⟨pid,born⟩ := Option.ne_none_iff_exists'.mp born
    cases ended : s.ended .child with
    | none => rfl
    | some report => simpa [respond,born,ended] using blocked (pid,report)
  | fork => simpa [respond] using blocked (-1)
  | load cell => simpa [respond] using blocked (s.cells cell)
  | mmap region => simpa [respond] using blocked 0
  | schedGetcpu | schedSetaffinity | errno => simpa [respond] using blocked 0
  | semInit | printf | fflush | semPost | store | exit | exitNow => simpa [respond] using blocked ()

/-- Where the child can be when nothing can happen any more. -/
theorem stuck_child (world : System) (holds : Holds serve contract world) (stuck : Stuck (step serve) world) :
    (view world.shared).childPid = none ∨
    ((∃ next, world.progs .child = .call (.semWait .syncSem2) next) ∧
      (view world.shared).posts .syncSem1 = 1 ∧ (view world.shared).posts .syncSem2 = 0) ∨
    ((view world.shared).posts .syncSem1 = 1 ∧ (view world.shared).posts .syncSem2 ≠ 0 ∧
      (view world.shared).flag ≠ 1 ∧ ∃ i < 5, Waits .child i (view world.shared).flag (view world.shared).written.length) ∨
    ((view world.shared).posts .syncSem2 ≠ 0 ∧ childPost (view world.shared)) := by
  have kept : Invariant (view world.shared) := holds.1
  have passed := kept.passed .syncSem2
  cases prog : world.progs .child with
  | ret value =>
    have post : childPost (view world.shared) := holds_returned holds .child value prog
    have waited := post.2.1
    exact .inr (.inr (.inr ⟨by omega,post⟩))
  | call asked next =>
    have pending : Pending .child asked (view world.shared) := holds_pending holds .child asked next prog
    obtain ⟨running,pending⟩ := pending.resolve_left (fun lost => Party.noConfusion lost.1)
    have blocked := blocked_respond .child world.shared asked (stuck_blocked serve world stuck .child asked next prog)
    rcases blocked_cases .child world.shared asked (blocked.resolve_left (not_not.mpr running)) with
      ⟨rfl,unborn⟩ | ⟨sem,rfl,empty⟩ | ⟨value,rfl,other⟩ | ⟨rfl,_⟩
    · exact .inl unborn
    · obtain ⟨rfl,waited,_,posted⟩ := pending
      have empty : (view world.shared).posts .syncSem2 ≤ (view world.shared).waits .syncSem2 := empty
      have waited : (view world.shared).waits .syncSem2 = 0 := waited
      exact .inr (.inl ⟨⟨next,rfl⟩,posted rfl,by omega⟩)
    · obtain ⟨rfl,_,posted,waited,i,bound,waits⟩ := pending
      have waited : (view world.shared).waits .syncSem2 = 1 := waited
      exact .inr (.inr (.inl ⟨posted,by omega,other,i,bound,waits⟩))
    · have parent := pending.1
      contradiction

/-- How it can be with the two when nothing can happen any more. -/
inductive Outcome (world : System) : Prop where
  /-- Something has been mapped at address 0. -/
  | mmapFailed (returned : world.progs .parent = .ret (some .mmapFailed))
      (silent : turns world.shared.record = [])
  /-- The parent has died of a semaphore or of the flag before it could fork. -/
  | crashedAlone (dead : world.shared.ended .parent = some crashed) (alone : world.shared.childPid = none)
      (unmapped : ∃ region ≠ Region.cell .parentCore, world.shared.mapped region = false)
      (silent : turns world.shared.record = [])
  /-- The parent has died of `parent_core`, and the child waits for good. -/
  | crashed (dead : world.shared.ended .parent = some crashed)
      (unmapped : world.shared.mapped (.cell .parentCore) = false)
      (left : ∃ next, world.progs .child = .call (.semWait .syncSem2) next)
      (silent : turns world.shared.record = [])
  | forkFailed (returned : world.progs .parent = .ret (some .forkFailed))
      (silent : turns world.shared.record = [])
  /-- The child waits for good. -/
  | notBound (returned : world.progs .parent = .ret (some .childNotBound) ∨
        world.progs .parent = .ret (some .parentNotBound))
      (left : ∃ next, world.progs .child = .call (.semWait .syncSem2) next)
      (silent : turns world.shared.record = [])
  | checkRunOrder (returned : world.progs .parent = .ret (some .checkRunOrder))
      (ended : world.shared.ended .child = some (.exited 0))
      (complete : turns world.shared.record = (List.range 10).map alternate)
  /-- The parent waits for the turn that the child will never give. -/
  | notMigrated (spinning : ∃ next, world.progs .parent = .call (.spin 2) next)
      (ended : world.shared.ended .child = some (.exited 255))
      (silent : turns world.shared.record = [])

section
variable (flag : Int) (count i : Nat) (bound : i < 5)
include bound

theorem parent_blocked (waits : Waits .parent i flag count) (other : flag ≠ 2) :
    flag = 1 ∧ ¬Waits .child 5 flag count := by
  unfold Waits at waits ⊢
  simp at waits ⊢
  omega

theorem child_blocked (waits : Waits .child i flag count) : count < 10 := by
  unfold Waits at waits
  simp at waits
  omega

end

theorem stuck_outcome (world : System) (holds : Holds serve contract world)
    (stuck : Stuck (step serve) world) : Outcome world := by
  have kept : Invariant (view world.shared) := holds.1
  have child := stuck_child world holds stuck
  cases prog : world.progs .parent with
  | ret message =>
    have post : parentPost message (view world.shared) := holds_returned holds .parent message prog
    rcases post with ⟨rfl | rfl,_,_,silent⟩ | ⟨failed,born,closed,silent⟩ | ⟨rfl,ended,complete⟩
    · exact .mmapFailed prog silent
    · exact .forkFailed prog silent
    · rcases child with unborn | ⟨left,_⟩ | ⟨_,opened,_⟩ | ⟨opened,_⟩
      · exact absurd unborn born
      · refine .notBound ?_ left silent
        rcases failed with rfl | rfl
        · exact .inl prog
        · exact .inr prog
      · exact absurd closed opened
      · exact absurd closed opened
    · exact .checkRunOrder prog ended complete
  | call asked next =>
    have pending : Pending .parent asked (view world.shared) := holds_pending holds .parent asked next prog
    rcases pending with ⟨_,dead,⟨alone,unmapped⟩ | ⟨born,unmapped,closed⟩⟩ | ⟨running,pending⟩
    · exact .crashedAlone dead alone unmapped (kept.opened (kept.unborn alone .syncSem2).1)
    · rcases child with unborn | ⟨left,_⟩ | ⟨_,opened,_⟩ | ⟨opened,_⟩
      · exact absurd unborn born
      · exact .crashed dead unmapped left (kept.opened closed)
      · exact absurd closed opened
      · exact absurd closed opened
    have blocked := blocked_respond .parent world.shared asked (stuck_blocked serve world stuck .parent asked next prog)
    rcases blocked_cases .parent world.shared asked (blocked.resolve_left (not_not.mpr running)) with
      ⟨rfl,_⟩ | ⟨sem,rfl,empty⟩ | ⟨value,rfl,other⟩ | ⟨rfl,unended⟩
    · contradiction
    · obtain ⟨rfl,waited,born,_⟩ := pending
      have empty : (view world.shared).posts .syncSem1 ≤ (view world.shared).waits .syncSem1 := empty
      have waited : (view world.shared).waits .syncSem1 = 0 := waited
      rcases child with unborn | ⟨_,posted,_⟩ | ⟨posted,_⟩ | ⟨_,posted,_⟩
      · exact absurd unborn born
      all_goals omega
    · obtain ⟨rfl,born,posted,_,i,bound,waits⟩ := pending
      have posted : (view world.shared).posts .syncSem2 = 1 := posted
      have other : (view world.shared).flag ≠ 2 := other
      obtain ⟨turn,unfinished⟩ := parent_blocked _ _ i bound waits other
      rcases child with unborn | ⟨_,_,closed⟩ | ⟨_,_,flag,_⟩ | ⟨_,_,_,⟨_,last⟩ | ⟨ended,first⟩⟩
      · exact absurd unborn born
      · omega
      · exact absurd turn flag
      · exact absurd last unfinished
      · have count := (waits_first _ _ first (by omega)).2
        exact .notMigrated ⟨next,prog⟩ ended (List.length_eq_zero_iff.mp count)
    · obtain ⟨_,born,posted,long⟩ := pending
      have unended := unended born
      rcases child with unborn | ⟨_,_,closed⟩ | ⟨_,_,_,i,bound,waits⟩ | ⟨_,_,_,⟨ended,_⟩ | ⟨ended,_⟩⟩
      · exact absurd unborn born
      · omega
      · have short := child_blocked _ _ i bound waits
        omega
      · exact absurd (ended.symm.trans unended) (by simp)
      · exact absurd (ended.symm.trans unended) (by simp)

theorem rounds_within (who : Party) (mine next : Int) : Within (rounds who mine next) 20 := by
  refine within_forM _ 4 ?_ (List.range 5)
  intro i
  exact within_request _ _ 3 fun _ => within_request _ _ 2 fun _ => within_request _ _ 1 fun _ =>
    within_request _ _ 0 fun _ => within_pure _ _

theorem childLoop_within : Within childLoop 21 :=
  within_bind _ _ 20 1 (rounds_within .child 1 2) fun _ => within_request _ _ 0 fun _ => within_pure _ _

theorem child_within : Within child 29 := by
  refine within_request _ _ 28 fun _ => within_request _ _ 27 fun _ => within_request _ _ 26 fun _ =>
    within_request _ _ 25 fun _ => within_request _ _ 24 fun _ => within_request _ _ 23 fun _ =>
    within_request _ _ 22 fun _ => ?_
  split
  · refine within_request _ _ 21 fun _ => ?_
    split
    · exact within_request _ _ 20 fun _ => within_request _ _ 19 fun _ => within_pure _ _
    · exact childLoop_within
  · exact within_request _ _ 21 fun _ => childLoop_within

theorem bindBoth_within (pid : Int) : Within (bindBoth pid) 31 := by
  have failed (message : Message) : Within (affinityFailed message) 2 :=
    within_request _ _ 1 fun _ => within_request _ _ 0 fun _ => within_pure _ _
  refine within_request _ _ 30 fun _ => within_request _ _ 29 fun _ => within_request _ _ 28 fun _ =>
    within_request _ _ 27 fun _ => within_request _ _ 26 fun _ => within_request _ _ 25 fun result => ?_
  split
  · exact within_mono _ 2 25 (by decide) (failed _)
  refine within_request _ _ 24 fun _ => within_request _ _ 23 fun _ => within_request _ _ 22 fun result => ?_
  split
  · exact within_mono _ 2 22 (by decide) (failed _)
  refine within_request _ _ 21 fun _ => within_bind _ _ 20 1 (rounds_within .parent 2 1) fun _ => ?_
  refine within_request _ _ 0 fun reply => ?_
  dsimp only
  split
  · split
    · exact within_pure _ _
    · exact within_pure _ _
  · exact within_pure _ _

theorem takeTurns_within : Within takeTurns 36 := by
  refine within_request _ _ 35 fun _ => within_request _ _ 34 fun pid => ?_
  split
  · exact within_pure _ _
  exact within_request _ _ 33 fun _ => within_request _ _ 32 fun _ => within_request _ _ 31 fun _ =>
    bindBoth_within pid

theorem setUpAndRun_within : Within setUpAndRun 42 := by
  refine within_request _ _ 41 fun _ => within_request _ _ 40 fun _ => within_request _ _ 39 fun _ =>
    within_request _ _ 38 fun _ => ?_
  unfold runFunc
  split
  · exact within_pure _ _
  · exact within_request _ _ 37 fun _ => within_request _ _ 36 fun _ => takeTurns_within

theorem main_within : Within main 44 :=
  within_bind _ _ 42 2 setUpAndRun_within fun _ =>
    within_request _ _ 1 fun _ => within_request _ _ 0 fun _ => within_pure _ _

/-- Every run is over after 73 calls at most, and a run that is over has one of
the outcomes. At any time the turns on record alternate, and no run reports that
the child has failed to migrate. -/
theorem turns_outcome (actions : List (Action Party Request.Answer)) (world : System)
    (computed : run (step serve) actions start = some world) :
    actions.length ≤ 73 ∧ (Stuck (step serve) world → Outcome world) ∧
      (∃ count ≤ 10, turns world.shared.record = (List.range count).map alternate) ∧
      world.progs .parent ≠ .ret (some .childFailed) ∧ world.progs .parent ≠ .ret (some .waitFailed) := by
  have holds := run_holds serve contract actions _ world start_holds computed
  refine ⟨?_,stuck_outcome world holds,run_alternates actions world computed,?_,?_⟩
  · have bound := run_within serve actions start world
      (fun who => if who = .child then 29 else 44) ?_ computed
    · exact bound
    · intro who
      cases who with
      | child => exact child_within
      | parent => exact main_within
  · intro returned
    have post : parentPost (some .childFailed) (view world.shared) := holds_returned holds .parent _ returned
    simp [parentPost] at post
  · intro returned
    have post : parentPost (some .waitFailed) (view world.shared) := holds_returned holds .parent _ returned
    simp [parentPost] at post

/-- A child that stays on core 1. -/
theorem turns_outcome_unmoved : ∃ world, run (step serve) (handshake 1 ++ acts .child 1 3) start = some world ∧
    Outcome world := by
  obtain ⟨world,computed⟩ := Option.isSome_iff_exists.mp
    (show (run (step serve) (handshake 1 ++ acts .child 1 3) start).isSome = true from rfl)
  refine ⟨world,computed,(turns_outcome _ world computed).2.1 ?_⟩
  rintro ⟨who,reply⟩
  have stuck : (run (step serve) (handshake 1 ++ acts .child 1 3) start).bind
      (fun world => step serve world ⟨who,reply⟩) = none := by
    cases who <;> rfl
  rwa [computed] at stuck

end Ostest.TestMck.TimeSharing
