import Ostest.TestMck.TimeSharing.Program

/-! Test time_sharing/000: what the two processes agree on, whose turn it is and
how many turns are on record, and how each of the calls keeps to it. -/
namespace Ostest.TestMck.TimeSharing
open Lib.Calls Lib.Runs Lib.Threads Lib.WaitStatus

abbrev Turn := Party × Nat

def turn : Line → Option Turn
  | .loop who count => some (who,count)
  | _ => none

def turns (lines : List Line) : List Turn := lines.filterMap turn

/-- Turn `k`, from 0 on, when they alternate. -/
def alternate (k : Nat) : Turn := (if k % 2 = 0 then .child else .parent,k/2)

/-- The part of the state that the agreement is about. -/
structure View where
  mapped : Region → Bool
  posts : Sem → Nat
  waits : Sem → Nat
  flag : Int
  childPid : Option Int
  ended : Party → Option Report
  unwritten : Party → List Turn
  written : List Turn

def view (s : Shared) : View :=
  ⟨s.mapped,s.posts,s.waits,s.cells .runningFlag,s.childPid,s.ended,fun who => turns (s.buffers who),
    turns s.record⟩

def View.print (v : View) (who : Party) (more : List Turn) : View :=
  {v with unwritten := Function.update v.unwritten who (v.unwritten who ++ more)}

def View.flush (v : View) (who : Party) : View :=
  {v with unwritten := Function.update v.unwritten who [], written := v.written ++ v.unwritten who}

@[simp]
def Party.other : Party → Party
  | .child => .parent
  | .parent => .child

/-- The value of the flag that lets a party act. -/
@[simp]
def Party.mine : Party → Int
  | .child => 1
  | .parent => 2

/-- The place of a party in a round. -/
@[simp]
def Party.place : Party → Nat
  | .child => 0
  | .parent => 1

@[simp]
def Party.posting : Party → Sem
  | .child => .syncSem1
  | .parent => .syncSem2

@[simp]
def Party.waiting (who : Party) : Sem := who.other.posting

/-- The turns that a party may take while the other waits. -/
def Moves (who : Party) (flag : Int) (count : Nat) (flag' : Int) (count' : Nat) : Prop :=
  (flag' = flag ∧ count' = count) ∨ (who = .parent ∧ flag = 0 ∧ flag' = 1 ∧ count' = count) ∨
    (flag = who.mine ∧ flag' = who.mine ∧ count % 2 = who.place ∧ count' = count+1) ∨
    (flag = who.mine ∧ flag' = who.other.mine ∧
      (count % 2 = who.place ∧ count' = count+1 ∨ count % 2 ≠ who.place ∧ count' = count))

structure Invariant (v : View) : Prop where
  alternates : v.written = (List.range v.written.length).map alternate
  flagged : v.childPid ≠ none → v.flag ≠ 0
  passed : ∀ sem, v.waits sem ≤ v.posts sem
  opened : v.posts .syncSem2 = 0 → v.written = []
  bounded : v.written.length ≤ 10
  ending : ∀ report, v.ended .child = some report →
    report = .exited 0 ∨ (report = .exited 255 ∧ v.written = [] ∧ v.flag = 1)
  unborn : v.childPid = none → ∀ sem, v.posts sem = 0 ∧ v.waits sem = 0
  /-- The parent has used all that is shared before there is a child, but `parent_core`. -/
  reached : v.childPid ≠ none → ∀ region ≠ Region.cell .parentCore, v.mapped region = true
  cored : v.posts .syncSem2 ≠ 0 → v.mapped (.cell .parentCore) = true

structure Relies (who : Party) (v later : View) : Prop where
  mapped : who = .parent → later.mapped = v.mapped
  posts : later.posts who.posting = v.posts who.posting
  waits : later.waits who.waiting = v.waits who.waiting
  unwritten : later.unwritten who = v.unwritten who
  born : (who = .parent ∨ v.childPid ≠ none) → later.childPid = v.childPid
  ended : later.ended who = v.ended who
  finished : v.ended .child ≠ none → later.ended .child = v.ended .child
  moves : Moves who.other v.flag v.written.length later.flag later.written.length
  /-- A child that has ended does not move. -/
  still : who = .parent → v.ended .child ≠ none → later.written = v.written

/-- A party waits for its turn in round `i`. -/
def Waits (who : Party) (i : Nat) (flag : Int) (count : Nat) : Prop :=
  (flag = who.mine ∧ count = 2*i+who.place) ∨
    (flag = who.other.mine ∧ 0 < 2*i+who.place ∧ (count = 2*i+who.place ∨ count+1 = 2*i+who.place)) ∨
    (who = .child ∧ flag = 0 ∧ i = 0 ∧ count = 0)

/-- What a party waits for. -/
def Awaits (who : Party) : Request → View → Prop
  | .begin, _ => who = .child
  | .semWait sem, v =>
    sem = who.waiting ∧ v.waits sem = 0 ∧ v.childPid ≠ none ∧ (who = .child → v.posts .syncSem1 = 1)
  | .spin value, v =>
    value = who.mine ∧ v.childPid ≠ none ∧ v.posts who.posting = 1 ∧ v.waits who.waiting = 1 ∧
      ∃ i < 5, Waits who i v.flag v.written.length
  | .wait, v => who = .parent ∧ v.childPid ≠ none ∧ v.posts .syncSem2 = 1 ∧ 10 ≤ v.written.length
  | _, _ => True

/-- The parent has died before it could fork, or of `parent_core`. -/
def Lost (v : View) : Prop :=
  v.ended .parent = some crashed ∧
    ((v.childPid = none ∧ ∃ region ≠ Region.cell .parentCore, v.mapped region = false) ∨
      (v.childPid ≠ none ∧ v.mapped (.cell .parentCore) = false ∧ v.posts .syncSem2 = 0))

def Pending (who : Party) (asked : Request) (v : View) : Prop :=
  (who = .parent ∧ Lost v) ∨ (v.ended who = none ∧ Awaits who asked v)

def childPost (v : View) : Prop :=
  v.posts .syncSem1 = 1 ∧ v.waits .syncSem2 = 1 ∧
    ((v.ended .child = some (.exited 0) ∧ Waits .child 5 v.flag v.written.length) ∨
      (v.ended .child = some (.exited 255) ∧ Waits .child 0 v.flag v.written.length))

def parentPost (message : Msg) (v : View) : Prop :=
  ((message = some .mmapFailed ∨ message = some .forkFailed) ∧ v.childPid = none ∧ v.posts .syncSem2 = 0 ∧ v.written = []) ∨
  ((message = some .childNotBound ∨
      message = some .parentNotBound) ∧
    v.childPid ≠ none ∧ v.posts .syncSem2 = 0 ∧ v.written = []) ∨
  (message = some .checkRunOrder ∧
    v.ended .child = some (.exited 0) ∧ v.written = (List.range 10).map alternate)

theorem moves_trans (who : Party) (flag flag' flag'' : Int) (count count' count'' : Nat)
    (first : Moves who flag count flag' count') (second : Moves who flag' count' flag'' count'') :
    Moves who flag count flag'' count'' := by
  unfold Moves at *
  -- After a first move the flag leaves few second ones.
  rcases first with ⟨rfl,rfl⟩ | set | acts | passes
  · exact second
  all_goals rcases second with ⟨rfl,rfl⟩ | later | later | later
  all_goals cases who <;> simp at * <;> omega

theorem relies_refl (who : Party) (v : View) : Relies who v v :=
  ⟨fun _ => rfl,rfl,rfl,rfl,fun _ => rfl,rfl,fun _ => rfl,.inl ⟨rfl,rfl⟩,fun _ _ => rfl⟩

theorem relies_trans (who : Party) (v middle later : View) (first : Relies who v middle)
    (second : Relies who middle later) : Relies who v later where
  mapped parent := (second.mapped parent).trans (first.mapped parent)
  posts := second.posts.trans first.posts
  waits := second.waits.trans first.waits
  unwritten := second.unwritten.trans first.unwritten
  born known := by
    have same := first.born known
    exact (second.born (same ▸ known)).trans same
  ended := second.ended.trans first.ended
  finished finished := by
    have same := first.finished finished
    exact (second.finished (same ▸ finished)).trans same
  moves := moves_trans _ _ _ _ _ _ _ first.moves second.moves
  still parent finished := by
    have same := first.finished finished
    exact (second.still parent (same ▸ finished)).trans (first.still parent finished)

def contract : Contract Party Request Shared Value where
  invariant s := Invariant (view s)
  rely who s later := Relies who (view s) (view later)
  pending who asked s := Pending who asked (view s)
  post
    | .child, _, s => childPost (view s)
    | .parent, message, s => parentPost message (view s)
  refl who s := relies_refl who (view s)
  trans who s middle later := relies_trans who (view s) (view middle) (view later)

abbrev Keeps {β : Type} (who : Party) (post : β → Shared → Prop) (code : Code β) (s : Shared) : Prop :=
  Upholds serve contract who post code s

/-! How a call can be answered. -/

theorem serve_some (who : Party) (s after : Shared) (asked : Request) (reply : asked.Answer)
    (served : serve who s asked reply = some after) :
    (respond who s asked reply = some after ∧ ∀ region, touched asked = some region → s.mapped region = true) ∨
      ∃ region, touched asked = some region ∧ s.mapped region = false ∧
        after = {s with ended := Function.update s.ended who (some crashed)} := by
  unfold serve at served
  split at served
  · contradiction
  split at served
  next reaches =>
    refine .inl ⟨served,fun region touches => ?_⟩
    simpa [touches] using reaches
  next missing =>
    cases touches : touched asked with
    | none => simp [touches] at missing
    | some region => exact .inr ⟨region,rfl,by simpa [touches] using missing,(Option.some.inj served).symm⟩

/-- What a party that goes on can say at any time. -/
structure Firm (who : Party) (assertion : View → Prop) : Prop where
  stable : Stable contract who (fun s => assertion (view s))
  alive : ∀ v, assertion v → v.ended who = none

theorem keeps_ask {β : Type} {who : Party} {post : β → Shared → Prop} (asked : Request)
    (next : asked.Answer → Code β) (s : Shared) (assertion : View → Prop)
    (firm : Firm who assertion) (now : assertion (view s))
    (reaches : ∀ v, Invariant v → assertion v → ∀ region, touched asked = some region → v.mapped region = true)
    (pending : ∀ v, assertion v → Awaits who asked v)
    (served : ∀ s reply after, Invariant (view s) → assertion (view s) →
      respond who s asked reply = some after →
        Invariant (view after) ∧ Relies who.other (view s) (view after) ∧
        Keeps who post (next reply) after) :
    Keeps who post (ask asked >>= next) s := by
  apply upholds_request asked next s (fun s => assertion (view s)) firm.stable now
  intro s kept holds
  refine ⟨.inr ⟨firm.alive _ holds,pending (view s) holds⟩,?_⟩
  intro reply after taken
  rcases serve_some who s after asked reply taken with ⟨taken,_⟩ | ⟨region,touches,missing,_⟩
  · obtain ⟨keeps,relies,rest⟩ := served s reply after kept holds taken
    refine ⟨keeps,?_,rest⟩
    intro other different
    cases who <;> cases other <;> first | contradiction | exact relies
  · have there : s.mapped region = true := reaches (view s) kept holds region touches
    simp [missing] at there

/-- A call that has nothing to do with the shared memory. -/
theorem keeps_apart {β : Type} {who : Party} {post : β → Shared → Prop} (asked : Request)
    (next : asked.Answer → Code β) (s : Shared) (assertion : View → Prop)
    (firm : Firm who assertion) (now : assertion (view s)) (untouched : touched asked = none)
    (pending : ∀ v, assertion v → Awaits who asked v)
    (served : ∀ s reply after, Invariant (view s) → assertion (view s) →
      respond who s asked reply = some after →
        Invariant (view after) ∧ Relies who.other (view s) (view after) ∧
        Keeps who post (next reply) after) :
    Keeps who post (ask asked >>= next) s := by
  refine keeps_ask asked next s assertion firm now ?_ pending served
  intro v _ _ region touches
  simp [untouched] at touches

/-- Nothing more happens in a parent that has died. -/
theorem lost_keeps {β : Type} {post : β → Shared → Prop} (asked : Request) (next : asked.Answer → Code β)
    (s : Shared) (lost : Lost (view s)) : Keeps .parent post (ask asked >>= next) s := by
  refine upholds_request asked next s (fun s => Lost (view s)) ?_ lost ?_
  · rintro s later moved _ ⟨dead,place⟩
    have moved : Relies .parent (view s) (view later) := moved
    have posts : (view later).posts .syncSem2 = (view s).posts .syncSem2 := moved.posts
    rw [Lost,moved.ended,moved.born (.inl rfl),moved.mapped rfl,posts]
    exact ⟨dead,place⟩
  · intro s _ lost
    refine ⟨.inl ⟨rfl,lost⟩,fun reply after served => ?_⟩
    have dead : s.ended .parent = some crashed := lost.1
    simp [serve,dead] at served

/-- The parent uses memory of which it does not know that it is mapped. -/
theorem touch_keeps {β : Type} {post : β → Shared → Prop} (asked more : Request)
    (next : asked.Answer → more.Answer → Code β) (s : Shared) (assertion : View → Prop)
    (firm : Firm .parent assertion) (now : assertion (view s)) (region : Region)
    (touches : touched asked = some region) (pending : ∀ v, Awaits .parent asked v)
    (alone : ∀ v, assertion v → (v.childPid = none ∧ region ≠ .cell .parentCore) ∨
      (v.childPid ≠ none ∧ region = .cell .parentCore ∧ v.posts .syncSem2 = 0))
    (served : ∀ s reply after, Invariant (view s) → assertion (view s) → (view s).mapped region = true →
      respond .parent s asked reply = some after →
        Invariant (view after) ∧ Relies .child (view s) (view after) ∧
        Keeps .parent post (ask more >>= next reply) after) :
    Keeps .parent post (ask asked >>= fun reply => ask more >>= next reply) s := by
  apply upholds_request asked _ s (fun s => assertion (view s)) firm.stable now
  intro s kept holds
  have kept : Invariant (view s) := kept
  refine ⟨.inr ⟨firm.alive _ holds,pending (view s)⟩,?_⟩
  intro reply after taken
  have only (other : Party) (different : other ≠ .parent) (relies : Relies .child (view s) (view after)) :
      contract.rely other s after := by
    cases other
    · exact relies
    · contradiction
  rcases serve_some .parent s after asked reply taken with ⟨taken,there⟩ | ⟨region',touches',missing,rfl⟩
  · obtain ⟨keeps,relies,rest⟩ := served s reply after kept holds (there region touches) taken
    exact ⟨keeps,fun other different => only other different relies,rest⟩
  · obtain rfl : region = region' := Option.some.inj (touches.symm.trans touches')
    have child : Function.update s.ended .parent (some crashed) .child = s.ended .child :=
      Function.update_of_ne (by decide) _ _
    have dead : Function.update s.ended .parent (some crashed) .parent = some crashed := Function.update_self _ _ _
    refine ⟨{kept with ending := fun report ended => kept.ending report (child.symm.trans ended)},
      fun other different => only other different ?_,lost_keeps more _ _ ⟨dead,?_⟩⟩
    swap
    · rcases alone (view s) holds with ⟨unborn,other⟩ | ⟨born,rfl,closed⟩
      · exact .inl ⟨unborn,region,other,missing⟩
      · exact .inr ⟨born,missing,closed⟩
    exact ⟨fun _ => rfl,rfl,rfl,rfl,fun _ => rfl,child,fun _ => child,.inl ⟨rfl,rfl⟩,fun _ _ => rfl⟩

/-! Calls that leave the agreement alone. -/

def quiet : Request → Bool
  | .schedGetcpu | .load _ | .store .parentCore _ | .schedSetaffinity _ _ | .errno => true
  | .printf line => (turn line).isNone
  | _ => false

theorem turns_append (first second : List Line) : turns (first ++ second) = turns first ++ turns second :=
  List.filterMap_append

theorem view_printf (who : Party) (s : Shared) (line : Line) :
    view {s with buffers := Function.update s.buffers who (s.buffers who ++ [line])} =
      (view s).print who (turns [line]) := by
  simp only [view,View.print,View.mk.injEq,true_and,and_true]
  funext other
  by_cases same : other = who
  · subst same
    simp [turns_append]
  · simp [same]

theorem view_flush (who : Party) (s : Shared) :
    view (s.flush who) =
      (view s).flush who := by
  simp only [view,View.flush,Shared.flush,turns_append,View.mk.injEq,true_and,and_true]
  funext other
  by_cases same : other = who
  · subst same
    simp [turns]
  · simp [same]

theorem respond_quiet (who : Party) (s after : Shared) (asked : Request) (reply : asked.Answer)
    (isQuiet : quiet asked = true) (served : respond who s asked reply = some after) :
    view after = view s := by
  cases asked with
  | schedGetcpu | schedSetaffinity | errno =>
    cases served
    rfl
  | load cell =>
    simp only [respond] at served
    split at served
    · cases served
      rfl
    · contradiction
  | store cell value =>
    cases cell with
    | parentCore =>
      cases served
      simp [view]
    | runningFlag => contradiction
  | printf line =>
    have silent : turns [line] = [] := by
      simpa [turns,quiet] using isQuiet
    cases served
    rw [view_printf,silent,View.print,List.append_nil,Function.update_eq_self]
  | _ => contradiction

theorem awaits_quiet (who : Party) (v : View) (asked : Request) (isQuiet : quiet asked = true) :
    Awaits who asked v := by
  cases asked <;> trivial

theorem keeps_reaching {β : Type} {who : Party} {post : β → Shared → Prop} (asked : Request)
    (next : asked.Answer → Code β) (s : Shared) (assertion : View → Prop)
    (firm : Firm who assertion) (now : assertion (view s)) (isQuiet : quiet asked = true)
    (reaches : ∀ v, Invariant v → assertion v → ∀ region, touched asked = some region → v.mapped region = true)
    (rest : ∀ reply s, assertion (view s) → Keeps who post (next reply) s) :
    Keeps who post (ask asked >>= next) s := by
  refine keeps_ask asked next s assertion firm now reaches (fun v _ => awaits_quiet who v asked isQuiet) ?_
  intro s reply after kept holds served
  have same := respond_quiet who s after asked reply isQuiet served
  rw [same]
  exact ⟨kept,relies_refl _ _,rest reply after (same ▸ holds)⟩

theorem keeps_quiet {β : Type} {who : Party} {post : β → Shared → Prop} (asked : Request)
    (next : asked.Answer → Code β) (s : Shared) (assertion : View → Prop)
    (firm : Firm who assertion) (now : assertion (view s)) (isQuiet : quiet asked = true)
    (untouched : touched asked = none)
    (rest : ∀ reply s, assertion (view s) → Keeps who post (next reply) s) :
    Keeps who post (ask asked >>= next) s := by
  refine keeps_reaching asked next s assertion firm now isQuiet (fun _ _ _ region touches => ?_) rest
  simp [untouched] at touches

/-! Calls that change what it is about. -/

theorem respond_spin (who : Party) (s after : Shared) (value : Int) (reply : Unit)
    (served : respond who s (.spin value) reply = some after) : after = s ∧ (view s).flag = value := by
  simp only [respond] at served
  split at served
  next flag => exact ⟨(Option.some.inj served).symm,flag⟩
  · contradiction

/-! The rounds. -/

/-- What a party knows between its calls. -/
structure At (who : Party) (pid : Option Int) (posted waited : Nat) (unwritten : List Turn)
    (turn : Int → Nat → Prop) (v : View) : Prop where
  posts : v.posts who.posting = posted
  waits : v.waits who.waiting = waited
  unwritten : v.unwritten who = unwritten
  born : (who = .parent ∨ pid ≠ none) → v.childPid = pid
  running : v.ended who = none
  turn : turn v.flag v.written.length

def Stays (who : Party) (turn : Int → Nat → Prop) : Prop :=
  ∀ flag count flag' count', Moves who.other flag count flag' count' → turn flag count → turn flag' count'

theorem at_stable (who : Party) (pid : Option Int) (posted waited : Nat) (unwritten : List Turn)
    (turn : Int → Nat → Prop) (stays : Stays who turn) :
    Stable contract who (fun s => At who pid posted waited unwritten turn (view s)) := by
  intro s later moved _ here
  have moved : Relies who (view s) (view later) := moved
  refine ⟨moved.posts.trans here.posts,moved.waits.trans here.waits,
    moved.unwritten.trans here.unwritten,?_,moved.ended.trans here.running,stays _ _ _ _ moved.moves here.turn⟩
  intro known
  have same := here.born known
  exact (moved.born (same ▸ known)).trans same

theorem at_firm (who : Party) (pid : Option Int) (posted waited : Nat) (unwritten : List Turn)
    (turn : Int → Nat → Prop) (stays : Stays who turn) : Firm who (At who pid posted waited unwritten turn) :=
  ⟨at_stable who pid posted waited unwritten turn stays,fun _ here => here.running⟩

/-- What the parent knows besides about the memory. -/
structure AtMapped (who : Party) (pid : Option Int) (posted waited : Nat) (turn : Int → Nat → Prop)
    (regions : List Region) (v : View) : Prop extends At who pid posted waited [] turn v where
  there : who = .parent → ∀ region ∈ regions, v.mapped region = true

theorem atMapped_firm (who : Party) (pid : Option Int) (posted waited : Nat) (turn : Int → Nat → Prop)
    (stays : Stays who turn) (regions : List Region) :
    Firm who (AtMapped who pid posted waited turn regions) := by
  refine ⟨?_,fun _ here => here.running⟩
  intro s later moved kept here
  have there := here.there
  refine ⟨at_stable who pid posted waited [] turn stays s later moved kept here.toAt,fun parent region member => ?_⟩
  have same : (view later).mapped = (view s).mapped := Relies.mapped moved parent
  rw [same]
  exact there parent region member

theorem At.reached {who : Party} {pid : Int} {posted waited : Nat} {unwritten : List Turn}
    {turn : Int → Nat → Prop} {v : View} (here : At who (some pid) posted waited unwritten turn v)
    (kept : Invariant v) (region : Region) (other : region ≠ .cell .parentCore) : v.mapped region = true :=
  kept.reached (by simp [here.born (.inr (by simp))]) region other

theorem waits_stays (who : Party) (i : Nat) : Stays who (Waits who i) := by
  intro flag count flag' count' moves waits
  unfold Moves at moves
  unfold Waits at *
  cases who <;> simp at * <;> omega

/-- It is the turn of a party, and the other does not move. -/
def Acts (who : Party) (total : Nat) (flag : Int) (count : Nat) : Prop := flag = who.mine ∧ count = total

theorem acts_stays (who : Party) (total : Nat) : Stays who (Acts who total) := by
  intro flag count flag' count' moves acts
  unfold Moves at moves
  unfold Acts at *
  cases who <;> simp at * <;> omega

theorem acts_of_waits (who : Party) (i : Nat) (count : Nat) (waits : Waits who i who.mine count) :
    count = 2*i+who.place := by
  unfold Waits at waits
  cases who <;> simp at * <;> omega

theorem Party.other_other (who : Party) : who.other.other = who := by
  cases who <;> rfl

theorem Party.other_ne (who : Party) : who.other ≠ who := by
  cases who <;> decide

theorem alternate_place (who : Party) (i : Nat) : alternate (2*i+who.place) = (who,i) := by
  cases who
  · simp [alternate]
  · simp [alternate]
    omega

/-- A step that keeps to its side of the agreement and moves as allowed. -/
theorem relies_other (who : Party) (v later : View) (posts : later.posts = v.posts)
    (waits : later.waits = v.waits) (unwritten : later.unwritten who.other = v.unwritten who.other)
    (childPid : later.childPid = v.childPid) (ended : later.ended = v.ended) (mapped : later.mapped = v.mapped)
    (moves : Moves who v.flag v.written.length later.flag later.written.length)
    (running : v.ended who = none) : Relies who.other v later where
  mapped _ := mapped
  posts := by rw [posts]
  waits := by rw [waits]
  unwritten := unwritten
  born _ := childPid
  ended := by rw [ended]
  finished _ := by rw [ended]
  moves := by rwa [Party.other_other]
  still parent finished := by
    cases who with
    | child => exact absurd running finished
    | parent => contradiction

theorem relies_flush (who : Party) (v : View) (i : Nat) (unwritten : v.unwritten who = [(who,i)])
    (acts : Acts who (2*i+who.place) v.flag v.written.length) (running : v.ended who = none) :
    Relies who.other v (v.flush who) := by
  refine relies_other who v _ rfl rfl (Function.update_of_ne who.other_ne _ _) rfl rfl rfl ?_ running
  have place : (2*i+who.place) % 2 = who.place := by
    cases who <;> simp
  refine .inr (.inr (.inl ⟨acts.1,acts.1,acts.2 ▸ place,?_⟩))
  simp [View.flush,unwritten]

theorem relies_store (who : Party) (v : View) (i : Nat)
    (acts : Acts who (2*i+who.place+1) v.flag v.written.length) (running : v.ended who = none) :
    Relies who.other v {v with flag := who.other.mine} := by
  refine relies_other who v _ rfl rfl rfl rfl rfl rfl ?_ running
  have flag := acts.1
  have count := acts.2
  refine .inr (.inr (.inr ⟨flag,rfl,.inr ⟨?_,rfl⟩⟩))
  cases who <;> simp at * <;> omega

theorem Invariant.flush (who : Party) (v : View) (kept : Invariant v) (i : Nat) (bound : i < 5)
    (unwritten : v.unwritten who = [(who,i)]) (acts : Acts who (2*i+who.place) v.flag v.written.length)
    (opened : v.posts .syncSem2 ≠ 0) (unended : v.ended .child ≠ some (.exited 255)) :
    Invariant (v.flush who) := by
  have last : who.place ≤ 1 := by
    cases who <;> decide
  have longer : (v.written ++ v.unwritten who).length = v.written.length+1 := by
    simp [unwritten]
  refine {kept with alternates := ?_,opened := fun closed => absurd closed opened,bounded := ?_,ending := ?_}
  · change v.written ++ v.unwritten who =
      (List.range (v.written ++ v.unwritten who).length).map alternate
    rw [longer,unwritten,List.range_succ,List.map_append,← kept.alternates,List.map_singleton,acts.2,
      alternate_place]
  · change (v.written ++ v.unwritten who).length ≤ 10
    rw [longer,acts.2]
    omega
  · intro report ended
    rcases kept.ending report ended with normal | ⟨early,_⟩
    · exact .inl normal
    · exact absurd (early ▸ ended) unended

theorem Invariant.store (v : View) (kept : Invariant v) (flag : Int) (set : flag ≠ 0)
    (unended : v.ended .child ≠ some (.exited 255)) : Invariant {v with flag := flag} := by
  refine {kept with flagged := fun _ => set,ending := ?_}
  intro report ended
  rcases kept.ending report ended with normal | ⟨early,_⟩
  · exact .inl normal
  · exact absurd (early ▸ ended) unended

section
variable {who : Party} {pid : Option Int} {unwritten : List Turn} {v : View}

/-- A child that has left early has left the turn with itself. -/
theorem At.unended {posted waited total : Nat}
    (here : At who pid posted waited unwritten (Acts who total) v) (kept : Invariant v) :
    v.ended .child ≠ some (.exited 255) := by
  intro ended
  have flag := here.turn.1
  cases who with
  | child => simp [here.running] at ended
  | parent =>
    rcases kept.ending _ ended with normal | ⟨_,_,early⟩
    · contradiction
    · simp [early] at flag

theorem At.opened {turn : Int → Nat → Prop} (here : At who pid 1 1 unwritten turn v) (kept : Invariant v) :
    v.posts .syncSem2 ≠ 0 := by
  have passed := kept.passed .syncSem2
  cases who with
  | child =>
    have waited : v.waits .syncSem2 = 1 := here.waits
    omega
  | parent =>
    have posted : v.posts .syncSem2 = 1 := here.posts
    omega

end

theorem view_store (s : Shared) (value : Int) :
    view {s with cells := Function.update s.cells .runningFlag value} = {view s with flag := value} := by
  simp [view]

theorem round_keeps (who : Party) (pid : Int) (i : Nat) (bound : i < 5) (s : Shared)
    (here : At who (some pid) 1 1 [] (Waits who i) (view s)) :
    Keeps who (fun _ s => At who (some pid) 1 1 [] (Waits who (i+1)) (view s)) (do
      let _ ← ask (.spin who.mine)
      let _ ← ask (.printf (.loop who i))
      let _ ← ask .fflush
      let _ ← ask (.store .runningFlag who.other.mine)
      return) s := by
  refine keeps_ask _ _ s _ (at_firm who (some pid) 1 1 [] _ (waits_stays who i)) here ?_ ?_ ?_
  · intro v kept here region touches
    cases touches
    exact here.reached kept _ (by decide)
  · intro v here
    refine ⟨rfl,?_,here.posts,here.waits,i,bound,here.turn⟩
    simp [here.born (.inr (by simp))]
  intro s reply after kept here served
  obtain ⟨rfl,flag⟩ := respond_spin _ _ _ _ _ served
  refine ⟨kept,relies_refl _ _,?_⟩
  have acts : Acts who (2*i+who.place) (view after).flag (view after).written.length :=
    ⟨flag,acts_of_waits who i _ (flag ▸ here.turn)⟩
  -- The turn is this party's, and it stays so until the flag is stored.
  refine keeps_apart _ _ _ _ (at_firm who (some pid) 1 1 [] _ (acts_stays who (2*i+who.place)))
    {here with turn := acts} rfl (fun _ _ => trivial) ?_
  intro s reply after kept here served
  cases served
  rw [view_printf]
  refine ⟨{kept with},relies_other who _ _ rfl rfl (Function.update_of_ne who.other_ne _ _) rfl rfl rfl
    (.inl ⟨rfl,rfl⟩) here.running,?_⟩
  refine keeps_apart _ _ _ _ (at_firm who (some pid) 1 1 [(who,i)] _ (acts_stays who (2*i+who.place)))
    ?_ rfl (fun _ _ => trivial) ?_
  · rw [view_printf]
    refine {here with unwritten := ?_}
    simp [View.print,here.unwritten,turns,turn]
  intro s reply after kept here served
  cases served
  rw [view_flush]
  refine ⟨kept.flush who _ i bound here.unwritten here.turn (here.opened kept) (here.unended kept),
    relies_flush who _ i here.unwritten here.turn here.running,?_⟩
  refine keeps_ask _ _ _ _ (at_firm who (some pid) 1 1 [] _ (acts_stays who (2*i+who.place+1)))
    ?_ ?_ (fun _ _ => trivial) ?_
  · rw [view_flush]
    refine {here with unwritten := Function.update_self _ _ _, turn := ⟨here.turn.1,?_⟩}
    simp [View.flush,here.unwritten,here.turn.2]
  · intro v kept here region touches
    cases touches
    exact here.reached kept _ (by decide)
  intro s reply after kept here served
  cases served
  rw [view_store]
  refine ⟨kept.store _ _ (by cases who <;> decide) (here.unended kept),
    relies_store who _ i here.turn here.running,?_⟩
  refine upholds_pure _ _ (fun s => At who (some pid) 1 1 [] (Waits who (i+1)) (view s))
    (at_stable who (some pid) 1 1 [] _ (waits_stays who (i+1))) ?_ (fun _ _ here => here)
  rw [view_store]
  refine {here with turn := .inr (.inl ⟨rfl,by omega,.inr ?_⟩)}
  have count := here.turn.2
  change (view s).written.length+1 = _
  omega

theorem rounds_keep (who : Party) (pid : Int) (s : Shared)
    (here : At who (some pid) 1 1 [] (Waits who 0) (view s)) :
    Keeps who (fun _ s => At who (some pid) 1 1 [] (Waits who 5) (view s))
      (rounds who who.mine who.other.mine) s :=
  upholds_rounds _ (fun i s => At who (some pid) 1 1 [] (Waits who i) (view s))
    (fun i => at_stable who (some pid) 1 1 [] _ (waits_stays who i)) 5
    (fun i bound s _ here => round_keeps who pid i bound s here) s here

/-! The semaphores. -/

section
variable {β : Type} {post : β → Shared → Prop} (who : Party) (pid : Int) (turn : Int → Nat → Prop)
  (stays : Stays who turn) (next : Code β) (s : Shared)
include stays

theorem semPost_keeps (waited : Nat) (here : AtMapped who (some pid) 0 waited turn [.cell .parentCore] (view s))
    (rest : ∀ s, At who (some pid) 1 waited [] turn (view s) → Keeps who post next s) :
    Keeps who post (do
      let _ ← ask (.semPost who.posting)
      next) s := by
  refine keeps_ask _ _ s _ (atMapped_firm who (some pid) 0 waited turn stays _) here ?_ (fun _ _ => trivial) ?_
  · intro v kept here region touches
    cases touches
    exact here.reached kept _ Region.noConfusion
  intro s reply after kept here served
  cases served
  have others : who.other.posting ≠ who.posting := by
    cases who <;> decide
  have born : s.childPid ≠ none := by
    have born : s.childPid = some pid := here.born (.inr (by simp))
    simp [born]
  refine ⟨{kept with passed := passed_post _ _ _ kept.passed,opened := ?_,unborn := (absurd · born),cored := ?_},?_,
    rest _ {here.toAt with posts := ?_}⟩
  · intro closed
    apply kept.opened
    change Function.update (view s).posts who.posting _ .syncSem2 = 0 at closed
    cases who with
    | child => simpa using closed
    | parent => simp at closed
  · intro opened
    cases who with
    | child =>
      refine kept.cored (fun closed => opened ?_)
      change Function.update s.posts .syncSem1 (s.posts .syncSem1+1) .syncSem2 = 0
      rw [Function.update_of_ne (by decide)]
      exact closed
    | parent => exact here.there rfl _ List.mem_cons_self
  · exact ⟨fun _ => rfl,Function.update_of_ne others _ _,rfl,rfl,fun _ => rfl,rfl,fun _ => rfl,.inl ⟨rfl,rfl⟩,
      fun _ _ => rfl⟩
  · have before : s.posts who.posting = 0 := here.posts
    change Function.update s.posts who.posting (s.posts who.posting+1) who.posting = 1
    rw [Function.update_self,before]

theorem semWait_keeps (posted : Nat) (synced : who = .child → posted = 1)
    (here : At who (some pid) posted 0 [] turn (view s))
    (rest : ∀ s, At who (some pid) posted 1 [] turn (view s) → Keeps who post next s) :
    Keeps who post (do
      let _ ← ask (.semWait who.waiting)
      next) s := by
  refine keeps_ask _ _ s _ (at_firm who (some pid) posted 0 [] turn stays) here ?_ ?_ ?_
  · intro v kept here region touches
    cases touches
    exact here.reached kept _ Region.noConfusion
  · intro v here
    refine ⟨rfl,here.waits,by simp [here.born (.inr (by simp))],?_⟩
    rintro rfl
    exact here.posts.trans (synced rfl)
  intro s reply after kept here served
  simp only [respond] at served
  split at served
  next free =>
    cases served
    have others : who.other.waiting ≠ who.waiting := by
      cases who <;> decide
    have born : s.childPid ≠ none := by
      have born : s.childPid = some pid := here.born (.inr (by simp))
      simp [born]
    refine ⟨{kept with passed := passed_wait _ _ _ kept.passed free,unborn := (absurd · born)},?_,
      rest _ {here with waits := ?_}⟩
    · exact ⟨fun _ => rfl,rfl,Function.update_of_ne others _ _,rfl,fun _ => rfl,rfl,fun _ => rfl,.inl ⟨rfl,rfl⟩,
        fun _ _ => rfl⟩
    · have before : s.waits who.waiting = 0 := here.waits
      change Function.update s.waits who.waiting (s.waits who.waiting+1) who.waiting = 1
      rw [Function.update_self,before]
  · contradiction

end

end Ostest.TestMck.TimeSharing
