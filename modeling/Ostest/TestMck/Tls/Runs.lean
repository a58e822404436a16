import Mathlib.Data.Fintype.Option
import Mathlib.Data.Fintype.BigOperators
import Ostest.TestMck.Tls.Program

/-! Test tls/001: what the threads agree on, and what every run comes to. -/
namespace Ostest.TestMck.Tls
open Lib.Calls Lib.Runs Lib.Threads

variable {n : Nat}

structure Invariant (v : Sync n) : Prop where
  passed : ∀ sem, v.waits sem ≤ v.posts sem
  synced : ∀ i, 0 < v.posts (.sync i) → v.created i = true
  counted : ∀ i, v.done i = true → v.childTls i = incCount

structure ThreadRelies (i : Fin n) (v later : Sync n) : Prop where
  created : v.created i = true → later.created i = true
  posts : later.posts (.sync i) = v.posts (.sync i)
  waits : later.waits (.start i) = v.waits (.start i)
  tls : later.tls (.thread i) = v.tls (.thread i)
  childTls : later.childTls i = v.childTls i
  done : later.done i = v.done i

structure MainRelies (v later : Sync n) : Prop where
  created : later.created = v.created
  posts : ∀ i, later.posts (.start i) = v.posts (.start i)
  waits : ∀ i, later.waits (.sync i) = v.waits (.sync i)
  done : ∀ i, v.done i = true → later.done i = true

def Relies : Party n → Sync n → Sync n → Prop
  | .main => MainRelies
  | .thread i => ThreadRelies i

def Pending : Party n → Request → Sync n → Prop
  | .thread i, .begin j, v => j = i ∧ v.posts (.sync i) = 0
  | .thread i, .semWait sem, v => sem = .start i ∧ v.posts (.sync i) = 1 ∧ v.waits (.start i) = 0
  | .main, .semWait sem, v => ∃ i < n, sem = .sync i ∧ v.waits (.sync i) = 0
  | .main, .pthreadJoin i, v => i < n ∧ v.created i = true ∧ v.posts (.start i) = 1
  | _, .begin _, _ | _, .pthreadJoin _, _ => False
  | _, _, _ => True

def threadPost (i : Fin n) (v : Sync n) : Prop := v.posts (.sync i) = 1 ∧ v.done i = true

def mainPost (message : Msg) (v : Sync n) : Prop :=
  message = some .callocError ∨ (message = some .mandatory ∧ n = 0) ∨
    (message = none ∧ ∀ i < n, v.created i = true ∧ v.done i = true)

theorem relies_refl (who : Party n) (v : Sync n) : Relies who v v := by
  cases who with
  | main => exact ⟨rfl,fun _ => rfl,fun _ => rfl,fun _ => id⟩
  | thread i => exact ⟨id,rfl,rfl,rfl,rfl,rfl⟩

theorem relies_trans (who : Party n) (v middle later : Sync n) (first : Relies who v middle)
    (second : Relies who middle later) : Relies who v later := by
  cases who with
  | main =>
    exact ⟨second.created.trans first.created,fun i => (second.posts i).trans (first.posts i),
      fun i => (second.waits i).trans (first.waits i),fun i finished => second.done i (first.done i finished)⟩
  | thread i =>
    exact ⟨second.created ∘ first.created,second.posts.trans first.posts,second.waits.trans first.waits,
      second.tls.trans first.tls,second.childTls.trans first.childTls,second.done.trans first.done⟩

def contract : Contract (Party n) Request (Shared n) Value where
  invariant s := Invariant s.toSync
  rely who s later := Relies who s.toSync later.toSync
  pending who asked s := Pending who asked s.toSync
  post
    | .main, message, s => mainPost message s.toSync
    | .thread i, _, s => threadPost i s.toSync
  refl who s := relies_refl who s.toSync
  trans who s middle later := relies_trans who s.toSync middle.toSync later.toSync

abbrev Keeps {β : Type} (who : Party n) (post : β → Sync n → Prop) (code : Code β) (s : Shared n) : Prop :=
  Upholds serve contract who (fun value s => post value s.toSync) code s

/-- A call that is answered changes the synchronised part as `Sync.serve` says. -/
theorem serve_sync (who : Party n) (s after : Shared n) (asked : Request) (reply : asked.Answer)
    (served : serve who s asked reply = some after) :
    s.toSync.serve who asked reply = some after.toSync := by
  cases asked with
  | printf line | storeNotls value =>
    cases served
    rfl
  | loadNotls =>
    simp only [serve] at served
    split at served
    · cases served
      rfl
    · contradiction
  | _ =>
    have mapped : (s.toSync.serve who _ reply).map (fun v => {s with toSync := v}) = some after := served
    obtain ⟨v,inner,rfl⟩ := Option.map_eq_some_iff.mp mapped
    exact inner

theorem keeps_ask {β : Type} {who : Party n} {post : β → Sync n → Prop} (asked : Request)
    (next : asked.Answer → Code β) (s : Shared n) (assertion : Sync n → Prop)
    (stable : Stable contract who (fun s => assertion s.toSync)) (now : assertion s.toSync)
    (pending : ∀ v, Invariant v → assertion v → Pending who asked v)
    (served : ∀ v reply later, Invariant v → assertion v → v.serve who asked reply = some later →
      Invariant later ∧ (∀ other, other ≠ who → Relies other v later) ∧
      ∀ s, s.toSync = later → Keeps who post (next reply) s) :
    Keeps who post (ask asked >>= next) s := by
  apply upholds_request asked next s (fun s => assertion s.toSync) stable now
  intro s kept holds
  refine ⟨pending s.toSync kept holds,?_⟩
  intro reply after taken
  obtain ⟨keeps,relies,rest⟩ := served s.toSync reply after.toSync kept holds
    (serve_sync who s after asked reply taken)
  exact ⟨keeps,relies,rest after rfl⟩

/-- Calls that leave the synchronised part alone. -/
def quiet : Request → Bool
  | .calloc | .printf _ | .fflush | .loadTls | .loadNotls | .storeNotls _ | .loadChild _ | .semDestroy _ | .free => true
  | _ => false

theorem serve_quiet (who : Party n) (v later : Sync n) (asked : Request) (reply : asked.Answer)
    (isQuiet : quiet asked = true) (served : v.serve who asked reply = some later) : later = v := by
  cases asked with
  | loadTls | loadChild =>
    simp only [Sync.serve] at served
    split at served
    · exact (Option.some.inj served).symm
    · contradiction
  | calloc | printf | fflush | loadNotls | storeNotls | semDestroy | free => exact (Option.some.inj served).symm
  | _ => contradiction

theorem keeps_quiet {β : Type} {who : Party n} {post : β → Sync n → Prop} (asked : Request)
    (next : asked.Answer → Code β) (s : Shared n) (assertion : Sync n → Prop)
    (stable : Stable contract who (fun s => assertion s.toSync)) (now : assertion s.toSync)
    (isQuiet : quiet asked = true)
    (rest : ∀ reply s, assertion s.toSync → s.toSync.serve who asked reply = some s.toSync →
      Keeps who post (next reply) s) :
    Keeps who post (ask asked >>= next) s := by
  refine keeps_ask asked next s assertion stable now ?_ ?_
  · intro v _ _
    cases asked <;> cases who <;> trivial
  · intro v reply later kept holds served
    obtain rfl := serve_quiet who v later asked reply isQuiet served
    refine ⟨kept,fun other _ => relies_refl other later,?_⟩
    rintro s rfl
    exact rest reply s holds served

/-! A thread. -/

structure ThreadAt (i : Fin n) (posted waited : Nat) (count : Int) (v : Sync n) : Prop where
  created : v.created i = true
  posts : v.posts (.sync i) = posted
  waits : v.waits (.start i) = waited
  tls : v.tls (.thread i) = count
  done : v.done i = false

theorem threadAt_stable (i : Fin n) (posted waited : Nat) (count : Int) :
    Stable contract (.thread i) (fun s => ThreadAt i posted waited count s.toSync) := by
  intro s later moved _ here
  have moved : ThreadRelies i s.toSync later.toSync := moved
  exact ⟨moved.created here.created,moved.posts.trans here.posts,moved.waits.trans here.waits,
    moved.tls.trans here.tls,moved.done.trans here.done⟩

/-- What the others see of a step of thread `i` that changes what is its own. -/
theorem thread_relies (i : Fin n) (v later : Sync n) (created : later.created = v.created)
    (posts : ∀ sem ≠ .sync i, later.posts sem = v.posts sem)
    (waits : ∀ sem ≠ .start i, later.waits sem = v.waits sem)
    (tls : ∀ who ≠ .thread i, later.tls who = v.tls who)
    (childTls : ∀ j ≠ i.val, later.childTls j = v.childTls j)
    (done : ∀ j ≠ i.val, later.done j = v.done j) (finished : v.done i = true → later.done i = true)
    (other : Party n) (different : other ≠ .thread i) : Relies other v later := by
  cases other with
  | main =>
    refine ⟨created,fun j => posts _ (by simp),fun j => waits _ (by simp),fun j earlier => ?_⟩
    by_cases same : j = i.val
    · subst same
      exact finished earlier
    · rw [done j same]
      exact earlier
  | thread j =>
    have apart : j.val ≠ i.val := fun same => different (congrArg _ (Fin.ext same))
    exact ⟨fun known => created ▸ known,posts _ (by simpa using apart),waits _ (by simpa using apart),
      tls _ different,childTls _ apart,done _ apart⟩

theorem increment_keeps (i : Fin n) (count : Nat) (s : Shared n) (here : ThreadAt i 1 1 count s.toSync) :
    Keeps (.thread i) (fun _ v => ThreadAt i 1 1 (count+1 : Nat) v) increment s := by
  have stable := threadAt_stable i 1 1 count
  refine keeps_quiet _ _ s _ stable here rfl ?_
  intro tls s here served
  have same : tls = count := by
    simp only [Sync.serve,here.tls] at served
    split at served
    next same => exact same
    · contradiction
  refine keeps_ask _ _ s _ stable here (fun _ _ _ => trivial) ?_
  intro v reply later kept here served
  cases served
  refine ⟨⟨kept.passed,kept.synced,kept.counted⟩,thread_relies i v _ rfl (fun _ _ => rfl) (fun _ _ => rfl)
    (fun who other => Function.update_of_ne other _ _) (fun _ _ => rfl) (fun _ _ => rfl) id,?_⟩
  intro s after
  have here : ThreadAt i 1 1 (count+1 : Nat) s.toSync := by
    rw [after]
    refine {here with tls := ?_}
    simp [same]
  have stable := threadAt_stable i 1 1 (count+1 : Nat)
  refine keeps_quiet _ _ s _ stable here rfl ?_
  intro notls s here _
  refine keeps_quiet _ _ s _ stable here rfl ?_
  intro _ s here _
  exact upholds_pure _ s _ stable here (fun _ _ here => here)

theorem Invariant.semPost (v : Sync n) (kept : Invariant v) (sem : Sem)
    (known : ∀ i, sem = .sync i → v.created i = true) :
    Invariant {v with posts := Function.update v.posts sem (v.posts sem+1)} := by
  refine ⟨passed_post v.posts v.waits sem kept.passed,?_,kept.counted⟩
  intro i posted
  change 0 < Function.update v.posts sem (v.posts sem+1) (.sync i) at posted
  by_cases same : Sem.sync i = sem
  · exact known i same.symm
  · rw [Function.update_of_ne same] at posted
    exact kept.synced i posted

theorem Invariant.semWait (v : Sync n) (kept : Invariant v) (sem : Sem) (free : v.waits sem < v.posts sem) :
    Invariant {v with waits := Function.update v.waits sem (v.waits sem+1)} :=
  ⟨passed_wait v.posts v.waits sem kept.passed free,kept.synced,kept.counted⟩

/-- The thread has put down its count. -/
def Counted (i : Fin n) (v : Sync n) : Prop := ThreadAt i 1 1 incCount v ∧ v.childTls i = incCount

theorem counted_stable (i : Fin n) : Stable contract (.thread i) (fun s => Counted i s.toSync) := by
  intro s later moved kept counted
  have relies : ThreadRelies i s.toSync later.toSync := moved
  exact ⟨threadAt_stable i 1 1 incCount s later moved kept counted.1,relies.childTls.trans counted.2⟩

theorem threadPost_stable (i : Fin n) : Stable contract (.thread i) (fun s => threadPost i s.toSync) := by
  intro s later moved _ post
  have moved : ThreadRelies i s.toSync later.toSync := moved
  exact ⟨moved.posts.trans post.1,moved.done.trans post.2⟩

theorem func_begins (i : Fin n) {post : Unit → Sync n → Prop} (next : Code Unit) (s : Shared n)
    (unposted : s.toSync.posts (.sync i) = 0 ∧ s.toSync.waits (.start i) = 0 ∧
      s.toSync.tls (.thread i) = 0 ∧ s.toSync.done i = false)
    (rest : ∀ s, ThreadAt i 1 1 0 s.toSync → Keeps (.thread i) post next s) :
    Keeps (.thread i) post (do
      let _ ← ask (.begin i)
      let _ ← ask (.semPost (.sync i))
      let _ ← ask (.printf (.wait i))
      let _ ← ask (.semWait (.start i))
      let _ ← ask (.printf (.start i))
      next) s := by
  have stable : Stable contract (.thread i) (fun s => s.toSync.posts (.sync i) = 0 ∧
      s.toSync.waits (.start i) = 0 ∧ s.toSync.tls (.thread i) = 0 ∧ s.toSync.done i = false) := by
    intro s later moved _ here
    have moved : ThreadRelies i s.toSync later.toSync := moved
    exact ⟨moved.posts.trans here.1,moved.waits.trans here.2.1,moved.tls.trans here.2.2.1,
      moved.done.trans here.2.2.2⟩
  refine keeps_ask _ _ s (fun v => v.posts (.sync i) = 0 ∧ v.waits (.start i) = 0 ∧
    v.tls (.thread i) = 0 ∧ v.done i = false) stable unposted (fun v _ here => ⟨rfl,here.1⟩) ?_
  intro v reply later kept here served
  simp only [Sync.serve] at served
  split at served
  next created =>
    cases served
    refine ⟨kept,fun other _ => relies_refl other v,?_⟩
    rintro s rfl
    have here : ThreadAt i 0 0 0 s.toSync := ⟨created,here.1,here.2.1,here.2.2.1,here.2.2.2⟩
    refine keeps_ask _ _ s _ (threadAt_stable i 0 0 0) here (fun _ _ _ => trivial) ?_
    intro v reply later kept here served
    cases served
    refine ⟨kept.semPost v (.sync i) (fun j same => by cases same; exact here.created),
      thread_relies i v _ rfl (fun sem other => Function.update_of_ne other _ _) (fun _ _ => rfl)
        (fun _ _ => rfl) (fun _ _ => rfl) (fun _ _ => rfl) id,?_⟩
    intro s after
    have here : ThreadAt i 1 0 0 s.toSync := by
      rw [after]
      refine {here with posts := ?_}
      simp [here.posts]
    refine keeps_quiet _ _ s _ (threadAt_stable i 1 0 0) here rfl ?_
    intro _ s here _
    refine keeps_ask _ _ s _ (threadAt_stable i 1 0 0) here (fun v _ here => ⟨rfl,here.posts,here.waits⟩) ?_
    intro v reply later kept here served
    simp only [Sync.serve] at served
    split at served
    next free =>
      cases served
      refine ⟨kept.semWait v (.start i) free,
        thread_relies i v _ rfl (fun _ _ => rfl) (fun sem other => Function.update_of_ne other _ _)
          (fun _ _ => rfl) (fun _ _ => rfl) (fun _ _ => rfl) id,?_⟩
      intro s after
      have here : ThreadAt i 1 1 0 s.toSync := by
        rw [after]
        refine {here with waits := ?_}
        simp [here.waits]
      refine keeps_quiet _ _ s _ (threadAt_stable i 1 1 0) here rfl ?_
      intro _ s here _
      exact rest s here
    · contradiction
  · contradiction

theorem func_ends (i : Fin n) (s : Shared n) (here : ThreadAt i 1 1 incCount s.toSync) :
    Keeps (.thread i) (fun _ => threadPost i) (do
      let tls ← ask .loadTls
      let _ ← ask (.storeChild i tls)
      let tls ← ask (.loadChild i)
      let notls ← ask .loadNotls
      let _ ← ask (.printf (.counts i tls notls))
      let _ ← ask (.finish i)
      return) s := by
  have stable := threadAt_stable i 1 1 incCount
  refine keeps_quiet _ _ s _ stable here rfl ?_
  intro tls s here served
  have same : tls = incCount := by
    simp only [Sync.serve,here.tls] at served
    split at served
    next same => exact same
    · contradiction
  refine keeps_ask _ _ s _ stable here (fun _ _ _ => trivial) ?_
  intro v reply later kept here served
  cases served
  refine ⟨⟨kept.passed,kept.synced,?_⟩,thread_relies i v _ rfl (fun _ _ => rfl) (fun _ _ => rfl)
    (fun _ _ => rfl) (fun j other => Function.update_of_ne other _ _) (fun _ _ => rfl) id,?_⟩
  · intro j finished
    change Function.update v.childTls i tls j = incCount
    by_cases own : j = i
    · rw [own,Function.update_self,same]
    · rw [Function.update_of_ne own]
      exact kept.counted j finished
  intro s after
  have counted : Counted i s.toSync := by
    rw [after]
    exact ⟨{here with},by simp [same]⟩
  refine keeps_quiet _ _ s _ (counted_stable i) counted rfl ?_
  intro tls s counted _
  refine keeps_quiet _ _ s _ (counted_stable i) counted rfl ?_
  intro notls s counted _
  refine keeps_quiet _ _ s _ (counted_stable i) counted rfl ?_
  intro _ s counted _
  refine keeps_ask _ _ s _ (counted_stable i) counted (fun _ _ _ => trivial) ?_
  intro v reply later kept counted served
  cases served
  refine ⟨⟨kept.passed,kept.synced,?_⟩,thread_relies i v _ rfl (fun _ _ => rfl) (fun _ _ => rfl)
    (fun _ _ => rfl) (fun _ _ => rfl) (fun j other => Function.update_of_ne other _ _) (fun _ => by simp),?_⟩
  · intro j finished
    change Function.update v.done i true j = true at finished
    by_cases own : j = i
    · rw [own]
      exact counted.2
    · rw [Function.update_of_ne own] at finished
      exact kept.counted j finished
  intro s after
  refine upholds_pure _ s _ (threadPost_stable i) ?_ (fun _ _ post => post)
  rw [after]
  exact ⟨counted.1.posts,by simp⟩

theorem func_keeps (i : Fin n) (s : Shared n)
    (unposted : s.toSync.posts (.sync i) = 0 ∧ s.toSync.waits (.start i) = 0 ∧
      s.toSync.tls (.thread i) = 0 ∧ s.toSync.done i = false) :
    Keeps (.thread i) (fun _ => threadPost i) (func i) s := by
  refine func_begins i _ s unposted ?_
  intro s here
  have rounds (count : Nat) : Keeps (.thread i) (fun _ v => ThreadAt i 1 1 count v)
      ((List.range count).forM fun _ => increment) s :=
    upholds_rounds _ (fun k s => ThreadAt i 1 1 k s.toSync) (fun k => threadAt_stable i 1 1 k) count
      (fun k _ s _ here => increment_keeps i k s here) s here
  exact upholds_bind _ _ s (rounds incCount) (fun _ s _ here => func_ends i s here)

/-! The main thread. -/

/-- So many threads have been waited for, let start, and joined. -/
structure MainAt (synced started joined : Nat) (v : Sync n) : Prop where
  waits : ∀ i, v.waits (.sync i) = if i < synced then 1 else 0
  posts : ∀ i, v.posts (.start i) = if i < started then 1 else 0
  done : ∀ i < joined, v.done i = true

theorem mainAt_stable (synced started joined : Nat) :
    Stable contract .main (fun s : Shared n => MainAt synced started joined s.toSync) := by
  intro s later moved _ here
  have moved : MainRelies s.toSync later.toSync := moved
  exact ⟨fun i => (moved.waits i).trans (here.waits i),fun i => (moved.posts i).trans (here.posts i),
    fun i bound => moved.done i (here.done i bound)⟩

theorem MainAt.created {started joined i : Nat} {v : Sync n} (here : MainAt n started joined v)
    (kept : Invariant v) (bound : i < n) : v.created i = true := by
  have passed := kept.passed (.sync i)
  rw [here.waits i,if_pos bound] at passed
  exact kept.synced i passed

/-- What the threads see of a step of the main thread. -/
theorem main_relies (v later : Sync n) (created : ∀ i, v.created i = true → later.created i = true)
    (posts : ∀ i, later.posts (.sync i) = v.posts (.sync i))
    (waits : ∀ i, later.waits (.start i) = v.waits (.start i)) (tls : later.tls = v.tls)
    (childTls : later.childTls = v.childTls) (done : later.done = v.done) (other : Party n)
    (different : other ≠ .main) : Relies other v later := by
  cases other with
  | main => contradiction
  | thread j =>
    exact ⟨created j,posts j,waits j,congrFun tls _,congrFun childTls _,congrFun done _⟩

theorem create_keeps (i : Nat) (s : Shared n) (here : MainAt 0 0 0 s.toSync) :
    Keeps .main (fun _ => MainAt 0 0 0) (do
      let _ ← ask (.pthreadCreate i)
      return) s := by
  have stable := mainAt_stable (n := n) 0 0 0
  refine keeps_ask _ _ s _ stable here (fun _ _ _ => trivial) ?_
  intro v reply later kept here served
  cases served
  have grows (j : Nat) (known : v.created j = true) :
      Function.update v.created i (v.created i || reply == 0) j = true := by
    by_cases same : j = i
    · subst same
      simp [known]
    · rwa [Function.update_of_ne same]
  refine ⟨⟨kept.passed,fun j posted => grows j (kept.synced j posted),kept.counted⟩,
    main_relies v _ grows (fun _ => rfl) (fun _ => rfl) rfl rfl rfl,?_⟩
  intro s after
  refine upholds_pure _ s _ stable ?_ (fun _ _ here => here)
  rw [after]
  exact ⟨here.waits,here.posts,here.done⟩

theorem sync_keeps (i : Nat) (bound : i < n) (s : Shared n) (here : MainAt i 0 0 s.toSync) :
    Keeps .main (fun _ => MainAt (i+1) 0 0) (do
      let _ ← ask (.semWait (.sync i))
      return) s := by
  refine keeps_ask _ _ s _ (mainAt_stable i 0 0) here ?_ ?_
  · intro v _ here
    exact ⟨i,bound,rfl,by simp [here.waits i]⟩
  intro v reply later kept here served
  simp only [Sync.serve] at served
  split at served
  next free =>
    cases served
    have starts (j : Nat) : Function.update v.waits (.sync i) (v.waits (.sync i)+1) (.start j) =
        v.waits (.start j) := Function.update_of_ne (by simp) _ _
    refine ⟨kept.semWait v _ free,main_relies v _ (fun _ => id) (fun _ => rfl) starts rfl rfl rfl,?_⟩
    intro s after
    refine upholds_pure _ s _ (mainAt_stable (i+1) 0 0) ?_ (fun _ _ here => here)
    rw [after]
    refine ⟨?_,here.posts,here.done⟩
    intro j
    change Function.update v.waits (.sync i) (v.waits (.sync i)+1) (.sync j) = _
    by_cases same : j = i
    · subst same
      simp [here.waits j]
    · rw [Function.update_of_ne (by simpa using same),here.waits j]
      exact if_congr (by omega) rfl rfl
  · contradiction

theorem start_keeps (i : Nat) (s : Shared n) (here : MainAt n i 0 s.toSync) :
    Keeps .main (fun _ => MainAt n (i+1) 0) (do
      let _ ← ask (.semPost (.start i))
      return) s := by
  refine keeps_ask _ _ s _ (mainAt_stable n i 0) here (fun _ _ _ => trivial) ?_
  intro v reply later kept here served
  cases served
  have syncs (j : Nat) : Function.update v.posts (.start i) (v.posts (.start i)+1) (.sync j) =
      v.posts (.sync j) := Function.update_of_ne (by simp) _ _
  refine ⟨kept.semPost v _ (by simp),main_relies v _ (fun _ => id) syncs (fun _ => rfl) rfl rfl rfl,?_⟩
  intro s after
  refine upholds_pure _ s _ (mainAt_stable n (i+1) 0) ?_ (fun _ _ here => here)
  rw [after]
  refine ⟨here.waits,?_,here.done⟩
  intro j
  change Function.update v.posts (.start i) (v.posts (.start i)+1) (.start j) = _
  by_cases same : j = i
  · subst same
    simp [here.posts j]
  · rw [Function.update_of_ne (by simpa using same),here.posts j]
    exact if_congr (by omega) rfl rfl

theorem destroy_keeps (i : Nat) (bound : i < n) (s : Shared n) (here : MainAt n n i s.toSync) :
    Keeps .main (fun _ => MainAt n n (i+1)) (destroy i) s := by
  refine keeps_ask _ _ s _ (mainAt_stable n n i) here ?_ ?_
  · intro v kept here
    exact ⟨bound,here.created kept bound,by simp [here.posts i,bound]⟩
  intro v reply later kept here served
  simp only [Sync.serve] at served
  split at served
  next finished =>
    cases served
    refine ⟨kept,fun other _ => relies_refl other v,?_⟩
    rintro s rfl
    have here : MainAt n n (i+1) s.toSync := by
      refine {here with done := ?_}
      intro j below
      by_cases same : j = i
      · subst same
        exact finished
      · exact here.done j (by omega)
    refine keeps_quiet _ _ s _ (mainAt_stable n n (i+1)) here rfl ?_
    intro _ s here _
    refine keeps_quiet _ _ s _ (mainAt_stable n n (i+1)) here rfl ?_
    intro _ s here _
    exact upholds_pure _ s _ (mainAt_stable n n (i+1)) here (fun _ _ here => here)
  · contradiction

theorem checkTls_keeps (list : List Nat) (inside : ∀ i ∈ list, i < n) (s : Shared n)
    (here : MainAt n n n s.toSync) : Keeps .main mainPost (checkTls list) s := by
  have stable := mainAt_stable (n := n) n n n
  induction list generalizing s with
  | nil =>
    refine keeps_quiet _ _ s _ stable here rfl ?_
    intro _ s here _
    refine upholds_pure _ s _ stable here ?_
    intro s kept here
    exact .inr (.inr ⟨rfl,fun i bound => ⟨here.created kept bound,here.done i bound⟩⟩)
  | cons i rest ih =>
    refine keeps_ask _ _ s _ stable here (fun _ _ _ => trivial) ?_
    intro v tls later kept here served
    have same : tls = incCount := by
      simp only [Sync.serve,kept.counted i (here.done i (inside i List.mem_cons_self))] at served
      split at served
      next same => exact same
      · contradiction
    obtain rfl := serve_quiet .main v later (.loadChild i) tls rfl served
    refine ⟨kept,fun other _ => relies_refl other later,?_⟩
    rintro s rfl
    rw [if_pos same]
    exact ih (fun j member => inside j (List.mem_cons_of_mem i member)) s here

theorem runThreads_keeps (s : Shared n) (here : MainAt 0 0 0 s.toSync) :
    Keeps .main mainPost (runThreads n) s := by
  refine upholds_bind _ _ s (upholds_rounds _ (fun _ s => MainAt 0 0 0 s.toSync)
    (fun _ => mainAt_stable 0 0 0) n (fun i _ s _ here => create_keeps i s here) s here) ?_
  intro _ s _ here
  refine upholds_bind _ _ s (upholds_rounds _ (fun i s => MainAt i 0 0 s.toSync)
    (fun i => mainAt_stable i 0 0) n (fun i bound s _ here => sync_keeps i bound s here) s here) ?_
  intro _ s _ here
  refine keeps_quiet _ _ s _ (mainAt_stable n 0 0) here rfl ?_
  intro _ s here _
  refine upholds_bind _ _ s (upholds_rounds _ (fun i s => MainAt n i 0 s.toSync)
    (fun i => mainAt_stable n i 0) n (fun i _ s _ here => start_keeps i s here) s here) ?_
  intro _ s _ here
  refine upholds_bind _ _ s (upholds_rounds _ (fun i s => MainAt n n i s.toSync)
    (fun i => mainAt_stable n n i) n (fun i bound s _ here => destroy_keeps i bound s here) s here) ?_
  intro _ s _ here
  exact checkTls_keeps _ (fun i member => List.mem_range.mp member) s here

theorem runFunc_keeps (childCount : Count) (s : Shared childCount.val.toNat) (here : MainAt 0 0 0 s.toSync) :
    Keeps .main mainPost (runFunc childCount) s := by
  have stable := mainAt_stable (n := childCount.val.toNat) 0 0 0
  unfold runFunc
  by_cases given : 0 < childCount.val
  · rw [if_pos given]
    refine keeps_quiet _ _ s _ stable here rfl ?_
    intro memory s here _
    cases memory with
    | false => exact upholds_pure _ s _ stable here (fun _ _ _ => .inl rfl)
    | true => exact runThreads_keeps s here
  · rw [if_neg given]
    exact upholds_pure _ s _ stable here (fun _ _ _ => .inr (.inl ⟨rfl,by omega⟩))

theorem start_holds (childCount : Count) : Holds serve contract (start childCount) := by
  refine ⟨⟨fun _ => Nat.le_refl 0,fun _ posted => absurd posted (Nat.lt_irrefl 0),
    fun _ finished => absurd finished Bool.false_ne_true⟩,?_⟩
  intro who
  cases who with
  | main => exact runFunc_keeps childCount _ ⟨fun i => by simp [start],fun i => by simp [start],by simp⟩
  | thread i => exact func_keeps i _ ⟨rfl,rfl,rfl,rfl⟩

/-! What every run comes to. -/

theorem blocked_cases (who : Party n) (s : Shared n) (asked : Request)
    (blocked : ∀ reply, serve who s asked reply = none) :
    (∃ i, asked = .begin i ∧ s.created i = false) ∨ (∃ sem, asked = .semWait sem ∧ s.posts sem ≤ s.waits sem) ∨
      (∃ i, asked = .pthreadJoin i ∧ s.done i = false) := by
  cases asked with
  | begin i =>
    refine .inl ⟨i,rfl,?_⟩
    by_contra created
    simpa [serve,Sync.serve,created] using blocked ()
  | semWait sem =>
    refine .inr (.inl ⟨sem,rfl,?_⟩)
    by_contra free
    simpa [serve,Sync.serve,Nat.lt_of_not_le free] using blocked ()
  | pthreadJoin i =>
    refine .inr (.inr ⟨i,rfl,?_⟩)
    by_contra finished
    simpa [serve,Sync.serve,finished] using blocked ()
  | loadTls => simpa [serve,Sync.serve] using blocked (s.tls who)
  | loadNotls => simpa [serve] using blocked s.notls
  | loadChild i => simpa [serve,Sync.serve] using blocked (s.childTls i)
  | pthreadCreate => simpa [serve,Sync.serve] using blocked 0
  | calloc => simpa [serve,Sync.serve] using blocked true
  | _ => simpa [serve,Sync.serve] using blocked ()

/-- A thread that has been created and can do nothing more has returned, or waits
for a post that has not come. -/
theorem stuck_thread (world : System n) (holds : Holds serve contract world)
    (stuck : Stuck (step serve) world) (i : Fin n) :
    world.shared.created i = false ∨ (world.shared.posts (.sync i) = 1 ∧
      (world.shared.done i = true ∨ world.shared.posts (.start i) = 0)) := by
  cases prog : world.progs (.thread i) with
  | ret value =>
    have post : threadPost i world.shared.toSync := holds_returned holds (.thread i) value prog
    exact .inr ⟨post.1,.inl post.2⟩
  | call asked next =>
    have pending : Pending (.thread i) asked world.shared.toSync := holds_pending holds (.thread i) asked next prog
    have blocked := blocked_cases _ _ _ (stuck_blocked serve world stuck (.thread i) asked next prog)
    rcases blocked with ⟨j,rfl,uncreated⟩ | ⟨sem,rfl,empty⟩ | ⟨j,rfl,_⟩
    · obtain ⟨rfl,_⟩ := pending
      exact .inl uncreated
    · obtain ⟨rfl,posted,waited⟩ := pending
      exact .inr ⟨posted,.inr (by omega)⟩
    · contradiction

/-- How it can be with the main thread when nothing can happen any more. -/
inductive Outcome (world : System n) : Prop where
  | unparameterised (returned : world.progs .main = .ret (some .mandatory)) (missing : n = 0)
  | callocError (returned : world.progs .main = .ret (some .callocError))
  | counted (returned : world.progs .main = .ret none) (created : ∀ i < n, world.shared.created i = true)
      (counts : ∀ i < n, world.shared.childTls i = incCount)
  /-- The main thread waits for a thread that it has failed to create. -/
  | uncreated (i : Nat) (inside : i < n) (missing : world.shared.created i = false)
      (waiting : ∃ next, world.progs .main = .call (.semWait (.sync i)) next)

theorem stuck_outcome (world : System n) (holds : Holds serve contract world)
    (stuck : Stuck (step serve) world) : Outcome world := by
  have kept : Invariant world.shared.toSync := holds.1
  cases prog : world.progs .main with
  | ret message =>
    have post : mainPost message world.shared.toSync := holds_returned holds .main message prog
    rcases post with rfl | ⟨rfl,missing⟩ | ⟨rfl,finished⟩
    · exact .callocError prog
    · exact .unparameterised prog missing
    · exact .counted prog (fun i bound => (finished i bound).1)
        (fun i bound => kept.counted i (finished i bound).2)
  | call asked next =>
    have pending : Pending .main asked world.shared.toSync := holds_pending holds .main asked next prog
    have blocked := blocked_cases _ _ _ (stuck_blocked serve world stuck .main asked next prog)
    rcases blocked with ⟨i,rfl,_⟩ | ⟨sem,rfl,empty⟩ | ⟨i,rfl,unfinished⟩
    · contradiction
    · obtain ⟨i,bound,rfl,waited⟩ := pending
      rcases stuck_thread world holds stuck ⟨i,bound⟩ with missing | ⟨posted,_⟩
      · exact .uncreated i bound missing ⟨next,prog⟩
      · have posted : world.shared.posts (.sync i) = 1 := posted
        omega
    · obtain ⟨bound,created,started⟩ := pending
      rcases stuck_thread world holds stuck ⟨i,bound⟩ with missing | ⟨_,finished | unstarted⟩
      · exact absurd (created.symm.trans missing) (by decide)
      · exact absurd (finished.symm.trans unfinished) (by decide)
      · have unstarted : world.shared.posts (.start i) = 0 := unstarted
        omega

theorem func_within (i : Nat) : Within (func i) (4*incCount+11) := by
  have rounds : Within ((List.range incCount).forM fun _ => increment) (incCount*4) := by
    have each := within_forM (fun _ : Nat => increment) 4 (fun _ => within_request _ _ 3 fun _ =>
      within_request _ _ 2 fun _ => within_request _ _ 1 fun _ => within_request _ _ 0 fun _ =>
      within_pure _ _) (List.range incCount)
    rwa [List.length_range] at each
  have ending : Within (do
      let tls ← ask .loadTls
      let _ ← ask (.storeChild i tls)
      let tls ← ask (.loadChild i)
      let notls ← ask .loadNotls
      let _ ← ask (.printf (.counts i tls notls))
      let _ ← ask (.finish i)
      return) 6 :=
    within_request _ _ 5 fun _ => within_request _ _ 4 fun _ => within_request _ _ 3 fun _ =>
      within_request _ _ 2 fun _ => within_request _ _ 1 fun _ => within_request _ _ 0 fun _ => within_pure _ _
  have counting := within_bind _ _ _ _ rounds (fun _ => ending)
  rw [show 4*incCount+11 = incCount*4+6+4+1 from by omega]
  exact within_request _ _ _ fun _ => within_request _ _ _ fun _ => within_request _ _ _ fun _ =>
    within_request _ _ _ fun _ => within_request _ _ _ fun _ => counting

theorem checkTls_within (list : List Nat) : Within (checkTls list) (list.length+1) := by
  induction list with
  | nil => exact within_request _ _ 0 fun _ => within_pure _ _
  | cons i rest ih =>
    refine within_request _ _ _ fun tls => ?_
    split
    · exact ih
    · exact within_pure _ _

theorem runFunc_within (childCount : Count) : Within (runFunc childCount) (7*childCount.val.toNat+3) := by
  unfold runFunc
  split
  · refine within_request _ _ (7*childCount.val.toNat+2) fun memory => ?_
    split
    · generalize childCount.val.toNat = n
      have single (asked : Nat → Request) : Within ((List.range n).forM fun i => do
          let _ ← ask (asked i)
          return) n := by
        have each := within_forM (fun i => do let _ ← ask (asked i); return) 1
          (fun _ => within_request _ _ 0 fun _ => within_pure _ _) (List.range n)
        rwa [List.length_range,Nat.mul_one] at each
      have joins := within_forM destroy 3 (fun _ => within_request _ _ 2 fun _ => within_request _ _ 1 fun _ =>
        within_request _ _ 0 fun _ => within_pure _ _) (List.range n)
      have checks := checkTls_within (List.range n)
      rw [List.length_range] at joins checks
      rw [show 7*n+2 = n+(n+((n+(n*3+(n+1)))+1)) from by omega]
      exact within_bind _ _ _ _ (single .pthreadCreate) fun _ =>
        within_bind _ _ _ _ (single fun i => .semWait (.sync i)) fun _ => within_request _ _ _ fun _ =>
        within_bind _ _ _ _ (single fun i => .semPost (.start i)) fun _ => within_bind _ _ _ _ joins fun _ => checks
    · exact within_pure _ _
  · exact within_pure _ _

/-- The threads and the main thread, as `Option`. -/
def partyEquiv (n : Nat) : Option (Fin n) ≃ Party n where
  toFun
    | none => .main
    | some i => .thread i
  invFun
    | .main => none
    | .thread i => some i
  left_inv who := by cases who <;> rfl
  right_inv who := by cases who <;> rfl

instance : Fintype (Party n) := Fintype.ofEquiv _ (partyEquiv n)

theorem setupFunc_returns (s : Lib.Getopt.State) (ordered : Lib.Getopt.Ordered s) :
    ∃ given, setupFunc s = some given := by
  obtain ⟨result,scanned,_⟩ := Lib.Getopt.scan_ends "t:".toList setupOption (-1) s ordered
  rw [setupFunc,scanned]
  cases result with
  | error arg => exact ⟨arg,rfl⟩
  | ok last => exact ⟨last.1,rfl⟩

/-- The arguments give a number of threads. If it is one that the loops can count to,
the run is over after a bounded number of calls, however the threads are scheduled.
Then every thread has counted to `INC_COUNT` in its own variable and the test has
passed, or a thread could not be created and the test waits for it. The check of the
counts never fails. -/
theorem counts_outcome (s : Lib.Getopt.State) (ordered : Lib.Getopt.Ordered s) :
    ∃ given, setupFunc s = some given ∧ ∀ childCount : Count, childCount.val = given →
      ∀ (actions : List (Action (Party childCount.val.toNat) Request.Answer)) (world : System childCount.val.toNat),
        run (step serve) actions (start childCount) = some world →
          actions.length ≤ 7*childCount.val.toNat+3 + childCount.val.toNat*(4*incCount+11) ∧
          (Stuck (step serve) world → Outcome world) ∧ world.progs .main ≠ .ret (some .invalidTls) := by
  obtain ⟨given,setup⟩ := setupFunc_returns s ordered
  refine ⟨given,setup,?_⟩
  intro childCount _ actions world computed
  have holds := run_holds serve contract actions _ world (start_holds childCount) computed
  refine ⟨?_,stuck_outcome world holds,?_⟩
  · have bound := run_within serve actions (start childCount) world
      (fun who => if who = .main then 7*childCount.val.toNat+3 else 4*incCount+11) ?_ computed
    · rw [← Equiv.sum_comp (partyEquiv childCount.val.toNat),Fintype.sum_option] at bound
      simpa [partyEquiv] using bound
    · intro who
      cases who with
      | main => exact runFunc_within childCount
      | thread i => exact func_within i
  · intro returned
    have post : mainPost (some .invalidTls) world.shared.toSync := holds_returned holds .main _ returned
    simp [mainPost] at post

/-- A kernel that has memory but no more threads. -/
def answers : (asked : Request) → asked.Answer
  | .calloc => true
  | .pthreadCreate _ => 11
  | .loadTls | .loadNotls | .loadChild _ => 0
  | .begin _ | .semPost _ | .semWait _ | .printf _ | .fflush | .storeTls _ | .storeNotls _ | .storeChild _ _
  | .finish _ | .pthreadJoin _ | .semDestroy _ | .free => ()

def one : Count := ⟨1,by decide⟩

/-- `-t 1`. -/
def oneThread : Lib.Getopt.State := .initial false [['t'],['-','t'],['1']]

theorem oneThread_ordered : Lib.Getopt.Ordered oneThread :=
  ⟨by decide,by decide,by decide,by decide,by decide⟩

theorem counts_outcome_uncreated :
    setupFunc oneThread = some 1 ∧
      ∃ world, run (step serve) (List.replicate 2 ⟨.main,answers⟩) (start one) = some world ∧ Outcome world := by
  have setup : setupFunc oneThread = some 1 := rfl
  obtain ⟨world,computed⟩ := Option.isSome_iff_exists.mp
    (show (run (step serve) (List.replicate 2 ⟨.main,answers⟩) (start one)).isSome = true from rfl)
  obtain ⟨given,returned,outcome⟩ := counts_outcome oneThread oneThread_ordered
  obtain rfl := Option.some.inj (setup.symm.trans returned)
  refine ⟨setup,world,computed,(outcome one rfl _ world computed).2.1 ?_⟩
  rintro ⟨who,reply⟩
  have stuck : (run (step serve) (List.replicate 2 ⟨.main,answers⟩) (start one)).bind
      (fun world => step serve world ⟨who,reply⟩) = none := by
    cases who with
    | main => rfl
    | thread i =>
      obtain rfl : i = ⟨0,by decide⟩ := Fin.ext (Nat.lt_one_iff.mp i.isLt)
      rfl
  rwa [computed] at stuck

end Ostest.TestMck.Tls
