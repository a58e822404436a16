import Mathlib.Algebra.BigOperators.Group.Finset.Piecewise
import Mathlib.Data.Fintype.Basic
import Ostest.Lib.Calls
import Ostest.Lib.Runs

/-! Parties that run their programs at the same time on one shared state, under
every interleaving. A call that the state has no answer for blocks its party. -/
namespace Ostest.Lib.Threads
open Lib.Calls Lib.Runs
open scoped BigOperators

structure World (ω : Type) {κ : Type} (answer : κ → Type) (α : ω → Type) (σ : Type) where
  progs : (who : ω) → Prog κ answer (α who)
  shared : σ

/-- One party makes its next call. The reply is fixed for whatever the call is. -/
structure Action (ω : Type) {κ : Type} (answer : κ → Type) where
  who : ω
  reply : (asked : κ) → answer asked

variable {ω κ σ : Type} {answer : κ → Type} {α : ω → Type}
variable (serve : ω → σ → (asked : κ) → answer asked → Option σ)

def step [DecidableEq ω] (world : World ω answer α σ) (action : Action ω answer) :
    Option (World ω answer α σ) :=
  match world.progs action.who with
  | .ret _ => none
  | .call asked next =>
    (serve action.who world.shared asked (action.reply asked)).map (fun shared =>
      ⟨Function.update world.progs action.who (next (action.reply asked)),shared⟩)

theorem step_some [DecidableEq ω] (world next : World ω answer α σ) (action : Action ω answer)
    (taken : step serve world action = some next) :
    ∃ asked rest, world.progs action.who = .call asked rest ∧
      serve action.who world.shared asked (action.reply asked) = some next.shared ∧
      next.progs = Function.update world.progs action.who (rest (action.reply asked)) := by
  unfold step at taken
  split at taken
  · contradiction
  next asked rest prog =>
    obtain ⟨shared,served,same⟩ := Option.map_eq_some_iff.mp taken
    subst same
    exact ⟨asked,rest,prog,served,rfl⟩

theorem stuck_blocked [DecidableEq ω] [inhabited : ∀ asked, Inhabited (answer asked)]
    (world : World ω answer α σ) (stuck : Stuck (step serve) world) (who : ω) (asked : κ)
    (next : answer asked → Prog κ answer (α who)) (prog : world.progs who = .call asked next)
    (reply : answer asked) : serve who world.shared asked reply = none := by
  classical
  have none := stuck ⟨who,Function.update (fun other => (inhabited other).default) asked reply⟩
  simp only [step,prog,Function.update_self,Option.map_eq_none_iff] at none
  exact none

/-! What a party may count on, whatever the others do. -/

/-- `rely who` bounds what the others do to the state while `who` is not acting,
`pending` is what holds whenever a party is about to make a call, and `post` what
holds once it has returned. -/
structure Contract (ω κ σ : Type) (α : ω → Type) where
  invariant : σ → Prop
  rely : ω → σ → σ → Prop
  pending : ω → κ → σ → Prop
  post : (who : ω) → α who → σ → Prop
  refl : ∀ who s, rely who s s
  trans : ∀ who s middle later, rely who s middle → rely who middle later → rely who s later

section
variable (contract : Contract ω κ σ α) {β γ : Type}

/-- Run by `who` from `s` on, the program keeps the contract towards the others and
returns with `post`. -/
def Upholds (who : ω) (post : β → σ → Prop) : Prog κ answer β → σ → Prop
  | .ret value, s => ∀ later, contract.rely who s later → contract.invariant later → post value later
  | .call asked next, s => ∀ later, contract.rely who s later → contract.invariant later →
      contract.pending who asked later ∧
      ∀ reply after, serve who later asked reply = some after →
        contract.invariant after ∧ (∀ other, other ≠ who → contract.rely other later after) ∧
        Upholds who post (next reply) after

/-- The others do not take the assertion from `who`. -/
def Stable (who : ω) (assertion : σ → Prop) : Prop :=
  ∀ s later, contract.rely who s later → contract.invariant later → assertion s → assertion later

variable {serve} {contract} {who : ω} {post : β → σ → Prop}

theorem upholds_of_later {prog : Prog κ answer β} {s : σ}
    (each : ∀ later, contract.rely who s later → contract.invariant later →
      Upholds serve contract who post prog later) : Upholds serve contract who post prog s := by
  cases prog with
  | ret value => exact fun later moved kept => each later moved kept later (contract.refl who later) kept
  | call asked next =>
    exact fun later moved kept => each later moved kept later (contract.refl who later) kept

theorem upholds_later {prog : Prog κ answer β} {s later : σ}
    (holds : Upholds serve contract who post prog s) (moved : contract.rely who s later) :
    Upholds serve contract who post prog later := by
  cases prog with
  | ret value => exact fun last more => holds last (contract.trans who _ _ _ moved more)
  | call asked next => exact fun last more => holds last (contract.trans who _ _ _ moved more)

theorem upholds_pure (value : β) (s : σ) (assertion : σ → Prop)
    (stable : Stable contract who assertion) (now : assertion s)
    (holds : ∀ s, contract.invariant s → assertion s → post value s) :
    Upholds serve contract who post (pure value) s :=
  fun later moved kept => holds later kept (stable s later moved kept now)

theorem upholds_request (asked : κ) (next : answer asked → Prog κ answer β) (s : σ)
    (assertion : σ → Prop) (stable : Stable contract who assertion) (now : assertion s)
    (served : ∀ s, contract.invariant s → assertion s → contract.pending who asked s ∧
      ∀ reply after, serve who s asked reply = some after →
        contract.invariant after ∧ (∀ other, other ≠ who → contract.rely other s after) ∧
        Upholds serve contract who post (next reply) after) :
    Upholds serve contract who post (request asked >>= next) s :=
  fun later moved kept => served later kept (stable s later moved kept now)

theorem upholds_bind {middle : γ → σ → Prop} (first : Prog κ answer γ) (second : γ → Prog κ answer β)
    (s : σ) (before : Upholds serve contract who middle first s)
    (after : ∀ value s, contract.invariant s → middle value s →
      Upholds serve contract who post (second value) s) :
    Upholds serve contract who post (first >>= second) s := by
  change Upholds serve contract who post (first.bind second) s
  induction first generalizing s with
  | ret value =>
    apply upholds_of_later
    intro later moved kept
    exact after value later kept (before later moved kept)
  | call asked next ih =>
    intro later moved kept
    obtain ⟨pending,replies⟩ := before later moved kept
    refine ⟨pending,?_⟩
    intro reply next served
    obtain ⟨keeps,others,rest⟩ := replies reply next served
    exact ⟨keeps,others,ih reply next rest⟩

theorem upholds_rounds (body : Nat → Prog κ answer PUnit) (assertion : Nat → σ → Prop)
    (stable : ∀ i, Stable contract who (assertion i)) (count : Nat)
    (round : ∀ i < count, ∀ s, contract.invariant s → assertion i s →
      Upholds serve contract who (fun _ => assertion (i+1)) (body i) s)
    (s : σ) (initial : assertion 0 s) :
    Upholds serve contract who (fun _ => assertion count) ((List.range count).forM body) s := by
  have general (left start : Nat) (bound : start + left = count) (s : σ) (now : assertion start s) :
      Upholds serve contract who (fun _ => assertion count) ((List.range' start left).forM body) s := by
    induction left generalizing start s with
    | zero =>
      obtain rfl : start = count := bound
      exact fun later moved kept => stable start s later moved kept now
    | succ left ih =>
      apply upholds_of_later
      intro later moved kept
      have first := round start (by omega) later kept (stable start s later moved kept now)
      exact upholds_bind (body start) _ later first (fun _ s _ => ih (start+1) (by omega) s)
  rw [List.range_eq_range']
  exact general count 0 (by omega) s initial

/-- A stretch of calls that leave an assertion alone. -/
theorem upholds_only (allowed : κ → Prop) (assertion : σ → Prop) (stable : Stable contract who assertion)
    (skips : ∀ asked s, allowed asked → contract.invariant s → assertion s → contract.pending who asked s ∧
      ∀ reply after, serve who s asked reply = some after →
        contract.invariant after ∧ (∀ other, other ≠ who → contract.rely other s after) ∧ assertion after)
    (prog : Prog κ answer β) (only : Only allowed prog) (s : σ) (now : assertion s) :
    Upholds serve contract who (fun _ => assertion) prog s := by
  induction prog generalizing s with
  | ret value => exact fun later moved kept => stable s later moved kept now
  | call asked next ih =>
    intro later moved kept
    obtain ⟨pending,replies⟩ := skips asked later only.1 kept (stable s later moved kept now)
    refine ⟨pending,?_⟩
    intro reply after served
    obtain ⟨keeps,others,holds⟩ := replies reply after served
    exact ⟨keeps,others,ih reply (only.2 reply) after holds⟩

/-! Parties that each uphold the contract uphold it together. -/

variable (serve) (contract)

def Holds (world : World ω answer α σ) : Prop :=
  contract.invariant world.shared ∧
    ∀ who, Upholds serve contract who (contract.post who) (world.progs who) world.shared

theorem step_holds [DecidableEq ω] (world : World ω answer α σ) (action : Action ω answer)
    (next : World ω answer α σ) (holds : Holds serve contract world)
    (taken : step serve world action = some next) : Holds serve contract next := by
  obtain ⟨asked,rest,prog,served,progs⟩ := step_some serve world next action taken
  have acting := holds.2 action.who
  rw [prog] at acting
  obtain ⟨_,replies⟩ := acting world.shared (contract.refl _ _) holds.1
  obtain ⟨keeps,others,after⟩ := replies _ next.shared served
  refine ⟨keeps,?_⟩
  intro who
  rw [progs]
  by_cases same : who = action.who
  · subst same
    rw [Function.update_self]
    exact after
  · rw [Function.update_of_ne same]
    exact upholds_later (holds.2 who) (others who same)

theorem run_holds [DecidableEq ω] (actions : List (Action ω answer)) (world final : World ω answer α σ)
    (holds : Holds serve contract world) (computed : run (step serve) actions world = some final) :
    Holds serve contract final :=
  run_invariant (step serve) (Holds serve contract) (step_holds serve contract) actions world final holds
    computed

variable {serve} {contract}

theorem holds_returned {world : World ω answer α σ} (holds : Holds serve contract world) (who : ω)
    (value : α who) (returned : world.progs who = .ret value) : contract.post who value world.shared := by
  have upheld := holds.2 who
  rw [returned] at upheld
  exact upheld world.shared (contract.refl _ _) holds.1

theorem holds_pending {world : World ω answer α σ} (holds : Holds serve contract world) (who : ω)
    (asked : κ) (next : answer asked → Prog κ answer (α who))
    (prog : world.progs who = .call asked next) : contract.pending who asked world.shared := by
  have upheld := holds.2 who
  rw [prog] at upheld
  exact (upheld world.shared (contract.refl _ _) holds.1).1

end

/-! A semaphore as the number of its posts and of the waits that have returned. -/

section
variable {ι : Type} [DecidableEq ι] (posts waits : ι → Nat) (sem : ι) (passed : ∀ other, waits other ≤ posts other)
include passed

theorem passed_post (other : ι) : waits other ≤ Function.update posts sem (posts sem+1) other := by
  by_cases same : other = sem
  · subst same
    rw [Function.update_self]
    exact Nat.le_succ_of_le (passed other)
  · rw [Function.update_of_ne same]
    exact passed other

theorem passed_wait (free : waits sem < posts sem) (other : ι) :
    Function.update waits sem (waits sem+1) other ≤ posts other := by
  by_cases same : other = sem
  · subst same
    rw [Function.update_self]
    exact free
  · rw [Function.update_of_ne same]
    exact passed other

end

/-! No run goes on forever. -/

section
variable {β γ : Type}

/-- Whatever is answered, the program makes at most so many calls. -/
def Within : Prog κ answer β → Nat → Prop
  | .ret _, _ => True
  | .call _ next, bound => 0 < bound ∧ ∀ reply, Within (next reply) (bound-1)

theorem within_mono (prog : Prog κ answer β) (bound larger : Nat) (order : bound ≤ larger)
    (within : Within prog bound) : Within prog larger := by
  induction prog generalizing bound larger with
  | ret value => trivial
  | call asked next ih =>
    exact ⟨by have positive := within.1; omega,fun reply => ih reply _ _ (by omega) (within.2 reply)⟩

theorem within_pure (value : β) (bound : Nat) : Within (pure value : Prog κ answer β) bound := trivial

theorem within_request (asked : κ) (next : answer asked → Prog κ answer β) (bound : Nat)
    (rest : ∀ reply, Within (next reply) bound) : Within (request asked >>= next) (bound+1) :=
  ⟨by omega,rest⟩

theorem within_bind (first : Prog κ answer γ) (second : γ → Prog κ answer β) (bound rest : Nat)
    (before : Within first bound) (after : ∀ value, Within (second value) rest) :
    Within (first >>= second) (bound+rest) := by
  change Within (first.bind second) (bound+rest)
  induction first generalizing bound with
  | ret value => exact within_mono _ rest _ (by omega) (after value)
  | call asked next ih =>
    obtain ⟨positive,each⟩ := before
    refine ⟨by omega,fun reply => ?_⟩
    have inner := ih reply (bound-1) (each reply)
    rwa [show bound + rest - 1 = bound - 1 + rest from by omega]

theorem within_ite {condition : Prop} [Decidable condition] (first second : Prog κ answer β) (bound : Nat)
    (yes : Within first bound) (no : Within second bound) :
    Within (if condition then first else second) bound := by
  split
  · exact yes
  · exact no

theorem within_forM {ι : Type} (body : ι → Prog κ answer PUnit) (bound : Nat)
    (each : ∀ i, Within (body i) bound) (list : List ι) :
    Within (list.forM body) (list.length*bound) := by
  induction list with
  | nil => trivial
  | cons i rest ih =>
    rw [List.length_cons,Nat.succ_mul,Nat.add_comm]
    exact within_bind (body i) _ bound _ (each i) (fun _ => ih)

theorem run_within [DecidableEq ω] [Fintype ω] (actions : List (Action ω answer))
    (world final : World ω answer α σ) (bound : ω → Nat)
    (within : ∀ who, Within (world.progs who) (bound who))
    (computed : run (step serve) actions world = some final) : actions.length ≤ ∑ who, bound who := by
  induction actions generalizing world bound with
  | nil => simp
  | cons action rest ih =>
    obtain ⟨next,taken,computed⟩ := Option.bind_eq_some_iff.mp computed
    obtain ⟨asked,left,prog,_,progs⟩ := step_some serve world next action taken
    have acting := within action.who
    rw [prog] at acting
    obtain ⟨positive,each⟩ := acting
    have shorter := ih next (Function.update bound action.who (bound action.who - 1)) ?_ computed
    · have sum : ∑ who, Function.update bound action.who (bound action.who - 1) who + 1 = ∑ who, bound who := by
        rw [Finset.sum_update_of_mem (Finset.mem_univ _),
          ← Finset.add_sum_erase Finset.univ bound (Finset.mem_univ action.who),Finset.sdiff_singleton_eq_erase]
        omega
      rw [List.length_cons]
      omega
    · intro who
      rw [progs]
      by_cases same : who = action.who
      · subst same
        rw [Function.update_self,Function.update_self]
        exact each _
      · rw [Function.update_of_ne same,Function.update_of_ne same]
        exact within who

end
end Ostest.Lib.Threads
