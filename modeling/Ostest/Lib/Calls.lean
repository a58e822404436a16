import Mathlib.Data.List.Basic

/-! Programs that make calls and go on with what they are answered, whatever
that is. A run is the list of its calls with their answers. -/
namespace Ostest.Lib.Calls

/-- What is left to do before an `α` is returned. `answer` gives for each
request the type of its answers. -/
inductive Prog (κ : Type) (answer : κ → Type) (α : Type) where
  | ret (value : α)
  | call (request : κ) (next : answer request → Prog κ answer α)

variable {κ : Type} {answer : κ → Type} {α β : Type}

def Prog.bind : Prog κ answer α → (α → Prog κ answer β) → Prog κ answer β
  | .ret value, f => f value
  | .call request next, f => .call request (fun reply => (next reply).bind f)

instance : Monad (Prog κ answer) where
  pure := .ret
  bind := .bind

def request (asked : κ) : Prog κ answer (answer asked) := .call asked .ret

abbrev Event (answer : κ → Type) := (asked : κ) × answer asked

/-- The complete runs of a program: one for every way its calls can be answered. -/
inductive Runs : Prog κ answer α → List (Event answer) → α → Prop
  | ret (value) : Runs (.ret value) [] value
  | call (asked next reply trace value) (rest : Runs (next reply) trace value) :
      Runs (.call asked next) (⟨asked,reply⟩ :: trace) value

@[simp]
theorem runs_pure (value result : α) (trace : List (Event answer)) :
    Runs (pure value : Prog κ answer α) trace result ↔ trace = [] ∧ result = value := by
  constructor
  · intro runs
    cases runs
    exact ⟨rfl,rfl⟩
  · rintro ⟨rfl,rfl⟩
    exact .ret _

theorem runs_call (asked : κ) (next : answer asked → Prog κ answer α) (trace : List (Event answer))
    (value : α) :
    Runs (.call asked next) trace value ↔
      ∃ reply rest, trace = ⟨asked,reply⟩ :: rest ∧ Runs (next reply) rest value := by
  constructor
  · intro runs
    cases runs with
    | call _ _ reply trace _ rest => exact ⟨reply,trace,rfl,rest⟩
  · rintro ⟨reply,rest,rfl,runs⟩
    exact .call _ _ _ _ _ runs

@[simp]
theorem runs_request_bind (asked : κ) (next : answer asked → Prog κ answer α)
    (trace : List (Event answer)) (value : α) :
    Runs (request asked >>= next) trace value ↔
      ∃ reply rest, trace = ⟨asked,reply⟩ :: rest ∧ Runs (next reply) rest value :=
  runs_call asked next trace value

theorem runs_request_cons (asked : κ) (next : answer asked → Prog κ answer α) (reply : answer asked)
    (rest : List (Event answer)) (value : α) :
    Runs (request asked >>= next) (⟨asked,reply⟩ :: rest) value ↔ Runs (next reply) rest value := by
  constructor
  · intro runs
    cases runs with
    | call _ _ _ _ _ rest => exact rest
  · intro runs
    exact .call _ _ _ _ _ runs

theorem runs_bind (first : Prog κ answer α) (second : α → Prog κ answer β)
    (trace : List (Event answer)) (value : β) :
    Runs (first >>= second) trace value ↔
      ∃ before middle after, trace = before ++ after ∧ Runs first before middle ∧
        Runs (second middle) after value := by
  change Runs (first.bind second) trace value ↔ _
  induction first generalizing trace with
  | ret result =>
    constructor
    · intro runs
      exact ⟨[],result,trace,rfl,.ret _,runs⟩
    · rintro ⟨before,middle,after,rfl,runs,rest⟩
      cases runs
      exact rest
  | call asked next ih =>
    rw [Prog.bind,runs_call]
    constructor
    · rintro ⟨reply,rest,rfl,runs⟩
      obtain ⟨before,middle,after,rfl,runs,later⟩ := (ih reply rest).mp runs
      exact ⟨⟨asked,reply⟩ :: before,middle,after,rfl,.call _ _ _ _ _ runs,later⟩
    · rintro ⟨before,middle,after,rfl,runs,later⟩
      obtain ⟨reply,rest,rfl,inner⟩ := (runs_call asked next before middle).mp runs
      exact ⟨reply,rest ++ after,rfl,(ih reply _).mpr ⟨rest,middle,after,rfl,inner,later⟩⟩

theorem runs_last (asked : κ) (value result : α) (trace : List (Event answer))
    (runs : Runs (do let _ ← request asked; return value) trace result) :
    (∃ reply, trace = [⟨asked,reply⟩]) ∧ result = value := by
  obtain ⟨reply,_,rfl,after⟩ := (runs_request_bind _ _ _ _).mp runs
  obtain ⟨rfl,rfl⟩ := (runs_pure _ _ _).mp after
  exact ⟨⟨reply,rfl⟩,rfl⟩

/-- A check that ends the program or lets it go on. -/
theorem runs_check (stop : Prop) [Decidable stop] (early : α) (rest : Prog κ answer α)
    (trace : List (Event answer)) (result : α)
    (runs : Runs (if stop then return early else rest) trace result) :
    (stop ∧ trace = [] ∧ result = early) ∨ (¬stop ∧ Runs rest trace result) := by
  by_cases stops : stop
  · rw [if_pos stops] at runs
    exact .inl ⟨stops,(runs_pure _ _ _).mp runs⟩
  · rw [if_neg stops] at runs
    exact .inr ⟨stops,runs⟩

/-- What a loop leaves on record is what its rounds leave, one after the other. -/
theorem runs_forM {ι ε : Type} (record : Event answer → List ε) (body : ι → Prog κ answer PUnit)
    (left : ι → List ε)
    (round : ∀ i trace value, Runs (body i) trace value → trace.flatMap record = left i)
    (list : List ι) (trace : List (Event answer)) (value : PUnit) (runs : Runs (list.forM body) trace value) :
    trace.flatMap record = list.flatMap left := by
  induction list generalizing trace with
  | nil =>
    obtain ⟨rfl,_⟩ := (runs_pure _ _ _).mp runs
    rfl
  | cons i list ih =>
    obtain ⟨before,_,after,rfl,first,rest⟩ := (runs_bind _ _ _ _).mp runs
    rw [List.flatMap_append,round i before _ first,ih after rest,List.flatMap_cons]

/-- However it is answered, the program asks for nothing else. -/
def Only (allowed : κ → Prop) : Prog κ answer α → Prop
  | .ret _ => True
  | .call asked next => allowed asked ∧ ∀ reply, Only allowed (next reply)

section
variable {allowed : κ → Prop}

theorem only_pure (value : α) : Only allowed (pure value : Prog κ answer α) := trivial

theorem only_request_bind {asked : κ} {next : answer asked → Prog κ answer α} (first : allowed asked)
    (rest : ∀ reply, Only allowed (next reply)) : Only allowed (request asked >>= next) := ⟨first,rest⟩

theorem only_bind {first : Prog κ answer α} {second : α → Prog κ answer β} (one : Only allowed first)
    (other : ∀ value, Only allowed (second value)) : Only allowed (first >>= second) := by
  change Only allowed (first.bind second)
  induction first with
  | ret value => exact other value
  | call asked next ih => exact ⟨one.1,fun reply => ih reply (one.2 reply)⟩

theorem only_ite {condition : Prop} [Decidable condition] {first second : Prog κ answer α}
    (yes : Only allowed first) (no : Only allowed second) :
    Only allowed (if condition then first else second) := by
  split
  · exact yes
  · exact no

theorem only_forM {ι : Type} {body : ι → Prog κ answer PUnit} (each : ∀ i, Only allowed (body i))
    (list : List ι) : Only allowed (list.forM body) := by
  induction list with
  | nil => trivial
  | cons i list ih => exact only_bind (each i) (fun _ => ih)

theorem Runs.only {prog : Prog κ answer α} {trace : List (Event answer)} {value : α}
    (runs : Runs prog trace value) (only : Only allowed prog) : ∀ event ∈ trace, allowed event.1 := by
  induction runs with
  | ret value => exact fun _ member => absurd member List.not_mem_nil
  | call asked next reply trace value rest ih =>
    intro event member
    rcases List.mem_cons.mp member with rfl | later
    · exact only.1
    · exact ih (only.2 reply) event later

end

theorem Runs.unique {prog : Prog κ answer α} {trace : List (Event answer)} {first second : α}
    (one : Runs prog trace first) (other : Runs prog trace second) : first = second := by
  induction one with
  | ret value =>
    cases other
    rfl
  | call asked next reply trace value rest ih =>
    cases other with
    | call _ _ _ _ _ again => exact ih again

/-- The run in which `reply` answers, told how many calls came before. -/
def play (reply : Nat → (asked : κ) → answer asked) : Nat → Prog κ answer α → List (Event answer) × α
  | _, .ret value => ([],value)
  | count, .call asked next =>
    let (trace,value) := play reply (count+1) (next (reply count asked))
    (⟨asked,reply count asked⟩ :: trace,value)

theorem runs_play (reply : Nat → (asked : κ) → answer asked) (count : Nat) (prog : Prog κ answer α) :
    Runs prog (play reply count prog).1 (play reply count prog).2 := by
  induction prog generalizing count with
  | ret value => exact .ret value
  | call asked next ih => exact .call asked next _ _ _ (ih (reply count asked) (count+1))

/-- A run whose answers are those of `reply` is the one that it plays. -/
theorem play_of_runs (reply : Nat → (asked : κ) → answer asked) (count : Nat) {prog : Prog κ answer α}
    {events : List (Event answer)} {value : α} (runs : Runs prog events value)
    (answered : ∀ k event, events[k]? = some event → event.2 = reply (count+k) event.1) :
    play reply count prog = (events,value) := by
  induction runs generalizing count with
  | ret value => rfl
  | call asked next given trace value rest ih =>
    have first : given = reply count asked := answered 0 _ rfl
    have later := ih (count+1) (fun k event present => by
      rw [Nat.add_right_comm]
      exact answered (k+1) event present)
    subst first
    simp only [play,later]

end Ostest.Lib.Calls
