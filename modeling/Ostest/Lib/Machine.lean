import Ostest.Lib.Calls

/-! Programs that make their calls through another interface, and programs that are
answered by a machine with a state. -/
namespace Ostest.Lib.Machine
open Lib.Calls

variable {κ : Type} {answer : κ → Type} {α β : Type}

/-- The program with each call made in the way that `calls` gives for it. -/
def through {κ' : Type} {answer' : κ' → Type} (calls : (asked : κ) → Prog κ' answer' (answer asked)) :
    Prog κ answer α → Prog κ' answer' α
  | .ret value => .ret value
  | .call asked next => calls asked >>= fun reply => through calls (next reply)

variable {σ : Type} (serve : σ → (asked : κ) → answer asked × σ)

def exec : σ → Prog κ answer α → α × σ
  | s, .ret value => (value,s)
  | s, .call asked next => exec (serve s asked).2 (next (serve s asked).1)

@[simp]
theorem exec_pure (s : σ) (value : α) : exec serve s (pure value) = (value,s) := rfl

@[simp]
theorem exec_request (s : σ) (asked : κ) : exec serve s (request asked) = serve s asked := rfl

@[simp]
theorem exec_bind (s : σ) (first : Prog κ answer α) (second : α → Prog κ answer β) :
    exec serve s (first >>= second) = exec serve (exec serve s first).2 (second (exec serve s first).1) := by
  induction first generalizing s with
  | ret value => rfl
  | call asked next ih => exact ih (serve s asked).1 (serve s asked).2

/-- A call made through an interface is answered by what the machine does for it. -/
theorem exec_through_request {κ' : Type} {answer' : κ' → Type} (calls : (asked : κ') → Prog κ answer (answer' asked))
    (s : σ) (asked : κ') (next : answer' asked → Prog κ' answer' α) :
    exec serve s (through calls (request asked >>= next)) =
      exec serve (exec serve s (calls asked)).2 (through calls (next (exec serve s (calls asked)).1)) :=
  exec_bind serve s (calls asked) (fun reply => through calls (next reply))

theorem runs_exec (s : σ) (prog : Prog κ answer α) : ∃ trace, Runs prog trace (exec serve s prog).1 := by
  induction prog generalizing s with
  | ret value => exact ⟨[],.ret value⟩
  | call asked next ih =>
    obtain ⟨trace,runs⟩ := ih (serve s asked).1 (serve s asked).2
    exact ⟨⟨asked,(serve s asked).1⟩ :: trace,.call asked next _ trace _ runs⟩

end Ostest.Lib.Machine
