import Mathlib.Data.List.Basic

/-! Loops that can be left through an error. -/
namespace Ostest.Lib.Loop

variable {σ ε α : Type}

theorem foldlM_ok (body : σ → α → Except ε σ) (next : σ → α → σ) (list : List α) (state : σ)
    (passes : ∀ s, ∀ a ∈ list, body s a = .ok (next s a)) :
    list.foldlM body state = .ok (list.foldl next state) := by
  induction list generalizing state with
  | nil => rfl
  | cons first rest ih =>
    rw [List.foldlM_cons,passes state first (by simp)]
    exact ih (next state first) (fun s a member => passes s a (List.mem_cons_of_mem _ member))

theorem foldlM_range (body : σ → Nat → Except ε σ) (Invariant : Nat → σ → Prop) (count : Nat)
    (advances : ∀ i < count, ∀ s, Invariant i s → ∃ t, body s i = .ok t ∧ Invariant (i+1) t)
    (state : σ) (initial : Invariant 0 state) :
    ∃ final, (List.range count).foldlM body state = .ok final ∧ Invariant count final := by
  induction count with
  | zero => exact ⟨state,rfl,initial⟩
  | succ count ih =>
    obtain ⟨before,run,holds⟩ := ih (fun i bound => advances i (by omega))
    obtain ⟨final,taken,holds⟩ := advances count (by omega) before holds
    refine ⟨final,?_,holds⟩
    rw [List.range_succ,List.foldlM_append,run]
    change [count].foldlM body before = .ok final
    simpa using taken

theorem allM_true (test : α → Option Bool) (list : List α) (all : ∀ a ∈ list, test a = some true) :
    list.allM test = some true := by
  induction list with
  | nil => rfl
  | cons first rest ih =>
    rw [List.allM,all first (by simp)]
    exact ih (fun a member => all a (List.mem_cons_of_mem _ member))

theorem foldlM_refused (body : σ → α → Except ε σ) (list : List α) (state : σ) (bad : α)
    (member : bad ∈ list) (refuses : ∀ s, ∃ e, body s bad = .error e) :
    ∃ e, list.foldlM body state = .error e := by
  induction list generalizing state with
  | nil => simp at member
  | cons first rest ih =>
    rw [List.foldlM_cons]
    cases taken : body state first with
    | error e => exact ⟨e,rfl⟩
    | ok next =>
      rcases List.mem_cons.mp member with same | member
      · subst same
        obtain ⟨e,refused⟩ := refuses state
        rw [refused] at taken
        contradiction
      · exact ih next member

/-- What the body keeps, the loop keeps, also when it is left through an error. -/
theorem foldlM_keeps (body : σ → α → Except σ σ) (Kept : σ → Prop)
    (keeps : ∀ s a, Kept s → ∀ t, body s a = .ok t ∨ body s a = .error t → Kept t)
    (list : List α) (state : σ) (kept : Kept state) (final : σ)
    (ends : list.foldlM body state = .ok final ∨ list.foldlM body state = .error final) :
    Kept final := by
  induction list generalizing state with
  | nil =>
    rcases ends with done | left
    · cases done
      exact kept
    · contradiction
  | cons first rest ih =>
    rw [List.foldlM_cons] at ends
    cases taken : body state first with
    | ok next =>
      rw [taken] at ends
      exact ih next (keeps state first kept next (.inl taken)) ends
    | error left =>
      rw [taken] at ends
      rcases ends with done | same
      · contradiction
      · cases same
        exact keeps state first kept final (.inr taken)

theorem length_foldl_set (cell : Nat → α) (count : Nat) (list : List α) :
    ((List.range count).foldl (fun cells i => cells.set i (cell i)) list).length = list.length := by
  induction count with
  | zero => rfl
  | succ count ih => rw [List.range_succ,List.foldl_append,List.foldl_cons,List.foldl_nil,List.length_set,ih]

theorem getElem?_foldl_set (cell : Nat → α) (count : Nat) (list : List α) (i : Nat)
    (inside : i < list.length) :
    ((List.range count).foldl (fun cells i => cells.set i (cell i)) list)[i]? =
      some (if i < count then cell i else list[i]) := by
  induction count with
  | zero => simp [inside]
  | succ count ih =>
    rw [List.range_succ,List.foldl_append,List.foldl_cons,List.foldl_nil]
    by_cases last : i = count
    · subst last
      rw [List.getElem?_set_self (by rwa [length_foldl_set]),if_pos (Nat.lt_succ_self i)]
    · rw [List.getElem?_set_ne (Ne.symm last),ih]
      have same : i < count ↔ i < count+1 := by omega
      simp only [same]

end Ostest.Lib.Loop
