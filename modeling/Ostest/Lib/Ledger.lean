import Mathlib.Data.List.Perm.Basic
import Mathlib.Logic.Function.Basic

/-! Records of acquired and released resources. -/
namespace Ostest.Lib.Ledger

inductive Event (ρ : Type) where
  | acquire (resource : ρ)
  | release (resource : ρ)
  deriving DecidableEq

variable {ρ : Type} [DecidableEq ρ]

/-- What is held after one event; `none` when a held resource is acquired again
or one is released that is not held. -/
def apply (held : ρ → Bool) : Event ρ → Option (ρ → Bool)
  | .acquire resource => if held resource then none else some (Function.update held resource true)
  | .release resource => if held resource then some (Function.update held resource false) else none

def play (events : List (Event ρ)) (held : ρ → Bool) : Option (ρ → Bool) := events.foldlM apply held

/-- Everything that was acquired has been released exactly once, and nothing was
released that was not acquired. -/
def Settled (events : List (Event ρ)) : Prop := play events (fun _ => false) = some (fun _ => false)

theorem play_append (first second : List (Event ρ)) (held : ρ → Bool) :
    play (first ++ second) held = (play first held).bind (play second) := by
  simp only [play,List.foldlM_append]
  rfl

theorem play_cons (event : Event ρ) (rest : List (Event ρ)) (held : ρ → Bool) :
    play (event :: rest) held = (apply held event).bind (play rest) := by
  simp only [play,List.foldlM_cons]
  rfl

theorem play_held (events : List (Event ρ)) (held after : ρ → Bool) (resource : ρ)
    (played : play events held = some after) (owned : after resource = true) :
    held resource = true ∨ .acquire resource ∈ events := by
  induction events generalizing held with
  | nil =>
    cases Option.some.inj played
    exact .inl owned
  | cons event rest ih =>
    rw [play_cons] at played
    obtain ⟨next,applied,played⟩ := Option.bind_eq_some_iff.mp played
    rcases ih next played with owned | member
    · cases event with
      | acquire other =>
        by_cases same : resource = other
        · subst same
          exact .inr (by simp)
        · have unchanged : next resource = held resource := by
            simp only [apply] at applied
            split at applied
            · contradiction
            · cases Option.some.inj applied
              exact Function.update_of_ne same _ _
          exact .inl (unchanged ▸ owned)
      | release other =>
        simp only [apply] at applied
        split at applied
        · cases Option.some.inj applied
          by_cases same : resource = other
          · subst same
            simp at owned
          · rw [Function.update_of_ne same] at owned
            exact .inl owned
        · contradiction
    · exact .inr (List.mem_cons_of_mem _ member)

theorem not_settled (before after : List (Event ρ)) (resource : ρ)
    (unowned : .acquire resource ∉ before) :
    ¬Settled (before ++ .release resource :: after) := by
  intro settled
  rw [Settled,play_append] at settled
  obtain ⟨held,played,rest⟩ := Option.bind_eq_some_iff.mp settled
  rw [play_cons] at rest
  obtain ⟨next,applied,_⟩ := Option.bind_eq_some_iff.mp rest
  have owned : held resource = true := by
    by_contra free
    simp [apply,free] at applied
  rcases play_held before (fun _ => false) held resource played owned with absurd | member
  · contradiction
  · exact unowned member

theorem play_acquires (resources : List ρ) (held : ρ → Bool) (distinct : resources.Nodup)
    (free : ∀ resource ∈ resources, held resource = false) :
    play (resources.map .acquire) held = some (fun r => held r || decide (r ∈ resources)) := by
  induction resources generalizing held with
  | nil => simp [play]
  | cons first rest ih =>
    obtain ⟨absent,distinct⟩ := List.nodup_cons.mp distinct
    have still : ∀ r ∈ rest, Function.update held first true r = false := by
      intro r member
      rw [Function.update_of_ne (ne_of_mem_of_not_mem member absent)]
      exact free r (List.mem_cons_of_mem _ member)
    rw [List.map_cons,play_cons,apply,free first (by simp)]
    simp only [Bool.false_eq_true,if_false,Option.bind_some]
    rw [ih _ distinct still]
    congr 1
    funext r
    by_cases same : r = first <;> simp [same]

theorem play_releases (resources : List ρ) (held : ρ → Bool) (distinct : resources.Nodup)
    (owned : ∀ resource ∈ resources, held resource = true) :
    play (resources.map .release) held = some (fun r => held r && decide (r ∉ resources)) := by
  induction resources generalizing held with
  | nil => simp [play]
  | cons first rest ih =>
    obtain ⟨absent,distinct⟩ := List.nodup_cons.mp distinct
    have still : ∀ r ∈ rest, Function.update held first false r = true := by
      intro r member
      rw [Function.update_of_ne (ne_of_mem_of_not_mem member absent)]
      exact owned r (List.mem_cons_of_mem _ member)
    rw [List.map_cons,play_cons,apply,owned first (by simp)]
    simp only [if_true,Option.bind_some]
    rw [ih _ distinct still]
    congr 1
    funext r
    by_cases same : r = first <;> simp [same]

/-! Exactly the resources of a list are held. -/

def holding (list : List ρ) : ρ → Bool := fun resource => decide (resource ∈ list)

theorem play_acquire_more (list more : List ρ) (distinct : (list ++ more).Nodup) :
    play (more.map .acquire) (holding list) = some (holding (list ++ more)) := by
  obtain ⟨_,fresh,apart⟩ := List.nodup_append.mp distinct
  have free : ∀ resource ∈ more, holding list resource = false := by
    intro resource member
    refine decide_eq_false ?_
    intro held
    exact apart resource held resource member rfl
  rw [play_acquires more _ fresh free]
  congr 1
  funext resource
  simp [holding]

theorem play_release_some (list gone stay : List ρ) (distinct : list.Nodup)
    (parts : list.Perm (gone ++ stay)) :
    play (gone.map .release) (holding list) = some (holding stay) := by
  obtain ⟨each,_,apart⟩ := List.nodup_append.mp (parts.nodup_iff.mp distinct)
  have owned : ∀ resource ∈ gone, holding list resource = true := by
    intro resource member
    exact decide_eq_true (parts.mem_iff.mpr (List.mem_append_left _ member))
  rw [play_releases gone _ each owned]
  congr 1
  funext resource
  by_cases member : resource ∈ gone
  · have absent : resource ∉ stay := fun kept => apart resource member resource kept rfl
    simp [holding,member,absent]
  · simp [holding,parts.mem_iff,member]

theorem settled_iff (events : List (Event ρ)) (left : List ρ)
    (played : play events (holding []) = some (holding left)) : Settled events ↔ left = [] := by
  have start : holding ([] : List ρ) = fun _ => false := by
    funext resource
    simp [holding]
  rw [Settled,← start,played,Option.some.injEq]
  constructor
  · intro same
    rw [List.eq_nil_iff_forall_not_mem]
    intro resource member
    have held := congrFun same resource
    simp [holding,member] at held
  · rintro rfl
    rfl

theorem settled_of_perm (acquired released : List ρ) (distinct : acquired.Nodup)
    (same : released.Perm acquired) :
    Settled (acquired.map .acquire ++ released.map .release) := by
  refine (settled_iff _ [] ?_).mpr rfl
  rw [play_append,play_acquire_more [] acquired distinct,Option.bind_some,List.nil_append]
  exact play_release_some acquired released [] distinct (by simpa using same.symm)

end Ostest.Lib.Ledger
