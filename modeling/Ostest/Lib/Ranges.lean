import Mathlib.Data.List.Induction
import Mathlib.Data.List.Pairwise

/-! Values that are given to ranges of places, one range after the other. -/
namespace Ostest.Lib.Ranges

structure Range where
  first : Nat
  count : Nat
  deriving DecidableEq

def Range.covers (range : Range) (place : Nat) : Bool :=
  range.first ≤ place && place < range.first + range.count

def Range.shift (offset : Nat) (range : Range) : Range := ⟨offset + range.first,range.count⟩

theorem Range.covers_shift (offset : Nat) (range : Range) (place : Nat) :
    (range.shift offset).covers (offset + place) = range.covers place := by
  simp only [Range.covers,Range.shift,Nat.add_assoc,Nat.add_le_add_iff_left,Nat.add_lt_add_iff_left]

def Range.common (first second : Range) : Bool :=
  first.first < second.first + second.count && second.first < first.first + first.count

theorem Range.covers_iff (range : Range) (place : Nat) :
    range.covers place = true ↔ range.first ≤ place ∧ place < range.first + range.count := by
  simp [Range.covers]

theorem Range.common_iff (first second : Range) :
    first.common second = true ↔
      first.first < second.first + second.count ∧ second.first < first.first + first.count := by
  simp [Range.common]

theorem Range.common_of_covers (first second : Range) (place : Nat) (inFirst : first.covers place = true)
    (inSecond : second.covers place = true) : first.common second = true := by
  rw [Range.covers_iff] at inFirst inSecond
  rw [Range.common_iff]
  omega

theorem Range.exists_common (first second : Range) (firstFilled : 0 < first.count) (secondFilled : 0 < second.count)
    (meets : first.common second = true) : ∃ place, first.covers place = true ∧ second.covers place = true := by
  rw [Range.common_iff] at meets
  refine ⟨max first.first second.first,?_,?_⟩
  · rw [Range.covers_iff]
    omega
  · rw [Range.covers_iff]
    omega

/-- How a range lies to an older one with which it has places in common. -/
inductive Meeting where
  | same
  | covering
  | inside
  | head
  | tail
  deriving DecidableEq

def meeting (new old : Range) : Meeting :=
  let newEnd := new.first + new.count
  let oldEnd := old.first + old.count
  if new.first = old.first ∧ newEnd = oldEnd then .same
  else if new.first ≤ old.first ∧ oldEnd ≤ newEnd then .covering
  else if old.first ≤ new.first ∧ newEnd ≤ oldEnd then .inside
  else if new.first < old.first then .head
  else .tail

theorem meeting_shift (offset : Nat) (new old : Range) :
    meeting (new.shift offset) (old.shift offset) = meeting new old := by
  simp only [meeting,Range.shift,Nat.add_assoc,Nat.add_left_cancel_iff,Nat.add_le_add_iff_left,
    Nat.add_lt_add_iff_left]

variable {α : Type}

/-- The range that each place belongs to, with its value. -/
abbrev Owners (α : Type) := Nat → Option (Range × α)

def unowned : Owners α := fun _ => none

/-- Whether a range takes over what it has in common with an older one is up to the
rule; what nobody owns it takes in any case. -/
def take (rule : Meeting → Bool) (owners : Owners α) (entry : Range × α) : Owners α := fun place =>
  if entry.1.covers place && (owners place).all (fun old => rule (meeting entry.1 old.1)) then some entry
  else owners place

def takeAll (rule : Meeting → Bool) (owners : Owners α) (entries : List (Range × α)) : Owners α :=
  entries.foldl (take rule) owners

/-- The last of the ranges that cover a place. -/
def last (entries : List (Range × α)) (place : Nat) : Option (Range × α) :=
  entries.reverse.find? (fun entry => entry.1.covers place)

theorem last_some (entries : List (Range × α)) (place : Nat) (owner : Range × α)
    (found : last entries place = some owner) : owner ∈ entries ∧ owner.1.covers place = true :=
  ⟨List.mem_reverse.mp (List.mem_of_find?_eq_some found),
    List.find?_some (p := fun entry : Range × α => entry.1.covers place) found⟩

theorem last_snoc (entries : List (Range × α)) (entry : Range × α) (place : Nat) :
    last (entries ++ [entry]) place = if entry.1.covers place then some entry else last entries place := by
  rw [last,List.reverse_append,List.reverse_singleton,List.singleton_append,List.find?_cons,last]
  cases entry.1.covers place <;> rfl

theorem takeAll_mem (rule : Meeting → Bool) (entries : List (Range × α)) (place : Nat) (owner : Range × α)
    (owned : takeAll rule unowned entries place = some owner) : owner ∈ entries := by
  have step (owners : Owners α) (entries : List (Range × α)) (owned : takeAll rule owners entries place = some owner) :
      owner ∈ entries ∨ owners place = some owner := by
    induction entries generalizing owners with
    | nil => exact .inr owned
    | cons entry entries ih =>
      rcases ih _ owned with later | now
      · exact .inl (List.mem_cons_of_mem _ later)
      · rw [take] at now
        split at now
        next => exact .inl (Option.some.inj now ▸ List.mem_cons_self)
        next => exact .inr now
  rcases step unowned entries owned with member | initial
  · exact member
  · cases initial

theorem takeAll_snoc (rule : Meeting → Bool) (owners : Owners α) (entries : List (Range × α)) (entry : Range × α) :
    takeAll rule owners (entries ++ [entry]) = take rule (takeAll rule owners entries) entry := by
  rw [takeAll,List.foldl_append]
  rfl

/-- What a place belongs to depends on nothing but what it belonged to. -/
theorem takeAll_congr (rule : Meeting → Bool) (first second : Owners α) (entries : List (Range × α)) (place : Nat)
    (same : first place = second place) : takeAll rule first entries place = takeAll rule second entries place := by
  induction entries generalizing first second with
  | nil => exact same
  | cons entry entries ih =>
    refine ih _ _ ?_
    rw [take,take,same]

/-- Of ranges without common places, one that covers a place is the last that does. -/
theorem last_apart (entries : List (Range × α))
    (apart : entries.Pairwise (fun first second => first.1.common second.1 = false)) (place : Nat)
    (owner : Range × α) (member : owner ∈ entries) (covered : owner.1.covers place = true) :
    last entries place = some owner := by
  cases found : last entries place with
  | none => exact absurd covered (List.find?_eq_none.mp found owner (List.mem_reverse.mpr member))
  | some holder =>
    obtain ⟨listed,inHolder⟩ := last_some entries place holder found
    have symmetric : Std.Symm (fun first second : Range × α => first.1.common second.1 = false) := by
      constructor
      intro first second separate
      rw [← Bool.not_eq_true,Range.common_iff] at separate ⊢
      omega
    by_contra different
    have separate := apart.forall listed member (fun same => different (congrArg some same))
    rw [holder.1.common_of_covers owner.1 place inHolder covered] at separate
    contradiction

/-- Ranges without common places never have to take over. -/
theorem takeAll_apart (rule : Meeting → Bool) (entries : List (Range × α))
    (apart : entries.Pairwise (fun first second => first.1.common second.1 = false)) (place : Nat) :
    takeAll rule unowned entries place = last entries place := by
  induction entries using List.reverseRecOn with
  | nil => rfl
  | append_singleton entries entry ih =>
    obtain ⟨before,_,now⟩ := List.pairwise_append.mp apart
    rw [takeAll_snoc,last_snoc,take,ih before]
    by_cases covered : entry.1.covers place = true
    · have nobody : last entries place = none := by
        refine List.find?_eq_none.mpr (fun old member inOld => ?_)
        have meets := old.1.common_of_covers entry.1 place inOld covered
        rw [now old (List.mem_reverse.mp member) entry (List.mem_singleton.mpr rfl)] at meets
        contradiction
      simp [covered,nobody]
    · simp [covered]

/-- The new range may have places in common with the old ones, which have none with
each other and have other values. All the old ones are below the bound. -/
structure Overlaid (bound : Nat) (olds : List (Range × α)) (new : Range × α) : Prop where
  apart : olds.Pairwise (fun first second => first.1.common second.1 = false)
  filled : 0 < new.1.count
  filledOlds : ∀ old ∈ olds, 0 < old.1.count
  inside : ∀ old ∈ olds, old.1.first + old.1.count ≤ bound
  other : ∀ old ∈ olds, old.2 ≠ new.2

/-- Every place has the value of the last range exactly if the rule is right for each
of the old ranges that the new one meets. -/
theorem takeAll_last_iff (rule : Meeting → Bool) (bound : Nat) (olds : List (Range × α)) (new : Range × α)
    (overlaid : Overlaid bound olds new) :
    (∀ place < bound, (takeAll rule unowned (olds ++ [new]) place).map Prod.snd =
      (last (olds ++ [new]) place).map Prod.snd) ↔
    ∀ old ∈ olds, new.1.common old.1 = true → rule (meeting new.1 old.1) = true := by
  simp only [takeAll_snoc,last_snoc,take,takeAll_apart rule olds overlaid.apart]
  constructor
  · intro right old member meets
    obtain ⟨place,inNew,inOld⟩ := new.1.exists_common old.1 overlaid.filled (overlaid.filledOlds old member) meets
    have below : place < bound := by
      have inside := overlaid.inside old member
      rw [Range.covers_iff] at inOld
      omega
    have owner := last_apart olds overlaid.apart place old member inOld
    have judged := right place below
    rw [owner,inNew] at judged
    by_contra wrong
    simp only [Bool.true_and,Option.all_some,wrong,if_true] at judged
    exact overlaid.other old member (Option.some.inj judged)
  · intro right place _
    by_cases inNew : new.1.covers place = true
    · cases found : last olds place with
      | none => simp [inNew]
      | some old =>
        obtain ⟨listed,inOld⟩ := last_some olds place old found
        have takes := right old listed (new.1.common_of_covers old.1 place inNew inOld)
        simp [inNew,takes]
    · simp [inNew]

def shiftEntry (offset : Nat) (entry : Range × α) : Range × α := (entry.1.shift offset,entry.2)

/-- Nothing depends on where the places begin. -/
theorem takeAll_shift (rule : Meeting → Bool) (offset : Nat) (owners shifted : Owners α)
    (entries : List (Range × α))
    (agree : ∀ place, shifted (offset + place) = (owners place).map (shiftEntry offset)) (place : Nat) :
    takeAll rule shifted (entries.map (shiftEntry offset)) (offset + place) =
      (takeAll rule owners entries place).map (shiftEntry offset) := by
  induction entries generalizing owners shifted with
  | nil => exact agree place
  | cons entry entries ih =>
    refine ih _ _ ?_
    intro place
    have ruled : ((owners place).map (shiftEntry offset)).all
        (fun old => rule (meeting (entry.1.shift offset) old.1)) =
        (owners place).all (fun old => rule (meeting entry.1 old.1)) := by
      cases owners place with
      | none => rfl
      | some old => exact congrArg rule (meeting_shift offset entry.1 old.1)
    simp only [take,shiftEntry,Range.covers_shift,agree]
    rw [ruled]
    split <;> rfl

end Ostest.Lib.Ranges
