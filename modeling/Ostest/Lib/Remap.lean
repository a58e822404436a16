/-! Address spaces over any kind of cell, and a range of one that is given another
size or another place. -/
namespace Ostest.Lib.Remap

variable {α : Type}

abbrev Space (α : Type) := Nat → Option α

structure Call where
  source : Nat
  old : Nat
  new : Nat
  mayMove : Bool
  fixed : Option Nat

def Free (space : Space α) (start length : Nat) : Prop := ∀ offset < length, space (start+offset) = none

def Overlap (first length second extent : Nat) : Prop :=
  first < second+extent ∧ second < first+length

instance (first length second extent : Nat) : Decidable (Overlap first length second extent) :=
  inferInstanceAs (Decidable (_ ∧ _))

/-- The cells of the source are found at the target, as many as there is room for,
and `fresh` ones follow them. Where the source was and the target is not, there is
nothing left, or everything when the source `stays`. -/
structure Remapped (stays : Bool) (fresh : α → Prop) (space next : Space α) (call : Call) (target : Nat) : Prop where
  kept : ∀ offset, offset < call.old → offset < call.new → next (target+offset) = space (call.source+offset)
  grown : ∀ offset, call.old ≤ offset → offset < call.new → ∃ cell, next (target+offset) = some cell ∧ fresh cell
  vacated : ∀ offset < call.old, call.source+offset < target ∨ target+call.new ≤ call.source+offset →
    next (call.source+offset) = if stays then space (call.source+offset) else none
  frame : ∀ address, address < call.source ∨ call.source+call.old ≤ address →
    address < target ∨ target+call.new ≤ address → next address = space address

/-- One such space, with the same cell wherever a fresh one is needed. -/
def moved (stays : Bool) (space : Space α) (cell : α) (call : Call) (target : Nat) : Space α :=
  fun address =>
    if target ≤ address ∧ address < target+call.new then
      if address < target+call.old then space (call.source+(address-target)) else some cell
    else if call.source ≤ address ∧ address < call.source+call.old then
      if stays then space address else none
    else space address

theorem moved_remapped (stays : Bool) (fresh : α → Prop) (space : Space α) (cell : α) (isFresh : fresh cell)
    (call : Call) (target : Nat) : Remapped stays fresh space (moved stays space cell call target) call target where
  kept := by
    intro offset inOld inNew
    rw [moved,if_pos (by omega),if_pos (by omega),Nat.add_sub_cancel_left]
  grown := by
    intro offset afterOld inNew
    rw [moved,if_pos (by omega),if_neg (by omega)]
    exact ⟨cell,rfl,isFresh⟩
  vacated := by
    intro offset inOld apart
    rw [moved,if_neg (by omega),if_pos (by omega)]
  frame := by
    intro address outside apart
    rw [moved,if_neg (by omega),if_neg (by omega)]

theorem not_free (space : Space α) (start length : Nat) (positive : 0 < length) (cell : α)
    (mapped : space start = some cell) : ¬Free space start length := by
  intro empty
  have absent := empty 0 positive
  rw [Nat.add_zero,mapped] at absent
  contradiction

end Ostest.Lib.Remap
