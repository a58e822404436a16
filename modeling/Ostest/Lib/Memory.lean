import Mathlib.Data.List.Basic

/-! Flat memory over any kind of cell: stores of a run of cells, fills, and the
C library functions that write through them. -/
namespace Ostest.Lib.Memory

variable {β : Type}

def store (memory : Nat → β) (start : Nat) (cells : List β) : Nat → β :=
  fun address => if address < start then memory address
    else (cells[address-start]?).getD (memory address)

/-- memset. -/
def fill (memory : Nat → β) (start length : Nat) (value : β) : Nat → β :=
  store memory start (List.replicate length value)

def load (memory : Nat → β) (start length : Nat) : List β :=
  (List.range length).map (fun offset => memory (start+offset))

theorem store_below (memory : Nat → β) (start : Nat) (cells : List β) (address : Nat)
    (below : address < start) : store memory start cells address = memory address := by
  simp [store,below]

theorem store_above (memory : Nat → β) (start : Nat) (cells : List β) (address : Nat)
    (above : start+cells.length ≤ address) : store memory start cells address = memory address := by
  have outside : cells[address-start]? = none := List.getElem?_eq_none (by omega)
  simp [store,outside]

theorem store_inside (memory : Nat → β) (start : Nat) (cells : List β) (offset : Nat)
    (bound : offset < cells.length) : store memory start cells (start+offset) = cells[offset] := by
  rw [store,if_neg (by omega),Nat.add_sub_cancel_left,List.getElem?_eq_getElem bound]
  rfl

theorem store_cons (memory : Nat → β) (start : Nat) (cell : β) (cells : List β) :
    store (store memory start [cell]) (start+1) cells = store memory start (cell :: cells) := by
  funext address
  simp only [store]
  rcases Nat.lt_trichotomy address start with below | same | above
  · simp [below,Nat.lt_succ_of_lt below]
  · simp [same]
  · obtain ⟨offset,rfl⟩ := Nat.exists_eq_add_of_lt above
    have inside : start+offset+1-start = offset+1 := by omega
    have next : start+offset+1-(start+1) = offset := by omega
    rw [if_neg (by omega),if_neg (by omega),if_neg (by omega),inside,next]
    simp

theorem store_nil (memory : Nat → β) (start : Nat) : store memory start [] = memory := by
  funext address
  simp [store]

theorem store_append (memory : Nat → β) (start : Nat) (first second : List β) :
    store (store memory start first) (start+first.length) second = store memory start (first ++ second) := by
  induction first generalizing memory start with
  | nil => rw [store_nil,List.length_nil,Nat.add_zero,List.nil_append]
  | cons cell cells ih =>
    have next : start+(cell :: cells).length = start+1+cells.length := by
      rw [List.length_cons]
      omega
    rw [← store_cons,next,ih,store_cons,List.cons_append]

theorem fill_inside (memory : Nat → β) (start length : Nat) (value : β) (address : Nat)
    (low : start ≤ address) (high : address < start+length) :
    fill memory start length value address = value := by
  obtain ⟨offset,rfl⟩ := Nat.exists_eq_add_of_le low
  rw [fill,store_inside _ _ _ offset (by simp; omega),List.getElem_replicate]

theorem fill_outside (memory : Nat → β) (start length : Nat) (value : β) (address : Nat)
    (outside : address < start ∨ start+length ≤ address) :
    fill memory start length value address = memory address := by
  rcases outside with below | above
  · exact store_below _ _ _ _ below
  · exact store_above _ _ _ _ (by simpa using above)

theorem load_store (memory : Nat → β) (start : Nat) (cells : List β) :
    load (store memory start cells) start cells.length = cells := by
  apply List.ext_getElem
  · simp [load]
  · intro offset left right
    simp [load,store_inside memory start cells offset right]

theorem load_length (memory : Nat → β) (start length : Nat) : (load memory start length).length = length := by
  rw [load,List.length_map,List.length_range]

theorem load_add (memory : Nat → β) (start first second : Nat) :
    load memory start (first+second) = load memory start first ++ load memory (start+first) second := by
  simp [load,List.range_add,Nat.add_assoc,Function.comp_def]

theorem load_succ (memory : Nat → β) (start length : Nat) :
    load memory start (length+1) = memory start :: load memory (start+1) length := by
  rw [Nat.add_comm length 1,load_add]
  rfl

theorem mem_load (memory : Nat → β) (start length : Nat) (value : β) :
    value ∈ load memory start length ↔ ∃ offset < length, memory (start+offset) = value := by
  simp only [load,List.mem_map,List.mem_range]

theorem mem_load_store (memory : Nat → β) (cells : List β) (length : Nat)
    (inside : cells.length ≤ length) (value : β) :
    value ∈ load (store memory 0 cells) 0 length ↔
      value ∈ cells ∨ ∃ address, cells.length ≤ address ∧ address < length ∧ memory address = value := by
  obtain ⟨rest,rfl⟩ := Nat.exists_eq_add_of_le inside
  rw [load_add,load_store,List.mem_append]
  apply or_congr_right
  rw [mem_load]
  constructor
  · rintro ⟨offset,bound,rfl⟩
    refine ⟨cells.length+offset,by omega,by omega,?_⟩
    rw [store_above memory 0 cells _ (by omega)]
    simp
  · rintro ⟨address,low,high,rfl⟩
    obtain ⟨offset,rfl⟩ := Nat.exists_eq_add_of_le low
    refine ⟨offset,by omega,?_⟩
    rw [store_above memory 0 cells _ (by omega)]
    simp

theorem load_congr (before after : Nat → β) (start length : Nat)
    (same : ∀ offset < length, after (start+offset) = before (start+offset)) :
    load after start length = load before start length := by
  apply List.map_congr_left
  intro offset member
  exact same offset (List.mem_range.mp member)

/-! snprintf, and the strings it leaves in memory. -/

/-- snprintf of a text: the cells after the call. It stores at most `size-1`
characters and a NUL; its value is the length of the whole text. -/
def snprintf (memory : Nat → Char) (start size : Nat) (text : List Char) : Nat → Char :=
  if size = 0 then memory else store memory start (text.take (size-1) ++ ['\x00'])

def cString (memory : Nat → Char) (start length : Nat) : List Char :=
  (load memory start length).takeWhile (· != '\x00')

theorem snprintf_below (memory : Nat → Char) (start size : Nat) (text : List Char) (address : Nat)
    (below : address < start) : snprintf memory start size text address = memory address := by
  unfold snprintf
  split
  · rfl
  · exact store_below _ _ _ _ below

theorem snprintf_above (memory : Nat → Char) (start size : Nat) (text : List Char) (address : Nat)
    (above : start+size ≤ address) : snprintf memory start size text address = memory address := by
  unfold snprintf
  split
  · rfl
  · apply store_above
    simp only [List.length_append,List.length_take,List.length_singleton]
    omega

theorem load_snprintf (memory : Nat → Char) (start size : Nat) (text : List Char) (positive : 0 < size) :
    load (snprintf memory start size text) start ((text.take (size-1)).length+1) =
      text.take (size-1) ++ ['\x00'] := by
  have stored := load_store memory start (text.take (size-1) ++ ['\x00'])
  rw [snprintf,if_neg (by omega)]
  simpa using stored

theorem cString_snprintf (memory : Nat → Char) (start size : Nat) (text : List Char)
    (plain : '\x00' ∉ text) (fits : text.length < size) :
    cString (snprintf memory start size text) start size = text := by
  have whole : text.take (size-1) = text := List.take_of_length_le (by omega)
  have printed := load_snprintf memory start size text (by omega)
  have cells : size = text.length+1+(size-(text.length+1)) := by omega
  have kept : ∀ c ∈ text, (c != '\x00') = true := by
    intro c member
    exact bne_iff_ne.mpr (ne_of_mem_of_not_mem member plain)
  rw [whole] at printed
  generalize snprintf memory start size text = after at printed
  rw [cString,cells,load_add,printed,List.append_assoc,List.takeWhile_append_of_pos kept]
  simp

end Ostest.Lib.Memory
