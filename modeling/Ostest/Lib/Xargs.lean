import Ostest.Lib.Words

/-! The items that GNU xargs cuts its input into. Blanks and newlines separate
items, quotes group up to the matching quote, and a backslash takes the next
character as it is. A newline inside quotes is an error: the items before it are
still used, and the rest of the input is lost. -/
namespace Ostest.Lib.Xargs
open Lib.Words

inductive Mode where
  | space
  | item (taken : List Char)
  | quoted (quote : Char) (taken : List Char)
  | escaped (taken : List Char)

def enter (taken : List Char) (c : Char) : Mode :=
  if c = '\\' then .escaped taken
  else if c = '\'' ∨ c = '"' then .quoted c taken
  else .item (taken ++ [c])

def items : Mode → List Char → List (List Char)
  | .space, [] => []
  | .item taken, [] => [taken]
  | .quoted _ _, [] => []
  | .escaped taken, [] => [taken]
  | .space, c :: rest => if isSpace c then items .space rest else items (enter [] c) rest
  | .item taken, c :: rest => if blank c then taken :: items .space rest else items (enter taken c) rest
  | .quoted quote taken, c :: rest =>
    if c = '\n' then []
    else if c = quote then items (.item taken) rest
    else items (.quoted quote (taken ++ [c])) rest
  | .escaped taken, c :: rest => items (.item (taken ++ [c])) rest

def Plain (text : List Char) : Prop :=
  ∀ c ∈ text, c ≠ '\\' ∧ c ≠ '\'' ∧ c ≠ '"' ∧ (isSpace c = true → blank c = true)

instance (text : List Char) : Decidable (Plain text) := List.decidableBAll _ text

theorem enter_plain (taken : List Char) (c : Char)
    (plain : c ≠ '\\' ∧ c ≠ '\'' ∧ c ≠ '"') : enter taken c = .item (taken ++ [c]) := by
  simp [enter,plain]

theorem blank_isSpace (c : Char) (separates : blank c = true) : isSpace c = true := by
  simp only [blank,Bool.or_eq_true,beq_iff_eq] at separates
  rcases separates with (rfl | rfl) | rfl <;> rfl

theorem items_line (line rest : List Char) (plain : Plain line) :
    items .space (line ++ '\n' :: rest) = words line ++ items .space rest := by
  have both : items .space (line ++ '\n' :: rest) = words line ++ items .space rest ∧
      ∀ taken, IsWord taken → items (.item taken) (line ++ '\n' :: rest) =
        words (taken ++ line) ++ items .space rest := by
    induction line with
    | nil =>
      refine ⟨rfl,?_⟩
      intro taken isWord
      rw [List.append_nil,words_single taken isWord]
      rfl
    | cons c line ih =>
      obtain ⟨between,inside⟩ := ih (fun d member => plain d (List.mem_cons_of_mem _ member))
      obtain ⟨backslash,single,double,space⟩ := plain c (by simp)
      cases separates : blank c with
      | true =>
        have skipped := blank_isSpace c separates
        refine ⟨?_,?_⟩
        · rw [List.cons_append,items,if_pos skipped,between,words_blank c line separates]
        · intro taken isWord
          rw [List.cons_append,items,if_pos separates,between,
            words_append taken line c isWord separates,List.cons_append]
      | false =>
        have taken' : isSpace c = false := by
          by_contra skipped
          simp [space (by simpa using skipped)] at separates
        refine ⟨?_,?_⟩
        · have isWord : IsWord [c] := ⟨by simp,by simpa using separates⟩
          rw [List.cons_append,items,if_neg (by simp [taken']),enter_plain _ c ⟨backslash,single,double⟩]
          exact inside [c] isWord
        · intro taken isWord
          have longer := isWord.snoc _ c separates
          rw [List.cons_append,items,if_neg (by simp [separates]),
            enter_plain _ c ⟨backslash,single,double⟩,inside _ longer,List.append_assoc]
          rfl
  exact both.1

theorem items_lines (lines : List (List Char)) (plain : ∀ line ∈ lines, Plain line) :
    items .space (lines.flatMap (· ++ ['\n'])) = lines.flatMap words := by
  induction lines with
  | nil => rfl
  | cons line rest ih =>
    rw [List.flatMap_cons,List.flatMap_cons,List.append_assoc,List.singleton_append,
      items_line line _ (plain line (by simp)),
      ih (fun other member => plain other (List.mem_cons_of_mem _ member))]

/-! The command lines that the items are put on. -/

/-- `taken` is on the line at hand, which has used so many bytes of its limit. Each
item is taken to fit on a line of its own. -/
def fillLines (limit : Nat) : List (List Char) → Nat → List (List Char) → List (List (List Char))
  | taken, _, [] => [taken]
  | taken, used, item :: rest =>
    let size := item.length+1
    if used+size ≤ limit then fillLines limit (taken ++ [item]) (used+size) rest
    else taken :: fillLines limit [item] size rest

def commandLines (limit : Nat) (list : List (List Char)) : List (List (List Char)) :=
  fillLines limit [] 0 list

def room (list : List (List Char)) : Nat := list.foldr (fun item room => item.length+1+room) 0

theorem fillLines_single (limit used : Nat) (taken list : List (List Char))
    (fits : used+room list ≤ limit) : fillLines limit taken used list = [taken ++ list] := by
  induction list generalizing taken used with
  | nil => rw [fillLines,List.append_nil]
  | cons item rest ih =>
    have size : room (item :: rest) = item.length+1+room rest := rfl
    rw [fillLines,if_pos (by omega),ih (used+(item.length+1)) (taken ++ [item]) (by omega),
      List.append_assoc,List.singleton_append]

theorem commandLines_single (limit : Nat) (list : List (List Char)) (fits : room list ≤ limit) :
    commandLines limit list = [list] := fillLines_single limit 0 [] list (by omega)

theorem flatten_commandLines (limit : Nat) (list : List (List Char)) :
    (commandLines limit list).flatten = list := by
  have filled : ∀ taken used, (fillLines limit taken used list).flatten = taken ++ list := by
    induction list with
    | nil => simp [fillLines]
    | cons item rest ih =>
      intro taken used
      rw [fillLines]
      split
      · rw [ih,List.append_assoc,List.singleton_append]
      · rw [List.flatten_cons,ih,List.singleton_append]
  exact filled [] 0

theorem room_append (first second : List (List Char)) :
    room (first ++ second) = room first + room second := by
  induction first with
  | nil => exact (Nat.zero_add _).symm
  | cons item first ih =>
    have size (list : List (List Char)) : room (item :: list) = item.length+1+room list := rfl
    rw [List.cons_append,size,size,ih,← Nat.add_assoc]

theorem room_commandLines (limit : Nat) (list : List (List Char))
    (each : ∀ item ∈ list, item.length < limit) :
    ∀ line ∈ commandLines limit list, room line ≤ limit := by
  have filled : ∀ taken, room taken ≤ limit →
      ∀ line ∈ fillLines limit taken (room taken) list, room line ≤ limit := by
    induction list with
    | nil =>
      intro taken small line member
      rw [fillLines,List.mem_singleton] at member
      rwa [member]
    | cons item rest ih =>
      have own : room [item] = item.length+1 := rfl
      have following := ih (fun other member => each other (List.mem_cons_of_mem item member))
      intro taken small line member
      rw [fillLines] at member
      split at member
      · rename_i fits
        rw [← own,← room_append] at member
        exact following (taken ++ [item]) (by rw [room_append,own]; exact fits) line member
      · rcases List.mem_cons.mp member with rfl | later
        · exact small
        · rw [← own] at later
          exact following [item] (by rw [own]; exact each item List.mem_cons_self) line later
  exact filled [] (Nat.zero_le limit)

end Ostest.Lib.Xargs
