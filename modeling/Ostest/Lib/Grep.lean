import Mathlib.Data.List.Infix

/-! Patterns of grep and awk that are fixed texts, the lines of a file, and the
fields of a line. A character that a pattern does not have cuts a line into two
parts that can be searched on their own. -/
namespace Ostest.Lib.Grep

def occurs (pattern text : List Char) : Bool := decide (pattern <:+: text)

/-- `grep -c` -/
def grepCount (pattern : List Char) (lines : List (List Char)) : Nat := lines.countP (occurs pattern)

/-- The text behind the last newline is a line if it is not empty. -/
def lines (text : List Char) : List (List Char) :=
  let parts := text.splitOn '\n'
  if parts.getLast? = some [] then parts.dropLast else parts

/-- `$2` of awk with a field separator of several characters. -/
def secondField (separator line : List Char) : List Char :=
  match line.dropInfix? separator with
  | none => []
  | some (_,rest) =>
    match rest.dropInfix? separator with
    | none => rest
    | some (field,_) => field

theorem occurs_foreign (pattern text : List Char) (c : Char) (needed : c ∈ pattern)
    (missing : c ∉ text) : occurs pattern text = false :=
  decide_eq_false (fun inside => missing (inside.subset needed))

theorem occurs_cut (pattern first second : List Char) (c : Char) (foreign : c ∉ pattern) :
    occurs pattern (first ++ c :: second) = (occurs pattern first || occurs pattern second) := by
  have split : pattern <:+: first ++ c :: second ↔ pattern <:+: first ∨ pattern <:+: second := by
    constructor
    · intro inside
      rcases List.infix_append_iff.mp inside with left | right | ⟨front,back,rfl,ends,starts⟩
      · exact .inl left
      · rcases List.infix_cons_iff.mp right with here | later
        · rcases List.prefix_cons_iff.mp here with rfl | ⟨rest,rfl,_⟩
          · exact .inl (List.nil_infix)
          · exact absurd List.mem_cons_self foreign
        · exact .inr later
      -- an occurrence across the cut would have the character in it
      · rcases List.prefix_cons_iff.mp starts with rfl | ⟨rest,rfl,_⟩
        · exact .inl (by simpa using ends.isInfix)
        · exact absurd (List.mem_append_right front List.mem_cons_self) foreign
    · rintro (left | right)
      · exact left.trans (List.prefix_append first _).isInfix
      · exact right.trans (List.suffix_append_of_suffix (List.suffix_cons c second)).isInfix
  simp [occurs,split]

theorem occurs_before (pattern first second : List Char) (c needed : Char) (foreign : c ∉ pattern)
    (has : needed ∈ pattern) (missing : needed ∉ second) :
    occurs pattern (first ++ c :: second) = occurs pattern first := by
  rw [occurs_cut pattern first second c foreign,occurs_foreign pattern second needed has missing,
    Bool.or_false]

/-- A pattern that starts with a character which the text has at its start only. -/
theorem occurs_marked (mark : Char) (pattern rest : List Char) (only : mark ∉ rest) :
    occurs (mark :: pattern) (mark :: rest) = pattern.isPrefixOf rest := by
  have here : mark :: pattern <:+: mark :: rest ↔ pattern <+: rest := by
    rw [List.infix_cons_iff,List.cons_prefix_cons]
    constructor
    · rintro (⟨_,starts⟩ | later)
      · exact starts
      · exact absurd (later.subset List.mem_cons_self) only
    · exact fun starts => .inl ⟨rfl,starts⟩
  rw [occurs,Bool.eq_iff_iff,decide_eq_true_iff,List.isPrefixOf_iff_prefix,here]

theorem grepCount_pos_iff (pattern : List Char) (lines : List (List Char)) :
    grepCount pattern lines ≠ 0 ↔ ∃ line ∈ lines, occurs pattern line = true := by
  rw [grepCount,← Nat.pos_iff_ne_zero,List.countP_pos_iff]

theorem lines_append (line rest : List Char) (oneLine : '\n' ∉ line) :
    lines (line ++ '\n' :: rest) = line :: lines rest := by
  have first : (line ++ '\n' :: rest).splitOn '\n' = line :: rest.splitOn '\n' := by
    apply List.splitOnP_append_cons_of_forall_mem
    · intro c member
      exact beq_false_of_ne (ne_of_mem_of_not_mem member oneLine)
    · exact beq_self_eq_true '\n'
  have parts : rest.splitOn '\n' ≠ [] := List.splitOnP_ne_nil _ rest
  simp only [lines,first,List.getLast?_cons_of_ne_nil parts,List.dropLast_cons_of_ne_nil parts]
  split
  · rfl
  · rfl

/-- What a command prints that puts each element on a line. -/
abbrev printed (list : List (List Char)) : List Char := list.flatMap (· ++ ['\n'])

theorem lines_printed (list : List (List Char)) (oneLine : ∀ line ∈ list, '\n' ∉ line) :
    lines (printed list) = list := by
  induction list with
  | nil => rfl
  | cons line list ih =>
    have rest := ih (fun other member => oneLine other (List.mem_cons_of_mem line member))
    have first := lines_append line (printed list) (oneLine line List.mem_cons_self)
    rw [printed,List.flatMap_cons,List.append_assoc,List.singleton_append,first,rest]

theorem dropInfix_first (first second separator : List Char) (s c : Char) (other : c ≠ s)
    (missing : c ∉ first) :
    (first ++ (s :: c :: separator) ++ second).dropInfix? (s :: c :: separator) = some (first,second) := by
  refine List.dropInfix?_eq_some_iff.mpr ⟨⟨_,rfl,beq_self_eq_true _⟩,?_⟩
  intro earlier found rest same equal
  obtain rfl := eq_of_beq equal
  -- the second character of a separator that starts earlier would be in `first`
  by_contra less
  have position := congrArg (fun text : List Char => text[earlier.length+1]?) same
  simp only [List.append_assoc] at position
  rw [List.getElem?_append_right (Nat.le_add_right _ 1),Nat.add_sub_cancel_left] at position
  rcases Nat.lt_or_eq_of_le (Nat.succ_le_of_lt (Nat.lt_of_not_le less)) with inside | last
  · rw [List.getElem?_append_left inside] at position
    exact missing (List.mem_of_getElem? position)
  · rw [List.getElem?_append_right (Nat.le_of_eq last.symm),last,Nat.sub_self] at position
    exact other (Option.some.inj position).symm

theorem dropInfix_none (separator text : List Char) (c : Char) (needed : c ∈ separator)
    (missing : c ∉ text) : text.dropInfix? separator = none := by
  cases found : text.dropInfix? separator with
  | none => rfl
  | some parts =>
    obtain ⟨⟨inside,rfl,equal⟩,_⟩ := List.dropInfix?_eq_some_iff.mp found
    obtain rfl := eq_of_beq equal
    exact absurd (List.mem_append_left _ (List.mem_append_right _ needed)) missing

theorem secondField_pair (first second separator : List Char) (s c : Char) (other : c ≠ s)
    (missing : c ∉ first) (missing' : c ∉ second) :
    secondField (s :: c :: separator) (first ++ (s :: c :: separator) ++ second) = second := by
  simp only [secondField,dropInfix_first first second separator s c other missing,
    dropInfix_none (s :: c :: separator) second c (by simp) missing']

end Ostest.Lib.Grep
