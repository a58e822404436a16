import Mathlib.Data.List.Basic
import Ostest.Lib.Decimal

/-! Text as the shell tools cut it: runs of blanks separate words for word
splitting and for awk's fields, and every single separator counts for cut. -/
namespace Ostest.Lib.Words

def blank (c : Char) : Bool := c == ' ' || c == '\t' || c == '\n'

/-- isspace of the C library. -/
def isSpace (c : Char) : Bool := c == ' ' || ('\t' ≤ c && c ≤ '\r')

def words (text : List Char) : List (List Char) :=
  (text.splitOnP blank).filter (fun word => !word.isEmpty)

/-- The words with single blanks between them, as echo prints its arguments. -/
def unwords (list : List (List Char)) : List Char := List.intercalate [' '] list

/-- Field `i`, from 1 on, of `cut -d`. A line without a separator is printed whole,
whatever field is asked for. -/
def cutOn (separator : Char) (i : Nat) (line : List Char) : List Char :=
  if separator ∈ line then (line.splitOn separator).getD (i-1) [] else line

def isPattern (c : Char) : Bool := c == '*' || c == '?' || c == '['

/-- What a command gets for an unquoted `$value`; `glob` gives the names that the
shell finds for a word with a pattern character. -/
def expand (glob : List Char → List (List Char)) (value : List Char) : List (List Char) :=
  (words value).flatMap (fun word => if word.any isPattern then glob word else [word])

/-- The value of a command substitution. -/
def substituted (output : List Char) : List Char := (output.reverse.dropWhile (· == '\n')).reverse

def IsWord (word : List Char) : Prop := word ≠ [] ∧ ∀ c ∈ word, blank c = false

instance (word : List Char) : Decidable (IsWord word) :=
  decidable_of_iff (word ≠ [] ∧ word.all (fun c => !blank c) = true) (by simp [IsWord])

theorem IsWord.snoc (word : List Char) (isWord : IsWord word) (c : Char) (stays : blank c = false) :
    IsWord (word ++ [c]) := by
  refine ⟨by simp,?_⟩
  intro d member
  rcases List.mem_append.mp member with earlier | last
  · exact isWord.2 d earlier
  · rw [List.mem_singleton.mp last]
    exact stays

theorem IsWord.join (first second : List Char) (firstWord : IsWord first) (secondWord : IsWord second)
    (c : Char) (stays : blank c = false) : IsWord (first ++ c :: second) := by
  refine ⟨by simp,?_⟩
  intro d member
  rcases List.mem_append.mp member with left | right
  · exact firstWord.2 d left
  · rcases List.mem_cons.mp right with rfl | right
    · exact stays
    · exact secondWord.2 d right

theorem digit_not_blank (c : Char) (digit : c.isDigit = true) : blank c = false := by
  by_contra separates
  simp only [blank,Bool.not_eq_false,Bool.or_eq_true,beq_iff_eq] at separates
  rcases separates with (rfl | rfl) | rfl <;> contradiction

theorem decimal_isWord (n : Nat) : IsWord (Decimal.decimal n) :=
  ⟨Decimal.decimal_ne_nil n,fun c member => digit_not_blank c (Decimal.decimal_digits n c member)⟩

theorem words_nil : words [] = [] := by
  simp [words]

theorem words_join (first rest : List Char) (c : Char) (separates : blank c = true) :
    words (first ++ c :: rest) = words first ++ words rest := by
  rw [words,List.splitOnP_append_cons first rest separates,List.filter_append]
  rfl

theorem words_blank (c : Char) (rest : List Char) (separates : blank c = true) :
    words (c :: rest) = words rest := words_join [] rest c separates

theorem words_single (word : List Char) (isWord : IsWord word) : words word = [word] := by
  rw [words,List.splitOnP_eq_singleton isWord.2]
  simp [isWord.1]

theorem words_append (word rest : List Char) (c : Char) (isWord : IsWord word)
    (separates : blank c = true) : words (word ++ c :: rest) = word :: words rest := by
  rw [words_join word rest c separates,words_single word isWord]
  rfl

theorem words_head (c : Char) (rest : List Char) (stays : blank c = false) :
    ∃ tail, (words (c :: rest)).head? = some (c :: tail) := by
  obtain ⟨first,pieces,split⟩ := List.exists_cons_of_ne_nil (List.splitOnP_ne_nil blank rest)
  refine ⟨first,?_⟩
  rw [words,List.splitOnP_cons_eq_if_modifyHead,if_neg (by simp [stays]),split]
  rfl

theorem words_blanks (count : Nat) (rest : List Char) :
    words (List.replicate count ' ' ++ rest) = words rest := by
  induction count with
  | zero => rfl
  | succ count ih =>
    rw [List.replicate_succ,List.cons_append,words_blank _ _ rfl]
    exact ih

theorem splitOnP_pieces (separates : Char → Bool) (text piece : List Char)
    (member : piece ∈ text.splitOnP separates) : ∀ c ∈ piece, separates c = false ∧ c ∈ text := by
  induction text generalizing piece with
  | nil =>
    rw [List.splitOnP_nil,List.mem_singleton] at member
    simp [member]
  | cons c text ih =>
    have later (other : List Char) (listed : other ∈ text.splitOnP separates) :
        ∀ d ∈ other, separates d = false ∧ d ∈ c :: text := by
      intro d inside
      obtain ⟨stays,source⟩ := ih other listed d inside
      exact ⟨stays,List.mem_cons_of_mem _ source⟩
    rw [List.splitOnP_cons_eq_if_modifyHead] at member
    split at member
    · rcases List.mem_cons.mp member with rfl | listed
      · simp
      · exact later piece listed
    · rename_i stays
      obtain ⟨first,rest,pieces⟩ := List.exists_cons_of_ne_nil (List.splitOnP_ne_nil separates text)
      rw [pieces,List.modifyHead_cons] at member
      rcases List.mem_cons.mp member with rfl | listed
      · intro d inside
        rcases List.mem_cons.mp inside with rfl | inside
        · exact ⟨by simpa using stays,by simp⟩
        · exact later first (by simp [pieces]) d inside
      · exact later piece (by simp [pieces,listed])

theorem words_isWord (text word : List Char) (member : word ∈ words text) : IsWord word := by
  obtain ⟨piece,full⟩ := List.mem_filter.mp member
  exact ⟨by simpa using full,fun c inside => (splitOnP_pieces blank text word piece c inside).1⟩

theorem mem_words (text word : List Char) (member : word ∈ words text) (c : Char) (inside : c ∈ word) :
    c ∈ text := (splitOnP_pieces blank text word (List.mem_filter.mp member).1 c inside).2

theorem words_intercalate (c : Char) (separates : blank c = true) (list : List (List Char))
    (all : ∀ word ∈ list, IsWord word) : words (List.intercalate [c] list) = list := by
  induction list with
  | nil => exact words_nil
  | cons word rest ih =>
    have isWord := all word (by simp)
    cases rest with
    | nil => simpa using words_single word isWord
    | cons next rest =>
      have tail := ih (fun other member => all other (List.mem_cons_of_mem _ member))
      rw [List.intercalate_cons_cons,List.append_assoc,List.singleton_append,
        words_append word _ c isWord separates]
      exact congrArg (word :: ·) tail

theorem words_unwords (list : List (List Char)) (all : ∀ word ∈ list, IsWord word) :
    words (unwords list) = list := words_intercalate ' ' rfl list all

theorem words_terminated (c : Char) (separates : blank c = true) (list : List (List Char))
    (all : ∀ word ∈ list, IsWord word) : words (list.flatMap (· ++ [c])) = list := by
  induction list with
  | nil => exact words_nil
  | cons word rest ih =>
    rw [List.flatMap_cons,List.append_assoc,List.singleton_append,
      words_append word _ c (all word (by simp)) separates,
      ih (fun other member => all other (List.mem_cons_of_mem _ member))]

theorem words_flatMap (list : List (List Char)) (all : ∀ word ∈ list, IsWord word) :
    words (list.flatMap (· ++ [' '])) = list := words_terminated ' ' rfl list all

theorem mem_intercalate (separator : Char) (list : List (List Char)) (c : Char)
    (member : c ∈ List.intercalate [separator] list) : c = separator ∨ ∃ word ∈ list, c ∈ word := by
  induction list with
  | nil => simp at member
  | cons word rest ih =>
    cases rest with
    | nil => exact .inr ⟨word,by simp,by simpa using member⟩
    | cons next rest =>
      rw [List.intercalate_cons_cons] at member
      rcases List.mem_append.mp member with front | back
      · rcases List.mem_append.mp front with inside | separator
        · exact .inr ⟨word,by simp,inside⟩
        · exact .inl (by simpa using separator)
      · rcases ih back with separator | ⟨other,listed,inside⟩
        · exact .inl separator
        · exact .inr ⟨other,List.mem_cons_of_mem _ listed,inside⟩

theorem mem_unwords (list : List (List Char)) (c : Char) (member : c ∈ unwords list) :
    c = ' ' ∨ ∃ word ∈ list, c ∈ word := mem_intercalate ' ' list c member

/-- Words that are joined by another character are one word. -/
theorem intercalate_isWord (c : Char) (stays : blank c = false) (list : List (List Char))
    (nonempty : list ≠ []) (all : ∀ word ∈ list, IsWord word) : IsWord (List.intercalate [c] list) := by
  induction list with
  | nil => contradiction
  | cons word list ih =>
    have first := all word List.mem_cons_self
    cases list with
    | nil => simpa using first
    | cons next list =>
      have rest := ih (by simp) (fun other member => all other (List.mem_cons_of_mem word member))
      rw [List.intercalate_cons_cons,List.append_assoc,List.singleton_append]
      exact first.join _ _ rest c stays

theorem cutOn_intercalate (separator : Char) (list : List (List Char))
    (all : ∀ word ∈ list, separator ∉ word) (i : Nat) (bound : i < list.length) :
    cutOn separator (i+1) (List.intercalate [separator] list) = list[i] := by
  have nonempty : list ≠ [] := List.ne_nil_of_length_pos (by omega)
  have split := List.splitOn_intercalate separator all nonempty
  unfold cutOn
  split_ifs with separated
  · rw [split]
    simp [bound]
  · have single := List.splitOn_eq_singleton separated
    rw [split] at single
    obtain ⟨word,rfl⟩ : ∃ word, list = [word] := ⟨_,single⟩
    have first : i = 0 := by simpa using bound
    subst first
    simp

theorem expand_plain (glob : List Char → List (List Char)) (value : List Char)
    (plain : ∀ word ∈ words value, word.any isPattern = false) : expand glob value = words value := by
  have each : ∀ word ∈ words value, (if word.any isPattern then glob word else [word]) = [word] :=
    fun word member => if_neg (by simp [plain word member])
  rw [expand,List.flatMap_congr each,List.flatMap_singleton']

theorem digits_plain (text : List Char) (digits : ∀ c ∈ text, c.isDigit = true) :
    text.any isPattern = false := by
  rw [List.any_eq_false]
  intro c inside pattern
  have digit := digits c inside
  simp only [isPattern,Bool.or_eq_true,beq_iff_eq] at pattern
  rcases pattern with (rfl | rfl) | rfl <;> contradiction

theorem IsWord.blankless (word : List Char) (isWord : IsWord word) : ' ' ∉ word := by
  intro inside
  have := isWord.2 ' ' inside
  contradiction

theorem cutOn_unwords (list : List (List Char)) (all : ∀ word ∈ list, IsWord word)
    (i : Nat) (bound : i < list.length) : cutOn ' ' (i+1) (unwords list) = list[i] :=
  cutOn_intercalate ' ' list (fun word member => (all word member).blankless) i bound

theorem append_last_inj (sep : Char) (left right first second : List Char) (firstFree : sep ∉ first)
    (secondFree : sep ∉ second) (same : left ++ sep :: first = right ++ sep :: second) :
    left = right ∧ first = second := by
  rcases List.append_eq_append_iff.mp same with ⟨rest,longer,tail⟩ | ⟨rest,longer,tail⟩
  · cases rest with
    | nil => exact ⟨by simpa using longer.symm,by simpa using tail⟩
    | cons c rest =>
      rw [List.cons_append,List.cons.injEq] at tail
      exact absurd (tail.2 ▸ by simp) firstFree
  · cases rest with
    | nil => exact ⟨by simpa using longer,by simpa using tail.symm⟩
    | cons c rest =>
      rw [List.cons_append,List.cons.injEq] at tail
      exact absurd (tail.2 ▸ by simp) secondFree

theorem newline_unwords (list : List (List Char)) (all : ∀ word ∈ list, IsWord word) :
    '\n' ∉ unwords list := by
  intro member
  rcases mem_unwords list '\n' member with same | ⟨word,listed,inside⟩
  · contradiction
  · have stays := (all word listed).2 _ inside
    contradiction

theorem substituted_line (text : List Char) (oneLine : '\n' ∉ text) :
    substituted (text ++ ['\n']) = text := by
  have kept : text.reverse.dropWhile (· == '\n') = text.reverse := by
    cases turned : text.reverse with
    | nil => rfl
    | cons last rest =>
      have inside : last ∈ text := List.mem_reverse.mp (by simp [turned])
      have other : last ≠ '\n' := ne_of_mem_of_not_mem inside oneLine
      exact List.dropWhile_cons_of_neg (by simpa using other)
  simp [substituted,kept]

theorem exists_newlines (output : List Char) :
    ∃ newlines, output = substituted output ++ newlines ∧ ∀ c ∈ newlines, c = '\n' := by
  refine ⟨(output.reverse.takeWhile (· == '\n')).reverse,?_,?_⟩
  · rw [substituted,← List.reverse_append,List.takeWhile_append_dropWhile,List.reverse_reverse]
  · intro c member
    have newline := List.all_eq_true.mp List.all_takeWhile c (List.mem_reverse.mp member)
    exact beq_iff_eq.mp newline

/-- An output that is substituted as one line starts with that line. -/
theorem first_line_substituted (first rest : List Char) (oneLine : '\n' ∉ first)
    (whole : '\n' ∉ substituted (first ++ '\n' :: rest)) :
    substituted (first ++ '\n' :: rest) = first := by
  have upTo (line after : List Char) (plain : '\n' ∉ line) :
      (line ++ '\n' :: after).takeWhile (· != '\n') = line := by
    have kept : ∀ c ∈ line, (c != '\n') = true :=
      fun c member => bne_iff_ne.mpr (ne_of_mem_of_not_mem member plain)
    rw [List.takeWhile_append_of_pos kept,List.takeWhile_cons_of_neg (by decide),List.append_nil]
  obtain ⟨newlines,cut,only⟩ := exists_newlines (first ++ '\n' :: rest)
  generalize substituted (first ++ '\n' :: rest) = text at whole cut ⊢
  cases newlines with
  | nil =>
    rw [List.append_nil] at cut
    exact absurd (by simp [← cut]) whole
  | cons c newlines =>
    rw [only c List.mem_cons_self] at cut
    rw [← upTo text newlines whole,← cut,upTo first rest oneLine]

/-- The newlines that a command substitution drops separate no words. -/
theorem words_substituted (output : List Char) : words (substituted output) = words output := by
  rw [substituted]
  generalize turned : output.reverse = text
  obtain rfl : output = text.reverse := by rw [← turned,List.reverse_reverse]
  clear turned
  induction text with
  | nil => rfl
  | cons c text ih =>
    by_cases newline : c = '\n'
    · subst newline
      rw [List.dropWhile_cons_of_pos rfl,ih,List.reverse_cons,words_join _ [] _ rfl,words_nil,List.append_nil]
    · rw [List.dropWhile_cons_of_neg (by simpa using newline)]

end Ostest.Lib.Words
