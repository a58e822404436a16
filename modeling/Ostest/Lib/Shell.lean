import Ostest.Lib.Echo

/-! What arrives in a file when a shell is given a command line that ends in
`> file`. Quotes, backslashes, comments and pipes are followed; what a program
other than echo prints, and what a line with expansions, patterns or other
operators prints, are parameters. -/
namespace Ostest.Lib.Shell
open Lib.Words Lib.Echo

inductive Token where
  | word (text : List Char)
  | pipe
  deriving DecidableEq

inductive Mode where
  | space
  | word (taken : List Char)
  | single (taken : List Char)
  | double (taken : List Char)
  | escaped (taken : List Char)
  | doubleEscaped (taken : List Char)
  | comment

/-- Either the redirection is not reached, or the line is beyond the model. -/
inductive Fault where
  | unwritten
  | unknown
  deriving DecidableEq

def isSpecial (c : Char) : Bool := "$`&;()<>\x7b*?[~\n".toList.contains c

def enter (taken : List Char) (c : Char) : Mode :=
  if c = '\\' then .escaped taken
  else if c = '\'' then .single taken
  else if c = '"' then .double taken
  else .word (taken ++ [c])

/-- What one character does: the tokens that end before it, and where the line
stands behind it, none at the redirection. -/
def step (file : List Char) (mode : Mode) (c : Char) (rest : List Char) :
    Except Fault (List Token × Option Mode) :=
  match mode with
  | .space =>
    if c = '>' ∧ rest = ' ' :: file then .ok ([],none)
    else if isSpecial c then .error .unknown
    else if blank c then .ok ([],some .space)
    else if c = '#' then .ok ([],some .comment)
    else if c = '|' then
      if rest.head? = some '|' then .error .unknown else .ok ([.pipe],some .space)
    else .ok ([],some (enter [] c))
  | .word taken =>
    if c = '>' ∧ rest = ' ' :: file ∧ !taken.all Char.isDigit then .ok ([.word taken],none)
    else if isSpecial c then .error .unknown
    else if blank c then .ok ([.word taken],some .space)
    else if c = '|' then
      if rest.head? = some '|' then .error .unknown else .ok ([.word taken,.pipe],some .space)
    else .ok ([],some (enter taken c))
  | .single taken =>
    if c = '\'' then .ok ([],some (.word taken)) else .ok ([],some (.single (taken ++ [c])))
  | .double taken =>
    if c = '"' then .ok ([],some (.word taken))
    else if c = '\\' then .ok ([],some (.doubleEscaped taken))
    else if c = '$' ∨ c = '`' then .error .unknown
    else .ok ([],some (.double (taken ++ [c])))
  | .escaped taken =>
    if c = '\n' then .error .unknown else .ok ([],some (.word (taken ++ [c])))
  | .doubleEscaped taken =>
    if c = '\n' then .error .unknown
    else if c = '$' ∨ c = '`' ∨ c = '"' ∨ c = '\\' then .ok ([],some (.double (taken ++ [c])))
    else .ok ([],some (.double (taken ++ ['\\',c])))
  | .comment => if c = '\n' then .error .unknown else .ok ([],some .comment)

def read (file : List Char) : Mode → List Char → Except Fault (List Token)
  -- An open quote is a syntax error, and a comment has swallowed the redirection.
  | _, [] => .error .unwritten
  | mode, c :: rest => match step file mode c rest with
    | .error fault => .error fault
    | .ok (tokens,none) => .ok tokens
    | .ok (tokens,some next) => (tokens ++ ·) <$> read file next rest

def pipeline : List Token → List (List (List Char))
  | [] => [[]]
  | .pipe :: rest => [] :: pipeline rest
  | .word text :: rest => (pipeline rest).modifyHead (text :: ·)

section
variable (program : List (List Char) → List Char) (unknown : List Char → List Char)

def simple : List (List Char) → List Char
  | [] => []
  | word :: args => if word = "echo".toList then echo args else program (word :: args)

/-- What the last command prints, unless a command before a pipe is missing. -/
def output (file line : List Char) : List Char :=
  match read file .space line with
  | .error .unwritten => []
  | .error .unknown => unknown line
  | .ok tokens =>
    if (pipeline tokens).dropLast.any List.isEmpty then [] else simple program ((pipeline tokens).getLastD [])

def echoInto (text file : List Char) : List Char := "echo ".toList ++ text ++ " > ".toList ++ file

/-! Text in which nothing is special is echoed word by word. -/

def ordinary (c : Char) : Bool :=
  !isSpecial c && c != '\\' && c != '\'' && c != '"' && c != '|'

def Literal (text : List Char) : Prop :=
  (∀ c ∈ text, ordinary c = true) ∧ ∀ word ∈ words text, word.head? ≠ some '#'

instance (text : List Char) : Decidable (Literal text) :=
  decidable_of_iff (text.all ordinary = true ∧ ∀ word ∈ words text, word.head? ≠ some '#')
    (by simp [Literal])

theorem enter_ordinary (taken : List Char) (c : Char) (plain : ordinary c = true) :
    enter taken c = .word (taken ++ [c]) := by
  simp only [ordinary,Bool.and_eq_true,bne_iff_ne] at plain
  obtain ⟨⟨⟨⟨_,backslash⟩,single⟩,double⟩,_⟩ := plain
  simp [enter,backslash,single,double]

theorem ordinary_unread (c : Char) (plain : ordinary c = true) :
    c ≠ '>' ∧ isSpecial c = false ∧ c ≠ '|' := by
  simp only [ordinary,Bool.and_eq_true,bne_iff_ne,Bool.not_eq_true'] at plain
  obtain ⟨⟨⟨⟨special,_⟩,_⟩,_⟩,pipe⟩ := plain
  refine ⟨?_,special,pipe⟩
  rintro rfl
  contradiction

section
variable (file rest : List Char) (c : Char) (plain : ordinary c = true)
include plain

theorem step_space_ordinary (stays : blank c = false) (uncommented : c ≠ '#') :
    step file .space c rest = .ok ([],some (.word [c])) := by
  obtain ⟨redirects,special,pipe⟩ := ordinary_unread c plain
  rw [step,if_neg (by simp [redirects]),if_neg (by simp [special]),if_neg (by simp [stays]),
    if_neg uncommented,if_neg pipe,enter_ordinary [] c plain]
  rfl

theorem step_word_ordinary (taken : List Char) (stays : blank c = false) :
    step file (.word taken) c rest = .ok ([],some (.word (taken ++ [c]))) := by
  obtain ⟨redirects,special,pipe⟩ := ordinary_unread c plain
  rw [step,if_neg (by simp [redirects]),if_neg (by simp [special]),if_neg (by simp [stays]),
    if_neg pipe,enter_ordinary taken c plain]

theorem step_space_blank (separates : blank c = true) :
    step file .space c rest = .ok ([],some .space) := by
  obtain ⟨redirects,special,_⟩ := ordinary_unread c plain
  rw [step,if_neg (by simp [redirects]),if_neg (by simp [special]),if_pos separates]

theorem step_word_blank (taken : List Char) (separates : blank c = true) :
    step file (.word taken) c rest = .ok ([.word taken],some .space) := by
  obtain ⟨redirects,special,_⟩ := ordinary_unread c plain
  rw [step,if_neg (by simp [redirects]),if_neg (by simp [special]),if_pos separates]

end

theorem read_step (file rest : List Char) (mode next : Mode) (c : Char) (tokens : List Token)
    (taken : step file mode c rest = .ok (tokens,some next)) (later : List Token)
    (reads : read file next rest = .ok later) :
    read file mode (c :: rest) = .ok (tokens ++ later) := by
  rw [read,taken]
  dsimp only
  rw [reads]
  rfl

theorem read_literal (file text rest : List Char) (literal : Literal text) (later : List Token)
    (reads : read file .space rest = .ok later) :
    read file .space (text ++ ' ' :: rest) = .ok ((words text).map .word ++ later) := by
  obtain ⟨plain,uncommented⟩ := literal
  have both : ((∀ word ∈ words text, word.head? ≠ some '#') →
        read file .space (text ++ ' ' :: rest) = .ok ((words text).map .word ++ later)) ∧
      ∀ taken, IsWord taken → (∀ word ∈ words (taken ++ text), word.head? ≠ some '#') →
        read file (.word taken) (text ++ ' ' :: rest) =
          .ok ((words (taken ++ text)).map .word ++ later) := by
    clear uncommented
    induction text with
    | nil =>
      refine ⟨fun _ => ?_,fun taken isWord _ => ?_⟩
      · rw [words_nil]
        exact read_step file _ _ _ ' ' _ (step_space_blank file _ ' ' rfl rfl) _ reads
      · rw [List.append_nil,words_single taken isWord]
        exact read_step file _ _ _ ' ' _ (step_word_blank file _ ' ' rfl taken rfl) _ reads
    | cons c text ih =>
      obtain ⟨between,inside⟩ := ih (fun d member => plain d (List.mem_cons_of_mem _ member))
      have ordinaryHead := plain c (by simp)
      cases separates : blank c with
      | true =>
        refine ⟨fun uncommented => ?_,fun taken isWord uncommented => ?_⟩
        · rw [words_blank c text separates] at uncommented ⊢
          exact read_step file _ _ _ c _ (step_space_blank file _ c ordinaryHead separates) _
            (between uncommented)
        · rw [words_append taken text c isWord separates] at uncommented ⊢
          have tail := between (fun word member => uncommented word (List.mem_cons_of_mem _ member))
          exact read_step file _ _ _ c _ (step_word_blank file _ c ordinaryHead taken separates) _ tail
      | false =>
        refine ⟨fun uncommented => ?_,fun taken isWord uncommented => ?_⟩
        · have isWord : IsWord [c] := ⟨by simp,by simpa using separates⟩
          have noComment : c ≠ '#' := by
            rintro rfl
            obtain ⟨tail,first⟩ := words_head '#' text rfl
            exact uncommented ('#' :: tail) (List.mem_of_mem_head? first) rfl
          exact read_step file _ _ _ c _ (step_space_ordinary file _ c ordinaryHead separates noComment) _
            (inside [c] isWord uncommented)
        · have regroup : taken ++ c :: text = (taken ++ [c]) ++ text := by simp
          rw [regroup] at uncommented ⊢
          exact read_step file _ _ _ c _ (step_word_ordinary file _ c ordinaryHead taken separates) _
            (inside (taken ++ [c]) (isWord.snoc _ c separates) uncommented)
  exact both.1 uncommented

theorem read_redirected (file text : List Char) (literal : Literal text) :
    read file .space (text ++ " > ".toList ++ file) = .ok ((words text).map .word) := by
  have reached : step file .space '>' (' ' :: file) = .ok ([],none) := if_pos ⟨rfl,rfl⟩
  have redirection : read file .space ('>' :: ' ' :: file) = .ok [] := by
    rw [read,reached]
  have reads := read_literal file text _ literal _ redirection
  rw [List.append_nil] at reads
  rw [List.append_assoc]
  exact reads

theorem read_echoInto (file text : List Char) (later : List Token)
    (reads : read file .space (text ++ " > ".toList ++ file) = .ok later) :
    read file .space (echoInto text file) = .ok (.word "echo".toList :: later) := by
  have echo : Literal "echo".toList := by decide
  have reads := read_literal file "echo".toList _ echo _ reads
  rw [words_single "echo".toList (by decide)] at reads
  unfold echoInto
  rw [List.append_assoc,List.append_assoc,← List.append_assoc text]
  exact reads

theorem pipeline_words (list : List (List Char)) : pipeline (list.map .word) = [list] := by
  induction list with
  | nil => rfl
  | cons word list ih => rw [List.map_cons,pipeline,ih,List.modifyHead_cons]

theorem output_literal (file text : List Char) (literal : Literal text) :
    output program unknown file (echoInto text file) = echo (words text) := by
  have reads := read_echoInto file text _ (read_redirected file text literal)
  rw [← List.map_cons] at reads
  unfold output
  rw [reads]
  dsimp only
  rw [pipeline_words]
  rfl

/-- Behind a pipe the file gets what the program there prints. -/
theorem output_piped (file text : List Char) (literal : Literal text) :
    output program unknown file (echoInto ('|' :: text) file) = simple program (words text) := by
  have single : (text ++ " > ".toList ++ file).head? ≠ some '|' := by
    cases text with
    | nil => simp
    | cons c text =>
      have notPipe := (ordinary_unread c (literal.1 c (by simp))).2.2
      simpa using notPipe
  have stepped : step file .space '|' (text ++ " > ".toList ++ file) = .ok ([.pipe],some .space) := by
    rw [step,if_neg (by simp),if_neg (by decide),if_neg (by decide),if_neg (by decide),if_pos rfl,
      if_neg single]
  have reads := read_echoInto file ('|' :: text) _
    (read_step file _ _ _ _ _ stepped _ (read_redirected file text literal))
  have split : pipeline (.word "echo".toList :: .pipe :: (words text).map .word) =
      [["echo".toList],words text] := by
    rw [pipeline,pipeline,pipeline_words]
    rfl
  unfold output
  rw [reads]
  dsimp only [List.singleton_append]
  rw [split]
  rfl

end

end Ostest.Lib.Shell
