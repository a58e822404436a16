import Mathlib.Algebra.BigOperators.Group.List.Basic
import Ostest.Lib.Shell

/-! Which texts come back when a shell is told to echo them into a file, whatever
other programs and lines with expansions print. Quotes, backslashes and pipes weigh
more than they can add to what is printed, so a text with one of them is too heavy
to be printed. -/
namespace Ostest.Lib.EchoBack
open Lib.Words Lib.Shell
open Lib.Echo (isOption escapes unescape echo)

/-- Taken by the shell and not passed on. -/
def quoting (c : Char) : Bool := c == '\\' || c == '\'' || c == '"' || c == '|'

def weight (c : Char) : Nat := if quoting c then 2 else 1

def weigh (text : List Char) : Nat := (text.map weight).sum

def weighWords (list : List (List Char)) : Nat := (list.map (fun word => weigh word + 1)).sum

def weighTokens (tokens : List Token) : Nat :=
  (tokens.map fun token => match token with
    | .word text => weigh text + 1
    | .pipe => 0).sum

/-- What a mode can still add to the tokens; an escape at the end takes the blank in
front of the redirection. -/
def held : Mode → Nat
  | .space => 0
  | .word taken => weigh taken
  | .single taken => weigh taken
  | .double taken => weigh taken
  | .escaped taken => weigh taken + 1
  | .doubleEscaped taken => weigh taken + 2
  | .comment => 0

/-- Outside of quotes and not behind a backslash. -/
def Unquoted : Mode → Prop
  | .space | .word _ | .comment => True
  | _ => False

@[simp]
theorem weigh_nil : weigh [] = 0 := rfl

@[simp]
theorem weigh_cons (c : Char) (text : List Char) : weigh (c :: text) = weight c + weigh text := by
  rw [weigh,List.map_cons,List.sum_cons,weigh]

@[simp]
theorem weigh_append (first second : List Char) : weigh (first ++ second) = weigh first + weigh second := by
  rw [weigh,List.map_append,List.sum_append,weigh,weigh]

@[simp]
theorem weighTokens_nil : weighTokens [] = 0 := rfl

@[simp]
theorem weighTokens_word (text : List Char) (tokens : List Token) :
    weighTokens (.word text :: tokens) = weigh text + 1 + weighTokens tokens := by
  rw [weighTokens,List.map_cons,List.sum_cons,weighTokens]

@[simp]
theorem weighTokens_pipe (tokens : List Token) : weighTokens (.pipe :: tokens) = weighTokens tokens := by
  rw [weighTokens,List.map_cons,List.sum_cons,weighTokens,Nat.zero_add]

theorem weighWords_cons (word : List Char) (list : List (List Char)) :
    weighWords (word :: list) = weigh word + 1 + weighWords list := by
  rw [weighWords,List.map_cons,List.sum_cons,weighWords]

theorem weighTokens_append (first second : List Token) :
    weighTokens (first ++ second) = weighTokens first + weighTokens second := by
  rw [weighTokens,List.map_append,List.sum_append,weighTokens,weighTokens]

theorem weight_pos (c : Char) : 1 ≤ weight c := by
  unfold weight
  split <;> omega

theorem weight_le (c : Char) : weight c ≤ 2 := by
  unfold weight
  split <;> omega

theorem not_quoting_blank (c : Char) (separates : blank c = true) : quoting c = false := by
  simp only [blank,Bool.or_eq_true,beq_iff_eq] at separates
  rcases separates with (rfl | rfl) | rfl <;> rfl

/-! One character. -/

theorem enter_light (taken : List Char) (c : Char) (piped : c ≠ '|') :
    held (enter taken c) ≤ weigh taken + weight c ∧
      (quoting c = true → held (enter taken c) < weigh taken + weight c) ∧
      (quoting c = false → Unquoted (enter taken c)) := by
  unfold enter
  split
  · rename_i backslash
    subst backslash
    simp [held,weight,quoting]
  split
  · rename_i single
    subst single
    simp [held,weight,quoting]
  split
  · rename_i double
    subst double
    simp [held,weight,quoting]
  · rename_i backslash single double
    simp [held,Unquoted,quoting,backslash,single,double,piped]

/-- No character adds more than its weight, and outside of quotes those that the shell
takes add less. -/
theorem step_light (file : List Char) (mode next : Mode) (c : Char) (rest : List Char) (tokens : List Token)
    (stepped : step file mode c rest = .ok (tokens,some next)) :
    weighTokens tokens + held next ≤ held mode + weight c ∧
      (Unquoted mode → (quoting c = true → weighTokens tokens + held next < held mode + weight c) ∧
        (quoting c = false → Unquoted next)) := by
  have positive := weight_pos c
  have alone : 0 + 0 < 0 + weight c := by omega
  unfold step at stepped
  cases mode with
  | space =>
    dsimp only at stepped
    split_ifs at stepped with _ _ _ _ pipe <;> cases stepped
    · exact ⟨Nat.zero_le _,fun _ => ⟨fun _ => alone,fun _ => trivial⟩⟩
    · exact ⟨Nat.zero_le _,fun _ => ⟨fun _ => alone,fun _ => trivial⟩⟩
    · exact ⟨Nat.zero_le _,fun _ => ⟨fun _ => alone,fun _ => trivial⟩⟩
    · have light := enter_light [] c pipe
      rw [weighTokens_nil,Nat.zero_add]
      exact ⟨light.1,fun _ => light.2⟩
  | word taken =>
    dsimp only at stepped
    split_ifs at stepped with _ _ separates pipe <;> cases stepped
    · have unquoting := not_quoting_blank c separates
      rw [weighTokens_word]
      exact ⟨Nat.add_le_add_left positive _,fun _ => ⟨by simp [unquoting],fun _ => trivial⟩⟩
    · have heavy : weight c = 2 := by rw [pipe]; rfl
      rw [weighTokens_word,weighTokens_pipe,heavy]
      exact ⟨Nat.add_le_add_left (Nat.le_succ 1) _,fun _ => ⟨fun _ => Nat.lt_succ_self _,fun _ => trivial⟩⟩
    · have light := enter_light taken c pipe
      rw [weighTokens_nil,Nat.zero_add]
      exact ⟨light.1,fun _ => light.2⟩
  | single taken =>
    dsimp only at stepped
    split_ifs at stepped <;> cases stepped <;> simp [held,Unquoted]
  | double taken =>
    dsimp only at stepped
    split_ifs at stepped <;> cases stepped <;> simp_all [held,Unquoted,weight,quoting]
  | escaped taken =>
    dsimp only at stepped
    split_ifs at stepped
    cases stepped
    simp [held,Unquoted]
  | doubleEscaped taken =>
    dsimp only at stepped
    have backslash : weight '\\' = 2 := rfl
    split_ifs at stepped <;> cases stepped
    · simp only [weighTokens_nil,held,weigh_append,weigh_cons,weigh_nil,Unquoted]
      exact ⟨by omega,fun outside => outside.elim⟩
    · simp only [weighTokens_nil,held,weigh_append,weigh_cons,weigh_nil,backslash,Unquoted]
      exact ⟨by omega,fun outside => outside.elim⟩
  | comment =>
    dsimp only at stepped
    split_ifs at stepped
    cases stepped
    exact ⟨Nat.zero_le _,fun _ => ⟨fun _ => alone,fun _ => trivial⟩⟩

/-! The redirection is read once, where the file stands. -/

theorem step_reached (file : List Char) (mode : Mode) (c : Char) (rest : List Char) (tokens : List Token)
    (stepped : step file mode c rest = .ok (tokens,none)) :
    (c = '>' ∧ rest = ' ' :: file) ∧
      (mode = .space ∧ tokens = [] ∨ ∃ taken, mode = .word taken ∧ tokens = [.word taken]) := by
  unfold step at stepped
  cases mode with
  | space =>
    dsimp only at stepped
    split_ifs at stepped with found <;> cases stepped
    exact ⟨found,.inl ⟨rfl,rfl⟩⟩
  | word taken =>
    dsimp only at stepped
    split_ifs at stepped with found <;> cases stepped
    exact ⟨⟨found.1,found.2.1⟩,.inr ⟨taken,rfl,rfl⟩⟩
  | single taken => dsimp only at stepped; split_ifs at stepped <;> cases stepped
  | double taken => dsimp only at stepped; split_ifs at stepped <;> cases stepped
  | escaped taken => dsimp only at stepped; split_ifs at stepped; cases stepped
  | doubleEscaped taken => dsimp only at stepped; split_ifs at stepped <;> cases stepped
  | comment => dsimp only at stepped; split_ifs at stepped; cases stepped

/-- What is read one character on. -/
theorem read_cons (file : List Char) (mode : Mode) (c : Char) (rest : List Char) (tokens : List Token)
    (reads : read file mode (c :: rest) = .ok tokens) :
    step file mode c rest = .ok (tokens,none) ∨
      ∃ first next later, step file mode c rest = .ok (first,some next) ∧
        read file next rest = .ok later ∧ tokens = first ++ later := by
  rw [Shell.read] at reads
  split at reads
  · contradiction
  · rename_i first stepped
    cases reads
    exact .inl stepped
  · rename_i first next stepped
    cases later : read file next rest with
    | error fault => rw [later] at reads; contradiction
    | ok later' =>
      rw [later] at reads
      cases reads
      exact .inr ⟨first,next,later',stepped,later,rfl⟩

theorem read_behind (file : List Char) (mode : Mode) (line : List Char) (tokens : List Token)
    (short : line.length ≤ file.length+1) : read file mode line ≠ .ok tokens := by
  induction line generalizing mode tokens with
  | nil =>
    intro reads
    contradiction
  | cons c rest ih =>
    intro reads
    rw [List.length_cons] at short
    rcases read_cons file mode c rest tokens reads with stepped | ⟨_,next,later,_,reads,_⟩
    · have length := congrArg List.length (step_reached file mode c rest tokens stepped).1.2
      rw [List.length_cons] at length
      omega
    · exact ih next later (by omega) reads

/-- A blank leaves the redirection inside a word only if it is escaped. -/
theorem step_blank_word (file : List Char) (mode : Mode) (rest : List Char) (tokens : List Token)
    (taken : List Char) (stepped : step file mode ' ' rest = .ok (tokens,some (.word taken))) :
    ∃ before, mode = .escaped before ∧ tokens = [] ∧ taken = before ++ [' '] := by
  cases mode with
  | space => cases stepped
  | word before => cases stepped
  | single before => cases stepped
  | double before => cases stepped
  | escaped before =>
    cases stepped
    exact ⟨before,rfl,rfl,rfl⟩
  | doubleEscaped before => cases stepped
  | comment => cases stepped

theorem read_end_light (file : List Char) (mode : Mode) (tokens : List Token)
    (reads : read file mode (" > ".toList ++ file) = .ok tokens) : weighTokens tokens ≤ held mode + 1 := by
  have reads : read file mode (' ' :: '>' :: ' ' :: file) = .ok tokens := reads
  rcases read_cons file mode ' ' _ tokens reads with reached | ⟨first,next,later,stepped,behind,rfl⟩
  · exact absurd (step_reached file mode ' ' _ tokens reached).1.1 (by decide)
  rcases read_cons file next '>' _ later behind with reached | ⟨_,other,rest,_,late,_⟩
  · have light := (step_light file mode next ' ' _ first stepped).1
    rw [weighTokens_append]
    rcases (step_reached file next '>' _ later reached).2 with ⟨rfl,rfl⟩ | ⟨taken,rfl,rfl⟩
    · exact light
    · obtain ⟨before,rfl,rfl,rfl⟩ := step_blank_word file mode _ first taken stepped
      simp [held,weight,quoting]
  · exact absurd late (read_behind file other _ rest (Nat.le_refl _))

/-- A text adds no more than it weighs, and less if there is something to be taken. -/
theorem read_light (file text : List Char) (mode : Mode) (tokens : List Token)
    (reads : read file mode (text ++ (" > ".toList ++ file)) = .ok tokens) :
    weighTokens tokens ≤ held mode + weigh text + 1 ∧
      (Unquoted mode → (∃ c ∈ text, quoting c = true) → weighTokens tokens < held mode + weigh text + 1) := by
  induction text generalizing mode tokens with
  | nil =>
    refine ⟨read_end_light file mode tokens reads,?_⟩
    rintro _ ⟨c,member,_⟩
    exact absurd member List.not_mem_nil
  | cons c text ih =>
    rcases read_cons file mode c _ tokens reads with reached | ⟨first,next,later,stepped,behind,rfl⟩
    · have length := congrArg List.length (step_reached file mode c _ tokens reached).1.2
      simp at length
      omega
    obtain ⟨light,unquoted⟩ := step_light file mode next c _ first stepped
    obtain ⟨most,less⟩ := ih next later behind
    rw [weighTokens_append,weigh_cons]
    refine ⟨by omega,?_⟩
    rintro outside ⟨d,member,quotes⟩
    obtain ⟨taken,kept⟩ := unquoted outside
    cases here : quoting c with
    | true =>
      have strict := taken here
      omega
    | false =>
      have inside : d ∈ text := by
        rcases List.mem_cons.mp member with rfl | inside
        · rw [here] at quotes
          contradiction
        · exact inside
      have strict := less (kept here) ⟨d,inside,quotes⟩
      omega

/-! What echo prints of its words. -/

theorem pipeline_light (tokens : List Token) :
    ((pipeline tokens).map weighWords).sum ≤ weighTokens tokens := by
  induction tokens with
  | nil => exact Nat.le_refl 0
  | cons token tokens ih =>
    cases token with
    | pipe =>
      rw [pipeline,List.map_cons,List.sum_cons,weighTokens_pipe]
      exact (Nat.zero_add _).trans_le ih
    | word text =>
      rw [weighTokens_word,pipeline]
      cases stages : pipeline tokens with
      | nil => exact Nat.zero_le _
      | cons stage stages =>
        rw [stages,List.map_cons,List.sum_cons] at ih
        rw [List.modifyHead_cons,List.map_cons,List.sum_cons,weighWords_cons]
        omega

theorem last_light (tokens : List Token) : weighWords ((pipeline tokens).getLastD []) ≤ weighTokens tokens := by
  refine Nat.le_trans ?_ (pipeline_light tokens)
  generalize pipeline tokens = stages
  induction stages with
  | nil => exact Nat.le_refl 0
  | cons stage stages ih =>
    rw [List.map_cons,List.sum_cons]
    cases stages with
    | nil => exact Nat.le_add_right _ _
    | cons next stages => exact Nat.le_add_left_of_le ih

theorem unwords_light (list : List (List Char)) : weigh (unwords list) ≤ weighWords list - 1 := by
  induction list with
  | nil => exact Nat.le_refl 0
  | cons word list ih =>
    rw [weighWords_cons]
    cases list with
    | nil => simp [unwords]
    | cons next list =>
      have joined : unwords (word :: next :: list) = word ++ ' ' :: unwords (next :: list) := by
        simp [unwords]
      have blank : weight ' ' = 1 := rfl
      rw [weighWords_cons] at ih
      rw [joined,weigh_append,weigh_cons,weighWords_cons,blank]
      omega

theorem dropped_light (list : List (List Char)) :
    weighWords (list.dropWhile isOption) ≤ weighWords list := by
  induction list with
  | nil => exact Nat.le_refl 0
  | cons word list ih =>
    rw [List.dropWhile_cons]
    split
    · rw [weighWords_cons]
      omega
    · exact Nat.le_refl _

/-- What an escape that is not over may still print. -/
def pending : Echo.Mode → Nat
  | .plain | .stopped => 0
  | .escaped => 2
  | .hexFirst => 3
  | .hex _ => 4
  | .octal _ _ => 3

theorem plainStep_light (c : Char) :
    weigh (Echo.plainStep c).2 + pending (Echo.plainStep c).1 ≤ weight c := by
  unfold Echo.plainStep
  split
  · rename_i backslash
    rw [backslash]
    exact Nat.le_refl 2
  · exact Nat.le_refl _

theorem escapedStep_light (c : Char) :
    weigh (Echo.escapedStep c).2 + pending (Echo.escapedStep c).1 ≤ 2 + weight c := by
  unfold Echo.escapedStep
  split
  case h_12 =>
    have backslash : weight '\\' = 2 := rfl
    have positive := weight_pos c
    split_ifs <;> simp only [weigh_nil,weigh_cons,pending,backslash] <;> omega
  all_goals decide

theorem step_escape_light (mode : Echo.Mode) (c : Char) :
    weigh (Echo.step mode c).2 + pending (Echo.step mode c).1 ≤ pending mode + weight c := by
  have plain := plainStep_light c
  have positive := weight_pos c
  have most (code : Nat) := weight_le (Char.ofNat code)
  have backslash : weight '\\' = 2 := rfl
  have letter : weight 'x' = 1 := rfl
  unfold Echo.step
  cases mode with
  | plain => simpa [pending] using plain
  | escaped => exact escapedStep_light c
  | hexFirst =>
    have before : pending .hexFirst = 3 := rfl
    have after (value : Nat) : pending (.hex value) = 4 := rfl
    dsimp only
    split_ifs <;> simp only [weigh_nil,weigh_cons,before,after,backslash,letter] <;> omega
  | hex value =>
    have before : pending (.hex value) = 4 := rfl
    have after : pending .plain = 0 := rfl
    have one := most (16*value+Decimal.hexDigit c)
    have two := most value
    dsimp only
    split_ifs <;> simp only [weigh_nil,weigh_cons,before,after] <;> omega
  | octal left value =>
    have before (left value : Nat) : pending (.octal left value) = 3 := rfl
    have one := most (value % 256)
    dsimp only
    split_ifs <;> simp only [weigh_nil,weigh_cons,before] <;> omega
  | stopped => exact Nat.zero_le _

theorem unescape_light (mode : Echo.Mode) (text : List Char) :
    weigh (unescape mode text).1 ≤ pending mode + weigh text := by
  induction text generalizing mode with
  | nil =>
    have most (code : Nat) := weight_le (Char.ofNat code)
    cases mode with
    | hex value =>
      have one := most value
      simp only [unescape,weigh_nil,weigh_cons,pending]
      omega
    | octal left value =>
      have one := most (value % 256)
      simp only [unescape,weigh_nil,weigh_cons,pending]
      omega
    | plain => decide
    | escaped => decide
    | hexFirst => decide
    | stopped => decide
  | cons c text ih =>
    have stepped := step_escape_light mode c
    have later := ih (Echo.step mode c).1
    have cut : (unescape mode (c :: text)).1 = (Echo.step mode c).2 ++ (unescape (Echo.step mode c).1 text).1 := rfl
    rw [cut,weigh_append,weigh_cons]
    omega

theorem takeWhile_light (kept : Char → Bool) (text : List Char) :
    weigh (text.takeWhile kept) ≤ weigh text := by
  conv_rhs => rw [← List.takeWhile_append_dropWhile (p := kept) (l := text),weigh_append]
  exact Nat.le_add_right _ _

/-- The first line that is printed. -/
def topLine (printed : List Char) : List Char := printed.takeWhile (· != '\n')

theorem topLine_light (text ending : List Char) (ends : ending = [] ∨ ending = ['\n']) :
    weigh (topLine (text ++ ending)) ≤ weigh text := by
  have light := takeWhile_light (· != '\n') text
  rw [topLine,List.takeWhile_append]
  split
  · rcases ends with rfl | rfl <;> simp
  · exact light

theorem echo_light (args : List (List Char)) : weigh (topLine (echo args)) ≤ weighWords args - 1 := by
  have words := unwords_light (args.dropWhile isOption)
  have dropped := dropped_light args
  have escaped := unescape_light .plain (unwords (args.dropWhile isOption))
  rw [show pending .plain = 0 from rfl,Nat.zero_add] at escaped
  have printed (text : List Char) (more : Bool) (light : weigh text ≤ weigh (unwords (args.dropWhile isOption))) :
      weigh (topLine (text ++ if more then [] else ['\n'])) ≤ weighWords args - 1 := by
    have line := topLine_light text (if more then [] else ['\n']) (by cases more <;> simp)
    omega
  unfold echo
  dsimp only
  split
  · exact printed _ _ escaped
  · exact printed _ _ (Nat.le_refl _)

/-! What stands in the way of the redirection. -/

theorem step_refused (file : List Char) (mode : Mode) (c : Char) (rest : List Char) (fault : Fault)
    (stepped : step file mode c rest = .error fault) : isSpecial c = true ∨ c = '|' := by
  have newline : isSpecial '\n' = true := by decide
  have dollar : isSpecial '$' = true := by decide
  have backtick : isSpecial '\x60' = true := by decide
  unfold step at stepped
  cases mode with
  | space =>
    dsimp only at stepped
    split_ifs at stepped with _ special _ _ pipe
    · exact .inl special
    · exact .inr pipe
  | word taken =>
    dsimp only at stepped
    split_ifs at stepped with _ special _ pipe
    · exact .inl special
    · exact .inr pipe
  | single taken =>
    dsimp only at stepped
    split_ifs at stepped
  | double taken =>
    dsimp only at stepped
    split_ifs at stepped with _ _ expands
    rcases expands with rfl | rfl
    · exact .inl dollar
    · exact .inl backtick
  | escaped taken =>
    dsimp only at stepped
    split_ifs at stepped with ends
    exact .inl (ends ▸ newline)
  | doubleEscaped taken =>
    dsimp only at stepped
    split_ifs at stepped with ends
    exact .inl (ends ▸ newline)
  | comment =>
    dsimp only at stepped
    split_ifs at stepped with ends
    exact .inl (ends ▸ newline)

theorem read_unknown (file : List Char) (mode : Mode) (c : Char) (rest : List Char)
    (reads : read file mode (c :: rest) = .error .unknown) :
    (∃ fault, step file mode c rest = .error fault) ∨
      ∃ first next, step file mode c rest = .ok (first,some next) ∧ read file next rest = .error .unknown := by
  rw [Shell.read] at reads
  split at reads
  · rename_i fault stepped
    exact .inl ⟨fault,stepped⟩
  · contradiction
  · rename_i first next stepped
    cases later : read file next rest with
    | ok tokens => rw [later] at reads; contradiction
    | error fault =>
      rw [later] at reads
      cases reads
      exact .inr ⟨first,next,stepped,later⟩

/-- A line in which nothing is special is within the model. -/
theorem read_known (file : List Char) (mode : Mode) (line : List Char)
    (plain : ∀ c ∈ line, isSpecial c = false ∧ c ≠ '|') : read file mode line ≠ .error .unknown := by
  induction line generalizing mode with
  | nil =>
    intro reads
    rw [Shell.read] at reads
    cases reads
  | cons c rest ih =>
    intro reads
    obtain ⟨special,pipe⟩ := plain c List.mem_cons_self
    rcases read_unknown file mode c rest reads with ⟨fault,refused⟩ | ⟨_,next,_,later⟩
    · rcases step_refused file mode c rest fault refused with found | found
      · rw [special] at found
        contradiction
      · exact pipe found
    · exact ih next (fun d member => plain d (List.mem_cons_of_mem _ member)) later

theorem step_redirect (file : List Char) (mode next : Mode) (first : List Token) (fault : Fault)
    (blank : step file mode ' ' ('>' :: ' ' :: file) = .ok (first,some next)) :
    step file next '>' (' ' :: file) ≠ .error fault := by
  intro refused
  cases next with
  | space => rw [step,if_pos ⟨rfl,rfl⟩] at refused; contradiction
  | word taken =>
    obtain ⟨before,_,_,rfl⟩ := step_blank_word file mode _ first taken blank
    have apart : (!(before ++ [' ']).all Char.isDigit) = true := by simp
    rw [step,if_pos ⟨rfl,rfl,apart⟩] at refused
    contradiction
  | single taken => cases refused
  | double taken => cases refused
  | escaped taken => cases refused
  | doubleEscaped taken => cases refused
  | comment => cases refused

theorem read_text_known (file text : List Char) (mode : Mode)
    (name : ∀ c ∈ file, isSpecial c = false ∧ c ≠ '|')
    (reads : read file mode (text ++ (" > ".toList ++ file)) = .error .unknown) :
    ∃ c ∈ text, isSpecial c = true ∨ c = '|' := by
  induction text generalizing mode with
  | nil =>
    rcases read_unknown file mode ' ' _ reads with ⟨fault,refused⟩ | ⟨first,next,stepped,behind⟩
    · exact absurd (step_refused file mode ' ' _ fault refused) (by decide)
    rcases read_unknown file next '>' _ behind with ⟨fault,refused⟩ | ⟨_,other,_,late⟩
    · exact absurd refused (step_redirect file mode next first fault stepped)
    · refine absurd late (read_known file other _ ?_)
      exact List.forall_mem_cons.mpr ⟨by decide,name⟩
  | cons c text ih =>
    rcases read_unknown file mode c _ reads with ⟨fault,refused⟩ | ⟨_,next,_,later⟩
    · exact ⟨c,List.mem_cons_self,step_refused file mode c _ fault refused⟩
    · obtain ⟨d,member,found⟩ := ih next later
      exact ⟨d,List.mem_cons_of_mem _ member,found⟩

theorem step_pipe (file : List Char) (mode : Mode) (c : Char) (rest : List Char) (tokens : List Token)
    (next : Option Mode) (stepped : step file mode c rest = .ok (tokens,next)) (pipe : .pipe ∈ tokens) :
    c = '|' := by
  by_contra other
  unfold step at stepped
  cases mode
  all_goals
    dsimp only at stepped
    split_ifs at stepped <;> cases stepped <;> simp at pipe

theorem read_pipeless (file : List Char) (mode : Mode) (line : List Char) (tokens : List Token)
    (reads : read file mode line = .ok tokens) (pipe : .pipe ∈ tokens) : '|' ∈ line := by
  induction line generalizing mode tokens with
  | nil => contradiction
  | cons c rest ih =>
    rcases read_cons file mode c rest tokens reads with stepped | ⟨first,next,later,stepped,behind,rfl⟩
    · rw [step_pipe file mode c rest tokens none stepped pipe]
      exact List.mem_cons_self
    · rcases List.mem_append.mp pipe with here | there
      · rw [step_pipe file mode c rest first (some next) stepped here]
        exact List.mem_cons_self
      · exact List.mem_cons_of_mem _ (ih next later behind there)

theorem read_comment (file line : List Char) (tokens : List Token) : read file .comment line ≠ .ok tokens := by
  induction line generalizing tokens with
  | nil =>
    intro reads
    contradiction
  | cons c rest ih =>
    intro reads
    rcases read_cons file .comment c rest tokens reads with stepped | ⟨_,next,later,stepped,behind,_⟩
    · rcases (step_reached file .comment c rest tokens stepped).2 with ⟨same,_⟩ | ⟨_,same,_⟩ <;> cases same
    · unfold step at stepped
      dsimp only at stepped
      split_ifs at stepped
      cases stepped
      exact ih later behind

theorem ordinary_iff (c : Char) : ordinary c = true ↔ isSpecial c = false ∧ quoting c = false := by
  simp [ordinary,quoting,and_assoc]

theorem step_special (file : List Char) (mode : Mode) (c : Char) (rest : List Char)
    (inside : mode = .space ∨ ∃ taken, mode = .word taken) (before : rest ≠ ' ' :: file)
    (special : isSpecial c = true) : step file mode c rest = .error .unknown := by
  rcases inside with rfl | ⟨taken,rfl⟩
  · rw [step,if_neg (fun found => before found.2),if_pos special]
  · rw [step,if_neg (fun found => before found.2.1),if_pos special]

/-- Outside of quotes a character that gets on to the redirection is an ordinary one. -/
theorem read_unquoted_cons (file : List Char) (c : Char) (text : List Char) (mode : Mode) (tokens : List Token)
    (outside : mode = .space ∨ ∃ taken, mode = .word taken) (unquoted : quoting c = false)
    (reads : read file mode (c :: (text ++ (" > ".toList ++ file))) = .ok tokens) :
    ordinary c = true ∧ ∃ first next later,
      step file mode c (text ++ (" > ".toList ++ file)) = .ok (first,some next) ∧
      read file next (text ++ (" > ".toList ++ file)) = .ok later := by
  have before : text ++ (" > ".toList ++ file) ≠ ' ' :: file := by
    intro same
    have length := congrArg List.length same
    simp at length
    omega
  rcases read_cons file mode c _ tokens reads with reached | ⟨first,next,later,stepped,rest,_⟩
  · exact absurd (step_reached file mode c _ tokens reached).1.2 before
  · refine ⟨(ordinary_iff c).mpr ⟨?_,unquoted⟩,first,next,later,stepped,rest⟩
    by_contra special
    rw [step_special file mode c _ outside before (by simpa using special)] at stepped
    contradiction

/-- A text without quotes gets to the redirection only if nothing in it is special. -/
theorem read_unquoted (file text : List Char) (tokens : List Token)
    (unquoted : ∀ c ∈ text, quoting c = false)
    (reads : read file .space (text ++ (" > ".toList ++ file)) = .ok tokens) : Literal text := by
  have both : (∀ tokens, read file .space (text ++ (" > ".toList ++ file)) = .ok tokens →
        (∀ c ∈ text, ordinary c = true) ∧ ∀ word ∈ words text, word.head? ≠ some '#') ∧
      ∀ taken, IsWord taken → taken.head? ≠ some '#' → ∀ tokens,
        read file (.word taken) (text ++ (" > ".toList ++ file)) = .ok tokens →
        (∀ c ∈ text, ordinary c = true) ∧ ∀ word ∈ words (taken ++ text), word.head? ≠ some '#' := by
    clear reads
    induction text with
    | nil =>
      refine ⟨fun _ _ => by simp [words_nil],fun taken isWord uncommented _ _ => ?_⟩
      rw [List.append_nil,words_single taken isWord]
      simpa using uncommented
    | cons c text ih =>
      obtain ⟨between,inside⟩ := ih (fun d member => unquoted d (List.mem_cons_of_mem _ member))
      have behind (mode : Mode) (outside : mode = .space ∨ ∃ taken, mode = .word taken) (tokens : List Token) :=
        read_unquoted_cons file c text mode tokens outside (unquoted c List.mem_cons_self)
      have all (plain : ordinary c = true) (rest : ∀ d ∈ text, ordinary d = true) :
          ∀ d ∈ c :: text, ordinary d = true := List.forall_mem_cons.mpr ⟨plain,rest⟩
      cases separates : blank c with
      | true =>
        refine ⟨fun tokens reads => ?_,fun taken isWord uncommented tokens reads => ?_⟩
        · obtain ⟨plain,first,next,later,stepped,rest⟩ := behind .space (.inl rfl) tokens reads
          rw [step_space_blank file _ c plain separates] at stepped
          cases stepped
          obtain ⟨chars,comments⟩ := between later rest
          rw [words_blank c text separates]
          exact ⟨all plain chars,comments⟩
        · obtain ⟨plain,first,next,later,stepped,rest⟩ := behind (.word taken) (.inr ⟨taken,rfl⟩) tokens reads
          rw [step_word_blank file _ c plain taken separates] at stepped
          cases stepped
          obtain ⟨chars,comments⟩ := between later rest
          rw [words_append taken text c isWord separates]
          exact ⟨all plain chars,List.forall_mem_cons.mpr ⟨uncommented,comments⟩⟩
      | false =>
        refine ⟨fun tokens reads => ?_,fun taken isWord uncommented tokens reads => ?_⟩
        · obtain ⟨plain,first,next,later,stepped,rest⟩ := behind .space (.inl rfl) tokens reads
          obtain ⟨redirects,special,pipe⟩ := ordinary_unread c plain
          by_cases comment : c = '#'
          · rw [step,if_neg (by simp [redirects]),if_neg (by simp [special]),if_neg (by simp [separates]),
              if_pos comment] at stepped
            cases stepped
            exact absurd rest (read_comment file _ later)
          · rw [step_space_ordinary file _ c plain separates comment] at stepped
            cases stepped
            have isWord : IsWord [c] := ⟨by simp,by simpa using separates⟩
            obtain ⟨chars,comments⟩ := inside [c] isWord (by simpa using comment) later rest
            exact ⟨all plain chars,comments⟩
        · obtain ⟨plain,first,next,later,stepped,rest⟩ := behind (.word taken) (.inr ⟨taken,rfl⟩) tokens reads
          rw [step_word_ordinary file _ c plain taken separates] at stepped
          cases stepped
          have regroup : taken ++ c :: text = (taken ++ [c]) ++ text := by simp
          have starts : (taken ++ [c]).head? ≠ some '#' := by
            rw [List.head?_append_of_ne_nil _ isWord.1]
            exact uncommented
          obtain ⟨chars,comments⟩ := inside (taken ++ [c]) (isWord.snoc _ c separates) starts later rest
          rw [regroup]
          exact ⟨all plain chars,comments⟩
  exact both.1 tokens reads

theorem read_echo (file rest : List Char) :
    read file .space ("echo ".toList ++ rest) = (.word "echo".toList :: ·) <$> read file .space rest := by
  have letters : read file .space ("echo ".toList ++ rest) = ([] ++ ·) <$> ([] ++ ·) <$> ([] ++ ·) <$>
      ([] ++ ·) <$> ([.word "echo".toList] ++ ·) <$> read file .space rest := rfl
  rw [letters]
  cases read file .space rest <;> rfl

/-! Texts that do not come back. -/

section
variable (program : List (List Char) → List Char) (unknown : List Char → List Char)

theorem pipeline_pipeless (word : List Char) (tokens : List Token) (pipeless : .pipe ∉ tokens) :
    ∃ args, pipeline (.word word :: tokens) = [word :: args] := by
  have words : ∃ args, pipeline tokens = [args] := by
    induction tokens with
    | nil => exact ⟨[],rfl⟩
    | cons token tokens ih =>
      obtain ⟨args,rest⟩ := ih (fun later => pipeless (List.mem_cons_of_mem _ later))
      cases token with
      | pipe => exact absurd List.mem_cons_self pipeless
      | word text => exact ⟨text :: args,by rw [pipeline,rest,List.modifyHead_cons]⟩
  obtain ⟨args,rest⟩ := words
  exact ⟨args,by rw [pipeline,rest,List.modifyHead_cons]⟩

theorem weigh_pos (c : Char) (text : List Char) (member : c ∈ text) : 0 < weigh text := by
  obtain ⟨first,second,rfl⟩ := List.append_of_mem member
  have positive := weight_pos c
  rw [weigh_append,weigh_cons]
  omega

/-- Of tokens that are lighter than the text the last command makes nothing as heavy,
unless it is a program behind a pipe. -/
theorem stage_light (text : List Char) (tokens : List Token) (printed : List Char)
    (full : 0 < weigh text) (light : weighTokens tokens < held .space + weigh text + 1)
    (prints : simple program ((pipeline (.word "echo".toList :: tokens)).getLastD []) = printed) :
    printed = [] ∨ weigh (topLine printed) < weigh text ∨
      .pipe ∈ tokens ∧ ∃ command, printed = program command := by
  have letters : weigh "echo".toList = 4 := rfl
  have last := last_light (.word "echo".toList :: tokens)
  rw [show held .space = 0 from rfl,Nat.zero_add] at light
  rw [weighTokens_word,letters] at last
  cases stage : (pipeline (.word "echo".toList :: tokens)).getLastD [] with
  | nil =>
    rw [stage] at prints
    exact .inl prints.symm
  | cons word args =>
    rw [stage,simple] at prints
    rw [stage,weighWords_cons] at last
    split at prints
    · rename_i echoes
      have shown := echo_light args
      rw [echoes,letters] at last
      rw [prints] at shown
      exact .inr (.inl (by omega))
    · rename_i other
      refine .inr (.inr ⟨?_,_,prints.symm⟩)
      by_contra pipeless
      obtain ⟨rest,alone⟩ := pipeline_pipeless "echo".toList tokens pipeless
      rw [alone] at stage
      cases stage
      exact other rfl

/-- Of a text in which something is special nothing is printed, or it is left to the
shell or to a program behind a pipe what is, or the first line is lighter than the text. -/
theorem output_special (file text printed : List Char) (name : ∀ c ∈ file, isSpecial c = false ∧ c ≠ '|')
    (special : ¬ Literal text) (prints : output program unknown file (echoInto text file) = printed) :
    printed = [] ∨ weigh (topLine printed) < weigh text ∨
      (∃ c ∈ text, isSpecial c = true ∨ c = '|') ∧
        (printed = unknown (echoInto text file) ∨ ∃ command, printed = program command) := by
  have line : read file .space (echoInto text file) =
      (.word "echo".toList :: ·) <$> read file .space (text ++ (" > ".toList ++ file)) := by
    rw [← read_echo,echoInto,List.append_assoc,List.append_assoc]
  unfold output at prints
  rw [line] at prints
  cases reads : read file .space (text ++ (" > ".toList ++ file)) with
  | error fault =>
    rw [reads] at prints
    cases fault with
    | unwritten => exact .inl prints.symm
    | unknown => exact .inr (.inr ⟨read_text_known file text .space name reads,.inl prints.symm⟩)
  | ok tokens =>
    have quotes : ∃ c ∈ text, quoting c = true := by
      by_contra unquoted
      push Not at unquoted
      exact special (read_unquoted file text tokens (by simpa using unquoted) reads)
    obtain ⟨quote,inside,quoted⟩ := quotes
    rw [reads] at prints
    change (if (pipeline (.word "echo".toList :: tokens)).dropLast.any List.isEmpty then [] else
      simple program ((pipeline (.word "echo".toList :: tokens)).getLastD [])) = printed at prints
    split at prints
    · exact .inl prints.symm
    have light := (read_light file text .space tokens reads).2 trivial ⟨quote,inside,quoted⟩
    rcases stage_light program text tokens printed (weigh_pos quote text inside) light prints with
      empty | light | ⟨pipe,asked⟩
    · exact .inl empty
    · exact .inr (.inl light)
    · refine .inr (.inr ⟨⟨'|',?_,.inr rfl⟩,.inr asked⟩)
      rcases List.mem_append.mp (read_pipeless file .space _ tokens reads pipe) with here | behind
      · exact here
      · rcases List.mem_append.mp behind with between | there
        · exact absurd between (by decide)
        · exact absurd rfl (name '|' there).2

end

end Ostest.Lib.EchoBack
