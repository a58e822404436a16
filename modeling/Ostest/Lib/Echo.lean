import Ostest.Lib.Words

/-! The echo of bash and of coreutils: leading words made of a dash and the
letters n, e and E are options, and after -e the backslash starts an escape. -/
namespace Ostest.Lib.Echo
open Lib.Words
open Lib.Decimal (isOctDigit isHexDigit hexDigit)

def isOption : List Char → Bool
  | '-' :: letters => !letters.isEmpty && letters.all (fun c => c == 'n' || c == 'e' || c == 'E')
  | _ => false

inductive Mode where
  | plain
  | escaped
  | hexFirst
  | hex (value : Nat)
  | octal (left value : Nat)
  | stopped

def plainStep (c : Char) : Mode × List Char := if c = '\\' then (.escaped,[]) else (.plain,[c])

def escapedStep (c : Char) : Mode × List Char :=
  match c with
  | 'a' => (.plain,['\x07'])
  | 'b' => (.plain,['\x08'])
  | 'c' => (.stopped,[])
  | 'e' => (.plain,['\x1b'])
  | 'f' => (.plain,['\x0c'])
  | 'n' => (.plain,['\n'])
  | 'r' => (.plain,['\r'])
  | 't' => (.plain,['\t'])
  | 'v' => (.plain,['\x0b'])
  | 'x' => (.hexFirst,[])
  | '\\' => (.plain,['\\'])
  | c => if c = '0' then (.octal 3 0,[]) else if isOctDigit c then (.octal 2 (hexDigit c),[])
    else (.plain,['\\',c])

def step (mode : Mode) (c : Char) : Mode × List Char :=
  match mode with
  | .plain => plainStep c
  | .escaped => escapedStep c
  | .hexFirst => if isHexDigit c then (.hex (hexDigit c),[]) else
    ((plainStep c).1,'\\' :: 'x' :: (plainStep c).2)
  | .hex value => if isHexDigit c then (.plain,[Char.ofNat (16*value+hexDigit c)]) else
    ((plainStep c).1,Char.ofNat value :: (plainStep c).2)
  | .octal left value => if 0 < left && isOctDigit c then (.octal (left-1) (8*value+hexDigit c),[]) else
    ((plainStep c).1,Char.ofNat (value % 256) :: (plainStep c).2)
  | .stopped => (.stopped,[])

/-- The characters printed, and whether the rest was cut off by `\c`. -/
def unescape (mode : Mode) : List Char → List Char × Bool
  | [] => match mode with
    | .plain => ([],false)
    | .escaped => (['\\'],false)
    | .hexFirst => (['\\','x'],false)
    | .hex value => ([Char.ofNat value],false)
    | .octal _ value => ([Char.ofNat (value % 256)],false)
    | .stopped => ([],true)
  | c :: rest =>
    let (next,printed) := step mode c
    let (tail,cut) := unescape next rest
    (printed ++ tail,cut)

def escapes (options : List (List Char)) : Bool :=
  (options.flatten.filter (fun c => c == 'e' || c == 'E')).getLast? == some 'e'

def echo (args : List (List Char)) : List Char :=
  let options := args.takeWhile isOption
  let text := unwords (args.dropWhile isOption)
  let (text,cut) := if escapes options then unescape .plain text else (text,false)
  text ++ if cut || options.any (fun option => option.contains 'n') then [] else ['\n']

theorem not_isOption (word : List Char) (plain : word.head? ≠ some '-') : isOption word = false := by
  unfold isOption
  split
  · simp at plain
  · rfl

theorem echo_plain (args : List (List Char)) (plain : ∀ first ∈ args.head?, isOption first = false) :
    echo args = unwords args ++ ['\n'] := by
  cases args with
  | nil => rfl
  | cons first rest =>
    have literal : isOption first = false := plain first (by simp)
    simp [echo,literal,escapes]

theorem unescape_plain (text : List Char) (plain : ∀ c ∈ text, c ≠ '\\') :
    unescape .plain text = (text,false) := by
  induction text with
  | nil => rfl
  | cons c text ih =>
    have stepped : step .plain c = (.plain,[c]) := if_neg (plain c (by simp))
    rw [unescape,stepped]
    dsimp only
    rw [ih (fun d member => plain d (List.mem_cons_of_mem _ member))]
    rfl

/-- Without backslashes echo drops its options, and adds a newline or nothing. -/
theorem echo_unescaped (args : List (List Char)) (plain : ∀ word ∈ args, ∀ c ∈ word, c ≠ '\\') :
    ∃ ending, (ending = [] ∨ ending = ['\n']) ∧
      echo args = unwords (args.dropWhile isOption) ++ ending := by
  have kept : ∀ c ∈ unwords (args.dropWhile isOption), c ≠ '\\' := by
    intro c member
    rcases mem_unwords _ c member with rfl | ⟨word,listed,inside⟩
    · decide
    · exact plain word ((List.dropWhile_sublist isOption).subset listed) c inside
  have text : (if escapes (args.takeWhile isOption) then
      unescape .plain (unwords (args.dropWhile isOption)) else
      (unwords (args.dropWhile isOption),false)) = (unwords (args.dropWhile isOption),false) := by
    rw [unescape_plain _ kept,ite_self]
  unfold echo
  dsimp only
  rw [text]
  dsimp only
  refine ⟨_,?_,rfl⟩
  split
  · exact .inl rfl
  · exact .inr rfl

end Ostest.Lib.Echo
