import Ostest.Lib.Getopt

/-! The getopts builtin of bash, as a while loop calls it until it answers no:
the options in front of the first other word, letter by letter. -/
namespace Ostest.Lib.Getopts
open Lib.Getopt

/-- An option with its argument; `?` stands for a letter that is not in the
option string, or whose argument is missing. -/
abbrev Answer := Char × Arg

def letters (optstring : List Char) (next : Option Arg) : List Char → List Answer × Bool
  | [] => ([],false)
  | c :: rest => match takes optstring c with
    | none => (('?',[]) :: (letters optstring next rest).1,(letters optstring next rest).2)
    | some .nothing => ((c,[]) :: (letters optstring next rest).1,(letters optstring next rest).2)
    | some _ => match rest,next with
      | [],none => ([('?',[])],false)
      | [],some arg => ([(c,arg)],true)
      | rest,_ => ([(c,rest)],false)

def scan (optstring : List Char) : List Arg → List Answer × Nat
  | [] => ([],0)
  | ['-','-'] :: _ => ([],1)
  | [('-' :: c :: rest)] => ((letters optstring none (c :: rest)).1,1)
  | ('-' :: c :: rest) :: next :: args =>
    let (answers,took) := letters optstring (some next) (c :: rest)
    let (later,count) := if took then scan optstring args else scan optstring (next :: args)
    (answers ++ later,count + if took then 2 else 1)
  | _ :: _ => ([],0)

/-- The answers to `while getopts`, and OPTIND behind the loop. -/
def getopts (optstring : List Char) (args : List Arg) (optind : Nat) : List Answer × Nat :=
  let (answers,count) := scan optstring (args.drop (optind-1))
  (answers,min optind (args.length+1) + count)

end Ostest.Lib.Getopts
