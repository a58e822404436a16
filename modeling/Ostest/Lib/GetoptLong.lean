import Mathlib.Data.List.TakeWhile
import Ostest.Lib.Getopt

/-! getopt_long of the GNU C library: an element that starts with two dashes is a
long option, by its name or by an abbreviation that is not ambiguous. -/
namespace Ostest.Lib.GetoptLong
open Getopt

/-- A long option that stands for a short one. -/
structure LongOption where
  name : List Char
  hasArg : Takes
  val : Char

inductive Found where
  | none
  | one (option : LongOption)
  | ambiguous

/-- Options that differ only in their name are no ambiguity. -/
def sameMeaning (one other : LongOption) : Bool :=
  one.val == other.val && match one.hasArg, other.hasArg with
    | .nothing, .nothing => true
    | .required, .required => true
    | .optional, .optional => true
    | _, _ => false

def abbreviated (longopts : List LongOption) (name : List Char) : Found :=
  match longopts.filter (fun option => name.isPrefixOf option.name) with
  | [] => .none
  | option :: others => if others.all (sameMeaning option) then .one option else .ambiguous

def lookup (longopts : List LongOption) (name : List Char) : Found :=
  match longopts.find? (fun option => option.name == name) with
  | some option => .one option
  | none => abbreviated longopts name

/-- A long option, with the text behind its dashes. -/
def long (optstring : List Char) (longopts : List LongOption) (text : List Char) (s : State) :
    Answer × State :=
  let s := {s with optind := s.optind+1}
  let value := text.dropWhile (· != '=')
  match lookup longopts (text.takeWhile (· != '=')) with
  | .none => (.unknown '\x00',s)
  | .ambiguous => (.unknown '\x00',s)
  | .one option =>
    match option.hasArg, value with
    | .nothing, [] => (.option option.val none,s)
    | .nothing, _ :: _ => (.unknown option.val,s)
    | .optional, [] => (.option option.val none,s)
    | .optional, _ :: arg => (.option option.val (some arg),s)
    | .required, _ :: arg => (.option option.val (some arg),s)
    | .required, [] =>
      match s.argv[s.optind]? with
      | none => (if optstring.head? = some ':' then .missing option.val else .unknown option.val,s)
      | some arg => (.option option.val (some arg),{s with optind := s.optind+1})

def getoptLong (optstring : List Char) (longopts : List LongOption) (s : State) : Answer × State :=
  match s.nextchar with
  | c :: rest => letter optstring c rest s
  | [] =>
    let s := advance s
    match s.argv[s.optind]? with
    | none => (.finished,if s.firstNonopt ≠ s.lastNonopt then {s with optind := s.firstNonopt} else s)
    | some ('-' :: '-' :: text) => long optstring longopts text s
    | some ('-' :: c :: rest) => letter optstring c rest s
    | some _ => (.finished,s)

/-- An element that is no long option is scanned as by getopt. -/
theorem getoptLong_short (optstring : List Char) (longopts : List LongOption) (s : State)
    (short : s.nextchar = [] → ∀ text, (advance s).argv[(advance s).optind]? ≠ some ('-' :: '-' :: text)) :
    getoptLong optstring longopts s = getopt optstring s := by
  cases pending : s.nextchar with
  | cons c rest => simp only [getoptLong,getopt,pending]
  | nil =>
    have single := short pending
    simp only [getoptLong,getopt,pending]
    generalize (advance s).argv[(advance s).optind]? = element at *
    split
    · rfl
    · exact absurd rfl (single _)
    · rfl
    · rename_i arg _ other
      split
      · contradiction
      · rename_i c rest same
        exact absurd (Option.some.inj same) (other c rest)
      · rfl

theorem long_left (optstring : List Char) (longopts : List LongOption) (text : List Char) (s : State)
    (program : 1 ≤ s.firstNonopt) (nonopts : s.firstNonopt ≤ s.lastNonopt) (nextchar : s.nextchar = [])
    (inside : s.optind < s.argv.length) :
    Ordered (long optstring longopts text s).2 ∧ (long optstring longopts text s).1 ≠ .finished ∧
      left (long optstring longopts text s).2 ≤ weight (s.argv.drop (s.optind+1)) := by
  have taken : Ordered {s with optind := s.optind+1} :=
    ⟨program,Nat.le_add_left 1 s.optind,nonopts,inside,by simp [nextchar]⟩
  have lighter : left {s with optind := s.optind+1} ≤ weight (s.argv.drop (s.optind+1)) := by
    simp [left,nextchar]
  unfold long
  dsimp only
  split
  · exact ⟨taken,by simp,lighter⟩
  · exact ⟨taken,by simp,lighter⟩
  · split
    · exact ⟨taken,by simp,lighter⟩
    · exact ⟨taken,by simp,lighter⟩
    · exact ⟨taken,by simp,lighter⟩
    · exact ⟨taken,by simp,lighter⟩
    · exact ⟨taken,by simp,lighter⟩
    · split
      · exact ⟨taken,by split <;> simp,lighter⟩
      · rename_i arg element
        obtain ⟨bound,_⟩ := List.getElem?_eq_some_iff.mp element
        have lighter := weight_drop_le s.argv (s.optind+1) (s.optind+1+1) (by omega)
        exact ⟨⟨program,Nat.le_add_left 1 (s.optind+1),nonopts,bound,by simp [nextchar]⟩,by simp,
          by simpa [left,nextchar] using lighter⟩

/-- A call keeps the scan in order, and an option makes what is left smaller. -/
theorem getoptLong_lowers (optstring : List Char) (longopts : List LongOption) :
    Lowers (getoptLong optstring longopts) := by
  intro s ordered
  by_cases dashed : s.nextchar = [] ∧
      ∃ text, (advance s).argv[(advance s).optind]? = some ('-' :: '-' :: text)
  · obtain ⟨pending,text,element⟩ := dashed
    obtain ⟨program,first,nonopts,inside,nextchar,lighter⟩ := advance_forward s ordered
    obtain ⟨bound,_⟩ := List.getElem?_eq_some_iff.mp element
    have call : getoptLong optstring longopts s = long optstring longopts text (advance s) := by
      simp only [getoptLong,pending,element]
    obtain ⟨kept,option,less⟩ := long_left optstring longopts text (advance s) program nonopts
      (nextchar.trans pending) bound
    have taken := weight_drop_cons _ _ _ element
    have before : left s = weight (s.argv.drop s.optind) := by simp [left,pending]
    simp only [List.length_cons] at taken
    rw [call]
    exact ⟨kept,.inr ⟨option,by omega⟩⟩
  · rw [getoptLong_short optstring longopts s (fun pending text element => dashed ⟨pending,text,element⟩)]
    exact getopt_left optstring s ordered

/-! Vectors of options with their arguments. -/

/-- The word is a spelling, short or long, of an option that takes an argument. -/
inductive Spells (optstring : List Char) (longopts : List LongOption) : Arg → Char → Prop
  | short (c) (required : takes optstring c = some .required) (dash : c ≠ '-') :
      Spells optstring longopts ['-',c] c
  | long (name option) (nonempty : name ≠ []) (bare : '=' ∉ name)
      (found : lookup longopts name = .one option) (required : option.hasArg = .required) :
      Spells optstring longopts ('-' :: '-' :: name) option.val

theorem getoptLong_pair (optstring : List Char) (longopts : List LongOption) (word arg : Arg) (c : Char)
    (spells : Spells optstring longopts word c) (s : State) (between : Between s)
    (element : s.argv[s.optind]? = some word) (next : s.argv[s.optind+1]? = some arg) :
    ∃ t, getoptLong optstring longopts s = (.option c (some arg),t) ∧ Between t ∧ t.argv = s.argv ∧
      t.optind = s.optind+2 := by
  cases spells with
  | short c required dash =>
    obtain ⟨nonopt,advanced⟩ := advance_option s between _ element rfl (by simpa using dash)
    rw [getoptLong_short]
    · exact getopt_pair optstring c arg s between required dash element next
    · intro _ text same
      rw [advanced,element] at same
      exact dash (List.cons.inj (List.cons.inj (Option.some.inj same)).2).1
  | long name option nonempty bare found required =>
    obtain ⟨nonopt,advanced⟩ := advance_option s between _ element rfl (by simpa using nonempty)
    refine ⟨{s with firstNonopt := nonopt, lastNonopt := nonopt, optind := s.optind+2},?_,
      ⟨between.nextchar,rfl⟩,rfl,rfl⟩
    have other : ∀ c ∈ name, (c != '=') = true :=
      fun c member => bne_iff_ne.mpr (fun same => bare (same ▸ member))
    have taken := List.takeWhile_eq_self_iff.mpr other
    have noValue := List.dropWhile_eq_nil_iff.mpr other
    simp only [getoptLong,between.nextchar,advanced,element]
    simp only [long,taken,noValue,found,required,next]

/-- The options of a vector in order, with their arguments. -/
def collect (given : List (Char × Option Arg)) : Answer → Except Empty (List (Char × Option Arg))
  | .option c optarg => .ok (given ++ [(c,optarg)])
  | _ => .ok given

def pairs (words : List (Arg × Arg)) : List Arg := words.flatMap (fun (word,arg) => [word,arg])

theorem scan_pairs (optstring : List Char) (longopts : List LongOption) (words : List (Arg × Arg))
    (letters : List Char) (spells : List.Forall₂ (fun word c => Spells optstring longopts word.1 c) words letters)
    (s : State) (ordered : Ordered s) (between : Between s) (rest : s.argv.drop s.optind = pairs words)
    (given : List (Char × Option Arg)) (count : Nat) (enough : words.length < count) :
    ∃ t, scan (getoptLong optstring longopts) collect count given s =
      some (.ok (given ++ letters.zip (words.map (fun word => some word.2)),t)) := by
  induction spells generalizing s given count with
  | nil =>
    obtain ⟨count,rfl⟩ := Nat.exists_eq_add_of_lt enough
    have none : left s = 0 := by simp [left,between.nextchar,rest,pairs,weight]
    obtain ⟨_,ends⟩ := getoptLong_lowers optstring longopts s ordered
    rcases call : getoptLong optstring longopts s with ⟨answer,t⟩
    rw [call] at ends
    rcases ends with ⟨finished,_⟩ | ⟨_,less⟩
    · obtain rfl : answer = .finished := finished
      exact ⟨t,by rw [scan,call]; simp⟩
    · omega
  | @cons word c words letters spelled later ih =>
    obtain ⟨count,rfl⟩ := Nat.exists_eq_add_of_lt enough
    have following : s.argv.drop (s.optind+1) = word.2 :: pairs words := by
      rw [← List.drop_drop,rest]
      rfl
    have behind : s.argv.drop (s.optind+2) = pairs words := by
      rw [← List.drop_drop,rest]
      rfl
    have element : s.argv[s.optind]? = some word.1 := by
      rw [← List.head?_drop,rest]
      rfl
    have next : s.argv[s.optind+1]? = some word.2 := by
      rw [← List.head?_drop,following]
      rfl
    obtain ⟨t,call,settled,same,moved⟩ := getoptLong_pair optstring longopts _ _ _ spelled s between element next
    have kept := (getoptLong_lowers optstring longopts s ordered).1
    rw [call] at kept
    obtain ⟨last,ended⟩ := ih t kept settled (by rw [same,moved,behind]) (given ++ [(c,some word.2)])
      (words.length+1+count) (by omega)
    refine ⟨last,?_⟩
    rw [scan,call]
    simp only [collect,List.length_cons]
    rw [ended,List.append_assoc]
    rfl

theorem pairs_weight (words : List (Arg × Arg)) : words.length ≤ weight (pairs words) := by
  induction words with
  | nil => exact Nat.le_refl 0
  | cons word words ih =>
    change words.length+1 ≤ word.1.length+1 + (word.2.length+1 + weight (pairs words))
    omega

theorem pairs_fuel (s : State) (between : Between s) (words : List (Arg × Arg))
    (rest : s.argv.drop s.optind = pairs words) : words.length < fuel s := by
  have weighs := pairs_weight words
  simp only [fuel,left,between.nextchar,if_true,List.length_nil,rest]
  omega

end Ostest.Lib.GetoptLong
