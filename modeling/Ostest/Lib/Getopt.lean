import Mathlib.Data.List.Basic

/-! getopt of the GNU C library for short options, with its state between calls:
the program may move optind and the vector, as long as it keeps the rest. The
ordering is the permuting one, or the one that stops at the first non-option
when POSIXLY_CORRECT is set. -/
namespace Ostest.Lib.Getopt

abbrev Arg := List Char

structure State where
  argv : List Arg
  optind : Nat
  nextchar : List Char
  firstNonopt : Nat
  lastNonopt : Nat
  requireOrder : Bool
  deriving DecidableEq

def State.initial (requireOrder : Bool) (argv : List Arg) : State := ⟨argv,1,[],1,1,requireOrder⟩

inductive Answer where
  | option (c : Char) (optarg : Option Arg)
  | unknown (c : Char)
  | missing (c : Char)
  | finished
  deriving DecidableEq

inductive Takes where
  | nothing
  | required
  | optional

def takes (optstring : List Char) (c : Char) : Option Takes :=
  if c = ':' ∨ c = ';' then none
  else match optstring.dropWhile (· != c) with
    | [] => none
    | _ :: ':' :: ':' :: _ => some .optional
    | _ :: ':' :: _ => some .required
    | _ => some .nothing

def isNonoption : Arg → Bool
  | '-' :: _ :: _ => false
  | _ => true

def exchange (s : State) : State :=
  {s with
    argv := s.argv.take s.firstNonopt ++ (s.argv.take s.optind).drop s.lastNonopt ++
      (s.argv.take s.lastNonopt).drop s.firstNonopt ++ s.argv.drop s.optind
    firstNonopt := s.firstNonopt + (s.optind-s.lastNonopt)
    lastNonopt := s.optind}

def clamp (s : State) : State :=
  {s with firstNonopt := min s.firstNonopt s.optind, lastNonopt := min s.lastNonopt s.optind}

def skipNonopts (s : State) : State :=
  let skipped := ((s.argv.drop s.optind).takeWhile isNonoption).length
  {s with optind := s.optind+skipped, lastNonopt := s.optind+skipped}

def permute (s : State) : State :=
  if s.firstNonopt ≠ s.lastNonopt ∧ s.lastNonopt ≠ s.optind then skipNonopts (exchange s)
  else if s.lastNonopt ≠ s.optind then skipNonopts {s with firstNonopt := s.optind}
  else skipNonopts s

def skipAll (s : State) : State := {s with lastNonopt := s.argv.length, optind := s.argv.length}

/-- What follows the element `--` is skipped like non-options. -/
def dashes (s : State) : State :=
  if s.argv[s.optind]? = some ['-','-'] then
    let next := {s with optind := s.optind+1}
    if s.firstNonopt ≠ s.lastNonopt ∧ s.lastNonopt ≠ next.optind then skipAll (exchange next)
    else if s.firstNonopt = s.lastNonopt then skipAll {next with firstNonopt := next.optind}
    else skipAll next
  else s

/-- The next letter of the element at hand. -/
def letter (optstring : List Char) (c : Char) (rest : List Char) (s : State) : Answer × State :=
  let s := {s with nextchar := rest, optind := if rest = [] then s.optind+1 else s.optind}
  match takes optstring c with
  | none => (.unknown c,s)
  | some .nothing => (.option c none,s)
  | some .optional =>
    if rest = [] then (.option c none,s)
    else (.option c (some rest),{s with nextchar := [], optind := s.optind+1})
  | some .required =>
    if rest = [] then
      match s.argv[s.optind]? with
      | none => (if optstring.head? = some ':' then .missing c else .unknown c,s)
      | some arg => (.option c (some arg),{s with optind := s.optind+1})
    else (.option c (some rest),{s with nextchar := [], optind := s.optind+1})

/-- The steps between two elements. -/
def advance (s : State) : State :=
  dashes (if (clamp s).requireOrder then clamp s else permute (clamp s))

def getopt (optstring : List Char) (s : State) : Answer × State :=
  match s.nextchar with
  | c :: rest => letter optstring c rest s
  | [] =>
    let s := advance s
    match s.argv[s.optind]? with
    | none => (.finished,if s.firstNonopt ≠ s.lastNonopt then {s with optind := s.firstNonopt} else s)
    | some ('-' :: c :: rest) => letter optstring c rest s
    | some _ => (.finished,s)

/-- `while ((opt = getopt(…)) != -1)`, around any function that takes the next
option, with the switch of the program as `handle`, which may return from the
function around the loop. -/
def scan {σ ρ : Type} (next : State → Answer × State) (handle : σ → Answer → Except ρ σ) :
    Nat → σ → State → Option (Except ρ (σ × State))
  | 0, _, _ => none
  | fuel+1, acc, s =>
    match next s with
    | (.finished,s) => some (.ok (acc,s))
    | (answer,s) => match handle acc answer with
      | .error left => some (.error left)
      | .ok acc => scan next handle fuel acc s

/-! Every call that answers with an option takes a character of the vector, so
the loops end. -/

structure Ordered (s : State) : Prop where
  program : 1 ≤ s.firstNonopt
  started : 1 ≤ s.optind
  nonopts : s.firstNonopt ≤ s.lastNonopt
  inside : s.optind ≤ s.argv.length
  element : s.nextchar ≠ [] → s.optind < s.argv.length

def weight : List Arg → Nat
  | [] => 0
  | arg :: args => arg.length+1 + weight args

/-- What is left to scan: the rest of the element at hand, and the elements behind it. -/
def left (s : State) : Nat :=
  s.nextchar.length + weight (s.argv.drop (if s.nextchar = [] then s.optind else s.optind+1))

def fuel (s : State) : Nat := left s + 1

theorem weight_append (first second : List Arg) :
    weight (first ++ second) = weight first + weight second := by
  induction first with
  | nil => simp [weight]
  | cons arg first ih =>
    rw [List.cons_append,weight,weight,ih]
    omega

theorem weight_drop_le (args : List Arg) (first second : Nat) (order : first ≤ second) :
    weight (args.drop second) ≤ weight (args.drop first) := by
  obtain ⟨count,rfl⟩ := Nat.exists_eq_add_of_le order
  have split := congrArg weight (List.take_append_drop count (args.drop first))
  rw [weight_append,List.drop_drop] at split
  omega

theorem weight_drop_cons (args : List Arg) (i : Nat) (arg : Arg) (element : args[i]? = some arg) :
    weight (args.drop i) = arg.length+1 + weight (args.drop (i+1)) := by
  obtain ⟨bound,rfl⟩ := List.getElem?_eq_some_iff.mp element
  rw [List.drop_eq_getElem_cons bound,weight]

structure Clamped (s : State) : Prop where
  program : 1 ≤ s.firstNonopt
  nonopts : s.firstNonopt ≤ s.lastNonopt
  before : s.lastNonopt ≤ s.optind
  inside : s.optind ≤ s.argv.length

theorem clamp_clamped (s : State) (ordered : Ordered s) : Clamped (clamp s) := by
  obtain ⟨program,started,nonopts,inside,_⟩ := ordered
  refine ⟨?_,?_,Nat.min_le_right _ _,inside⟩
  · simp only [clamp]
    omega
  · simp only [clamp]
    omega

theorem exchange_drop (s : State) (clamped : Clamped s) :
    (exchange s).argv.drop s.optind = s.argv.drop s.optind ∧
      (exchange s).argv.length = s.argv.length := by
  obtain ⟨_,nonopts,before,inside⟩ := clamped
  have front : (s.argv.take s.firstNonopt ++ (s.argv.take s.optind).drop s.lastNonopt ++
      (s.argv.take s.lastNonopt).drop s.firstNonopt).length = s.optind := by
    simp only [List.length_append,List.length_take,List.length_drop]
    omega
  refine ⟨List.drop_left' front,?_⟩
  change (_ ++ _ : List Arg).length = _
  rw [List.length_append,front,List.length_drop]
  omega

theorem exchange_first (s : State) (clamped : Clamped s) :
    1 ≤ (exchange s).firstNonopt ∧ (exchange s).firstNonopt ≤ s.optind := by
  obtain ⟨program,nonopts,before,inside⟩ := clamped
  simp only [exchange]
  omega

structure Forward (s t : State) : Prop where
  program : 1 ≤ t.firstNonopt
  first : t.firstNonopt ≤ t.optind
  nonopts : t.firstNonopt ≤ t.lastNonopt
  inside : t.optind ≤ t.argv.length
  nextchar : t.nextchar = s.nextchar
  lighter : weight (t.argv.drop t.optind) ≤ weight (s.argv.drop s.optind)

theorem skipNonopts_forward (s t : State) (program : 1 ≤ t.firstNonopt)
    (first : t.firstNonopt ≤ s.optind) (here : t.optind = s.optind)
    (nextchar : t.nextchar = s.nextchar) (inside : s.optind ≤ t.argv.length)
    (rest : t.argv.drop s.optind = s.argv.drop s.optind) : Forward s (skipNonopts t) := by
  have short := (List.takeWhile_sublist (l := t.argv.drop t.optind) isNonoption).length_le
  rw [List.length_drop] at short
  have moved : t.firstNonopt ≤ t.optind+((t.argv.drop t.optind).takeWhile isNonoption).length := by omega
  refine ⟨program,moved,moved,?_,nextchar,?_⟩
  · change t.optind+_ ≤ t.argv.length
    omega
  · rw [← rest]
    exact weight_drop_le t.argv s.optind (t.optind+_) (by omega)

theorem permute_forward (s : State) (clamped : Clamped s) :
    Forward s (permute s) ∧ (permute s).lastNonopt = (permute s).optind := by
  have nonopts := clamped.nonopts
  have before := clamped.before
  have inside := clamped.inside
  unfold permute
  split
  · obtain ⟨rest,length⟩ := exchange_drop s clamped
    obtain ⟨program,first⟩ := exchange_first s clamped
    exact ⟨skipNonopts_forward s _ program first rfl rfl (by omega) rest,rfl⟩
  · split
    · have started : 1 ≤ s.optind := by
        have := clamped.program
        omega
      exact ⟨skipNonopts_forward s _ started (Nat.le_refl _) rfl rfl inside rfl,rfl⟩
    · exact ⟨skipNonopts_forward s s clamped.program (by omega) rfl rfl inside rfl,rfl⟩

theorem skipAll_forward (s t : State) (program : 1 ≤ t.firstNonopt)
    (first : t.firstNonopt ≤ t.argv.length) (nextchar : t.nextchar = s.nextchar) :
    Forward s (skipAll t) :=
  ⟨program,first,first,Nat.le_refl _,nextchar,by simp [skipAll,weight]⟩

theorem dashes_forward (s : State) (clamped : Clamped s) : Forward s (dashes s) := by
  obtain ⟨program,nonopts,before,inside⟩ := clamped
  unfold dashes
  split
  · rename_i element
    obtain ⟨bound,_⟩ := List.getElem?_eq_some_iff.mp element
    have next : Clamped {s with optind := s.optind+1} :=
      ⟨program,nonopts,Nat.le_succ_of_le before,bound⟩
    dsimp only
    split
    · obtain ⟨_,length⟩ := exchange_drop _ next
      obtain ⟨program,first⟩ := exchange_first _ next
      exact skipAll_forward s _ program (by rw [length]; exact Nat.le_trans first bound) rfl
    · split
      · exact skipAll_forward s _ (Nat.le_add_left 1 s.optind) bound rfl
      · exact skipAll_forward s {s with optind := s.optind+1} program (by omega) rfl
  · exact ⟨program,by omega,nonopts,inside,rfl,Nat.le_refl _⟩

theorem advance_forward (s : State) (ordered : Ordered s) : Forward s (advance s) := by
  have clamped := clamp_clamped s ordered
  unfold advance
  split
  · obtain ⟨program,first,nonopts,inside,nextchar,lighter⟩ := dashes_forward (clamp s) clamped
    exact ⟨program,first,nonopts,inside,nextchar,lighter⟩
  · obtain ⟨moved,last⟩ := permute_forward (clamp s) clamped
    obtain ⟨program,first,nonopts,inside,nextchar,lighter⟩ := dashes_forward (permute (clamp s))
      ⟨moved.program,moved.nonopts,Nat.le_of_eq last,moved.inside⟩
    exact ⟨program,first,nonopts,inside,nextchar.trans moved.nextchar,
      Nat.le_trans lighter moved.lighter⟩

theorem letter_left (optstring : List Char) (c : Char) (rest : List Char) (s : State)
    (program : 1 ≤ s.firstNonopt) (started : 1 ≤ s.optind) (nonopts : s.firstNonopt ≤ s.lastNonopt)
    (inside : s.optind < s.argv.length) :
    Ordered (letter optstring c rest s).2 ∧
      left (letter optstring c rest s).2 ≤ rest.length + weight (s.argv.drop (s.optind+1)) := by
  have taken : Ordered {s with nextchar := [], optind := s.optind+1} :=
    ⟨program,Nat.le_add_left 1 s.optind,nonopts,inside,by simp⟩
  by_cases last : rest = []
  · subst last
    unfold letter
    simp only [if_true]
    split
    · exact ⟨taken,by simp [left]⟩
    · exact ⟨taken,by simp [left]⟩
    · exact ⟨taken,by simp [left]⟩
    · split
      · exact ⟨taken,by simp [left]⟩
      · rename_i arg element
        obtain ⟨bound,_⟩ := List.getElem?_eq_some_iff.mp element
        have lighter := weight_drop_le s.argv (s.optind+1) (s.optind+1+1) (by omega)
        exact ⟨⟨program,Nat.le_add_left 1 (s.optind+1),nonopts,bound,by simp⟩,
          by simpa [left] using lighter⟩
  · have stays : Ordered {s with nextchar := rest} :=
      ⟨program,started,nonopts,Nat.le_of_lt inside,fun _ => inside⟩
    unfold letter
    simp only [last,if_false]
    split
    · exact ⟨stays,by simp [left,last]⟩
    · exact ⟨stays,by simp [left,last]⟩
    · exact ⟨taken,by simp [left]⟩
    · exact ⟨taken,by simp [left]⟩

theorem letter_answers (optstring : List Char) (c : Char) (rest : List Char) (s : State) :
    (letter optstring c rest s).1 ≠ .finished := by
  unfold letter
  dsimp only
  repeat' split
  all_goals simp

/-- A call keeps the scan in order, and an option makes what is left smaller. -/
theorem getopt_left (optstring : List Char) (s : State) (ordered : Ordered s) :
    Ordered (getopt optstring s).2 ∧
      ((getopt optstring s).1 = .finished ∧ (getopt optstring s).2.nextchar = [] ∨
        (getopt optstring s).1 ≠ .finished ∧ left (getopt optstring s).2 < left s) := by
  cases pending : s.nextchar with
  | cons c rest =>
    have inside := ordered.element (by simp [pending])
    obtain ⟨kept,lighter⟩ := letter_left optstring c rest s ordered.program ordered.started
      ordered.nonopts inside
    have before : left s = rest.length+1 + weight (s.argv.drop (s.optind+1)) := by simp [left,pending]
    simp only [getopt,pending]
    exact ⟨kept,.inr ⟨letter_answers _ _ _ _,by omega⟩⟩
  | nil =>
    obtain ⟨program,first,nonopts,inside,nextchar,lighter⟩ := advance_forward s ordered
    have started : 1 ≤ (advance s).optind := Nat.le_trans program first
    have before : left s = weight (s.argv.drop s.optind) := by simp [left,pending]
    rw [pending] at nextchar
    simp only [getopt,pending]
    split
    · split
      · exact ⟨⟨program,program,nonopts,Nat.le_trans first inside,by simp [nextchar]⟩,
          .inl ⟨rfl,nextchar⟩⟩
      · exact ⟨⟨program,started,nonopts,inside,by simp [nextchar]⟩,.inl ⟨rfl,nextchar⟩⟩
    · rename_i c rest element
      obtain ⟨bound,_⟩ := List.getElem?_eq_some_iff.mp element
      obtain ⟨kept,less⟩ := letter_left optstring c rest (advance s) program started nonopts bound
      have taken := weight_drop_cons _ _ _ element
      simp only [List.length_cons] at taken
      exact ⟨kept,.inr ⟨letter_answers _ _ _ _,by omega⟩⟩
    · exact ⟨⟨program,started,nonopts,inside,by simp [nextchar]⟩,.inl ⟨rfl,nextchar⟩⟩

def Lowers (next : State → Answer × State) : Prop :=
  ∀ s, Ordered s → Ordered (next s).2 ∧
    ((next s).1 = .finished ∧ (next s).2.nextchar = [] ∨ (next s).1 ≠ .finished ∧ left (next s).2 < left s)

theorem scan_enough {σ ρ : Type} (next : State → Answer × State) (lowers : Lowers next)
    (handle : σ → Answer → Except ρ σ) (acc : σ) (s : State) (ordered : Ordered s) (enough : Nat)
    (bound : left s < enough) :
    ∃ result, scan next handle enough acc s = some result ∧
      ∀ last t, result = .ok (last,t) → Ordered t ∧ t.nextchar = [] := by
  induction enough generalizing acc s with
  | zero => omega
  | succ enough ih =>
    obtain ⟨kept,ends⟩ := lowers s ordered
    unfold scan
    split
    · rename_i after call
      rw [call] at kept ends
      refine ⟨_,rfl,?_⟩
      intro last t same
      cases same
      rcases ends with ⟨_,nextchar⟩ | ⟨other,_⟩
      · exact ⟨kept,nextchar⟩
      · exact absurd rfl other
    · rename_i answer after notFinished call
      rw [call] at kept ends
      split
      · exact ⟨_,rfl,fun _ _ same => by contradiction⟩
      · rcases ends with ⟨done,_⟩ | ⟨_,lighter⟩
        · exact absurd done notFinished
        · exact ih _ after kept (by simp only at lighter; omega)

theorem scan_ends {σ ρ : Type} (optstring : List Char) (handle : σ → Answer → Except ρ σ) (acc : σ)
    (s : State) (ordered : Ordered s) :
    ∃ result, scan (getopt optstring) handle (fuel s) acc s = some result ∧
      ∀ last t, result = .ok (last,t) → Ordered t ∧ t.nextchar = [] :=
  scan_enough _ (getopt_left optstring) handle acc s ordered (fuel s) (Nat.lt_succ_self _)

/-- A loop whose state is a view of the state of another one. -/
theorem scan_map {σ τ ρ : Type} (next : State → Answer × State) (handle : σ → Answer → Except ρ σ)
    (handle' : τ → Answer → Except ρ τ) (view : σ → τ)
    (viewed : ∀ acc answer, handle' (view acc) answer = (handle acc answer).map view)
    (count : Nat) (acc : σ) (s : State) :
    scan next handle' count (view acc) s =
      (scan next handle count acc s).map (·.map (fun (acc,s) => (view acc,s))) := by
  induction count generalizing acc s with
  | zero => rfl
  | succ count ih =>
    unfold scan
    split
    · rfl
    · rename_i answer after _ _
      rw [viewed]
      cases handle acc answer with
      | error left => rfl
      | ok acc => exact ih acc after

/-! Scanning without non-options in between. -/

structure Between (s : State) : Prop where
  nextchar : s.nextchar = []
  settled : min s.firstNonopt s.optind = min s.lastNonopt s.optind

theorem length_le_weight (args : List Arg) : args.length ≤ weight args := by
  induction args with
  | nil => exact Nat.le_refl 0
  | cons arg args ih =>
    rw [weight,List.length_cons]
    omega

/-- Every element that is left is worth one round of the loop. -/
theorem exists_fuel (s : State) (between : Between s) (count : Nat)
    (elements : s.optind+count ≤ s.argv.length+1) : ∃ more, fuel s = more+count := by
  have rest := length_le_weight (s.argv.drop s.optind)
  rw [List.length_drop] at rest
  have scanned : fuel s = weight (s.argv.drop s.optind)+1 := by
    simp [fuel,left,between.nextchar]
  exact ⟨fuel s-count,by omega⟩

theorem settle (s : State) (between : Between s) (arg : Arg) (element : s.argv[s.optind]? = some arg)
    (isOption : isNonoption arg = false) :
    ∃ nonopt ≤ s.optind, (if (clamp s).requireOrder then clamp s else permute (clamp s)) =
      {s with firstNonopt := nonopt, lastNonopt := nonopt} := by
  have same := between.settled
  cases order : s.requireOrder with
  | true => exact ⟨min s.lastNonopt s.optind,by omega,by simp [clamp,order,same]⟩
  | false =>
    have here : (s.argv.drop s.optind).takeWhile isNonoption = [] := by
      obtain ⟨bound,rfl⟩ := List.getElem?_eq_some_iff.mp element
      rw [List.drop_eq_getElem_cons bound,List.takeWhile_cons_of_neg (by simp [isOption])]
    refine ⟨s.optind,Nat.le_refl _,?_⟩
    by_cases pending : min s.lastNonopt s.optind = s.optind
    · simp [permute,skipNonopts,clamp,order,same,here,pending]
    · simp [permute,skipNonopts,clamp,order,same,here,pending]

theorem advance_option (s : State) (between : Between s) (arg : Arg) (element : s.argv[s.optind]? = some arg)
    (isOption : isNonoption arg = false) (more : arg ≠ ['-','-']) :
    ∃ nonopt, advance s = {s with firstNonopt := nonopt, lastNonopt := nonopt} := by
  obtain ⟨nonopt,_,settled⟩ := settle s between arg element isOption
  refine ⟨nonopt,?_⟩
  rw [advance,settled,dashes,if_neg (by simpa [element] using more)]

theorem getopt_pair (optstring : List Char) (c : Char) (arg : Arg) (s : State) (between : Between s)
    (required : takes optstring c = some .required) (dash : c ≠ '-')
    (element : s.argv[s.optind]? = some ['-',c]) (next : s.argv[s.optind+1]? = some arg) :
    ∃ t, getopt optstring s = (.option c (some arg),t) ∧ Between t ∧ t.argv = s.argv ∧
      t.optind = s.optind+2 := by
  obtain ⟨nonopt,_,settled⟩ := settle s between _ element rfl
  refine ⟨{s with firstNonopt := nonopt, lastNonopt := nonopt, optind := s.optind+2},?_,
    ⟨between.nextchar,rfl⟩,rfl,rfl⟩
  simp only [getopt,advance,between.nextchar,settled]
  simp [dashes,element,dash,letter,required,next]

theorem getopt_dashes (optstring : List Char) (s : State) (between : Between s)
    (element : s.argv[s.optind]? = some ['-','-']) :
    ∃ t, getopt optstring s = (.finished,t) ∧ t.argv = s.argv ∧ t.nextchar = [] ∧
      t.optind = s.optind+1 ∧ s.optind+1 ≤ t.firstNonopt ∧ s.optind+1 ≤ t.lastNonopt := by
  obtain ⟨nonopt,_,settled⟩ := settle s between _ element rfl
  obtain ⟨bound,_⟩ := List.getElem?_eq_some_iff.mp element
  refine ⟨{s with firstNonopt := s.optind+1, lastNonopt := s.argv.length, optind := s.optind+1},?_,
    rfl,between.nextchar,rfl,Nat.le_refl _,bound⟩
  simp only [getopt,advance,between.nextchar,settled]
  by_cases last : s.optind+1 = s.argv.length
  · simp [dashes,skipAll,element,last]
  · simp [dashes,skipAll,element,last]

theorem getopt_end (optstring : List Char) (s : State) (between : Between s)
    (ended : s.argv.length ≤ s.optind) : ∃ t, getopt optstring s = (.finished,t) := by
  have same := between.settled
  have nothing : s.argv[s.optind]? = none := List.getElem?_eq_none ended
  have rest : s.argv.drop s.optind = [] := List.drop_eq_nil_of_le ended
  simp only [getopt,between.nextchar]
  cases order : s.requireOrder with
  | true => simp [advance,clamp,order,same,dashes,nothing]
  | false =>
    by_cases pending : min s.lastNonopt s.optind = s.optind
    · simp [advance,permute,skipNonopts,clamp,order,same,pending,dashes,rest,nothing]
    · simp [advance,permute,skipNonopts,clamp,order,same,pending,dashes,rest,nothing]

theorem scan_pair {σ ρ : Type} (optstring : List Char) (handle : σ → Answer → Except ρ σ)
    (count : Nat) (acc next : σ) (c : Char) (arg : Arg) (s : State) (between : Between s)
    (required : takes optstring c = some .required) (dash : c ≠ '-')
    (element : s.argv[s.optind]? = some ['-',c]) (argument : s.argv[s.optind+1]? = some arg)
    (handled : handle acc (.option c (some arg)) = .ok next) :
    ∃ t, scan (getopt optstring) handle (count+1) acc s = scan (getopt optstring) handle count next t ∧ Between t ∧
      t.argv = s.argv ∧ t.optind = s.optind+2 := by
  obtain ⟨t,call,after⟩ := getopt_pair optstring c arg s between required dash element argument
  refine ⟨t,?_,after⟩
  rw [scan,call]
  simp only [handled]

theorem scan_dashes {σ ρ : Type} (optstring : List Char) (handle : σ → Answer → Except ρ σ)
    (count : Nat) (acc : σ) (s : State) (between : Between s)
    (element : s.argv[s.optind]? = some ['-','-']) :
    ∃ t, scan (getopt optstring) handle (count+1) acc s = some (.ok (acc,t)) ∧ t.argv = s.argv ∧
      t.nextchar = [] ∧ t.optind = s.optind+1 ∧ s.optind+1 ≤ t.firstNonopt ∧
      s.optind+1 ≤ t.lastNonopt := by
  obtain ⟨t,call,after⟩ := getopt_dashes optstring s between element
  exact ⟨t,by rw [scan,call],after⟩

theorem scan_end {σ ρ : Type} (optstring : List Char) (handle : σ → Answer → Except ρ σ)
    (count : Nat) (acc : σ) (s : State) (between : Between s) (ended : s.argv.length ≤ s.optind) :
    ∃ t, scan (getopt optstring) handle (count+1) acc s = some (.ok (acc,t)) := by
  obtain ⟨t,call⟩ := getopt_end optstring s between ended
  exact ⟨t,by rw [scan,call]⟩

end Ostest.Lib.Getopt
