import Mathlib.Algebra.BigOperators.Group.List.Basic
import Mathlib.Tactic.NormNum.OfScientific
import Mathlib.Tactic.Ring
import Ostest.Lib.Cuts
import Ostest.TestMck.Main

/-! Test cpu_thread_limits/001: threads that compute pi together, each from its
share of the interval. The numbers of type double are any type with the
operations the test uses. -/
namespace Ostest.TestMck.CpuThreadLimits
open Lib.Cuts Lib.Signed

def numdiv : Nat := 200000000

structure PiArg (δ : Type) where
  istart : Nat
  iend : Nat
  psum : δ
  localId : Nat
  waiting : Bool

variable {δ : Type} [OfScientific δ]

/-- What thread `ith` is given. The index and the number of threads are ints, the
products and quotients are longs. -/
def piArg (threadNum ith : Nat) : Option (PiArg δ) := do
  let first ← long (ith*numdiv)
  let next ← int (ith+1)
  let last ← long (next*numdiv)
  let localId ← int (ith+1)
  return ⟨first/threadNum,last/threadNum,0.0,localId,false⟩

/-- The loop that starts the threads, with `left` of them to go. -/
def piArgs (threadNum : Nat) : Nat → Nat → Option (List (PiArg δ))
  | 0, _ => return []
  | left+1, ith => do
    let arg ← piArg threadNum ith
    let next ← int (ith+1)
    let rest ← piArgs threadNum left next
    return arg :: rest

section
variable [Add δ] [Mul δ] [Div δ] [NatCast δ]

def dx : δ := 1.0 / ((numdiv : Nat) : δ)

def term (i : Nat) : δ :=
  let x : δ := ((i : δ) + 0.5) * dx
  4.0 / (1.0 + x*x)

/-- The loop of pi_calc: the indices it visits and the sum. -/
def sumTerms : Nat → Nat → δ → Option (List Nat × δ)
  | 0, _, sum => return ([],sum)
  | left+1, i, sum => do
    let next ← long (i+1)
    let (visited,total) ← sumTerms left next (sum + term i)
    return (i :: visited,total)

def piCalc (arg : PiArg δ) : Option (List Nat × PiArg δ) := do
  let (visited,sum) ← sumTerms (arg.iend-arg.istart) arg.istart 0.0
  return (visited,{arg with psum := sum * dx, waiting := true})

/-- What the system has to say to the test: the hard limit of processes, whether
setrlimit and calloc succeed, and the result of each pthread_create. -/
structure System where
  rlimMax : Nat
  setrlimit : Bool
  calloc : Bool
  iret : Nat → Int

/-- The test: what each thread visits, and the value of pi. -/
def run (threadNum cpuNum : Int) (system : System) : ExceptT String Option (List (List Nat) × δ) := do
  tpAssert (0 < threadNum) "-t <child thread num> invalid argument."
  tpAssert (0 < cpuNum) "-c <num cpus> invalid argument."
  tpAssert (cpuNum ≤ system.rlimMax) "-c <num cpus> is larger than hard limit"
  tpAssert system.setrlimit "setrlimit error"
  tpAssert system.calloc "calloc error."
  let args : List (PiArg δ) ← piArgs threadNum.toNat threadNum.toNat 0
  tpAssert ((List.range threadNum.toNat).all (fun ith => system.iret ith = 0)) "pthread_create failed."
  let joined ← (args.mapM piCalc : Option (List (List Nat × PiArg δ)))
  return (joined.map (·.1),joined.foldl (fun pi (_,arg) => pi + arg.psum) 0.0)

end

/-- The share of thread `ith` when nothing overflows. -/
def share (threadNum ith : Nat) : PiArg δ :=
  ⟨ith*numdiv/threadNum,(ith+1)*numdiv/threadNum,0.0,ith+1,false⟩

theorem piArg_share (threadNum ith : Nat) (inside : ith < threadNum) (bound : threadNum < 2^31) :
    piArg (δ := δ) threadNum ith = some (share threadNum ith) := by
  have first : ith*numdiv < 2^(64-1) := by
    unfold numdiv
    omega
  have next : ith+1 < 2^(32-1) := by omega
  have last : (ith+1)*numdiv < 2^(64-1) := by
    unfold numdiv
    omega
  rw [piArg,long,signed_fits _ _ first,Option.bind_eq_bind,Option.bind_some,int,signed_fits _ _ next,
    Option.bind_some,long,signed_fits _ _ last,Option.bind_some,Option.bind_some]
  rfl

theorem piArgs_shares (threadNum left ith : Nat) (all : ith+left = threadNum) (bound : threadNum < 2^31) :
    piArgs (δ := δ) threadNum left ith = some ((List.range' ith left).map (share threadNum)) := by
  induction left generalizing ith with
  | zero => rfl
  | succ left ih =>
    have next : ith+1 < 2^(32-1) := by omega
    rw [piArgs,piArg_share threadNum ith (by omega) bound,int,signed_fits _ _ next]
    simp only [Option.bind_eq_bind,Option.bind_some,Option.pure_def]
    rw [ih (ith+1) (by omega),Option.bind_some,List.range'_succ,List.map_cons]

/-! The intervals of the threads. -/

structure Even (args : List (PiArg δ)) : Prop where
  first : ∀ arg ∈ args.head?, arg.istart = 0
  ordered : ∀ arg ∈ args, arg.istart ≤ arg.iend
  consecutive : ∀ i (next : i+1 < args.length), args[i].iend = args[i+1].istart
  last : ∀ arg ∈ args.getLast?, arg.iend = numdiv
  disjoint : args.Pairwise fun one other => ∀ x, ¬ (one.istart ≤ x ∧ x < one.iend ∧
    other.istart ≤ x ∧ x < other.iend)
  covers : ∀ x, x < numdiv ↔ ∃ arg ∈ args, arg.istart ≤ x ∧ x < arg.iend
  balanced : ∀ one ∈ args, ∀ other ∈ args, one.iend-one.istart ≤ other.iend-other.istart+1

def shares (threadNum : Nat) : List (PiArg δ) := (List.range threadNum).map (share threadNum)

theorem piArgs_all (threadNum : Nat) (bound : threadNum < 2^31) :
    piArgs (δ := δ) threadNum threadNum 0 = some (shares threadNum) := by
  rw [piArgs_shares threadNum threadNum 0 (Nat.zero_add _) bound,shares,List.range_eq_range']

theorem share_end (threadNum : Nat) (positive : 1 ≤ threadNum) : threadNum*numdiv/threadNum = numdiv :=
  Nat.mul_div_cancel_left numdiv positive

theorem shares_covers (threadNum : Nat) (positive : 1 ≤ threadNum) (x : Nat) :
    x < numdiv ↔ ∃ arg ∈ (shares threadNum : List (PiArg δ)), arg.istart ≤ x ∧ x < arg.iend := by
  constructor
  · intro inside
    rw [← share_end threadNum positive] at inside
    obtain ⟨ith,bound,low,high⟩ := intervals_cover (fun i => i*numdiv/threadNum) threadNum x (by simp) inside
    exact ⟨share threadNum ith,List.mem_map.mpr ⟨ith,List.mem_range.mpr bound,rfl⟩,low,high⟩
  · rintro ⟨arg,member,_,high⟩
    obtain ⟨ith,bound,rfl⟩ := List.mem_map.mp member
    have last := even_monotone numdiv threadNum (Nat.succ_le_of_lt (List.mem_range.mp bound))
    rw [← share_end threadNum positive]
    exact Nat.lt_of_lt_of_le high last

theorem shares_even (threadNum : Nat) (positive : 1 ≤ threadNum) :
    Even (shares threadNum : List (PiArg δ)) where
  first := by
    intro arg head
    obtain ⟨rest,rfl⟩ := Nat.exists_eq_add_of_le' positive
    rw [shares,List.range_succ_eq_map] at head
    obtain rfl : share (rest+1) 0 = arg := by simpa using head
    simp [share]
  ordered := by
    intro arg member
    obtain ⟨ith,_,rfl⟩ := List.mem_map.mp member
    exact even_monotone numdiv threadNum (Nat.le_succ ith)
  consecutive := by
    intro i next
    simp [shares,share]
  last := by
    intro arg tail
    obtain ⟨rest,rfl⟩ := Nat.exists_eq_add_of_le' positive
    rw [shares,List.range_succ,List.map_append] at tail
    obtain rfl : share (rest+1) rest = arg := by simpa using tail
    exact share_end (rest+1) positive
  disjoint := by
    rw [shares,List.pairwise_map]
    refine List.Pairwise.imp ?_ List.pairwise_lt_range
    rintro i j before x ⟨_,high,low,_⟩
    have apart := even_monotone numdiv threadNum (Nat.succ_le_of_lt before)
    exact absurd (Nat.lt_of_lt_of_le high apart) (Nat.not_lt.mpr low)
  covers := shares_covers threadNum positive
  balanced := by
    intro one left other right
    obtain ⟨i,_,rfl⟩ := List.mem_map.mp left
    obtain ⟨j,_,rfl⟩ := List.mem_map.mp right
    obtain ⟨_,most⟩ := even_gap numdiv threadNum positive i
    obtain ⟨least,_⟩ := even_gap numdiv threadNum positive j
    exact Nat.le_trans most (Nat.succ_le_succ least)

theorem shares_visit_all (threadNum : Nat) (positive : 1 ≤ threadNum) :
    ((shares threadNum : List (PiArg δ)).map (fun arg => interval arg.istart arg.iend)).flatten =
      List.range numdiv := by
  rw [shares,List.map_map]
  have joined := intervals_flatten (fun i => i*numdiv/threadNum) (even_monotone numdiv threadNum) threadNum
  refine joined.trans ?_
  rw [share_end threadNum positive,interval,List.range_eq_range']
  simp

section
variable [Add δ] [Mul δ] [Div δ] [NatCast δ]

theorem sumTerms_visits (left i : Nat) (sum : δ) (bound : i+left ≤ numdiv) :
    sumTerms left i sum =
      some (List.range' i left,(List.range' i left).foldl (fun total i => total + term i) sum) := by
  induction left generalizing i sum with
  | zero => rfl
  | succ left ih =>
    have next : i+1 < 2^(64-1) := by
      unfold numdiv at bound
      omega
    rw [sumTerms,long,signed_fits _ _ next]
    simp only [Option.bind_eq_bind,Option.bind_some,Option.pure_def]
    rw [ih (i+1) _ (by omega),Option.bind_some,List.range'_succ,List.foldl_cons]

/-- What a thread leaves when it is joined. -/
def summed (arg : PiArg δ) : PiArg δ :=
  {arg with psum := (interval arg.istart arg.iend).foldl (fun total i => total + term i) 0.0 * dx,
            waiting := true}

theorem piCalc_visits (arg : PiArg δ) (inside : arg.iend ≤ numdiv) (ordered : arg.istart ≤ arg.iend) :
    piCalc arg = some (interval arg.istart arg.iend,summed arg) := by
  rw [piCalc,sumTerms_visits _ _ _ (by omega)]
  rfl

theorem mapM_piCalc (args : List (PiArg δ)) (inside : ∀ arg ∈ args, arg.iend ≤ numdiv)
    (ordered : ∀ arg ∈ args, arg.istart ≤ arg.iend) :
    args.mapM piCalc = some (args.map (fun arg => (interval arg.istart arg.iend,summed arg))) := by
  induction args with
  | nil => rfl
  | cons arg args ih =>
    rw [List.mapM_cons,piCalc_visits arg (inside arg (by simp)) (ordered arg (by simp)),
      ih (fun other member => inside other (by simp [member])) (fun other member => ordered other (by simp [member]))]
    rfl

theorem mapM_shares (threadNum : Nat) (positive : 1 ≤ threadNum) :
    (shares threadNum : List (PiArg δ)).mapM piCalc =
      some ((shares threadNum).map (fun arg => (interval arg.istart arg.iend,summed arg))) := by
  refine mapM_piCalc _ ?_ (shares_even threadNum positive).ordered
  intro arg member
  obtain ⟨ith,listed,rfl⟩ := List.mem_map.mp member
  have last := even_monotone numdiv threadNum (Nat.succ_le_of_lt (List.mem_range.mp listed))
  rw [← share_end threadNum positive]
  exact last

/-- The threads share the indices evenly, and visit each of them once. -/
theorem threads_share_evenly (threadNum : Nat) (positive : 1 ≤ threadNum) (bound : threadNum < 2^31) :
    ∃ args : List (PiArg δ), piArgs threadNum threadNum 0 = some args ∧ args.length = threadNum ∧
      Even args ∧ ∃ joined, args.mapM piCalc = some joined ∧
        joined.map (·.1) = args.map (fun arg => interval arg.istart arg.iend) ∧
        (joined.map (·.1)).flatten = List.range numdiv := by
  refine ⟨shares threadNum,piArgs_all threadNum bound,by simp [shares],shares_even threadNum positive,_,
    mapM_shares threadNum positive,?_,?_⟩
  · rw [List.map_map]
    rfl
  · rw [List.map_map]
    exact shares_visit_all threadNum positive

end

theorem threads_share_evenly_seven :
    ∃ args : List (PiArg Rat), piArgs 7 7 0 = some args ∧ args.length = 7 ∧ Even args ∧
      ∃ joined, args.mapM piCalc = some joined ∧
        joined.map (·.1) = args.map (fun arg => interval arg.istart arg.iend) ∧
        (joined.map (·.1)).flatten = List.range numdiv :=
  threads_share_evenly 7 (by decide) (by decide)

/-! Over exact numbers the test computes the same value with any number of threads. -/

theorem foldl_sum {α : Type} (f : α → Rat) (list : List α) (start : Rat) :
    list.foldl (fun total a => total + f a) start = start + (list.map f).sum := by
  induction list generalizing start with
  | nil => simp
  | cons a list ih =>
    rw [List.foldl_cons,ih,List.map_cons,List.sum_cons]
    ring

theorem sum_summed (args : List (PiArg Rat)) :
    (args.map (fun arg => (summed arg).psum)).sum =
      ((args.map (fun arg => interval arg.istart arg.iend)).flatten.map term).sum * dx := by
  induction args with
  | nil => simp
  | cons arg args ih =>
    have zero : (0.0 : Rat) = 0 := by norm_num
    rw [List.map_cons,List.sum_cons,ih,List.map_cons,List.flatten_cons,List.map_append,List.sum_append,
      summed,foldl_sum,zero]
    ring

theorem run_exact (threadNum cpuNum : Int) (system : System) (positive : 0 < threadNum)
    (bound : threadNum < 2^31) (cpus : 0 < cpuNum) (limit : cpuNum ≤ system.rlimMax)
    (limited : system.setrlimit = true) (allocated : system.calloc = true)
    (created : ∀ ith < threadNum.toNat, system.iret ith = 0) :
    ∃ visited, run (δ := Rat) threadNum cpuNum system =
        some (.ok (visited,((List.range numdiv).map term).sum * dx)) ∧
      visited.flatten = List.range numdiv := by
  have allCreated : (List.range threadNum.toNat).all (fun ith => decide (system.iret ith = 0)) = true := by
    simpa using created
  have started := piArgs_all (δ := Rat) threadNum.toNat (by omega)
  have some : 1 ≤ threadNum.toNat := by omega
  have joined := mapM_shares (δ := Rat) threadNum.toNat some
  have whole := shares_visit_all (δ := Rat) threadNum.toNat some
  have zero : (0.0 : Rat) = 0 := by norm_num
  refine ⟨(shares (δ := Rat) threadNum.toNat).map (fun arg => interval arg.istart arg.iend),?_,whole⟩
  simp only [run,tpAssert,decide_eq_true positive,decide_eq_true cpus,decide_eq_true limit,limited,allocated,
    allCreated,if_true,pure_bind,started]
  simp only [liftM_some,pure_bind,joined,List.map_map]
  rw [List.foldl_map,foldl_sum (fun arg => (summed arg).psum),sum_summed,whole,zero,zero_add]
  rfl

end Ostest.TestMck.CpuThreadLimits
