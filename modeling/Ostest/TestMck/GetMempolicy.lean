import Ostest.Lib.Calls
import Ostest.Lib.Pages

/-! Test get_mempolicy/018: the address space it reserves around its large pages,
and what it and its teardown function unmap. -/
namespace Ostest.TestMck.GetMempolicy
open Lib.Calls Lib.Pages Lib.WordMask

abbrev Msg := Option String

abbrev Word := BitVec 64

def mapFailed : Word := -1

theorem mapFailed_toNat : mapFailed.toNat = 2^64-1 := rfl

inductive Prot where
  | none
  | readWrite

inductive Request where
  | usagePrint
  | printf (text : String)
  | createNodeMask (maxNode : Word)
  | setMempolicy (mode : Int) (nodeMask maxNode : Word)
  | getMempolicy (nodeMask : Bool) (maxNode : Word) (flags : Int)
  | mmap (addr length : Word) (prot : Prot) (fixed : Bool)
  | store (addr : Word) (value : BitVec 8)
  | munmap (addr length : Word)
  | destroyNodeMask

/-- What get_mempolicy returns, and `mode` and `node_mask[0]` after it. -/
structure Policy where
  ret : Int
  mode : Int
  word : Word

abbrev Request.Answer : Request → Type
  | .createNodeMask _ => Bool
  | .getMempolicy _ _ _ => Policy
  | .mmap _ _ _ _ => Word
  | .setMempolicy _ _ _ | .munmap _ _ => Int
  | _ => Unit

abbrev Code := Prog Request Request.Answer

abbrev Trace := List (Event Request.Answer)

def ask (asked : Request) : Code asked.Answer := request asked

structure Statics where
  reserve : Word
  buf : Word
  addr : Word

def Statics.initial : Statics := ⟨mapFailed,mapFailed,mapFailed⟩

def maxCount : Nat := 3

def mpolInterleave : Int := 3
def mpolFNode : Int := 1

/-- The loop with `left` rounds to go. `large` is LARGE_PAGE_SIZE. -/
def countLoop (large : Word) : (left i : Nat) → (oldMode : Int) → Statics → Code (Msg × Statics)
  | 0, _, _, s => return (none,s)
  | left+1, i, oldMode, s => do
    let reserve ← ask (.mmap 0 (large*2) .none false)
    let s := {s with reserve}
    if reserve = mapFailed then return (some "mmap(reserve) error",s)
    -- RUN_FUNC has an addr of its own: the static one is never assigned
    let addr := alignUp reserve large
    let buf ← ask (.mmap addr large .readWrite true)
    let s := {s with buf}
    if buf = mapFailed then return (some "mmap(buf) error",s)
    let addr := buf + large
    ask (.store buf (BitVec.ofNat 8 i))
    let policy ← ask (.getMempolicy false 0 mpolFNode)
    if policy.ret ≠ 0 then return (some "get_mempolicy(flags=MPOL_F_NODE) error",s)
    if policy.mode = oldMode then return (some "mode == old_mode",s)
    let _ ← ask (.munmap reserve (buf - reserve))
    let _ ← ask (.munmap buf large)
    let _ ← ask (.munmap addr (reserve + large*2 - addr))
    countLoop large left (i+1) policy.mode {s with reserve := mapFailed, buf := mapFailed}

def runFunc (large maxNode : Word) (s : Statics) : Code (Msg × Statics) := do
  let setNodeMask : Word := 0x03
  if maxNode = 0 then
    ask .usagePrint
    return (some "max_node = 0",s)
  if maxNode < 2 then
    ask (.printf "this TP is must have max_node of 2 or more.\n")
    return (some "max_node error",s)
  let allocated ← ask (.createNodeMask maxNode)
  if allocated = false then return (some "node_mask malloc error",s)
  if (← ask (.setMempolicy mpolInterleave setNodeMask 64)) ≠ 0 then return (some "set_mempolicy error",s)
  let policy ← ask (.getMempolicy true maxNode 0)
  if policy.ret ≠ 0 then return (some "get_mempolicy(flags=0) error",s)
  if policy.mode ≠ mpolInterleave then return (some "mode != MPOL_INTERLEAVE",s)
  if policy.word ≠ setNodeMask then return (some "set_node_mask error",s)
  let policy ← ask (.getMempolicy false 0 mpolFNode)
  if policy.ret ≠ 0 then return (some "get_mempolicy(flags=MPOL_F_NODE) error",s)
  countLoop large maxCount 0 policy.mode s

def munmapUnlessFailed (addr length : Word) : Code Unit := do
  if addr ≠ mapFailed then
    let _ ← ask (.munmap addr length)

def teardownFunc (large : Word) (s : Statics) : Code Unit := do
  ask .destroyNodeMask
  munmapUnlessFailed s.reserve (s.buf - s.reserve)
  munmapUnlessFailed s.buf large
  munmapUnlessFailed s.addr (s.reserve + large*2 - s.addr)

/-- The run with the pointers that it leaves, and the teardown. -/
def test (large maxNode : Word) : Code (Msg × Statics) := do
  let (msg,s) ← runFunc large maxNode .initial
  teardownFunc large s
  return (msg,s)

/-! The address space. -/

section
variable (pageShift limit : Nat)

/-- munmap refuses a range that goes beyond `limit`; where that is 2^64, it acts on
every range. -/
def effect (mapped : Nat → Bool) : Event Request.Answer → Nat → Bool
  | ⟨.mmap _ length _ _,start⟩ =>
    if start = mapFailed then mapped else map (2^pageShift) start.toNat length.toNat mapped
  | ⟨.munmap start length,_⟩ =>
    if start.toNat + length.toNat ≤ limit then unmap (2^pageShift) start.toNat length.toNat mapped
    else mapped
  | _ => mapped

def after (mapped : Nat → Bool) (trace : Trace) : Nat → Bool := trace.foldl (effect pageShift limit) mapped

/-- mmap returns a page boundary from which on there is room below `limit` and
below MAP_FAILED, and the given address when that is fixed. -/
def Possible : Event Request.Answer → Prop
  | ⟨.mmap addr length _ fixed,start⟩ => start ≠ mapFailed →
    0 < length.toNat ∧ 2^pageShift ∣ start.toNat ∧ start.toNat + length.toNat ≤ limit ∧
      start.toNat + length.toNat < mapFailed.toNat ∧ (fixed = true → start = addr)
  | _ => True

instance (event : Event Request.Answer) : Decidable (Possible pageShift limit event) :=
  match event with
  | ⟨.mmap addr length _ fixed,start⟩ => inferInstanceAs (Decidable (start ≠ mapFailed →
      0 < length.toNat ∧ 2^pageShift ∣ start.toNat ∧ start.toNat + length.toNat ≤ limit ∧
        start.toNat + length.toNat < mapFailed.toNat ∧ (fixed = true → start = addr)))
  | ⟨.usagePrint,_⟩ | ⟨.printf _,_⟩ | ⟨.createNodeMask _,_⟩ | ⟨.setMempolicy _ _ _,_⟩
  | ⟨.getMempolicy _ _ _,_⟩ | ⟨.store _ _,_⟩ | ⟨.munmap _ _,_⟩ | ⟨.destroyNodeMask,_⟩ =>
    inferInstanceAs (Decidable True)

/-- The page belongs to a reservation of two large pages. -/
def Reserved (large : Word) (trace : Trace) (page : Nat) : Prop :=
  ∃ start, ⟨.mmap 0 (large*2) .none false,start⟩ ∈ trace ∧ start ≠ mapFailed ∧
    covers (2^pageShift) start.toNat (large*2).toNat page = true

structure Clean (large : Word) (trace : Trace) (mapped : Nat → Bool) : Prop where
  released : ∀ page, Reserved pageShift large trace page → after pageShift limit mapped trace page = false
  spared : ∀ page, ¬Reserved pageShift large trace page → mapped page = true →
    after pageShift limit mapped trace page = true

end

/-- What get_mempolicy has answered when it was asked for the node. -/
def nodeReport : Event Request.Answer → Option Policy
  | ⟨.getMempolicy _ _ flags,policy⟩ => if flags = mpolFNode then some policy else none
  | _ => none

def nodeReports (trace : Trace) : List Policy := trace.filterMap nodeReport

/-- The next report does not fail, and names another node. -/
def Switched (old new : Policy) : Prop := new.ret = 0 ∧ new.mode ≠ old.mode

instance (old new : Policy) : Decidable (Switched old new) := inferInstanceAs (Decidable (_ ∧ _))

theorem nodeReports_append (first second : Trace) :
    nodeReports (first ++ second) = nodeReports first ++ nodeReports second := List.filterMap_append

/-! The ways through the test. -/

def round (large reserve buf : Word) (value : BitVec 8) (policy : Policy) (first second third : Int) : Trace :=
  [⟨.mmap 0 (large*2) .none false,reserve⟩,⟨.mmap (alignUp reserve large) large .readWrite true,buf⟩,
    ⟨.store buf value,()⟩,⟨.getMempolicy false 0 mpolFNode,policy⟩,⟨.munmap reserve (buf - reserve),first⟩,
    ⟨.munmap buf large,second⟩,⟨.munmap (buf + large) (reserve + large*2 - (buf + large)),third⟩]

/-- Complete rounds, from one report of the node to the last. -/
inductive Rounds (large : Word) : Policy → Trace → Policy → Prop
  | nil (old : Policy) : Rounds large old [] old
  | cons (reserve buf : Word) (value : BitVec 8) (old policy last : Policy) (first second third : Int)
      (rest : Trace) (made : reserve ≠ mapFailed) (placed : buf ≠ mapFailed) (switched : Switched old policy)
      (rounds : Rounds large policy rest last) :
      Rounds large old (round large reserve buf value policy first second third ++ rest) last

/-- What is left of the run after its last complete round. -/
inductive Tail (large : Word) (old : Policy) : Trace → Statics → Prop
  | done : Tail large old [] .initial
  | reserveFailed : Tail large old [⟨.mmap 0 (large*2) .none false,mapFailed⟩] .initial
  | bufFailed (reserve : Word) (made : reserve ≠ mapFailed) :
      Tail large old [⟨.mmap 0 (large*2) .none false,reserve⟩,
        ⟨.mmap (alignUp reserve large) large .readWrite true,mapFailed⟩] ⟨reserve,mapFailed,mapFailed⟩
  | asserted (reserve buf : Word) (value : BitVec 8) (policy : Policy) (made : reserve ≠ mapFailed)
      (placed : buf ≠ mapFailed) (stayed : ¬Switched old policy) :
      Tail large old [⟨.mmap 0 (large*2) .none false,reserve⟩,
        ⟨.mmap (alignUp reserve large) large .readWrite true,buf⟩,⟨.store buf value,()⟩,
        ⟨.getMempolicy false 0 mpolFNode,policy⟩] ⟨reserve,buf,mapFailed⟩

theorem countLoop_cases (large : Word) (left i : Nat) (old : Policy) (trace : Trace) (msg : Msg) (s : Statics)
    (runs : Runs (countLoop large left i old.mode .initial) trace (msg,s)) :
    ∃ rounds tail last, trace = rounds ++ tail ∧ Rounds large old rounds last ∧ Tail large last tail s := by
  induction left generalizing i old trace with
  | zero =>
    obtain ⟨rfl,same⟩ := (runs_pure _ _ _).mp runs
    cases same
    exact ⟨[],[],old,rfl,.nil old,.done⟩
  | succ left ih =>
    obtain ⟨reserve,_,rfl,afterReserve⟩ := (runs_request_bind _ _ _ _).mp runs
    rcases runs_check _ _ _ _ _ afterReserve with ⟨failed,rfl,same⟩ | ⟨made,reserves⟩
    · cases same
      subst failed
      exact ⟨[],_,old,rfl,.nil old,.reserveFailed⟩
    obtain ⟨buf,_,rfl,afterBuf⟩ := (runs_request_bind _ _ _ _).mp reserves
    rcases runs_check _ _ _ _ _ afterBuf with ⟨failed,rfl,same⟩ | ⟨placed,maps⟩
    · cases same
      subst failed
      exact ⟨[],_,old,rfl,.nil old,.bufFailed reserve made⟩
    obtain ⟨_,_,rfl,afterStore⟩ := (runs_request_bind _ _ _ _).mp maps
    obtain ⟨policy,_,rfl,afterPolicy⟩ := (runs_request_bind _ _ _ _).mp afterStore
    rcases runs_check _ _ _ _ _ afterPolicy with ⟨failed,rfl,same⟩ | ⟨zero,gets⟩
    · cases same
      exact ⟨[],_,old,rfl,.nil old,.asserted _ _ _ _ made placed (fun switched => failed switched.1)⟩
    rcases runs_check _ _ _ _ _ gets with ⟨equal,rfl,same⟩ | ⟨other,changes⟩
    · cases same
      exact ⟨[],_,old,rfl,.nil old,.asserted _ _ _ _ made placed (fun switched => switched.2 equal)⟩
    obtain ⟨first,_,rfl,afterFirst⟩ := (runs_request_bind _ _ _ _).mp changes
    obtain ⟨second,_,rfl,afterSecond⟩ := (runs_request_bind _ _ _ _).mp afterFirst
    obtain ⟨third,_,rfl,afterThird⟩ := (runs_request_bind _ _ _ _).mp afterSecond
    obtain ⟨rounds,tail,last,rfl,complete,ending⟩ := ih _ policy _ afterThird
    exact ⟨round large reserve buf _ policy first second third ++ rounds,tail,last,rfl,
      .cons _ _ _ _ _ _ _ _ _ _ made placed ⟨of_not_not zero,other⟩ complete,ending⟩

def Quiet : Event Request.Answer → Prop
  | ⟨.mmap _ _ _ _,_⟩ | ⟨.munmap _ _,_⟩ => False
  | _ => True

/-- A run: calls that leave the address space alone, the last of them a report of the
node if the run gets that far, complete rounds, and the rest. -/
def Splits (large : Word) (trace : Trace) (s : Statics) : Prop :=
  ∃ before rounds tail old last, trace = before ++ (rounds ++ tail) ∧ (∀ event ∈ before, Quiet event) ∧
    Rounds large old rounds last ∧ Tail large last tail s ∧
    (nodeReports before = [old] ∨ nodeReports before = [] ∧ rounds ++ tail = [])

theorem splits_returned (large : Word) (first msg : Msg) (trace : Trace) (s : Statics)
    (runs : Runs (return (first,Statics.initial) : Code (Msg × Statics)) trace (msg,s)) :
    Splits large trace s := by
  obtain ⟨rfl,same⟩ := (runs_pure _ _ _).mp runs
  cases same
  exact ⟨[],[],[],⟨0,0,0⟩,_,rfl,by simp,.nil _,.done,.inr ⟨rfl,rfl⟩⟩

/-- An assertion before the first reservation. -/
theorem splits_check (large : Word) (stop : Prop) [Decidable stop] (first msg : Msg)
    (rest : Code (Msg × Statics)) (trace : Trace) (s : Statics)
    (runs : Runs (if stop then return (first,.initial) else rest) trace (msg,s))
    (later : Runs rest trace (msg,s) → Splits large trace s) : Splits large trace s := by
  by_cases stops : stop
  · rw [if_pos stops] at runs
    exact splits_returned large first msg trace s runs
  · rw [if_neg stops] at runs
    exact later runs

/-- A call before the first reservation. -/
theorem splits_call (large : Word) (asked : Request) (next : asked.Answer → Code (Msg × Statics)) (msg : Msg)
    (trace : Trace) (s : Statics) (runs : Runs (ask asked >>= next) trace (msg,s))
    (quiet : ∀ reply, Quiet ⟨asked,reply⟩) (silent : ∀ reply, nodeReport ⟨asked,reply⟩ = none)
    (later : ∀ reply rest, Runs (next reply) rest (msg,s) → Splits large rest s) : Splits large trace s := by
  obtain ⟨reply,rest,rfl,going⟩ := (runs_request_bind _ _ _ _).mp runs
  obtain ⟨before,rounds,tail,old,last,rfl,allQuiet,complete,ending,reports⟩ := later reply rest going
  refine ⟨⟨asked,reply⟩ :: before,rounds,tail,old,last,rfl,List.forall_mem_cons.mpr ⟨quiet reply,allQuiet⟩,
    complete,ending,?_⟩
  rwa [nodeReports,List.filterMap_cons_none (silent reply)]

theorem runFunc_splits (large maxNode : Word) (trace : Trace) (msg : Msg) (s : Statics)
    (runs : Runs (runFunc large maxNode .initial) trace (msg,s)) : Splits large trace s := by
  dsimp only [runFunc] at runs
  by_cases zero : maxNode = 0
  · rw [if_pos zero] at runs
    exact splits_call large _ _ msg trace s runs (fun _ => trivial) (fun _ => rfl)
      (fun _ rest => splits_returned large _ msg rest s)
  rw [if_neg zero] at runs
  by_cases few : maxNode < 2
  · rw [if_pos few] at runs
    exact splits_call large _ _ msg trace s runs (fun _ => trivial) (fun _ => rfl)
      (fun _ rest => splits_returned large _ msg rest s)
  rw [if_neg few] at runs
  refine splits_call large _ _ msg trace s runs (fun _ => trivial) (fun _ => rfl) ?_
  intro allocated trace afterMask
  refine splits_check large _ _ msg _ trace s afterMask ?_
  intro masked
  refine splits_call large _ _ msg trace s masked (fun _ => trivial) (fun _ => rfl) ?_
  intro set trace afterSet
  refine splits_check large _ _ msg _ trace s afterSet ?_
  intro interleaved
  refine splits_call large _ _ msg trace s interleaved (fun _ => trivial) (fun _ => rfl) ?_
  intro policy trace afterPolicy
  refine splits_check large _ _ msg _ trace s afterPolicy ?_
  intro got
  refine splits_check large _ _ msg _ trace s got ?_
  intro rightMode
  refine splits_check large _ _ msg _ trace s rightMode ?_
  intro rightMask
  -- the first report of the node, to which the first round compares its own
  obtain ⟨node,trace,rfl,afterNode⟩ := (runs_request_bind _ _ _ _).mp rightMask
  rcases runs_check _ _ _ _ _ afterNode with ⟨_,rfl,same⟩ | ⟨_,looping⟩
  · cases same
    exact ⟨[_],[],[],node,node,rfl,by simp [Quiet],.nil node,.done,.inl rfl⟩
  · obtain ⟨rounds,tail,last,rfl,complete,ending⟩ := countLoop_cases _ _ _ node _ _ _ looping
    exact ⟨[_],rounds,tail,node,last,rfl,by simp [Quiet],complete,ending,.inl rfl⟩

theorem rounds_switched (large : Word) (old last : Policy) (rounds rest : Trace)
    (complete : Rounds large old rounds last) :
    (old :: nodeReports (rounds ++ rest)).IsChain Switched ↔ (last :: nodeReports rest).IsChain Switched := by
  induction complete with
  | nil old => rfl
  | cons reserve buf value old policy last first second third rounds made placed switched complete ih =>
    rw [List.append_assoc,nodeReports_append]
    change (old :: policy :: nodeReports (rounds ++ rest)).IsChain Switched ↔ _
    rw [List.isChain_cons_cons,ih,and_iff_right switched]

/-- The calls before and in complete rounds have placed every large page. -/
theorem splits_placed (large : Word) (old last : Policy) (before rounds : Trace)
    (quiet : ∀ event ∈ before, Quiet event) (complete : Rounds large old rounds last) (addr : Word) (rest : Trace)
    (later : ⟨.mmap addr large .readWrite true,mapFailed⟩ ∉ rest) :
    ⟨.mmap addr large .readWrite true,mapFailed⟩ ∉ before ++ (rounds ++ rest) := by
  simp only [List.mem_append,not_or]
  refine ⟨fun member => quiet _ member,?_,later⟩
  induction complete with
  | nil old => simp
  | cons reserve buf value old policy last first second third rounds made placed switched complete ih =>
    rw [List.mem_append,not_or]
    exact ⟨by simp [round,placed.symm],ih⟩

/-! What the calls make of the address space. -/

section
variable (pageShift largeShift limit : Nat)

/-- LARGE_PAGE_SIZE. -/
def largePageSize : Word := 1#64 <<< largeShift

theorem after_append (mapped : Nat → Bool) (first second : Trace) :
    after pageShift limit mapped (first ++ second) = after pageShift limit (after pageShift limit mapped first) second :=
  List.foldl_append

theorem after_cons (mapped : Nat → Bool) (event : Event Request.Answer) (trace : Trace) :
    after pageShift limit mapped (event :: trace) = after pageShift limit (effect pageShift limit mapped event) trace :=
  rfl

theorem after_nil (mapped : Nat → Bool) : after pageShift limit mapped [] = mapped := rfl

theorem effect_quiet (mapped : Nat → Bool) (event : Event Request.Answer) (quiet : Quiet event) :
    effect pageShift limit mapped event = mapped := by
  obtain ⟨asked,reply⟩ := event
  cases asked with
  | mmap addr length prot fixed => exact quiet.elim
  | munmap addr length => exact quiet.elim
  | _ => rfl

theorem after_quiet (mapped : Nat → Bool) (trace : Trace) (quiet : ∀ event ∈ trace, Quiet event) :
    after pageShift limit mapped trace = mapped := by
  induction trace with
  | nil => rfl
  | cons event trace ih =>
    obtain ⟨first,rest⟩ := List.forall_mem_cons.mp quiet
    rw [after_cons,effect_quiet _ _ _ _ first,ih rest]

/-- A reservation that mmap has made. -/
structure Reservation (reserve : Word) : Prop where
  bound : largeShift < 64
  large : (largePageSize largeShift).toNat = 2^largeShift
  length : (largePageSize largeShift*2).toNat = 2*2^largeShift
  boundary : 2^pageShift ∣ reserve.toNat
  inside : reserve.toNat + 2*2^largeShift ≤ limit
  below : reserve.toNat + 2*2^largeShift < 2^64-1

theorem reservation (reserve : Word) (made : reserve ≠ mapFailed)
    (possible : Possible pageShift limit ⟨.mmap 0 (largePageSize largeShift*2) .none false,reserve⟩) :
    Reservation pageShift largeShift limit reserve := by
  obtain ⟨some,boundary,inside,below,_⟩ := possible made
  have bound : largeShift < 64 := by
    by_contra wide
    have zero : largePageSize largeShift = 0 := BitVec.shiftLeft_eq_zero (Nat.le_of_not_lt wide)
    rw [zero] at some
    contradiction
  have large : (largePageSize largeShift).toNat = 2^largeShift := toNat_shiftLeft_one largeShift bound
  have length : (largePageSize largeShift*2).toNat = 2*2^largeShift := by
    rw [BitVec.toNat_mul,large] at some ⊢
    -- with a shift of 63 the product wraps to 0, and there is no reservation of that
    by_cases top : largeShift = 63
    · subst top
      contradiction
    · have power : 2^largeShift ≤ 2^62 := Nat.pow_le_pow_right (by decide) (by omega)
      change 2^largeShift * 2 % 2^64 = _
      omega
  rw [length] at inside below
  rw [mapFailed_toNat] at below
  exact ⟨bound,large,length,boundary,inside,below⟩

/-- The large page in a reservation. -/
structure Place (reserve buf : Word) : Prop where
  low : reserve.toNat ≤ buf.toNat
  high : buf.toNat < reserve.toNat + 2^largeShift
  aligned : 2^largeShift ∣ buf.toNat

theorem place (reserve buf : Word) (reserved : Reservation pageShift largeShift limit reserve)
    (placed : buf ≠ mapFailed)
    (possible : Possible pageShift limit
      ⟨.mmap (alignUp reserve (largePageSize largeShift)) (largePageSize largeShift) .readWrite true,buf⟩) :
    Place largeShift reserve buf := by
  obtain ⟨_,_,_,_,fixed⟩ := possible placed
  obtain ⟨low,high,aligned⟩ := alignUp_spec reserve largeShift reserved.bound (by have := reserved.below; omega)
  rw [fixed rfl]
  exact ⟨low,high,aligned⟩

/-- The lengths that the three munmap calls compute. -/
theorem lengths (reserve buf : Word) (reserved : Reservation pageShift largeShift limit reserve)
    (placed : Place largeShift reserve buf) :
    (buf - reserve).toNat = buf.toNat - reserve.toNat ∧
      (buf + largePageSize largeShift).toNat = buf.toNat + 2^largeShift ∧
      (reserve + largePageSize largeShift*2 - (buf + largePageSize largeShift)).toNat =
        reserve.toNat + 2*2^largeShift - (buf.toNat + 2^largeShift) := by
  have low := placed.low
  have high := placed.high
  have below := reserved.below
  have next : (buf + largePageSize largeShift).toNat = buf.toNat + 2^largeShift := by
    rw [BitVec.toNat_add_of_lt (by rw [reserved.large]; omega),reserved.large]
  have last : (reserve + largePageSize largeShift*2).toNat = reserve.toNat + 2*2^largeShift := by
    rw [BitVec.toNat_add_of_lt (by rw [reserved.length]; omega),reserved.length]
  refine ⟨BitVec.toNat_sub_of_le low,next,?_⟩
  rw [BitVec.toNat_sub_of_le (by rw [BitVec.le_def,next,last]; omega),next,last]

theorem effect_mmap (mapped : Nat → Bool) (addr length start : Word) (prot : Prot) (fixed : Bool)
    (made : start ≠ mapFailed) :
    effect pageShift limit mapped ⟨.mmap addr length prot fixed,start⟩ =
      map (2^pageShift) start.toNat length.toNat mapped := if_neg made

theorem effect_mmap_failed (mapped : Nat → Bool) (addr length : Word) (prot : Prot) (fixed : Bool) :
    effect pageShift limit mapped ⟨.mmap addr length prot fixed,mapFailed⟩ = mapped := by
  simp [effect]

theorem effect_munmap (mapped : Nat → Bool) (start length : Word) (ret : Int)
    (inside : start.toNat + length.toNat ≤ limit) :
    effect pageShift limit mapped ⟨.munmap start length,ret⟩ =
      unmap (2^pageShift) start.toNat length.toNat mapped := if_pos inside

theorem effect_munmap_refused (mapped : Nat → Bool) (start length : Word) (ret : Int)
    (beyond : ¬start.toNat + length.toNat ≤ limit) :
    effect pageShift limit mapped ⟨.munmap start length,ret⟩ = mapped := if_neg beyond

/-- The pieces before, at and behind the large page make up the reservation. -/
theorem after_round (mapped : Nat → Bool) (reserve buf : Word) (value : BitVec 8) (policy : Policy)
    (first second third : Int) (reserved : Reservation pageShift largeShift limit reserve)
    (placed : Place largeShift reserve buf) (made : reserve ≠ mapFailed) (got : buf ≠ mapFailed) :
    after pageShift limit mapped
        (round (largePageSize largeShift) reserve buf value policy first second third) =
      unmap (2^pageShift) reserve.toNat (2*2^largeShift) mapped := by
  obtain ⟨front,next,back⟩ := lengths pageShift largeShift limit reserve buf reserved placed
  have low := placed.low
  have high := placed.high
  have inside := reserved.inside
  have large := reserved.large
  simp only [round,after_cons,after_nil]
  rw [effect_munmap _ _ _ _ _ _ (by omega),effect_munmap _ _ _ _ _ _ (by omega),
    effect_munmap _ _ _ _ _ _ (by omega),effect_quiet _ _ _ ⟨.getMempolicy _ _ _,_⟩ trivial,
    effect_quiet _ _ _ ⟨.store _ _,_⟩ trivial,effect_mmap _ _ _ _ _ _ _ _ got,
    effect_mmap _ _ _ _ _ _ _ _ made,front,next,back,large,reserved.length]
  have toBuf : reserve.toNat + (buf.toNat - reserve.toNat) = buf.toNat := by omega
  have toNext : buf.toNat - reserve.toNat + 2^largeShift +
      (reserve.toNat + 2*2^largeShift - (buf.toNat + 2^largeShift)) = 2*2^largeShift := by omega
  have joined := unmap_append (2^pageShift) reserve.toNat (buf.toNat - reserve.toNat) (2^largeShift)
  have whole := unmap_append (2^pageShift) reserve.toNat (buf.toNat - reserve.toNat + 2^largeShift)
    (reserve.toNat + 2*2^largeShift - (buf.toNat + 2^largeShift))
  rw [toBuf] at joined
  rw [← Nat.add_assoc,toBuf,toNext] at whole
  rw [joined,whole,unmap_map _ _ _ _ _ _ low (by omega),unmap_map _ _ _ _ _ _ (Nat.le_refl _) (Nat.le_refl _)]

theorem reserved_append (large : Word) (first second : Trace) (page : Nat) :
    Reserved pageShift large (first ++ second) page ↔
      Reserved pageShift large first page ∨ Reserved pageShift large second page := by
  simp only [Reserved,List.mem_append,or_and_right,exists_or]

theorem not_reserved_quiet (large : Word) (trace : Trace) (quiet : ∀ event ∈ trace, Quiet event) (page : Nat) :
    ¬Reserved pageShift large trace page := by
  rintro ⟨start,member,_⟩
  exact quiet _ member

/-- Complete rounds leave nothing mapped in their reservations, and the rest as it was. -/
theorem after_rounds (trace : Trace) (old last : Policy)
    (rounds : Rounds (largePageSize largeShift) old trace last)
    (possible : ∀ event ∈ trace, Possible pageShift limit event) (mapped : Nat → Bool) (page : Nat) :
    (Reserved pageShift (largePageSize largeShift) trace page →
      after pageShift limit mapped trace page = false) ∧
    (¬Reserved pageShift (largePageSize largeShift) trace page →
      after pageShift limit mapped trace page = mapped page) := by
  induction rounds generalizing mapped with
  | nil old => simp [Reserved,after]
  | cons reserve buf value old policy last first second third rest made placed switched rounds ih =>
    have reserved := reservation pageShift largeShift limit reserve made (possible _ (by simp [round]))
    have inner := place pageShift largeShift limit reserve buf reserved placed (possible _ (by simp [round]))
    obtain ⟨released,spared⟩ := ih (fun event member => possible event (List.mem_append_right _ member))
      (unmap (2^pageShift) reserve.toNat (2*2^largeShift) mapped)
    have covered : Reserved pageShift (largePageSize largeShift)
        (round (largePageSize largeShift) reserve buf value policy first second third) page ↔
        covers (2^pageShift) reserve.toNat (2*2^largeShift) page = true := by
      rw [← reserved.length]
      simp [Reserved,round,made]
    rw [after_append,after_round pageShift largeShift limit mapped reserve buf value policy first second third
      reserved inner made placed,reserved_append,covered]
    -- a later round may get the same pages again
    by_cases later : Reserved pageShift (largePageSize largeShift) rest page
    · simp [later,released later]
    · rw [spared later]
      cases inside : covers (2^pageShift) reserve.toNat (2*2^largeShift) page <;> simp [unmap,later,inside]

/-- The last page below MAP_FAILED: it belongs to no reservation, and to every range
that goes up to MAP_FAILED. -/
theorem exists_top (multiple : pageShift ≤ largeShift) (trace : Trace)
    (possible : ∀ event ∈ trace, Possible pageShift limit event) :
    ∃ page, ¬Reserved pageShift (largePageSize largeShift) trace page ∧
      ∀ start, 2^pageShift ∣ start → start < 2^64-1 →
        covers (2^pageShift) start (2^64-1 - start) page = true := by
  obtain ⟨page,high,low⟩ : ∃ page, page*2^pageShift < 2^64-1 ∧
      ∀ address, 2^pageShift ∣ address → address < 2^64-1 → address ≤ page*2^pageShift := by
    refine ⟨(2^64-2) / 2^pageShift,Nat.lt_of_le_of_lt (Nat.div_mul_le_self _ _) (by decide),?_⟩
    rintro _ ⟨pages,rfl⟩ below
    rw [Nat.mul_comm]
    apply Nat.mul_le_mul_right
    rw [Nat.le_div_iff_mul_le (Nat.two_pow_pos pageShift),Nat.mul_comm]
    omega
  refine ⟨page,?_,?_⟩
  · rintro ⟨start,member,made,covered⟩
    have reserved := reservation pageShift largeShift limit start made (possible _ member)
    have pages : 2^pageShift ∣ 2*2^largeShift := (Nat.pow_dvd_pow 2 multiple).mul_left 2
    have ends := low _ (Nat.dvd_add reserved.boundary pages) reserved.below
    rw [reserved.length,covers_iff] at covered
    omega
  · intro start boundary below
    rw [covers_iff]
    exact ⟨low start boundary below,by omega⟩

/-! The teardown. -/

def released (addr length : Word) (ret : Int) : Trace :=
  if addr = mapFailed then [] else [⟨.munmap addr length,ret⟩]

theorem released_failed (length : Word) (ret : Int) : released mapFailed length ret = [] := if_pos rfl

theorem released_made (addr length : Word) (ret : Int) (made : addr ≠ mapFailed) :
    released addr length ret = [⟨.munmap addr length,ret⟩] := if_neg made

theorem munmapUnlessFailed_releases (addr length : Word) (trace : Trace) (value : Unit)
    (runs : Runs (munmapUnlessFailed addr length) trace value) : ∃ ret, trace = released addr length ret := by
  unfold munmapUnlessFailed at runs
  unfold released
  by_cases failed : addr = mapFailed
  · rw [if_neg (not_not_intro failed)] at runs
    obtain ⟨rfl,_⟩ := (runs_pure _ _ _).mp runs
    exact ⟨0,(if_pos failed).symm⟩
  · rw [if_pos failed] at runs
    obtain ⟨ret,_,rfl,afterUnmap⟩ := (runs_request_bind _ _ _ _).mp runs
    obtain ⟨rfl,_⟩ := (runs_pure _ _ _).mp afterUnmap
    exact ⟨ret,(if_neg failed).symm⟩

theorem teardownFunc_releases (large : Word) (s : Statics) (trace : Trace) (value : Unit)
    (runs : Runs (teardownFunc large s) trace value) :
    ∃ first second third, trace = ⟨.destroyNodeMask,()⟩ :: (released s.reserve (s.buf - s.reserve) first ++
      (released s.buf large second ++ released s.addr (s.reserve + large*2 - s.addr) third)) := by
  obtain ⟨_,_,rfl,afterMask⟩ := (runs_request_bind _ _ _ _).mp runs
  obtain ⟨_,_,_,rfl,reserve,afterReserve⟩ := (runs_bind _ _ _ _).mp afterMask
  obtain ⟨_,_,_,rfl,buf,addr⟩ := (runs_bind _ _ _ _).mp afterReserve
  obtain ⟨first,rfl⟩ := munmapUnlessFailed_releases _ _ _ _ reserve
  obtain ⟨second,rfl⟩ := munmapUnlessFailed_releases _ _ _ _ buf
  obtain ⟨third,rfl⟩ := munmapUnlessFailed_releases _ _ _ _ addr
  exact ⟨first,second,third,rfl⟩

theorem mem_reserved (large reserve : Word) (made : reserve ≠ mapFailed) (front rest : Trace) (page : Nat)
    (covered : covers (2^pageShift) reserve.toNat (large*2).toNat page = true) :
    Reserved pageShift large (front ++ ⟨.mmap 0 (large*2) .none false,reserve⟩ :: rest) page :=
  ⟨reserve,by simp,made,covered⟩

/-- Without a large page, the teardown takes MAP_FAILED for the end of the part
before it: it asks for everything above the reservation too. -/
theorem bufFailed_not_clean (multiple : pageShift ≤ largeShift) (front : Trace) (reserve addr : Word) (ret : Int)
    (made : reserve ≠ mapFailed) (trace : Trace)
    (whole : trace = front ++ [⟨.mmap 0 (largePageSize largeShift*2) .none false,reserve⟩,
      ⟨.mmap addr (largePageSize largeShift) .readWrite true,mapFailed⟩,⟨.destroyNodeMask,()⟩,
      ⟨.munmap reserve (mapFailed - reserve),ret⟩])
    (possible : ∀ event ∈ trace, Possible pageShift limit event) :
    ¬∀ mapped, Clean pageShift limit (largePageSize largeShift) trace mapped := by
  intro clean
  subst whole
  have reserved := reservation pageShift largeShift limit reserve made (possible _ (by simp))
  have below := reserved.below
  have length : (mapFailed - reserve).toNat = 2^64-1 - reserve.toNat := by
    rw [BitVec.toNat_sub_of_le (by rw [BitVec.le_def,mapFailed_toNat]; omega),mapFailed_toNat]
  by_cases wide : 2^64-1 ≤ limit
  · -- the page below MAP_FAILED goes with the reservation
    obtain ⟨page,free,covered⟩ := exists_top pageShift largeShift limit multiple _ possible
    have spared := (clean (fun _ => true)).spared page free rfl
    rw [after_append,after_cons,after_cons,after_cons,after_cons,after_nil,
      effect_munmap _ _ _ _ _ _ (by omega),length,unmap,
      covered reserve.toNat reserved.boundary (by omega),Bool.not_true,Bool.false_and] at spared
    exact Bool.false_ne_true spared
  · -- munmap refuses, and the reservation stays
    obtain ⟨page,start⟩ := reserved.boundary
    have covered : covers (2^pageShift) reserve.toNat (largePageSize largeShift*2).toNat page = true := by
      have positive := Nat.two_pow_pos largeShift
      rw [covers_iff,reserved.length,Nat.mul_comm page,← start]
      omega
    have released := (clean (fun _ => true)).released page (mem_reserved _ _ _ made _ _ _ covered)
    rw [after_append,after_cons,after_cons,after_cons,after_cons,after_nil,
      effect_munmap_refused _ _ _ _ _ _ (by omega),effect_quiet _ _ _ ⟨.destroyNodeMask,_⟩ trivial,
      effect_mmap_failed,effect_mmap _ _ _ _ _ _ _ _ made,map,covered,Bool.true_or] at released
    exact Bool.false_ne_true released.symm

/-- The teardown does not know the part behind the large page: the pointer to it is
the static one. -/
theorem asserted_not_clean (multiple : pageShift ≤ largeShift) (front : Trace) (reserve buf : Word) (value : BitVec 8)
    (policy : Policy) (first second : Int) (made : reserve ≠ mapFailed) (placed : buf ≠ mapFailed) (trace : Trace)
    (whole : trace = front ++ [⟨.mmap 0 (largePageSize largeShift*2) .none false,reserve⟩,
      ⟨.mmap (alignUp reserve (largePageSize largeShift)) (largePageSize largeShift) .readWrite true,buf⟩,
      ⟨.store buf value,()⟩,⟨.getMempolicy false 0 mpolFNode,policy⟩,⟨.destroyNodeMask,()⟩,
      ⟨.munmap reserve (buf - reserve),first⟩,⟨.munmap buf (largePageSize largeShift),second⟩])
    (possible : ∀ event ∈ trace, Possible pageShift limit event) :
    ¬∀ mapped, Clean pageShift limit (largePageSize largeShift) trace mapped := by
  intro clean
  subst whole
  have reserved := reservation pageShift largeShift limit reserve made (possible _ (by simp))
  have inner := place pageShift largeShift limit reserve buf reserved placed (possible _ (by simp))
  obtain ⟨front',_,_⟩ := lengths pageShift largeShift limit reserve buf reserved inner
  have low := inner.low
  have high := inner.high
  have inside := reserved.inside
  have large := reserved.large
  have unit : 2^pageShift ∣ 2^largeShift := Nat.pow_dvd_pow 2 multiple
  obtain ⟨page,start⟩ := Nat.dvd_add (unit.trans inner.aligned) unit
  rw [Nat.mul_comm] at start
  have covered : covers (2^pageShift) reserve.toNat (largePageSize largeShift*2).toNat page = true := by
    rw [covers_iff,reserved.length]
    omega
  have outside : ∀ address length, address + length ≤ buf.toNat + 2^largeShift →
      covers (2^pageShift) address length page = false := by
    intro address length bound
    rw [← Bool.not_eq_true,covers_iff]
    omega
  have released := (clean (fun _ => true)).released page (mem_reserved _ _ _ made _ _ _ covered)
  simp only [after_append,after_cons,after_nil] at released
  rw [effect_munmap _ _ _ _ _ _ (by omega),effect_munmap _ _ _ _ _ _ (by omega),
    effect_quiet _ _ _ ⟨.destroyNodeMask,_⟩ trivial,effect_quiet _ _ _ ⟨.getMempolicy _ _ _,_⟩ trivial,
    effect_quiet _ _ _ ⟨.store _ _,_⟩ trivial,effect_mmap _ _ _ _ _ _ _ _ placed,
    effect_mmap _ _ _ _ _ _ _ _ made,unmap,unmap,map,map,outside _ _ (by omega),outside _ _ (by omega),
    covered] at released
  simp at released

/-- The reports of a whole run, with calls after it that report no node. -/
theorem splits_switched (large : Word) (old last : Policy) (before rounds tail : Trace)
    (complete : Rounds large old rounds last)
    (reports : nodeReports before = [old] ∨ nodeReports before = [] ∧ rounds ++ tail = []) (rest : Trace)
    (silent : nodeReports rest = []) :
    (nodeReports (before ++ (rounds ++ (tail ++ rest)))).IsChain Switched ↔
      (last :: nodeReports tail).IsChain Switched := by
  rw [nodeReports_append]
  rcases reports with one | ⟨none,empty⟩
  · rw [one,List.singleton_append,rounds_switched large old last rounds _ complete,nodeReports_append,silent,
      List.append_nil]
  · obtain ⟨rfl,rfl⟩ := List.append_eq_nil_iff.mp empty
    rw [none,List.nil_append,List.nil_append,List.nil_append,silent]
    exact iff_of_true .nil (.singleton _)

theorem teardown_silent (large : Word) (s : Statics) (first second third : Int) :
    nodeReports (⟨.destroyNodeMask,()⟩ :: (released s.reserve (s.buf - s.reserve) first ++
      (released s.buf large second ++ released s.addr (s.reserve + large*2 - s.addr) third))) = [] := by
  have silent (addr length : Word) (ret : Int) : nodeReports (released addr length ret) = [] := by
    unfold released
    split <;> rfl
  change nodeReports (_ ++ (_ ++ _)) = []
  rw [nodeReports_append,nodeReports_append,silent,silent,silent]
  rfl

theorem rounds_clean (before rounds rest : Trace) (old last : Policy) (quiet : ∀ event ∈ before, Quiet event)
    (complete : Rounds (largePageSize largeShift) old rounds last)
    (possible : ∀ event ∈ before ++ (rounds ++ rest), Possible pageShift limit event)
    (none : ∀ page, ¬Reserved pageShift (largePageSize largeShift) rest page)
    (still : ∀ mapped, after pageShift limit mapped rest = mapped) (mapped : Nat → Bool) :
    Clean pageShift limit (largePageSize largeShift) (before ++ (rounds ++ rest)) mapped := by
  have value : after pageShift limit mapped (before ++ (rounds ++ rest)) = after pageShift limit mapped rounds := by
    rw [after_append,after_quiet _ _ _ _ quiet,after_append,still]
  have same : ∀ page, Reserved pageShift (largePageSize largeShift) (before ++ (rounds ++ rest)) page ↔
      Reserved pageShift (largePageSize largeShift) rounds page := by
    intro page
    simp [reserved_append,not_reserved_quiet _ _ before quiet page,none page]
  have each := after_rounds pageShift largeShift limit rounds old last complete
    (fun event member => possible event (by simp [member])) mapped
  constructor
  · intro page reserved
    rw [value]
    exact (each page).1 ((same page).mp reserved)
  · intro page free isMapped
    rw [value,(each page).2 (fun reserved => free ((same page).mpr reserved)),isMapped]

/-- After the run and the teardown the reservations are unmapped, and nothing else,
unless mmap has failed to put a large page into a reservation, or get_mempolicy has
failed, or has named the node from before, with a large page in place. The static
pointer to the part behind the large page is never set then, and without a large
page the part before it is not known either. -/
theorem reservations_unmapped_iff (multiple : pageShift ≤ largeShift) (maxNode : Word) (trace : Trace) (msg : Msg)
    (s : Statics) (runs : Runs (test (largePageSize largeShift) maxNode) trace (msg,s))
    (possible : ∀ event ∈ trace, Possible pageShift limit event) :
    (∀ mapped, Clean pageShift limit (largePageSize largeShift) trace mapped) ↔
      (∀ addr, ⟨.mmap addr (largePageSize largeShift) .readWrite true,mapFailed⟩ ∉ trace) ∧
        (nodeReports trace).IsChain Switched := by
  obtain ⟨first,⟨msg',s'⟩,_,rfl,running,afterRun⟩ := (runs_bind _ _ _ _).mp runs
  obtain ⟨second,_,_,rfl,tearing,returning⟩ := (runs_bind _ _ _ _).mp afterRun
  obtain ⟨rfl,same⟩ := (runs_pure _ _ _).mp returning
  cases same
  obtain ⟨before,rounds,tail,old,last,rfl,quiet,complete,ending,reports⟩ := runFunc_splits _ _ _ _ _ running
  obtain ⟨one,two,three,rfl⟩ := teardownFunc_releases _ _ _ _ tearing
  rw [List.append_nil,List.append_assoc,List.append_assoc] at possible ⊢
  rw [splits_switched _ old last before rounds tail complete reports _ (teardown_silent _ s one two three)]
  have placed := splits_placed _ old last before rounds quiet complete
  cases ending with
  | done =>
    simp only [Statics.initial,released_failed,List.append_nil,List.nil_append] at possible ⊢
    refine iff_of_true ?_ ⟨fun addr => placed addr _ (by simp),.singleton _⟩
    refine rounds_clean pageShift largeShift limit before rounds _ old last quiet complete possible ?_ ?_
    · exact not_reserved_quiet pageShift _ _ (by simp [Quiet])
    · intro mapped
      exact after_quiet pageShift limit mapped _ (by simp [Quiet])
  | reserveFailed =>
    simp only [Statics.initial,released_failed,List.append_nil] at possible ⊢
    refine iff_of_true ?_ ⟨fun addr => placed addr _ (by simp),.singleton _⟩
    refine rounds_clean pageShift largeShift limit before rounds _ old last quiet complete possible ?_ ?_
    · rintro page ⟨start,member,made,_⟩
      simp at member
      exact made member
    · intro mapped
      rw [List.cons_append,after_cons,effect_mmap_failed]
      exact after_quiet pageShift limit mapped _ (by simp [Quiet])
  | bufFailed reserve made =>
    refine iff_of_false ?_ ?_
    · rw [released_failed,released_failed,released_made reserve _ _ made,← List.append_assoc] at possible ⊢
      exact bufFailed_not_clean pageShift largeShift limit multiple (before ++ rounds) reserve _ one made _ rfl possible
    · rintro ⟨all,_⟩
      exact all (alignUp reserve (largePageSize largeShift)) (by simp)
  | asserted reserve buf value policy made put stayed =>
    refine iff_of_false ?_ ?_
    · rw [released_failed,released_made reserve _ _ made,released_made buf _ _ put,← List.append_assoc]
        at possible ⊢
      exact asserted_not_clean pageShift largeShift limit multiple (before ++ rounds) reserve buf value policy
        one two made put _ rfl possible
    · rintro ⟨_,switched⟩
      exact stayed (List.isChain_cons_cons.mp switched).1

end

def beforeLoop : Trace :=
  [⟨.createNodeMask 2,true⟩,⟨.setMempolicy 3 3 64,(0 : Int)⟩,⟨.getMempolicy true 2 0,⟨0,3,3⟩⟩,
    ⟨.getMempolicy false 0 1,⟨0,0,0⟩⟩]

def secondReserveFails : Trace :=
  beforeLoop ++ (round (largePageSize 21) 0x40001000 0x40200000 0 ⟨0,1,0⟩ 0 0 0 ++
    [⟨.mmap 0 (largePageSize 21*2) .none false,mapFailed⟩,⟨.destroyNodeMask,()⟩])

theorem reservations_unmapped_iff_round :
    Runs (test (largePageSize 21) 2) secondReserveFails (some "mmap(reserve) error",.initial) ∧
      (∀ event ∈ secondReserveFails, Possible 12 (2^48) event) ∧
      nodeReports secondReserveFails = [⟨0,0,0⟩,⟨0,1,0⟩] ∧
      ∀ mapped, Clean 12 (2^48) (largePageSize 21) secondReserveFails mapped := by
  have runs : Runs (test (largePageSize 21) 2) secondReserveFails (some "mmap(reserve) error",.initial) :=
    .call _ _ _ _ _ (.call _ _ _ _ _ (.call _ _ _ _ _ (.call _ _ _ _ _ (.call _ _ _ _ _
      (.call _ _ _ _ _ (.call _ _ _ _ _ (.call _ _ _ _ _ (.call _ _ _ _ _ (.call _ _ _ _ _
        (.call _ _ _ _ _ (.call _ _ _ _ _ (.call _ _ _ _ _ (.ret _)))))))))))))
  have possible : ∀ event ∈ secondReserveFails, Possible 12 (2^48) event := by decide
  exact ⟨runs,possible,rfl,(reservations_unmapped_iff 12 21 (2^48) (by decide) 2 _ _ _ runs possible).mpr
    ⟨by simp [secondReserveFails,beforeLoop,round,mapFailed],by decide⟩⟩

def sameNode : Trace :=
  beforeLoop ++ [⟨.mmap 0 (largePageSize 21*2) .none false,0x40001000⟩,
    ⟨.mmap (alignUp 0x40001000 (largePageSize 21)) (largePageSize 21) .readWrite true,0x40200000⟩,
    ⟨.store 0x40200000 0,()⟩,⟨.getMempolicy false 0 1,⟨0,0,0⟩⟩,⟨.destroyNodeMask,()⟩,
    ⟨.munmap 0x40001000 (0x40200000 - 0x40001000),(0 : Int)⟩,⟨.munmap 0x40200000 (largePageSize 21),(0 : Int)⟩]

/-- The page at 0x40400000 of the reservation is still mapped after the teardown. -/
theorem page_left_mapped :
    Runs (test (largePageSize 21) 2) sameNode
      (some "mode == old_mode",⟨0x40001000,0x40200000,mapFailed⟩) ∧
      (∀ event ∈ sameNode, Possible 12 (2^48) event) ∧ Reserved 12 (largePageSize 21) sameNode 0x40400 ∧
      nodeReports sameNode = [⟨0,0,0⟩,⟨0,0,0⟩] ∧ after 12 (2^48) (fun _ => false) sameNode 0x40400 = true ∧
      ¬Clean 12 (2^48) (largePageSize 21) sameNode (fun _ => false) := by
  have reserved : Reserved 12 (largePageSize 21) sameNode 0x40400 :=
    ⟨0x40001000,by simp [sameNode,beforeLoop],by decide,by decide⟩
  have mapped : after 12 (2^48) (fun _ => false) sameNode 0x40400 = true := by decide
  refine ⟨?_,by decide,reserved,rfl,mapped,?_⟩
  · exact .call _ _ _ _ _ (.call _ _ _ _ _ (.call _ _ _ _ _ (.call _ _ _ _ _ (.call _ _ _ _ _
      (.call _ _ _ _ _ (.call _ _ _ _ _ (.call _ _ _ _ _ (.call _ _ _ _ _ (.call _ _ _ _ _
        (.call _ _ _ _ _ (.ret _)))))))))))
  · intro clean
    have unmapped := clean.released _ reserved
    rw [mapped] at unmapped
    contradiction

end Ostest.TestMck.GetMempolicy
