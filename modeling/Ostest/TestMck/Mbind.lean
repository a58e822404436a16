import Mathlib.Logic.Function.Basic
import Ostest.Lib.Machine
import Ostest.Lib.Ranges
import Ostest.TestMck.Numa

/-! Tests mbind/015 to 023: policies for ranges of seven pages that lie to each other
in different ways, and the policy that every page has in the end. -/
namespace Ostest.TestMck.Mbind
open Lib.Calls Lib.Machine Lib.Ranges Lib.WordMask
open Numa (Word MbindExpect Nodes stored mbindCheck mbindCheckFrom numRegion createNodeMask)

deriving instance DecidableEq for Numa.MbindExpect

def mpolDefault : Int := 0

def mpolPreferred : Int := 1

def mpolBind : Int := 2

def mpolInterleave : Int := 3

structure MbindArgs where
  mode : Int
  nodeMask : Word
  npoff : Nat
  /-- The pages of `len`. -/
  pages : Nat

structure Test where
  mArgs : List MbindArgs
  mExpect : List MbindExpect

def test015 : Test where
  mArgs := [⟨mpolInterleave,3,2,3⟩,⟨mpolBind,1,0,1⟩]
  mExpect := [⟨mpolBind,1⟩,⟨mpolDefault,0⟩,⟨mpolInterleave,3⟩,⟨mpolInterleave,3⟩,⟨mpolInterleave,3⟩,⟨mpolDefault,0⟩,⟨mpolDefault,0⟩]

def test016 : Test where
  mArgs := [⟨mpolInterleave,3,1,3⟩,⟨mpolBind,1,1,3⟩]
  mExpect := [⟨mpolDefault,0⟩,⟨mpolBind,1⟩,⟨mpolBind,1⟩,⟨mpolBind,1⟩,⟨mpolDefault,0⟩,⟨mpolDefault,0⟩,⟨mpolDefault,0⟩]

def test017 : Test where
  mArgs := [⟨mpolInterleave,3,1,3⟩,⟨mpolBind,1,0,5⟩]
  mExpect := [⟨mpolBind,1⟩,⟨mpolBind,1⟩,⟨mpolBind,1⟩,⟨mpolBind,1⟩,⟨mpolBind,1⟩,⟨mpolDefault,0⟩,⟨mpolDefault,0⟩]

def test018 : Test where
  mArgs := [⟨mpolInterleave,3,1,3⟩,⟨mpolBind,1,0,2⟩]
  mExpect := [⟨mpolBind,1⟩,⟨mpolBind,1⟩,⟨mpolInterleave,3⟩,⟨mpolInterleave,3⟩,⟨mpolDefault,0⟩,⟨mpolDefault,0⟩,⟨mpolDefault,0⟩]

def test019 : Test where
  mArgs := [⟨mpolInterleave,3,1,3⟩,⟨mpolBind,1,2,1⟩]
  mExpect := [⟨mpolDefault,0⟩,⟨mpolInterleave,3⟩,⟨mpolBind,1⟩,⟨mpolInterleave,3⟩,⟨mpolDefault,0⟩,⟨mpolDefault,0⟩,⟨mpolDefault,0⟩]

def test020 : Test where
  mArgs := [⟨mpolInterleave,3,1,3⟩,⟨mpolBind,1,3,2⟩]
  mExpect := [⟨mpolDefault,0⟩,⟨mpolInterleave,3⟩,⟨mpolInterleave,3⟩,⟨mpolBind,1⟩,⟨mpolBind,1⟩,⟨mpolDefault,0⟩,⟨mpolDefault,0⟩]

def test021 : Test where
  mArgs := [⟨mpolInterleave,3,1,3⟩,⟨mpolPreferred,2,4,2⟩,⟨mpolBind,1,3,2⟩]
  mExpect := [⟨mpolDefault,0⟩,⟨mpolInterleave,3⟩,⟨mpolInterleave,3⟩,⟨mpolBind,1⟩,⟨mpolBind,1⟩,⟨mpolPreferred,2⟩,⟨mpolDefault,0⟩]

def test022 : Test where
  mArgs := [⟨mpolInterleave,3,1,3⟩,⟨mpolPreferred,2,4,1⟩,⟨mpolBind,1,3,3⟩]
  mExpect := [⟨mpolDefault,0⟩,⟨mpolInterleave,3⟩,⟨mpolInterleave,3⟩,⟨mpolBind,1⟩,⟨mpolBind,1⟩,⟨mpolBind,1⟩,⟨mpolDefault,0⟩]

def test023 : Test where
  mArgs := [⟨mpolInterleave,3,1,3⟩,⟨mpolPreferred,2,5,2⟩,⟨mpolBind,1,3,3⟩]
  mExpect := [⟨mpolDefault,0⟩,⟨mpolInterleave,3⟩,⟨mpolInterleave,3⟩,⟨mpolBind,1⟩,⟨mpolBind,1⟩,⟨mpolBind,1⟩,⟨mpolPreferred,2⟩]

def tests : List Test := [test015,test016,test017,test018,test019,test020,test021,test022,test023]

inductive Request where
  | mmap (length : Word)
  | malloc
  | mbind (addr len : Word) (mode : Int) (nodeMask : Word)
  | getMempolicy (addr : Word)
  | munmap (addr length : Word)

/-- get_mempolicy is answered as in `mbind_check`. -/
abbrev Answer (maxNode : Nat) : Request → Type
  | .mmap _ => Word
  | .malloc => Bool
  | .mbind .. => Int
  | .getMempolicy _ => Option (Int × Nodes maxNode)
  | .munmap .. => Int

abbrev Code (maxNode : Nat) := Prog Request (Answer maxNode)

abbrev Trace (maxNode : Nat) := List (Event (Answer maxNode))

inductive Message where
  | maxNodeZero
  | maxNodeError
  | mallocError
  | mbindError
  | getMempolicyError
  | mbindCheckError
  deriving DecidableEq

def Message.text : Message → String
  | .maxNodeZero => "max_node = 0"
  | .maxNodeError => "max_node error"
  | .mallocError => "node_mask malloc error"
  | .mbindError => "mbind error"
  | .getMempolicyError => "get_mempolicy error"
  | .mbindCheckError => "mbind check error"

section
variable (pageSize : Nat)

/-- The address of a page of the buffer. -/
def page (buf : Word) (i : Nat) : Word := buf + BitVec.ofNat 64 (pageSize*i)

def MbindArgs.len (args : MbindArgs) : Word := BitVec.ofNat 64 (args.pages*pageSize)

abbrev MbindArgs.call (args : MbindArgs) (buf : Word) : Request :=
  .mbind (page pageSize buf args.npoff) (args.len pageSize) args.mode args.nodeMask

def mbindAll (maxNode : Nat) (buf : Word) : List MbindArgs → List Word → Code maxNode (Except Message (List Word))
  | [], nodeMask => return .ok nodeMask
  | args :: rest, nodeMask => do
    let lRet : Int ← request (args.call pageSize buf)
    if lRet ≠ 0 then return .error .mbindError
    let some (_,nodes) ← request (Request.getMempolicy (page pageSize buf args.npoff)) | return .error .getMempolicyError
    mbindAll maxNode buf rest (stored nodeMask nodes)

/-- `mbind_check` numbers the regions, whose addresses are those of the pages. -/
def atPages (maxNode : Nat) (buf : Word) : (asked : Numa.Request) → Code maxNode (Numa.Answer maxNode asked)
  | .getMempolicy i => request (Request.getMempolicy (page pageSize buf i))

def expected (test : Test) (i : Nat) : MbindExpect := test.mExpect.getD i ⟨mpolDefault,0⟩

/-- "mbind and get" and "mbind check for each region". -/
def bindAndCheck (maxNode : Nat) (buf : Word) (test : Test) (nodeMask : List Word) : Code maxNode (Option Message) := do
  match ← mbindAll pageSize maxNode buf test.mArgs nodeMask with
  | .error message => return some message
  | .ok nodeMask =>
    let iRet ← through (atPages pageSize maxNode buf) (mbindCheck (expected test) maxNode nodeMask)
    if iRet ≠ 0 then return some .mbindCheckError
    let _ ← request (Request.munmap buf (BitVec.ofNat 64 (pageSize*numRegion)))
    return none

def runFunc (maxNode : Word) (test : Test) : Code maxNode.toNat (Option Message) := do
  let buf ← request (Request.mmap (BitVec.ofNat 64 (pageSize*numRegion)))
  if maxNode = 0 then return some .maxNodeZero
  if maxNode < 2 then return some .maxNodeError
  let allocated : Bool ← request Request.malloc
  if allocated = false then return some .mallocError
  bindAndCheck pageSize maxNode.toNat buf test (createNodeMask maxNode)

end

def MbindArgs.entry (args : MbindArgs) : Range × MbindExpect := (⟨args.npoff,args.pages⟩,⟨args.mode,args.nodeMask⟩)

def policy (owner : Option (Range × MbindExpect)) : MbindExpect := owner.elim ⟨mpolDefault,0⟩ Prod.snd

/-- The policy of the last of the calls that cover the page. -/
def lastPolicy (test : Test) (i : Nat) : MbindExpect := policy (last (test.mArgs.map MbindArgs.entry) i)

theorem expected_last : ∀ test ∈ tests, ∀ i < numRegion, expected test i = lastPolicy test i := by decide

def firstWord {maxNode : Nat} (nodes : Nodes maxNode) : Word := (nodes.words[0]?).getD 0

/-- The memset has cleared the word that is compared. -/
theorem stored_first {maxNode : Nat} (nodeMask : List Word) (nodes : Nodes maxNode) :
    ((stored nodeMask nodes)[0]?).getD 0 = firstWord nodes := by
  rw [stored,firstWord]
  cases nodes.words with
  | nil => cases nodeMask <;> rfl
  | cons word words => rfl

/-! Kernels that let a range take over from an older one by a rule. -/

section
variable {σ : Type} {maxNode : Nat} (serve : σ → (asked : Request) → Answer maxNode asked × σ)
  (owners : σ → Owners MbindExpect) (mapped : σ → Nat → Prop) (pageSize nodeIds : Nat) (rule : Meeting → Bool)

/-- A call of mbind as the tests make it, from a page boundary on, for pages that are
mapped and for the first two nodes. -/
structure Proper (s : σ) (addr len : Word) (mode : Int) (nodeMask : Word) : Prop where
  boundary : pageSize ∣ addr.toNat
  pages : ∀ i, Range.covers ⟨addr.toNat/pageSize,len.toNat/pageSize⟩ i = true → mapped s i
  mode : mode ∈ [mpolPreferred,mpolBind,mpolInterleave]
  nodes : nodeMask ≠ 0 ∧ nodeMask.toNat < 4

/-- What is assumed of a kernel: the buffer can be mapped and has no policies then,
calls of mbind are accepted and change the policies of pages by the rule, and
get_mempolicy reports them unless `max_node` is less than the number of node IDs. Which
pages are mapped in a state of the kernel, and which range a page belongs to, is told
by `mapped` and `owners`. -/
structure Obeys : Prop where
  aligned : ∀ s, pageSize ∣ ((serve s (.mmap (BitVec.ofNat 64 (pageSize*numRegion)))).1 : Word).toNat
  room : ∀ s, ((serve s (.mmap (BitVec.ofNat 64 (pageSize*numRegion)))).1 : Word).toNat + pageSize*numRegion ≤ 2^64
  fresh : ∀ s, ∀ i < numRegion,
    let reply := serve s (.mmap (BitVec.ofNat 64 (pageSize*numRegion)))
    mapped reply.2 ((reply.1 : Word).toNat/pageSize + i) ∧
      owners reply.2 ((reply.1 : Word).toNat/pageSize + i) = none
  allocates : ∀ s, (serve s .malloc).1 = true ∧ owners (serve s .malloc).2 = owners s
  binds : ∀ s addr len mode nodeMask, Proper mapped pageSize s addr len mode nodeMask →
    (serve s (.mbind addr len mode nodeMask)).1 = (0 : Int) ∧
    owners (serve s (.mbind addr len mode nodeMask)).2 =
      take rule (owners s) (⟨addr.toNat/pageSize,len.toNat/pageSize⟩,⟨mode,nodeMask⟩)
  refuses : maxNode < nodeIds → ∀ s addr, (serve s (.getMempolicy addr)).1 = none
  reports : nodeIds ≤ maxNode → ∀ s addr, mapped s (addr.toNat/pageSize) →
    (policy (owners s (addr.toNat/pageSize))).nodeMask.toNat < 2^maxNode →
    ∃ nodes, (serve s (.getMempolicy addr)).1 = some ((policy (owners s (addr.toNat/pageSize))).mode,nodes) ∧
      firstWord nodes = (policy (owners s (addr.toNat/pageSize))).nodeMask
  looks : ∀ s addr, owners (serve s (.getMempolicy addr)).2 = owners s
  keeps : ∀ s asked, (∀ addr length, asked ≠ .munmap addr length) → ∀ i, mapped s i → mapped (serve s asked).2 i
end

/-- The buffer, seven pages from page `base` on. -/
structure Placed (pageSize : Nat) (buf : Word) (base : Nat) : Prop where
  positive : 0 < pageSize
  start : buf.toNat = base*pageSize
  room : (base+numRegion)*pageSize ≤ 2^64

section
variable {pageSize : Nat} {buf : Word} {base : Nat} (placed : Placed pageSize buf base)
include placed

theorem toNat_page (i : Nat) (inside : i < numRegion) : (page pageSize buf i).toNat = (base+i)*pageSize := by
  have below : (base+i)*pageSize < 2^64 :=
    Nat.lt_of_lt_of_le (Nat.mul_lt_mul_of_pos_right (by omega) placed.positive) placed.room
  have split : (base+i)*pageSize = base*pageSize + pageSize*i := by rw [Nat.add_mul,Nat.mul_comm i]
  rw [page,BitVec.toNat_add,BitVec.toNat_ofNat,placed.start,Nat.add_mod_mod,← split,Nat.mod_eq_of_lt below]

theorem pageOf_page (i : Nat) (inside : i < numRegion) : (page pageSize buf i).toNat/pageSize = base+i := by
  rw [toNat_page placed i inside,Nat.mul_div_cancel _ placed.positive]

theorem len_pages (args : MbindArgs) (inside : args.pages < numRegion) :
    (args.len pageSize).toNat/pageSize = args.pages := by
  have below : args.pages*pageSize < 2^64 :=
    Nat.lt_of_lt_of_le (Nat.mul_lt_mul_of_pos_right (by omega : args.pages < base+numRegion) placed.positive)
      placed.room
  rw [MbindArgs.len,BitVec.toNat_ofNat,Nat.mod_eq_of_lt below,Nat.mul_div_cancel _ placed.positive]
end

/-- A call for pages of the buffer. -/
def Inside (args : MbindArgs) : Prop :=
  args.npoff+args.pages ≤ numRegion ∧ args.npoff < numRegion ∧ args.pages < numRegion ∧
    args.mode ∈ [mpolPreferred,mpolBind,mpolInterleave] ∧ args.nodeMask ≠ 0 ∧ args.nodeMask.toNat < 4

instance (args : MbindArgs) : Decidable (Inside args) := inferInstanceAs (Decidable (_ ∧ _))

theorem tests_inside : ∀ test ∈ tests, ∀ args ∈ test.mArgs, Inside args := by decide

/-- The buffer is mapped, and all policies in it are about the first two nodes. -/
structure Ready (base : Nat) (owners : Owners MbindExpect) (mapped : Nat → Prop) : Prop where
  there : ∀ i < numRegion, mapped (base+i)
  small : ∀ i < numRegion, (policy (owners (base+i))).nodeMask.toNat < 4

def entries (base : Nat) (list : List MbindArgs) : List (Range × MbindExpect) :=
  list.map (fun args => shiftEntry base args.entry)

section
variable {σ : Type} {maxNode : Nat} {serve : σ → (asked : Request) → Answer maxNode asked × σ}
  {owners : σ → Owners MbindExpect} {mapped : σ → Nat → Prop} {pageSize nodeIds : Nat} {rule : Meeting → Bool}
  (obeys : Obeys serve owners mapped pageSize nodeIds rule) {buf : Word} {base : Nat} (placed : Placed pageSize buf base)
include obeys placed

theorem serve_mbind (s : σ) (ready : Ready base (owners s) (mapped s)) (args : MbindArgs) (inside : Inside args) :
    (serve s (args.call pageSize buf)).1 = (0 : Int) ∧
      owners (serve s (args.call pageSize buf)).2 = take rule (owners s) (shiftEntry base args.entry) ∧
      Ready base (owners (serve s (args.call pageSize buf)).2) (mapped (serve s (args.call pageSize buf)).2) := by
  obtain ⟨fits,start,size,mode,nodes⟩ := inside
  have first := pageOf_page placed args.npoff start
  have count := len_pages placed args size
  have proper : Proper mapped pageSize s (page pageSize buf args.npoff) (args.len pageSize) args.mode args.nodeMask := by
    refine ⟨?_,?_,mode,nodes⟩
    · rw [toNat_page placed _ start]
      exact Nat.dvd_mul_left _ _
    · intro i covered
      rw [first,count,Range.covers_iff] at covered
      dsimp only at covered
      have there := ready.there (i-base) (by omega)
      rwa [Nat.add_sub_cancel' (by omega)] at there
  obtain ⟨zero,taken⟩ := obeys.binds s _ _ _ _ proper
  rw [first,count] at taken
  refine ⟨zero,taken,fun i inside => ?_,fun i inside => ?_⟩
  · exact obeys.keeps s (args.call pageSize buf) (fun _ _ => nofun) _ (ready.there i inside)
  · rw [taken,take]
    split
    · exact nodes.2
    · exact ready.small i inside

omit placed in
theorem ready_getMempolicy (s : σ) (ready : Ready base (owners s) (mapped s)) (addr : Word) :
    Ready base (owners (serve s (.getMempolicy addr)).2) (mapped (serve s (.getMempolicy addr)).2) where
  there i inside := obeys.keeps s (.getMempolicy addr) (fun _ _ => nofun) _ (ready.there i inside)
  small i inside := by
    rw [obeys.looks]
    exact ready.small i inside

/-- The first get_mempolicy fails, and with it the test. -/
theorem exec_refused (refused : maxNode < nodeIds) (s : σ) (ready : Ready base (owners s) (mapped s)) (args : MbindArgs)
    (inside : Inside args) (list : List MbindArgs) (nodeMask : List Word) :
    (exec serve s (mbindAll pageSize maxNode buf (args :: list) nodeMask)).1 = .error .getMempolicyError := by
  have bound := (serve_mbind obeys placed s ready args inside).1
  have failed := obeys.refuses refused (serve s (args.call pageSize buf)).2 (page pageSize buf args.npoff)
  rw [mbindAll,exec_bind,exec_request,bound,if_neg (not_not.mpr rfl),exec_bind,exec_request,failed]
  rfl

variable (known : nodeIds ≤ maxNode) (enough : 2 ≤ maxNode)
include known enough

theorem serve_getMempolicy (s : σ) (ready : Ready base (owners s) (mapped s)) (i : Nat) (inside : i < numRegion) :
    ∃ nodes, (serve s (.getMempolicy (page pageSize buf i))).1 = some ((policy (owners s (base+i))).mode,nodes) ∧
      firstWord nodes = (policy (owners s (base+i))).nodeMask := by
  have reports := obeys.reports known s (page pageSize buf i)
  rw [pageOf_page placed i inside] at reports
  have wide : 4 ≤ 2^maxNode := Nat.pow_le_pow_right (by decide : 0 < 2) enough
  exact reports (ready.there i inside) (Nat.lt_of_lt_of_le (ready.small i inside) wide)

theorem exec_mbindAll (list : List MbindArgs) (inside : ∀ args ∈ list, Inside args) (s : σ)
    (ready : Ready base (owners s) (mapped s)) (nodeMask : List Word) :
    ∃ after s', exec serve s (mbindAll pageSize maxNode buf list nodeMask) = (.ok after,s') ∧
      owners s' = takeAll rule (owners s) (entries base list) ∧ Ready base (owners s') (mapped s') := by
  induction list generalizing s nodeMask with
  | nil => exact ⟨nodeMask,s,rfl,rfl,ready⟩
  | cons args list ih =>
    obtain ⟨here,later⟩ := List.forall_mem_cons.mp inside
    obtain ⟨zero,taken,bound⟩ := serve_mbind obeys placed s ready args here
    obtain ⟨nodes,told,_⟩ := serve_getMempolicy obeys placed known enough _ bound args.npoff here.2.1
    have kept := obeys.looks (serve s (args.call pageSize buf)).2 (page pageSize buf args.npoff)
    obtain ⟨after,s',ran,final,readyFinal⟩ :=
      ih later _ (ready_getMempolicy obeys _ bound _) (stored nodeMask nodes)
    refine ⟨after,s',?_,?_,readyFinal⟩
    · rw [mbindAll,exec_bind,exec_request,zero,if_neg (not_not.mpr rfl),exec_bind,exec_request,told]
      exact ran
    · rw [final,kept,taken]
      rfl

/-- What `mbind_check` finds is what the pages belong to. -/
theorem exec_check (mExpect : Nat → MbindExpect) (left i : Nat) (inside : i+left ≤ numRegion) (s : σ)
    (ready : Ready base (owners s) (mapped s)) (nodeMask : List Word) :
    (exec serve s (through (atPages pageSize maxNode buf) (mbindCheckFrom mExpect maxNode left i nodeMask))).1 = 0 ↔
      ∀ j, i ≤ j → j < i+left → policy (owners s (base+j)) = mExpect j := by
  induction left generalizing i s nodeMask with
  | zero =>
    refine iff_of_true rfl ?_
    intro j low high
    omega
  | succ left ih =>
    obtain ⟨nodes,told,word⟩ := serve_getMempolicy obeys placed known enough s ready i (by omega)
    rw [mbindCheckFrom,Numa.getMempolicy,exec_through_request,atPages,exec_request,told]
    dsimp only
    rw [stored_first,word]
    by_cases sameMode : (policy (owners s (base+i))).mode = (mExpect i).mode
    case neg =>
      rw [if_pos sameMode]
      refine iff_of_false (show (-1 : Int) ≠ 0 by decide) (fun all => sameMode ?_)
      rw [all i (Nat.le_refl i) (by omega)]
    rw [if_neg (not_not.mpr sameMode)]
    by_cases sameNodes : (policy (owners s (base+i))).nodeMask = (mExpect i).nodeMask
    case neg =>
      rw [if_pos sameNodes]
      refine iff_of_false (show (-1 : Int) ≠ 0 by decide) (fun all => sameNodes ?_)
      rw [all i (Nat.le_refl i) (by omega)]
    have same : policy (owners s (base+i)) = mExpect i := by
      cases found : policy (owners s (base+i))
      cases expect : mExpect i
      simp_all
    rw [if_neg (not_not.mpr sameNodes),ih (i+1) (by omega) _ (ready_getMempolicy obeys _ ready _),obeys.looks]
    constructor
    · intro later j low high
      rcases Nat.eq_or_lt_of_le low with rfl | above
      · exact same
      · exact later j above (by omega)
    · intro all j low high
      exact all j (by omega) (by omega)
end

/-- What a page belongs to after the calls of a test, wherever the buffer is. -/
def owned (rule : Meeting → Bool) (test : Test) (i : Nat) : MbindExpect :=
  policy (takeAll rule unowned (test.mArgs.map MbindArgs.entry) i)

theorem policy_shift (rule : Meeting → Bool) (base : Nat) (owners : Owners MbindExpect) (test : Test) (i : Nat)
    (fresh : owners (base+i) = none) :
    policy (takeAll rule owners (entries base test.mArgs) (base+i)) = owned rule test i := by
  have shifted := takeAll_shift rule base unowned unowned (test.mArgs.map MbindArgs.entry) (fun _ => rfl) i
  rw [List.map_map] at shifted
  rw [takeAll_congr rule owners unowned _ (base+i) fresh,owned]
  change policy (takeAll rule unowned (test.mArgs.map (shiftEntry base ∘ MbindArgs.entry)) (base+i)) = _
  rw [shifted]
  cases takeAll rule unowned (test.mArgs.map MbindArgs.entry) i <;> rfl

theorem tests_nonempty : ∀ test ∈ tests, test.mArgs ≠ [] := by decide

section
variable {σ : Type} {maxNode : Word} {serve : σ → (asked : Request) → Answer maxNode.toNat asked × σ}
  {owners : σ → Owners MbindExpect} {mapped : σ → Nat → Prop} {pageSize nodeIds : Nat} {rule : Meeting → Bool}
  (obeys : Obeys serve owners mapped pageSize nodeIds rule)
include obeys

theorem bindAndCheck_none_iff (enough : 2 ≤ maxNode.toNat) (test : Test) (known : test ∈ tests) (buf : Word)
    (base : Nat) (placed : Placed pageSize buf base) (s : σ)
    (fresh : ∀ i < numRegion, mapped s (base+i) ∧ owners s (base+i) = none) (nodeMask : List Word) :
    (exec serve s (bindAndCheck pageSize maxNode.toNat buf test nodeMask)).1 = none ↔
      nodeIds ≤ maxNode.toNat ∧ ∀ i < numRegion, owned rule test i = expected test i := by
  have ready : Ready base (owners s) (mapped s) := by
    refine ⟨fun i inside => (fresh i inside).1,fun i inside => ?_⟩
    rw [(fresh i inside).2]
    exact Nat.zero_lt_succ 3
  by_cases ids : nodeIds ≤ maxNode.toNat
  case neg =>
    refine iff_of_false ?_ (fun both => ids both.1)
    obtain ⟨args,list,calls⟩ := List.exists_cons_of_ne_nil (tests_nonempty test known)
    have failed := exec_refused obeys placed (Nat.not_le.mp ids) s ready args
      (tests_inside test known args (by rw [calls]; exact List.mem_cons_self)) list nodeMask
    rw [bindAndCheck,exec_bind,calls,failed]
    simp
  obtain ⟨after,s',ran,final,readyFinal⟩ :=
    exec_mbindAll obeys placed ids enough test.mArgs (tests_inside test known) s ready nodeMask
  have checked := exec_check obeys placed ids enough (expected test) numRegion 0 (by decide) s' readyFinal after
  have pages : (∀ j, 0 ≤ j → j < 0+numRegion → policy (owners s' (base+j)) = expected test j) ↔
      ∀ i < numRegion, owned rule test i = expected test i := by
    rw [final]
    constructor
    · intro all i inside
      rw [← policy_shift rule base (owners s) test i (fresh i inside).2]
      exact all i (Nat.zero_le i) (by omega)
    · intro all j _ inside
      rw [policy_shift rule base (owners s) test j (fresh j (by omega)).2]
      exact all j (by omega)
  rw [and_iff_right ids,← pages,← checked,bindAndCheck,exec_bind,ran]
  dsimp only
  rw [exec_bind]
  split
  next => exact iff_of_false (by simp) ‹_›
  next passed => exact iff_of_true rfl (not_not.mp passed)

theorem verdict_none_iff (positive : 0 < pageSize) (start : σ) (test : Test) (known : test ∈ tests) :
    (exec serve start (runFunc pageSize maxNode test)).1 = none ↔
      2 ≤ maxNode.toNat ∧ nodeIds ≤ maxNode.toNat ∧ ∀ i < numRegion, owned rule test i = expected test i := by
  have enough_iff : ¬maxNode < 2 ↔ 2 ≤ maxNode.toNat := by
    rw [BitVec.lt_def,Nat.not_lt]
    rfl
  rw [runFunc,exec_bind,exec_request]
  by_cases zero : maxNode = 0
  case pos =>
    rw [if_pos zero]
    exact iff_of_false (by simp) (fun both => absurd both.1 (by rw [zero]; decide))
  by_cases few : maxNode < 2
  case pos =>
    rw [if_neg zero,if_pos few]
    exact iff_of_false (by simp) (fun both => enough_iff.mpr both.1 few)
  have enough := enough_iff.mp few
  obtain ⟨allocated,kept⟩ := obeys.allocates (serve start (.mmap (BitVec.ofNat 64 (pageSize*numRegion)))).2
  rw [if_neg zero,if_neg few,exec_bind,exec_request,allocated,if_neg Bool.noConfusion,and_iff_right enough]
  have fits := obeys.room start
  obtain ⟨base,whole⟩ := obeys.aligned start
  refine bindAndCheck_none_iff obeys enough test known _ base ⟨positive,?_,?_⟩ _ (fun i inside => ?_) _
  · rw [whole,Nat.mul_comm]
  · rw [whole] at fits
    rw [Nat.add_mul,Nat.mul_comm base,Nat.mul_comm numRegion]
    exact fits
  · obtain ⟨there,unbound⟩ := obeys.fresh start i inside
    rw [whole,Nat.mul_div_cancel_left _ positive] at there unbound
    rw [kept]
    exact ⟨obeys.keeps _ .malloc (fun _ _ => nofun) _ there,unbound⟩
end

/-! Which of the rules the tests can tell from the right one. -/

/-- How the last range of a test meets those before it. -/
def meetings (test : Test) : List Meeting :=
  match (test.mArgs.map MbindArgs.entry).reverse with
  | [] => []
  | new :: olds => (olds.filter (fun old => new.1.common old.1)).map (fun old => meeting new.1 old.1)

/-- In every test the last call is the only one that meets others. -/
theorem tests_overlaid (test : Test) (known : test ∈ tests) :
    ∃ olds new, (test.mArgs.map MbindArgs.entry).reverse = new :: olds ∧ Overlaid numRegion olds.reverse new := by
  simp only [tests,List.mem_cons,List.not_mem_nil,or_false] at known
  rcases known with rfl | rfl | rfl | rfl | rfl | rfl | rfl | rfl | rfl
  all_goals exact ⟨_,_,rfl,by decide,by decide,by decide,by decide,by decide⟩

theorem policy_inj (first second : Option (Range × MbindExpect))
    (ofFirst : ∀ owner, first = some owner → owner.2.nodeMask ≠ 0)
    (ofSecond : ∀ owner, second = some owner → owner.2.nodeMask ≠ 0) :
    policy first = policy second ↔ first.map Prod.snd = second.map Prod.snd := by
  cases first with
  | none =>
    cases second with
    | none => exact iff_of_true rfl rfl
    | some right => exact iff_of_false (fun same => ofSecond right rfl (congrArg MbindExpect.nodeMask same).symm) nofun
  | some left =>
    cases second with
    | none => exact iff_of_false (fun same => ofFirst left rfl (congrArg MbindExpect.nodeMask same)) nofun
    | some right => exact Option.some_inj.symm

theorem entry_nodes (test : Test) (known : test ∈ tests) (owner : Range × MbindExpect)
    (member : owner ∈ test.mArgs.map MbindArgs.entry) : owner.2.nodeMask ≠ 0 := by
  obtain ⟨args,given,rfl⟩ := List.mem_map.mp member
  exact (tests_inside test known args given).2.2.2.2.1

/-- A test notices each wrong takeover that it brings about, and no other. -/
theorem owned_expected_iff (rule : Meeting → Bool) (test : Test) (known : test ∈ tests) :
    (∀ i < numRegion, owned rule test i = expected test i) ↔ ∀ m ∈ meetings test, rule m = true := by
  obtain ⟨olds,new,split,overlaid⟩ := tests_overlaid test known
  have whole : test.mArgs.map MbindArgs.entry = olds.reverse ++ [new] := by
    rw [← List.reverse_reverse (test.mArgs.map MbindArgs.entry),split,List.reverse_cons]
  have judged := takeAll_last_iff rule numRegion olds.reverse new overlaid
  have mets : (∀ m ∈ meetings test, rule m = true) ↔
      ∀ old ∈ olds.reverse, new.1.common old.1 = true → rule (meeting new.1 old.1) = true := by
    simp only [meetings,split,List.forall_mem_map,List.mem_filter,List.mem_reverse,and_imp]
  rw [mets,← judged]
  refine forall₂_congr (fun i inside => ?_)
  rw [expected_last test known i inside,owned,lastPolicy,← whole]
  refine policy_inj _ _ (fun owner found => ?_) (fun owner found => ?_)
  · exact entry_nodes test known owner (takeAll_mem rule _ i owner found)
  · exact entry_nodes test known owner (last_some _ i owner found).1

/-- The tests of 015 to 023 that run_testset.sh has not commented out. -/
def scheduled : List Test := [test015,test016,test020]

section
variable {σ : Type} {maxNode : Word} {serve : σ → (asked : Request) → Answer maxNode.toNat asked × σ}
  {owners : σ → Owners MbindExpect} {mapped : σ → Nat → Prop} {pageSize nodeIds : Nat} {rule : Meeting → Bool}
  (positive : 0 < pageSize) (obeys : Obeys serve owners mapped pageSize nodeIds rule) (start : σ)
include positive obeys

theorem passes_iff (list : List Test) (known : ∀ test ∈ list, test ∈ tests) (some : list ≠ []) :
    (∀ test ∈ list, (exec serve start (runFunc pageSize maxNode test)).1 = none) ↔
      2 ≤ maxNode.toNat ∧ nodeIds ≤ maxNode.toNat ∧ ∀ m ∈ list.flatMap meetings, rule m = true := by
  have each (test : Test) (member : test ∈ list) : (exec serve start (runFunc pageSize maxNode test)).1 = none ↔
      2 ≤ maxNode.toNat ∧ nodeIds ≤ maxNode.toNat ∧ ∀ m ∈ meetings test, rule m = true := by
    rw [verdict_none_iff obeys positive start test (known test member),
      owned_expected_iff rule test (known test member)]
  constructor
  · intro all
    obtain ⟨first,member⟩ := List.exists_mem_of_ne_nil list some
    obtain ⟨enough,ids,_⟩ := (each first member).mp (all first member)
    refine ⟨enough,ids,fun m met => ?_⟩
    obtain ⟨test,member,met⟩ := List.mem_flatMap.mp met
    exact ((each test member).mp (all test member)).2.2 m met
  · rintro ⟨enough,ids,right⟩ test member
    exact (each test member).mpr ⟨enough,ids,fun m met => right m (List.mem_flatMap.mpr ⟨test,member,met⟩)⟩

end

/-! A kernel of that kind. -/

/-- get_mempolicy has room for `max_node` nodes. -/
def reported (maxNode : Nat) (nodeMask : Word) : Word := nodeMask &&& lowMask 64 (min 64 maxNode)

def reportNodes (maxNode : Nat) (nodeMask : Word) : Nodes maxNode where
  words := [reported maxNode nodeMask]
  fits := Nat.le_max_left 1 _
  below := by
    intro n beyond
    rw [bit_singleton,reported,BitVec.getLsbD_and]
    by_cases inside : n < 64
    · rw [getLsbD_lowMask _ n inside]
      simp
      omega
    · rw [BitVec.getLsbD_of_ge nodeMask n (by omega),Bool.false_and]

theorem reported_below (maxNode : Nat) (nodeMask : Word) (below : nodeMask.toNat < 2^maxNode) :
    reported maxNode nodeMask = nodeMask := by
  apply BitVec.eq_of_getLsbD_eq
  intro n inside
  rw [reported,BitVec.getLsbD_and,getLsbD_lowMask _ n inside]
  by_cases small : n < maxNode
  · rw [decide_eq_true (by omega),Bool.and_true]
  · have zero : nodeMask.getLsbD n = false := by
      rw [BitVec.getLsbD]
      exact Nat.testBit_lt_two_pow (Nat.lt_of_lt_of_le below (Nat.pow_le_pow_right (by decide : 0 < 2) (by omega)))
    rw [zero,Bool.false_and]

/-- The buffer is at page 16, and the number of node IDs is 2. -/
def sample (rule : Meeting → Bool) (owners : Owners MbindExpect) :
    (asked : Request) → Answer (2 : Word).toNat asked × Owners MbindExpect
  | .mmap _ => (0x10000,unowned)
  | .malloc => (true,owners)
  | .mbind addr len mode nodeMask =>
    ((0 : Int),take rule owners (⟨addr.toNat/4096,len.toNat/4096⟩,⟨mode,nodeMask⟩))
  | .getMempolicy addr =>
    let found := policy (owners (addr.toNat/4096))
    (some (found.mode,reportNodes _ found.nodeMask),owners)
  | .munmap .. => ((0 : Int),owners)

theorem sample_obeys (rule : Meeting → Bool) :
    Obeys (sample rule) (fun owners => owners) (fun _ _ => True) 4096 2 rule where
  aligned _ := (by decide : 4096 ∣ (0x10000 : Word).toNat)
  room _ := (by decide : (0x10000 : Word).toNat + 4096*numRegion ≤ 2^64)
  fresh _ _ _ := ⟨trivial,rfl⟩
  allocates _ := ⟨rfl,rfl⟩
  binds _ _ _ _ _ _ := ⟨rfl,rfl⟩
  refuses few := absurd few (by decide)
  reports _ _ _ _ below := ⟨_,rfl,reported_below 2 _ below⟩
  looks _ _ := rfl
  keeps _ _ _ _ _ := trivial

section
variable (pageSize : Nat)

def isMbind : Request → Bool
  | .mbind .. => true
  | _ => false

theorem mbindAll_runs (maxNode : Nat) (buf : Word) (list : List MbindArgs) (nodeMask after : List Word)
    (trace : Trace maxNode) (runs : Runs (mbindAll pageSize maxNode buf list nodeMask) trace (.ok after)) :
    trace.filter (fun event => isMbind event.1) =
      list.map (fun args => ⟨args.call pageSize buf,(0 : Int)⟩) := by
  induction list generalizing nodeMask trace with
  | nil =>
    obtain ⟨rfl,_⟩ := (runs_pure _ _ _).mp runs
    rfl
  | cons args list ih =>
    obtain ⟨(lRet : Int),afterBind,rfl,bound⟩ := (runs_request_bind _ _ _ _).mp runs
    rcases runs_check (lRet ≠ 0) _ _ _ _ bound with ⟨_,_,failed⟩ | ⟨zero,asked⟩
    · cases failed
    obtain ⟨reply,rest,rfl,read⟩ := (runs_request_bind _ _ _ _).mp asked
    cases reply with
    | none =>
      obtain ⟨_,failed⟩ := (runs_pure _ _ _).mp read
      cases failed
    | some report =>
      have later := ih _ rest read
      have zero : lRet = 0 := not_not.mp zero
      subst zero
      simp only [List.filter_cons,List.map_cons,← later]
      rfl

theorem check_runs (mExpect : Nat → MbindExpect) (maxNode : Nat) (buf : Word) (left i : Nat) (nodeMask : List Word)
    (trace : Trace maxNode)
    (runs : Runs (through (atPages pageSize maxNode buf) (mbindCheckFrom mExpect maxNode left i nodeMask)) trace 0) :
    ∃ reply : Nat → Int × Nodes maxNode,
      trace = (List.range' i left).map (fun j => ⟨.getMempolicy (page pageSize buf j),some (reply j)⟩) ∧
      ∀ j, i ≤ j → j < i+left → (reply j).1 = (mExpect j).mode ∧ firstWord (reply j).2 = (mExpect j).nodeMask := by
  induction left generalizing i nodeMask trace with
  | zero =>
    obtain ⟨rfl,_⟩ := (runs_pure _ _ _).mp runs
    refine ⟨fun _ => (0,⟨[],Nat.zero_le _,fun _ _ => BitVec.getLsbD_zero⟩),rfl,?_⟩
    intro j low high
    omega
  | succ left ih =>
    obtain ⟨reply,rest,rfl,later⟩ := (runs_request_bind _ _ _ _).mp runs
    cases reply with
    | none => cases later
    | some report =>
      obtain ⟨mode,nodes⟩ := report
      -- Only a check without a mismatch gives 0.
      have later : Runs (through (atPages pageSize maxNode buf) (do
          if mode ≠ (mExpect i).mode then return -1
          if ((stored nodeMask nodes)[0]?).getD 0 ≠ (mExpect i).nodeMask then return -1
          mbindCheckFrom mExpect maxNode left (i+1) (stored nodeMask nodes))) rest 0 := later
      by_cases sameMode : mode = (mExpect i).mode
      case neg =>
        rw [if_pos sameMode] at later
        cases later
      rw [if_neg (not_not.mpr sameMode)] at later
      by_cases sameNodes : ((stored nodeMask nodes)[0]?).getD 0 = (mExpect i).nodeMask
      case neg =>
        rw [if_pos sameNodes] at later
        cases later
      rw [if_neg (not_not.mpr sameNodes)] at later
      obtain ⟨reply,rfl,right⟩ := ih (i+1) _ rest later
      refine ⟨Function.update reply i (mode,nodes),?_,?_⟩
      · have others : (List.range' (i+1) left).map (fun j => (⟨.getMempolicy (page pageSize buf j),
            some (Function.update reply i (mode,nodes) j)⟩ : Event (Answer maxNode))) =
            (List.range' (i+1) left).map (fun j => ⟨.getMempolicy (page pageSize buf j),some (reply j)⟩) := by
          refine List.map_congr_left (fun j member => ?_)
          have beyond : j ≠ i := by
            have := List.mem_range'_1.mp member
            omega
          rw [Function.update_of_ne beyond]
        rw [List.range'_succ,List.map_cons,others,Function.update_self]
      · intro j low high
        rcases Nat.eq_or_lt_of_le low with rfl | above
        · rw [Function.update_self,← stored_first nodeMask]
          exact ⟨sameMode,sameNodes⟩
        · rw [Function.update_of_ne (by omega)]
          exact right j above (by omega)

/-- The calls of mbind have all been made in the buffer that mmap has given, with
success, and in the end the policy of every page has been told to be that of the last
call that covers it. -/
def ReportsLast (maxNode : Nat) (test : Test) (trace : Trace maxNode) : Prop :=
  ∃ (buf : Word) (earlier : Trace maxNode) (reply : Nat → Int × Nodes maxNode) (released : Int),
    trace = ⟨.mmap (BitVec.ofNat 64 (pageSize*numRegion)),buf⟩ :: (earlier ++
      (List.range numRegion).map (fun i => ⟨.getMempolicy (page pageSize buf i),some (reply i)⟩) ++
      [⟨.munmap buf (BitVec.ofNat 64 (pageSize*numRegion)),released⟩]) ∧
    earlier.filter (fun event => isMbind event.1) =
      test.mArgs.map (fun args => ⟨args.call pageSize buf,(0 : Int)⟩) ∧
    ∀ i < numRegion, (reply i).1 = (lastPolicy test i).mode ∧
      firstWord (reply i).2 = (lastPolicy test i).nodeMask

/-- Whatever the kernel is: the tests only pass if it has done what it was asked for. -/
theorem passed_reports_last (maxNode : Word) (test : Test) (known : test ∈ tests) (trace : Trace maxNode.toNat)
    (runs : Runs (runFunc pageSize maxNode test) trace none) : ReportsLast pageSize maxNode.toNat test trace := by
  obtain ⟨buf,afterMmap,rfl,mapped⟩ := (runs_request_bind _ _ _ _).mp runs
  rcases runs_check _ _ _ _ _ mapped with ⟨_,_,failed⟩ | ⟨_,nonzero⟩
  · cases failed
  rcases runs_check _ _ _ _ _ nonzero with ⟨_,_,failed⟩ | ⟨_,enough⟩
  · cases failed
  obtain ⟨allocated,afterMalloc,rfl,tried⟩ := (runs_request_bind _ _ _ _).mp enough
  rcases runs_check _ _ _ _ _ tried with ⟨_,_,failed⟩ | ⟨_,begun⟩
  · cases failed
  obtain ⟨binds,result,afterBinds,rfl,bound,continued⟩ := (runs_bind _ _ _ _).mp begun
  cases result with
  | error message =>
    obtain ⟨_,failed⟩ := (runs_pure _ _ _).mp continued
    cases failed
  | ok nodeMask =>
    obtain ⟨checks,iRet,afterChecks,rfl,checked,ended⟩ := (runs_bind _ _ _ _).mp continued
    rcases runs_check _ _ _ _ _ ended with ⟨_,_,failed⟩ | ⟨zero,passed⟩
    · cases failed
    obtain ⟨⟨released,rfl⟩,_⟩ := runs_last _ _ _ _ passed
    have zero : iRet = 0 := not_not.mp zero
    subst zero
    obtain ⟨reply,rfl,right⟩ := check_runs pageSize _ _ buf _ _ _ _ checked
    refine ⟨buf,⟨.malloc,allocated⟩ :: binds,reply,released,?_,?_,?_⟩
    · rw [List.range_eq_range']
      simp
    · exact mbindAll_runs pageSize _ buf _ _ _ binds bound
    · intro i inside
      rw [← expected_last test known i inside]
      exact right i (Nat.zero_le i) (by omega)

end

theorem passed_reports_last_disjoint : ∃ trace, Runs (runFunc 4096 2 test015) trace none ∧
    ReportsLast 4096 (2 : Word).toNat test015 trace := by
  have known : test015 ∈ tests := List.mem_cons_self
  have passed : (exec (sample (fun _ => true)) unowned (runFunc 4096 2 test015)).1 = none :=
    (verdict_none_iff (sample_obeys _) (by decide) unowned test015 known).mpr
      ⟨by decide,by decide,by decide⟩
  obtain ⟨trace,runs⟩ := runs_exec (sample (fun _ => true)) unowned (runFunc 4096 2 test015)
  have ended : Runs (runFunc 4096 2 test015) trace none := passed ▸ runs
  exact ⟨trace,ended,passed_reports_last 4096 2 test015 known trace ended⟩

end Ostest.TestMck.Mbind
