import Ostest.Lib.Calls
import Ostest.Lib.Loop
import Ostest.Lib.WordMask

/-! The node masks of the NUMA tests: numa.c, and the masks that set_mempolicy/012
and mbind/013 build. malloc() is taken to succeed. -/
namespace Ostest.TestMck.Numa
open Lib.Calls Lib.Loop Lib.WordMask

/-- `unsigned long`. -/
abbrev Word := BitVec 64

/-- The value of the int expression `(1 << count) - 1`. It is undefined in C from
a count of 31 on, and a compiler may give any value to it there. -/
structure Compiler where
  ones : Nat → BitVec 32
  defined : ∀ count < 31, ones count = lowMask 32 count

/-- The expression where it is stored in or compared with an `unsigned long`. -/
def Compiler.lastWord (compiler : Compiler) (count : Nat) : Word :=
  (compiler.ones count).signExtend 64

theorem Compiler.lastWord_defined (compiler : Compiler) (count : Nat) (small : count < 31) :
    compiler.lastWord count = lowMask 64 count := by
  have low : 2^count - 1 < 2^31 := by
    have power : 2^count < 2^31 := Nat.pow_lt_pow_right (by decide) small
    omega
  have word : (lowMask 32 count).toNat = 2^count - 1 := toNat_lowMask count (by omega)
  have positive : (lowMask 32 count).msb = false := by
    rw [BitVec.msb_eq_decide,word]
    simpa using low
  rw [Compiler.lastWord,compiler.defined count small,BitVec.signExtend_eq_setWidth_of_msb_false positive]
  apply BitVec.eq_of_toNat_eq
  rw [BitVec.toNat_setWidth,word,lowMask,BitVec.toNat_ofNat]

def zeroing : Compiler where
  ones count := if count < 31 then lowMask 32 count else 0
  defined _ small := if_pos small

theorem zeroing_lastWord_iff (count bits : Nat) (fits : bits ≤ 64) :
    zeroing.lastWord count = lowMask 64 bits ↔ bits = if count < 31 then count else 0 := by
  have word : zeroing.lastWord count = lowMask 64 (if count < 31 then count else 0) := by
    split
    · rename_i defined
      exact zeroing.lastWord_defined count defined
    · rename_i undefined
      simp [Compiler.lastWord,zeroing,undefined,lowMask]
  rw [word,lowMask_inj _ _ (by split <;> omega) fits,eq_comm]

/-- The number of words that `create_node_mask` allocates. -/
def nrNodeMask (maxNode : Word) : Word :=
  let nr := (maxNode + 64 - 1) / 64
  if nr = 0 then 1 else nr

def createNodeMask (maxNode : Word) : List Word :=
  List.replicate (nrNodeMask maxNode).toNat 0

/-! `node_mask_check`. -/

def nodeMaskWrong (compiler : Compiler) (nodeMask : List Word) (nr numBits : Word) (i : Nat) : Bool :=
  let word := (nodeMask[i]?).getD 0
  if BitVec.ofNat 64 i = nr - 1 then word != compiler.lastWord (numBits % 64).toNat
  else ~~~word != 0

def nodeMaskCheckFrom (compiler : Compiler) (nodeMask : List Word) (nr numBits : Word) : Nat → Int
  | 0 => if nodeMaskWrong compiler nodeMask nr numBits 0 then -1 else 0
  | i+1 =>
    if nodeMaskWrong compiler nodeMask nr numBits (i+1) then -1
    else nodeMaskCheckFrom compiler nodeMask nr numBits i

def nodeMaskCheck (compiler : Compiler) (nodeMask : List Word) (nr numBits : Word) : Int :=
  -- the index is an int: only the low 32 bits of the length arrive in it
  let start := ((nr - 1).setWidth 32).toInt
  if start < 0 then 0 else nodeMaskCheckFrom compiler nodeMask nr numBits start.toNat

theorem nodeMaskCheckFrom_zero_iff (compiler : Compiler) (nodeMask : List Word) (nr numBits : Word)
    (start : Nat) :
    nodeMaskCheckFrom compiler nodeMask nr numBits start = 0 ↔
      ∀ i ≤ start, nodeMaskWrong compiler nodeMask nr numBits i = false := by
  induction start with
  | zero => simp [nodeMaskCheckFrom]
  | succ start ih =>
    rw [nodeMaskCheckFrom]
    split
    · rename_i wrong
      have differ : ¬∀ i ≤ start+1, nodeMaskWrong compiler nodeMask nr numBits i = false := by
        intro right
        rw [right (start+1) (Nat.le_refl _)] at wrong
        contradiction
      simp [differ]
    · rename_i right
      rw [ih]
      constructor
      · intro below i bound
        rcases Nat.lt_or_eq_of_le bound with less | rfl
        · exact below i (by omega)
        · exact Bool.eq_false_of_not_eq_true right
      · intro all i bound
        exact all i (by omega)

theorem toNat_sub_one (nr : Word) (positive : 1 ≤ nr.toNat) : (nr - 1).toNat = nr.toNat - 1 :=
  BitVec.toNat_sub_of_le (by rw [BitVec.le_def]; simpa using positive)

theorem ofNat_eq_sub_one_iff (nr : Word) (positive : 1 ≤ nr.toNat) (i : Nat) (small : i < 2^64) :
    BitVec.ofNat 64 i = nr - 1 ↔ i = nr.toNat - 1 := by
  rw [← BitVec.toNat_inj,BitVec.toNat_ofNat,Nat.mod_eq_of_lt small,toNat_sub_one nr positive]

theorem toNat_umod_64 (word : Word) : (word % 64).toNat = word.toNat % 64 := BitVec.toNat_umod

theorem nodeMaskWrong_false_iff (compiler : Compiler) (nodeMask : List Word) (nr numBits : Word)
    (positive : 1 ≤ nr.toNat) (i : Nat) (inside : i < nodeMask.length) (small : i < 2^64) :
    nodeMaskWrong compiler nodeMask nr numBits i = false ↔
      nodeMask[i] = if i = nr.toNat - 1 then compiler.lastWord (numBits.toNat % 64)
        else BitVec.allOnes 64 := by
  simp only [nodeMaskWrong,List.getElem?_eq_getElem inside,Option.getD_some,
    ofNat_eq_sub_one_iff nr positive i small,toNat_umod_64]
  split
  · simp
  · rw [bne_eq_false_iff_eq,BitVec.not_eq_comm]
    rfl

theorem nodeMaskCheck_zero_iff (compiler : Compiler) (nodeMask : List Word) (nr numBits : Word)
    (length : nodeMask.length = nr.toNat) (positive : 1 ≤ nr.toNat) (small : nr.toNat ≤ 2^31) :
    nodeMaskCheck compiler nodeMask nr numBits = 0 ↔
      ∀ i (_ : i < nodeMask.length), nodeMask[i] =
        if i = nr.toNat - 1 then compiler.lastWord (numBits.toNat % 64) else BitVec.allOnes 64 := by
  have top := toNat_sub_one nr positive
  have start : ((nr - 1).setWidth 32).toInt = (nr.toNat - 1 : Nat) := by
    rw [BitVec.toInt_eq_toNat_cond,BitVec.toNat_setWidth,top]
    omega
  unfold nodeMaskCheck
  rw [start]
  dsimp only
  rw [if_neg (by omega),Int.toNat_natCast,nodeMaskCheckFrom_zero_iff]
  constructor
  · intro right i inside
    exact (nodeMaskWrong_false_iff compiler nodeMask nr numBits positive i inside (by omega)).mp
      (right i (by omega))
  · intro right i bound
    have inside : i < nodeMask.length := by omega
    exact (nodeMaskWrong_false_iff compiler nodeMask nr numBits positive i inside (by omega)).mpr
      (right i inside)

theorem nodeMaskCheck_long (compiler : Compiler) (nr numBits : Word) (large : 2^31 < nr.toNat) (last : Word) :
    nodeMaskCheck compiler (List.replicate (nr.toNat - 1) (BitVec.allOnes 64) ++ [last]) nr numBits = 0 := by
  -- the index starts below 2^31, so it never reaches the last word
  have bound := BitVec.toInt_lt (x := (nr - 1).setWidth 32)
  unfold nodeMaskCheck
  dsimp only
  split
  · rfl
  · rename_i reached
    rw [nodeMaskCheckFrom_zero_iff]
    intro i below
    have front : i < nr.toNat - 1 := by omega
    have inside : i < (List.replicate (nr.toNat - 1) (BitVec.allOnes 64) ++ [last]).length := by
      simp only [List.length_append,List.length_replicate,List.length_singleton]
      omega
    rw [nodeMaskWrong_false_iff compiler _ nr numBits (by omega) i inside (by omega),if_neg (by omega),
      List.getElem_append_left (by simpa using front),List.getElem_replicate]

/-! When the check is right. -/

def RightFor (compiler : Compiler) (nr numBits : Word) : Prop :=
  ∀ nodeMask : List Word, nodeMask.length = nr.toNat →
    (nodeMaskCheck compiler nodeMask nr numBits = 0 ↔ Exact nodeMask numBits.toNat)

theorem not_rightFor_long (compiler : Compiler) (nr numBits : Word) (large : 2^31 < nr.toNat) :
    ¬RightFor compiler nr numBits := by
  intro right
  have exact : ∀ last : Word,
      Exact (List.replicate (nr.toNat - 1) (BitVec.allOnes 64) ++ [last]) numBits.toNat := by
    intro last
    apply (right _ _).mp (nodeMaskCheck_long compiler nr numBits large last)
    simp only [List.length_append,List.length_replicate,List.length_singleton]
    omega
  have same := exact_unique _ _ _ (by simp) (exact 0) (exact 1)
  simp at same

theorem rightFor_iff (compiler : Compiler) (nr numBits : Word) (positive : 1 ≤ nr.toNat)
    (small : nr.toNat ≤ 2^31) (reaches : 64 * (nr.toNat - 1) ≤ numBits.toNat) :
    RightFor compiler nr numBits ↔ compiler.lastWord (numBits.toNat % 64) =
      lowMask 64 (min 64 (numBits.toNat - 64 * (nr.toNat - 1))) := by
  have full : ∀ i < nr.toNat - 1,
      lowMask 64 (min 64 (numBits.toNat - 64 * i)) = BitVec.allOnes 64 := by
    intro i below
    rw [Nat.min_eq_left (by omega),lowMask_full]
  constructor
  · intro right
    let nodeMask := (List.range nr.toNat).map fun i => lowMask 64 (min 64 (numBits.toNat - 64 * i))
    have exact : Exact nodeMask numBits.toNat := by
      rw [exact_iff]
      intro i inside
      simp [nodeMask]
    have accepted := (right nodeMask (by simp [nodeMask])).mpr exact
    rw [nodeMaskCheck_zero_iff compiler nodeMask nr numBits (by simp [nodeMask]) positive small] at accepted
    have last := accepted (nr.toNat - 1) (by simp [nodeMask]; omega)
    simpa [nodeMask] using last.symm
  · intro constant nodeMask length
    rw [nodeMaskCheck_zero_iff compiler nodeMask nr numBits length positive small,exact_iff,constant]
    apply forall_congr'
    intro i
    apply forall_congr'
    intro inside
    by_cases last : i = nr.toNat - 1
    · rw [if_pos last,← last]
    · rw [if_neg last,full i (by omega)]

theorem all_rightFor_iff (nr numBits : Word) (positive : 1 ≤ nr.toNat)
    (reaches : 64 * (nr.toNat - 1) ≤ numBits.toNat) :
    (∀ compiler, RightFor compiler nr numBits) ↔
      numBits.toNat % 64 ≤ 30 ∧ nr.toNat = numBits.toNat / 64 + 1 ∧ nr.toNat ≤ 2^31 := by
  by_cases small : nr.toNat ≤ 2^31
  · simp only [rightFor_iff _ nr numBits positive small reaches]
    constructor
    · intro right
      have constant := (zeroing_lastWord_iff _ _ (by omega)).mp (right zeroing)
      split at constant <;> omega
    · rintro ⟨defined,words,_⟩ compiler
      rw [compiler.lastWord_defined _ (by omega),lowMask_inj _ _ (by omega) (by omega)]
      omega
  · refine iff_of_false ?_ (fun holds => small holds.2.2)
    intro right
    exact not_rightFor_long zeroing nr numBits (by omega) (right zeroing)

theorem nrNodeMask_eq (maxNode : Word) :
    (nrNodeMask maxNode).toNat = max 1 ((maxNode.toNat + 63) % 2^64 / 64) := by
  have sum : (maxNode + 64 - 1).toNat = (maxNode.toNat + 63) % 2^64 := by
    have one : (1 : Word).toNat = 1 := rfl
    have sixtyFour : (64 : Word).toNat = 64 := rfl
    rw [BitVec.toNat_sub,BitVec.toNat_add,one,sixtyFour]
    omega
  have quotient : ((maxNode + 64 - 1) / 64).toNat = (maxNode.toNat + 63) % 2^64 / 64 := by
    rw [BitVec.toNat_udiv,sum]
    rfl
  unfold nrNodeMask
  dsimp only
  split
  · rename_i zero
    rw [zero] at quotient
    have none : (maxNode.toNat + 63) % 2^64 / 64 = 0 := quotient.symm
    rw [none]
    rfl
  · rename_i some
    have more : (maxNode.toNat + 63) % 2^64 / 64 ≠ 0 := by
      intro none
      apply some
      apply BitVec.eq_of_toNat_eq
      rw [quotient,none]
      rfl
    rw [quotient]
    omega

theorem nrNodeMask_succ (maxNode : Word) :
    maxNode.toNat < 2^64 - 64 ∧ (nrNodeMask (maxNode+1)).toNat = maxNode.toNat / 64 + 1 ∨
      2^64 - 64 ≤ maxNode.toNat ∧ (nrNodeMask (maxNode+1)).toNat = 1 := by
  have bound := maxNode.isLt
  have succ : (maxNode+1).toNat = (maxNode.toNat + 1) % 2^64 := BitVec.toNat_add maxNode 1
  rw [nrNodeMask_eq,succ]
  -- the sum that is divided by 64 wraps for the last 64 values
  omega

/-- With the words of `create_node_mask(num_bits)` a last word that is full is
refused, with those of `create_node_mask(num_bits+1)` there is no such word. In
both cases the constant has to be one that an int can be shifted to. -/
theorem node_mask_check_right_iff (numBits : Word) (positive : 1 ≤ numBits.toNat) :
    ((∀ compiler, RightFor compiler (nrNodeMask numBits) numBits) ↔
      1 ≤ numBits.toNat % 64 ∧ numBits.toNat % 64 ≤ 30 ∧ numBits.toNat < 2^37) ∧
    ((∀ compiler, RightFor compiler (nrNodeMask (numBits+1)) numBits) ↔
      numBits.toNat % 64 ≤ 30 ∧ numBits.toNat < 2^37) := by
  have bound := numBits.isLt
  have own := nrNodeMask_eq numBits
  have next := nrNodeMask_succ numBits
  constructor
  · rw [all_rightFor_iff _ numBits (by omega) (by omega)]
    omega
  · rw [all_rightFor_iff _ numBits (by omega) (by omega)]
    omega

theorem node_mask_check_right_iff_two :
    ((∀ compiler, RightFor compiler (nrNodeMask 2) 2) ↔
      1 ≤ (2 : Word).toNat % 64 ∧ (2 : Word).toNat % 64 ≤ 30 ∧ (2 : Word).toNat < 2^37) ∧
    ((∀ compiler, RightFor compiler (nrNodeMask (2+1)) 2) ↔
      (2 : Word).toNat % 64 ≤ 30 ∧ (2 : Word).toNat < 2^37) :=
  node_mask_check_right_iff 2 (by decide)

theorem lastWord_ne_thirtyTwo (compiler : Compiler) : compiler.lastWord 32 ≠ 0xffffffff := by
  intro same
  -- an int has the same bit at 31 and above it
  have sign : (compiler.lastWord 32).getLsbD 31 = (compiler.lastWord 32).getLsbD 32 := by
    rw [Compiler.lastWord,BitVec.getLsbD_signExtend,BitVec.getLsbD_signExtend,BitVec.msb_eq_getLsbD_last]
    rfl
  rw [same] at sign
  contradiction

/-- 32 bits in one word are refused whatever the compiler makes of `1 << 32`. For
64 bits in one word the full word is refused, and the empty one accepted. -/
theorem node_mask_check_wrong :
    (∀ compiler, nodeMaskCheck compiler [0xffffffff] (nrNodeMask 32) 32 = -1) ∧
      Exact [(0xffffffff : Word)] 32 ∧
      (∀ compiler, nodeMaskCheck compiler [0xffffffffffffffff] (nrNodeMask 64) 64 = -1) ∧
      Exact [(0xffffffffffffffff : Word)] 64 ∧
      (∀ compiler, nodeMaskCheck compiler [0] (nrNodeMask 64) 64 = 0) := by
  refine ⟨?_,?_,?_,?_,?_⟩
  · intro compiler
    have wrong : nodeMaskWrong compiler [0xffffffff] (nrNodeMask 32) 32 0 = true :=
      bne_iff_ne.mpr (lastWord_ne_thirtyTwo compiler).symm
    exact if_pos wrong
  · decide
  · intro compiler
    have wrong : nodeMaskWrong compiler [0xffffffffffffffff] (nrNodeMask 64) 64 0 = true := by
      refine bne_iff_ne.mpr ?_
      rw [compiler.lastWord_defined _ (by decide)]
      decide
    exact if_pos wrong
  · decide
  · intro compiler
    have right : ¬nodeMaskWrong compiler [0] (nrNodeMask 64) 64 0 = true := by
      refine fun wrong => bne_iff_ne.mp wrong ?_
      rw [compiler.lastWord_defined _ (by decide)]
      rfl
    exact if_neg right

/-! The masks that are built for a system call. -/

/-- The loop of the two tests. Its int index turns negative after 2^31 rounds,
and is then, as an `unsigned long`, beyond every length. -/
def fillNodeMask (compiler : Compiler) (maxNode : Word) : List Word :=
  let nr := nrNodeMask (maxNode+1)
  let word (i : Nat) : Word :=
    if BitVec.ofNat 64 i = nr - 1 then compiler.lastWord ((maxNode % 64).toNat + 1)
    else BitVec.allOnes 64
  (List.range (min nr.toNat (2^31))).foldl (fun nodeMask i => nodeMask.set i (word i))
    (createNodeMask (maxNode+1))

/-- `set_node_mask` of set_mempolicy/012. -/
def setNodeMask (compiler : Compiler) (maxNode : Word) : List Word := fillNodeMask compiler maxNode

/-- `mbind_node_mask` of mbind/013. -/
def mbindNodeMask (compiler : Compiler) (maxNode : Word) : List Word := fillNodeMask compiler maxNode

theorem getElem?_fillNodeMask (compiler : Compiler) (maxNode : Word) (i : Nat)
    (inside : i < (nrNodeMask (maxNode+1)).toNat) :
    (fillNodeMask compiler maxNode)[i]? = some (
      if i < 2^31 then
        if i = (nrNodeMask (maxNode+1)).toNat - 1 then compiler.lastWord (maxNode.toNat % 64 + 1)
        else BitVec.allOnes 64
      else 0) := by
  have bound := (nrNodeMask (maxNode+1)).isLt
  have last := ofNat_eq_sub_one_iff (nrNodeMask (maxNode+1)) (by omega) i (by omega)
  have reached : i < min (nrNodeMask (maxNode+1)).toNat (2^31) ↔ i < 2^31 := by omega
  unfold fillNodeMask
  rw [getElem?_foldl_set _ _ _ i (by simpa [createNodeMask] using inside)]
  simp only [last,toNat_umod_64,reached,createNodeMask,List.getElem_replicate]

theorem length_fillNodeMask (compiler : Compiler) (maxNode : Word) :
    (fillNodeMask compiler maxNode).length = (nrNodeMask (maxNode+1)).toNat := by
  unfold fillNodeMask
  rw [length_foldl_set,createNodeMask,List.length_replicate]

theorem fillNodeMask_exact_iff (compiler : Compiler) (maxNode : Word) (count : Nat) :
    Exact (fillNodeMask compiler maxNode) count ↔
      ∀ i < (nrNodeMask (maxNode+1)).toNat, lowMask 64 (min 64 (count - 64 * i)) =
        if i < 2^31 then
          if i = (nrNodeMask (maxNode+1)).toNat - 1 then compiler.lastWord (maxNode.toNat % 64 + 1)
          else BitVec.allOnes 64
        else 0 := by
  rw [exact_iff]
  constructor
  · intro each i inside
    have word := each i (by rwa [length_fillNodeMask])
    have read := getElem?_fillNodeMask compiler maxNode i inside
    rw [List.getElem?_eq_getElem (by rwa [length_fillNodeMask]),word] at read
    exact Option.some.inj read
  · intro each i inside
    have bound : i < (nrNodeMask (maxNode+1)).toNat := by rwa [length_fillNodeMask] at inside
    have read := getElem?_fillNodeMask compiler maxNode i bound
    rw [List.getElem?_eq_getElem inside,← each i bound] at read
    exact Option.some.inj read

/-- The masks are right, whatever the compiler, as long as the constant of their
last word fits the int that is shifted and the index reaches that word. -/
theorem node_mask_built_iff (maxNode : Word) :
    (∀ compiler, Exact (setNodeMask compiler maxNode) (maxNode.toNat + 1) ∧
      Exact (mbindNodeMask compiler maxNode) (maxNode.toNat + 1)) ↔
      maxNode.toNat % 64 ≤ 29 ∧ maxNode.toNat < 2^37 := by
  have bound := maxNode.isLt
  have words := nrNodeMask_succ maxNode
  simp only [setNodeMask,mbindNodeMask,and_self,fillNodeMask_exact_iff]
  generalize (nrNodeMask (maxNode+1)).toNat = nr at words
  constructor
  · intro right
    have last := right zeroing (nr - 1) (by omega)
    rw [if_pos rfl] at last
    by_cases short : nr - 1 < 2^31
    · rw [if_pos short] at last
      have constant := (zeroing_lastWord_iff _ _ (by omega)).mp last.symm
      split at constant <;> omega
    · have zero : (0 : Word) = lowMask 64 0 := rfl
      rw [if_neg short,zero,lowMask_inj _ _ (by omega) (by omega)] at last
      omega
  · rintro ⟨defined,small⟩ compiler i inside
    rw [if_pos (by omega)]
    split
    · rw [compiler.lastWord_defined _ (by omega),lowMask_inj _ _ (by omega) (by omega)]
      omega
    · rw [← lowMask_full,lowMask_inj _ _ (by omega) (by omega)]
      omega

theorem not_exact_thirtyTwo (compiler : Compiler) : ¬Exact (fillNodeMask compiler 31) 32 := by
  intro exact
  have last := (fillNodeMask_exact_iff compiler 31 _).mp exact 0 (by decide)
  exact lastWord_ne_thirtyTwo compiler last.symm

/-- The masks for the nodes up to 31 are wrong whatever the compiler makes of the
shift by 32. -/
theorem node_mask_built_wrong :
    (∀ compiler, ¬Exact (setNodeMask compiler 31) 32) ∧ ∀ compiler, ¬Exact (mbindNodeMask compiler 31) 32 :=
  ⟨not_exact_thirtyTwo,not_exact_thirtyTwo⟩

/-! `mbind_check`. -/

structure MbindExpect where
  mode : Int
  nodeMask : Word

/-- What a call of get_mempolicy with this `max_node` stores: a number of words
of the array from its start, and no bit from `max_node` on. -/
structure Nodes (maxNode : Nat) where
  words : List Word
  fits : words.length ≤ max 1 ((maxNode+63)/64)
  below : ∀ n, maxNode ≤ n → bit words n = false

inductive Request where
  | getMempolicy (region : Nat)

/-- `none` stands for -1, the other answers are the mode and the nodes. -/
abbrev Answer (maxNode : Nat) : Request → Type
  | .getMempolicy _ => Option (Int × Nodes maxNode)

abbrev Code (maxNode : Nat) := Prog Request (Answer maxNode)

abbrev Trace (maxNode : Nat) := List (Event (Answer maxNode))

def getMempolicy (maxNode region : Nat) : Code maxNode (Option (Int × Nodes maxNode)) :=
  request (Request.getMempolicy region)

/-- The array after the memset of a region, which clears `sizeof(*node_mask)`
bytes, and after the words a call stored. -/
def stored {maxNode : Nat} (nodeMask : List Word) (nodes : Nodes maxNode) : List Word :=
  nodes.words ++ (nodeMask.set 0 0).drop nodes.words.length

def mbindCheckFrom (mExpect : Nat → MbindExpect) (maxNode : Nat) :
    (left i : Nat) → (nodeMask : List Word) → Code maxNode Int
  | 0, _, _ => return 0
  | left+1, i, nodeMask => do
    let some (mode,nodes) ← getMempolicy maxNode i | return -1
    let nodeMask := stored nodeMask nodes
    if mode ≠ (mExpect i).mode then return -1
    if (nodeMask[0]?).getD 0 ≠ (mExpect i).nodeMask then return -1
    mbindCheckFrom mExpect maxNode left (i+1) nodeMask

def numRegion : Nat := 7

def mbindCheck (mExpect : Nat → MbindExpect) (maxNode : Nat) (nodeMask : List Word) : Code maxNode Int :=
  mbindCheckFrom mExpect maxNode numRegion 0 nodeMask

def SameNodes (maxNode : Nat) (nodeMask : List Word) (expected : Word) : Prop :=
  ∀ n, (n < maxNode ∧ bit nodeMask n = true) ↔ bit [expected] n = true

/-- Every region from `i` on was answered, with the expected mode and nodes. -/
def Matches (mExpect : Nat → MbindExpect) (maxNode : Nat) :
    (left i : Nat) → (nodeMask : List Word) → Trace maxNode → Prop
  | 0, _, _, [] => True
  | left+1, i, nodeMask, ⟨.getMempolicy _,some (mode,nodes)⟩ :: rest =>
    mode = (mExpect i).mode ∧ SameNodes maxNode (stored nodeMask nodes) (mExpect i).nodeMask ∧
      Matches mExpect maxNode left (i+1) (stored nodeMask nodes) rest
  | _, _, _, _ => False

theorem length_stored {maxNode : Nat} (nodeMask : List Word) (nodes : Nodes maxNode)
    (length : nodeMask.length = max 1 ((maxNode+63)/64)) :
    (stored nodeMask nodes).length = max 1 ((maxNode+63)/64) := by
  have fits := nodes.fits
  simp only [stored,List.length_append,List.length_drop,List.length_set]
  omega

theorem sameNodes_iff (maxNode : Nat) (one : maxNode ≤ 64) (nodeMask : List Word)
    (length : nodeMask.length = max 1 ((maxNode+63)/64)) (nodes : Nodes maxNode) (expected : Word) :
    SameNodes maxNode (stored nodeMask nodes) expected ↔
      ((stored nodeMask nodes)[0]?).getD 0 = expected := by
  have single : nodeMask.length = 1 := by omega
  have fits : nodes.words.length ≤ 1 := by
    have fits := nodes.fits
    omega
  obtain ⟨word,holds,below⟩ :
      ∃ word, stored nodeMask nodes = [word] ∧ ∀ n, maxNode ≤ n → bit [word] n = false := by
    obtain ⟨old,rfl⟩ := List.length_eq_one_iff.mp single
    rcases Nat.le_one_iff_eq_zero_or_eq_one.mp fits with none | some
    · refine ⟨0,?_,?_⟩
      · simp [stored,List.eq_nil_of_length_eq_zero none]
      · intro n _
        rw [bit_singleton]
        exact BitVec.getLsbD_zero
    · obtain ⟨word,same⟩ := List.length_eq_one_iff.mp some
      refine ⟨word,?_,?_⟩
      · simp [stored,same]
      · intro n beyond
        rw [← same]
        exact nodes.below n beyond
  rw [SameNodes,holds]
  constructor
  · intro same
    apply BitVec.eq_of_getLsbD_eq
    intro n _
    have here := same n
    change word.getLsbD n = _
    rw [← bit_singleton word,← bit_singleton expected]
    by_cases inside : n < maxNode
    · exact Bool.eq_iff_iff.mpr ((and_iff_right inside).symm.trans here)
    · have zero := below n (by omega)
      simp only [zero,Bool.false_eq_true,and_false,false_iff,Bool.not_eq_true] at here
      rw [zero,here]
  · intro same n
    have equal : word = expected := same
    rw [← equal]
    constructor
    · exact And.right
    · intro set
      refine ⟨?_,set⟩
      by_contra beyond
      rw [below n (by omega)] at set
      contradiction

theorem mbindCheckFrom_zero_iff (mExpect : Nat → MbindExpect) (maxNode : Nat) (one : maxNode ≤ 64)
    (left i : Nat) (nodeMask : List Word) (length : nodeMask.length = max 1 ((maxNode+63)/64))
    (trace : Trace maxNode) (ret : Int)
    (runs : Runs (mbindCheckFrom mExpect maxNode left i nodeMask) trace ret) :
    ret = 0 ↔ Matches mExpect maxNode left i nodeMask trace := by
  induction left generalizing i nodeMask trace with
  | zero =>
    obtain ⟨rfl,rfl⟩ := (runs_pure _ _ _).mp runs
    simp [Matches]
  | succ left ih =>
    obtain ⟨reply,rest,rfl,later⟩ := (runs_request_bind _ _ _ _).mp runs
    cases reply with
    | none =>
      obtain ⟨rfl,rfl⟩ := (runs_pure _ _ _).mp later
      simp [Matches]
    | some answer =>
      obtain ⟨mode,nodes⟩ := answer
      rw [Matches,sameNodes_iff maxNode one nodeMask length nodes]
      rcases runs_check _ _ _ _ _ later with ⟨differs,rfl,rfl⟩ | ⟨sameMode,afterMode⟩
      · exact iff_of_false (by decide) (fun holds => differs holds.1)
      rcases runs_check _ _ _ _ _ afterMode with ⟨differs,rfl,rfl⟩ | ⟨sameNodes,afterNodes⟩
      · exact iff_of_false (by decide) (fun holds => differs holds.2.1)
      rw [ih (i+1) _ (length_stored nodeMask nodes length) rest afterNodes]
      exact ⟨fun rest => ⟨not_not.mp sameMode,not_not.mp sameNodes,rest⟩,fun all => all.2.2⟩

def node64 (maxNode : Nat) (more : 64 < maxNode) : Nodes maxNode where
  words := [0,1]
  fits := by
    simp only [List.length_cons,List.length_nil]
    omega
  below := by
    intro n beyond
    unfold bit
    obtain next | later : n/64 = 1 ∨ 2 ≤ n/64 := by omega
    · rw [next]
      have place : n%64 ≠ 0 := by omega
      simp [place]
    · rw [List.getElem?_eq_none (by simpa using later)]
      exact BitVec.getLsbD_zero

theorem second_word_overlooked (maxNode : Nat) (more : 64 < maxNode) (nodeMask : List Word) :
    ∃ trace, Runs (mbindCheck (fun _ => ⟨0,0⟩) maxNode nodeMask) trace 0 ∧
      ¬Matches (fun _ => ⟨0,0⟩) maxNode numRegion 0 nodeMask trace := by
  let reply (_ : Nat) : (asked : Request) → Answer maxNode asked
    | .getMempolicy _ => some (0,node64 maxNode more)
  refine ⟨_,runs_play reply 0 (mbindCheck (fun _ => ⟨0,0⟩) maxNode nodeMask),?_⟩
  intro all
  obtain ⟨_,same,_⟩ := all
  have there : bit (stored nodeMask (node64 maxNode more)) 64 = true := by simp [bit,stored,node64]
  have expected := (same 64).mp ⟨more,there⟩
  contradiction

/-- The check is right, for every array and every sequence of answers, exactly
when one word holds all the nodes that are asked for. -/
theorem mbind_check_right_iff (maxNode : Nat) :
    (∀ mExpect nodeMask, nodeMask.length = max 1 ((maxNode+63)/64) →
      ∀ trace ret, Runs (mbindCheck mExpect maxNode nodeMask) trace ret →
        (ret = 0 ↔ Matches mExpect maxNode numRegion 0 nodeMask trace)) ↔ maxNode ≤ 64 := by
  constructor
  · intro right
    by_contra more
    let nodeMask : List Word := List.replicate (max 1 ((maxNode+63)/64)) 0
    obtain ⟨trace,runs,missed⟩ := second_word_overlooked maxNode (by omega) nodeMask
    exact missed ((right _ nodeMask List.length_replicate trace 0 runs).mp rfl)
  · intro one mExpect nodeMask length trace ret runs
    exact mbindCheckFrom_zero_iff mExpect maxNode one numRegion 0 nodeMask length trace ret runs

theorem mbind_check_wrong :
    ∃ trace, Runs (mbindCheck (fun _ => ⟨0,0⟩) 65 [0,0]) trace 0 ∧
      ¬Matches (fun _ => ⟨0,0⟩) 65 numRegion 0 [0,0] trace :=
  second_word_overlooked 65 (by decide) [0,0]

end Ostest.TestMck.Numa
