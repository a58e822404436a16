import Mathlib.Data.BitVec
import Ostest.Lib.Decimal
import Ostest.Lib.Grep
import Ostest.Lib.WordMask
import Ostest.Lib.Words

/-! How run_mck.sh finds the CPUs that it reserves: those of /proc/cpuinfo that are
not in the list of host CPUs. Sets of CPUs are numbers of the shell, of 64 bits.
CPU numbers are below 2^63. `none` is a shell that exits at a number that it cannot
read, before anything is reserved. -/
namespace Ostest.Util.RunMck
open Lib.Decimal Lib.Grep Lib.WordMask Lib.Words

abbrev Text := List Char

abbrev Word := BitVec 64

def seq (first last : Nat) : List Nat := List.range' first (last+1-first)

/-- NF of awk. -/
def fieldNum (line : Text) : Nat := if line = [] then 0 else (line.splitOn ',').length

/-- The numbers by which one field shifts. -/
def fieldCpus (field : Text) : Option (List Nat) :=
  if field.all Char.isDigit then (cNumeral field).map ([·])
  else do
    let top ← cNumeral (cutOn '-' 1 field)
    let btm ← cNumeral (cutOn '-' 2 field)
    return seq top btm

def hCpuList (hNumCpu : Text) : Option Word :=
  ((seq 1 (fieldNum hNumCpu)).map (fun i => cutOn ',' i hNumCpu)).foldlM
    (fun list field => (fieldCpus field).map (·.foldl setBit list)) 0

def processorLines (cpuinfo : List Text) : List Text :=
  (cpuinfo.filter (occurs "processor".toList)).map (cutOn ' ' 2)

/-- The loop over the lines: the largest number and the set. -/
def haveHostCpus (lines : List Text) : Option (Nat × Word) :=
  lines.foldlM (fun (max,list) line =>
    (cNumeral line).map (fun cpu => (if max ≤ numeral line then numeral line else max,setBit list cpu))) (0,0)

def selected (hCpuList haveHostCpuList : Word) (maxHNumCpu : Nat) : List Nat :=
  (seq 0 maxHNumCpu).filter
    (fun i => shiftedBit hCpuList i = 0 ∧ shiftedBit haveHostCpuList i = 1)

/-- `s/,$//` -/
def sedLastComma (text : Text) : Text := if text.getLast? = some ',' then text.dropLast else text

/-- The first argument of reserve. -/
def pNumCpu (hNumCpu : Text) (cpuinfo : List Text) : Option Text := do
  let hCpuList ← hCpuList hNumCpu
  let (maxHNumCpu,haveHostCpuList) ← haveHostCpus (processorLines cpuinfo)
  return sedLastComma ((selected hCpuList haveHostCpuList maxHNumCpu).flatMap (fun i => decimal i ++ [',']))

/-! The list of host CPUs and /proc/cpuinfo. -/

/-- A number as it is written, perhaps with zeros in front. -/
structure Number where
  text : Text
  nonempty : text ≠ []
  digits : ∀ c ∈ text, c.isDigit = true
  small : numeral text < 2^63

/-- The CPU that is meant. -/
def Number.value (number : Number) : Nat := numeral number.text

/-- The CPU that the shell reads: behind a zero the digits are octal. -/
def Number.read (number : Number) : Option Nat := cNumeral number.text

inductive Field where
  | number (n : Number)
  | range (a b : Number)

def Field.text : Field → Text
  | .number n => n.text
  | .range a b => a.text ++ '-' :: b.text

def Field.cpus : Field → List Nat
  | .number n => [n.value]
  | .range a b => seq a.value b.value

def Field.read : Field → Option (List Nat)
  | .number n => n.read.map ([·])
  | .range a b => do
    let top ← a.read
    let btm ← b.read
    return seq top btm

def hostText (fields : List Field) : Text := List.intercalate [','] (fields.map Field.text)

def host (fields : List Field) : List Nat := fields.flatMap Field.cpus

def hostRead : List Field → Option (List Nat)
  | [] => some []
  | field :: fields => do
    let cpus ← field.read
    let others ← hostRead fields
    return cpus ++ others

structure Block where
  number : Nat
  small : number < 2^63
  rest : List Text
  plain : ∀ line ∈ rest, occurs "processor".toList line = false

def Block.lines (block : Block) : List Text :=
  ("processor\t: ".toList ++ decimal block.number) :: block.rest

def cpuinfo (blocks : List Block) : List Text := blocks.flatMap Block.lines

def present (blocks : List Block) : List Nat := blocks.map Block.number

/-! What the script reads from them. -/

theorem mem_seq (first last i : Nat) : i ∈ seq first last ↔ first ≤ i ∧ i ≤ last := by
  rw [seq,List.mem_range'_1]
  omega

theorem Number.without (number : Number) (c : Char) (notDigit : c.isDigit = false) : c ∉ number.text :=
  fun member => Bool.false_ne_true (notDigit.symm.trans (number.digits c member))

theorem field_without (field : Field) : ',' ∉ field.text := by
  cases field with
  | number n => exact n.without ',' rfl
  | range a b => simp [Field.text,a.without ',' rfl,b.without ',' rfl]

theorem field_ne_nil (field : Field) : field.text ≠ [] := by
  cases field with
  | number n => exact n.nonempty
  | range a b => simp [Field.text]

theorem fields_read (fields : List Field) :
    (seq 1 (fieldNum (hostText fields))).map (fun i => cutOn ',' i (hostText fields)) =
      fields.map Field.text := by
  have plain : ∀ text ∈ fields.map Field.text, ',' ∉ text := by
    intro text member
    obtain ⟨field,_,rfl⟩ := List.mem_map.mp member
    exact field_without field
  have count : fieldNum (hostText fields) = fields.length := by
    cases fields with
    | nil => rfl
    | cons field fields =>
      have some : hostText (field :: fields) ≠ [] := by
        cases fields with
        | nil => simpa [hostText] using field_ne_nil field
        | cons next fields => simp [hostText,List.intercalate_cons_cons]
      rw [fieldNum,if_neg some,hostText,List.splitOn_intercalate ',' plain (by simp),List.length_map]
  apply List.ext_getElem
  · simp [seq,count]
  · intro i left right
    have read := cutOn_intercalate ',' (fields.map Field.text) plain i right
    simpa [seq,hostText,Nat.add_comm] using read

theorem fieldCpus_text (field : Field) : fieldCpus field.text = field.read := by
  cases field with
  | number n =>
    rw [Field.text,fieldCpus,if_pos (List.all_eq_true.mpr n.digits)]
    rfl
  | range a b =>
    have dash : ¬ (a.text ++ '-' :: b.text).all Char.isDigit = true := by simp
    have plain : ∀ text ∈ [a.text,b.text], '-' ∉ text := by
      simp [a.without '-' rfl,b.without '-' rfl]
    have joined : a.text ++ '-' :: b.text = List.intercalate ['-'] [a.text,b.text] := by
      simp [List.intercalate_cons_cons]
    have first := cutOn_intercalate '-' _ plain 0 (by simp)
    have second := cutOn_intercalate '-' _ plain 1 (by simp)
    rw [← joined] at first second
    rw [Field.text,fieldCpus,if_neg dash,first,second]
    rfl

/-- The set is that of the numbers as they are read. -/
theorem hCpuList_read (fields : List Field) :
    hCpuList (hostText fields) = (hostRead fields).map (·.foldl setBit 0) := by
  have fold : ∀ list : Word, (fields.map Field.text).foldlM
      (fun list field => (fieldCpus field).map (·.foldl setBit list)) list =
        (hostRead fields).map (·.foldl setBit list) := by
    induction fields with
    | nil => exact fun _ => rfl
    | cons field fields ih =>
      intro list
      rw [List.map_cons,List.foldlM_cons,fieldCpus_text,hostRead]
      cases field.read with
      | none => rfl
      | some cpus =>
        change (fields.map Field.text).foldlM _ (cpus.foldl setBit list) = _
        rw [ih]
        cases hostRead fields with
        | none => rfl
        | some others => exact congrArg some (List.foldl_append).symm
  rw [hCpuList,fields_read]
  exact fold 0

theorem processorLines_cpuinfo (blocks : List Block) :
    processorLines (cpuinfo blocks) = (present blocks).map decimal := by
  induction blocks with
  | nil => rfl
  | cons block blocks ih =>
    have first : occurs "processor".toList ("processor\t: ".toList ++ decimal block.number) = true :=
      decide_eq_true ⟨[],"\t: ".toList ++ decimal block.number,by simp⟩
    have others : block.rest.filter (occurs "processor".toList) = [] := by
      apply List.filter_eq_nil_iff.mpr
      intro line member
      rw [block.plain line member]
      exact Bool.false_ne_true
    have plain : ∀ text ∈ ["processor\t:".toList,decimal block.number], ' ' ∉ text := by
      simp [decimal_without]
    have joined : "processor\t: ".toList ++ decimal block.number =
        List.intercalate [' '] ["processor\t:".toList,decimal block.number] := by
      simp [List.intercalate_cons_cons]
    have number := cutOn_intercalate ' ' _ plain 1 (by simp)
    rw [← joined] at number
    have rest : processorLines (cpuinfo (block :: blocks)) =
        cutOn ' ' 2 ("processor\t: ".toList ++ decimal block.number) ::
          processorLines (cpuinfo blocks) := by
      simp only [processorLines,cpuinfo,List.flatMap_cons,Block.lines,List.cons_append,
        List.filter_cons,first,if_true,List.filter_append,others,List.nil_append,List.map_cons]
    rw [rest,ih,number]
    rfl

theorem haveHostCpus_decimals (cpus : List Nat) :
    haveHostCpus (cpus.map decimal) = some (cpus.foldl max 0,cpus.foldl setBit 0) := by
  have fold : ∀ (start : Nat) (list : Word), (cpus.map decimal).foldlM (fun (max,list) line =>
      (cNumeral line).map (fun cpu => (if max ≤ numeral line then numeral line else max,setBit list cpu)))
        (start,list) = some (cpus.foldl max start,cpus.foldl setBit list) := by
    induction cpus with
    | nil => exact fun _ _ => rfl
    | cons cpu cpus ih =>
      intro start list
      have larger : (if start ≤ cpu then cpu else start) = max start cpu := by
        split <;> omega
      simp only [List.map_cons,List.foldlM_cons,cNumeral_decimal,numeral_decimal,larger,Option.map_some,
        Option.bind_eq_bind,Option.bind_some,ih,List.foldl_cons]
  exact fold 0 0

theorem set_bit (cpus : List Nat) (i : Nat) :
    (cpus.foldl setBit (0 : Word)).getLsbD (i%64) = cpus.any (fun n => n%64 = i%64) := by
  rw [getLsbD_setBits _ _ _ (Nat.mod_lt i (by decide))]
  simp

/-- A CPU number is written down if one with the same remainder is present, and none
with the same remainder is a host CPU. -/
theorem mem_selected (hosts cpus : List Nat) (maxHNumCpu i : Nat) :
    i ∈ selected (hosts.foldl setBit 0) (cpus.foldl setBit 0) maxHNumCpu ↔
      i ≤ maxHNumCpu ∧ (∃ cpu ∈ cpus, cpu%64 = i%64) ∧ ∀ cpu ∈ hosts, cpu%64 ≠ i%64 := by
  have free : shiftedBit (hosts.foldl setBit (0 : Word)) i = 0 ↔ ∀ cpu ∈ hosts, cpu%64 ≠ i%64 := by
    refine (shiftedBit_zero_iff _ i (by decide)).trans ?_
    rw [set_bit,List.any_eq_false]
    simp only [decide_eq_true_eq,ne_eq]
  have taken : shiftedBit (cpus.foldl setBit (0 : Word)) i = 1 ↔ ∃ cpu ∈ cpus, cpu%64 = i%64 := by
    refine (shiftedBit_one_iff _ i (by decide)).trans ?_
    rw [set_bit,List.any_eq_true]
    simp only [decide_eq_true_eq]
  rw [selected,List.mem_filter,mem_seq,decide_eq_true_iff,free,taken]
  exact ⟨fun ⟨⟨_,bound⟩,host,present⟩ => ⟨bound,present,host⟩,
    fun ⟨bound,present,host⟩ => ⟨⟨Nat.zero_le i,bound⟩,host,present⟩⟩

def reserved (hosts : List Nat) (blocks : List Block) : List Nat :=
  selected (hosts.foldl setBit 0) ((present blocks).foldl setBit 0) ((present blocks).foldl max 0)

theorem reserved_ascending (hosts : List Nat) (blocks : List Block) :
    (reserved hosts blocks).Pairwise (· < ·) := List.Pairwise.filter _ List.pairwise_lt_range'

/-! The list as a text. -/

theorem sedLastComma_joined (cpus : List Nat) :
    sedLastComma (cpus.flatMap (fun i => decimal i ++ [','])) =
      List.intercalate [','] (cpus.map decimal) := by
  cases cpus with
  | nil => rfl
  | cons cpu cpus =>
    have ended : (cpu :: cpus).flatMap (fun i => decimal i ++ [',']) =
        List.intercalate [','] ((cpu :: cpus).map decimal) ++ [','] := by
      induction cpus generalizing cpu with
      | nil => simp
      | cons next cpus ih =>
        rw [List.flatMap_cons,ih next]
        simp [List.intercalate_cons_cons]
    rw [ended,sedLastComma,List.getLast?_concat,if_pos rfl,List.dropLast_concat]

theorem pNumCpu_selected (fields : List Field) (blocks : List Block) :
    pNumCpu (hostText fields) (cpuinfo blocks) =
      (hostRead fields).map (fun hosts => List.intercalate [','] ((reserved hosts blocks).map decimal)) := by
  rw [pNumCpu,hCpuList_read,processorLines_cpuinfo,haveHostCpus_decimals]
  cases hostRead fields with
  | none => rfl
  | some hosts => exact congrArg some (sedLastComma_joined _)

theorem joined_inj (first second : List Nat)
    (same : List.intercalate [','] (first.map decimal) = List.intercalate [','] (second.map decimal)) :
    first = second := by
  have read : ∀ cpus : List Nat, ((List.intercalate [','] (cpus.map decimal)).splitOn ',') =
      if cpus = [] then [[]] else cpus.map decimal := by
    intro cpus
    split
    · rename_i none
      rw [none]
      rfl
    · rename_i some
      apply List.splitOn_intercalate ',' _ (by simpa using some)
      intro text member
      obtain ⟨cpu,_,rfl⟩ := List.mem_map.mp member
      exact decimal_without cpu ',' rfl
  have nonempty : ∀ cpus : List Nat, cpus.map decimal ≠ [[]] := by
    intro cpus single
    have empty : [] ∈ cpus.map decimal := by simp [single]
    obtain ⟨cpu,_,none⟩ := List.mem_map.mp empty
    exact decimal_ne_nil cpu none
  have parts := (read first).symm.trans ((congrArg (List.splitOn ',') same).trans (read second))
  split at parts
  · rename_i none
    split at parts
    · rename_i none'
      rw [none,none']
    · exact absurd parts.symm (nonempty second)
  · split at parts
    · exact absurd parts (nonempty first)
    · exact List.map_injective_iff.mpr decimal_inj parts

theorem le_largest (cpus : List Nat) (start : Nat) :
    start ≤ cpus.foldl max start ∧ ∀ cpu ∈ cpus, cpu ≤ cpus.foldl max start := by
  induction cpus generalizing start with
  | nil => simp
  | cons first cpus ih =>
    obtain ⟨begun,rest⟩ := ih (max start first)
    rw [List.foldl_cons]
    refine ⟨by omega,?_⟩
    intro cpu member
    rcases List.mem_cons.mp member with rfl | later
    · omega
    · exact rest cpu later

/-- The list is right if and only if the shell can read the numbers of the host CPUs
and no CPU number up to the largest is taken for another with the same remainder
modulo 64. -/
theorem reserved_cpus_iff (fields : List Field) (blocks : List Block) :
    (∃ cpus : List Nat,
      pNumCpu (hostText fields) (cpuinfo blocks) = some (List.intercalate [','] (cpus.map decimal)) ∧
      cpus.Pairwise (· < ·) ∧ ∀ i, i ∈ cpus ↔ i ∈ present blocks ∧ i ∉ host fields) ↔
    ∃ hosts, hostRead fields = some hosts ∧ ∀ i ≤ (present blocks).foldl max 0,
      ((∃ cpu ∈ present blocks, cpu%64 = i%64) ∧ ∀ cpu ∈ hosts, cpu%64 ≠ i%64) ↔
        i ∈ present blocks ∧ i ∉ host fields := by
  rw [pNumCpu_selected fields blocks]
  cases hostRead fields with
  | none => simp
  | some hosts =>
    have member := mem_selected hosts (present blocks) ((present blocks).foldl max 0)
    have ascending : (reserved hosts blocks).Pairwise (· < ·) := reserved_ascending hosts blocks
    simp only [Option.map_some,Option.some.injEq,exists_eq_left']
    constructor
    · rintro ⟨cpus,text,_,right⟩ i bound
      -- the text determines the list
      obtain rfl : reserved hosts blocks = cpus := joined_inj _ _ text
      rw [← right i,reserved,member i]
      exact ⟨fun inside => ⟨bound,inside⟩,fun inside => inside.2⟩
    · intro exact'
      refine ⟨reserved hosts blocks,rfl,ascending,?_⟩
      intro i
      rw [reserved,member i]
      constructor
      · rintro ⟨bound,inside⟩
        exact (exact' i bound).mp inside
      · intro inside
        have bound := (le_largest (present blocks) 0).2 i inside.1
        exact ⟨bound,(exact' i bound).mpr inside⟩

/-- A number without zeros in front. -/
def plainly (n : Nat) (small : n < 2^63) : Number :=
  ⟨decimal n,decimal_ne_nil n,decimal_digits n,by rwa [numeral_decimal]⟩

def named (number : Nat) (small : number < 2^63) : Block :=
  ⟨number,small,["model name\t: CPU".toList],by decide⟩

theorem reserved_cpus_four :
    ∃ cpus : List Nat,
      pNumCpu "0-1".toList (cpuinfo [named 0 (by decide),named 1 (by decide),named 2 (by decide),
        named 3 (by decide)]) = some (List.intercalate [','] (cpus.map decimal)) ∧
      cpus.Pairwise (· < ·) ∧ ∀ i, i ∈ cpus ↔ i ∈ [0,1,2,3] ∧ i ∉ [0,1] :=
  (reserved_cpus_iff [.range (plainly 0 (by decide)) (plainly 1 (by decide))] [named 0 (by decide),
    named 1 (by decide),named 2 (by decide),named 3 (by decide)]).mpr ⟨[0,1],rfl,by decide⟩

theorem padded_digits : ∀ c ∈ "010".toList, c.isDigit = true :=
  List.all_eq_true.mp (by decide)

theorem padded_small : numeral "010".toList < 2^63 := by decide

/-- CPU 64 is taken for host CPU 0 and is missing; it also stands for a CPU 0 that is
not there; and host CPU 010 is taken for CPU 8. -/
theorem cpu_64_mistaken :
    (pNumCpu "0".toList (cpuinfo [named 0 (by decide),named 64 (by decide)]) = some [] ∧
      64 ∈ present [named 0 (by decide),named 64 (by decide)] ∧
      64 ∉ host [.number (plainly 0 (by decide))]) ∧
    (pNumCpu "2".toList (cpuinfo [named 1 (by decide),named 64 (by decide)]) = some "0,1,64".toList ∧
      0 ∉ present [named 1 (by decide),named 64 (by decide)]) ∧
    pNumCpu "010".toList (cpuinfo [named 8 (by decide),named 10 (by decide)]) = some "10".toList ∧
      10 ∈ host [.number ⟨"010".toList,by decide,padded_digits,padded_small⟩] := by
  decide +kernel

theorem largest_lt (cpus : List Nat) (start bound : Nat) (startSmall : start < bound)
    (small : ∀ cpu ∈ cpus, cpu < bound) : cpus.foldl max start < bound := by
  induction cpus generalizing start with
  | nil => exact startSmall
  | cons first cpus ih =>
    have firstSmall := small first List.mem_cons_self
    exact ih (max start first) (by omega) (fun cpu member => small cpu (List.mem_cons_of_mem first member))

def Number.Unpadded (number : Number) : Prop := number.text.head? ≠ some '0' ∨ number.text = ['0']

def Field.Unpadded : Field → Prop
  | .number n => n.Unpadded
  | .range a b => a.Unpadded ∧ b.Unpadded

theorem Number.read_unpadded (number : Number) (unpadded : number.Unpadded) : number.read = some number.value := by
  rcases unpadded with plain | zero
  · exact cNumeral_plain _ plain
  · rw [Number.read,Number.value,zero]
    rfl

theorem hostRead_unpadded (fields : List Field) (unpadded : ∀ field ∈ fields, field.Unpadded) :
    hostRead fields = some (host fields) := by
  induction fields with
  | nil => rfl
  | cons field fields ih =>
    have first : field.read = some field.cpus := by
      have plain := unpadded field List.mem_cons_self
      cases field with
      | number n =>
        rw [Field.read,n.read_unpadded plain]
        rfl
      | range a b =>
        rw [Field.read,a.read_unpadded plain.1,b.read_unpadded plain.2]
        rfl
    rw [hostRead,first,ih (fun other member => unpadded other (List.mem_cons_of_mem field member))]
    rfl

/-- With CPU numbers below 64 and without zeros in front the list is right. -/
theorem reserved_below_64 (fields : List Field) (blocks : List Block)
    (unpadded : ∀ field ∈ fields, field.Unpadded)
    (presentSmall : ∀ cpu ∈ present blocks, cpu < 64) (hostSmall : ∀ cpu ∈ host fields, cpu < 64) :
    ∃ cpus : List Nat,
      pNumCpu (hostText fields) (cpuinfo blocks) = some (List.intercalate [','] (cpus.map decimal)) ∧
      cpus.Pairwise (· < ·) ∧ ∀ i, i ∈ cpus ↔ i ∈ present blocks ∧ i ∉ host fields := by
  refine ⟨reserved (host fields) blocks,?_,reserved_ascending (host fields) blocks,?_⟩
  · rw [pNumCpu_selected,hostRead_unpadded fields unpadded,Option.map_some]
  have largest := largest_lt (present blocks) 0 64 (by decide) presentSmall
  intro i
  rw [reserved,mem_selected]
  constructor
  · rintro ⟨bound,⟨cpu,member,same⟩,free⟩
    have cpuSmall := presentSmall cpu member
    obtain rfl : cpu = i := by omega
    exact ⟨member,fun inside => free cpu inside rfl⟩
  · rintro ⟨member,free⟩
    have small := presentSmall i member
    refine ⟨(le_largest (present blocks) 0).2 i member,⟨i,member,rfl⟩,?_⟩
    intro cpu inside same
    have cpuSmall := hostSmall cpu inside
    obtain rfl : cpu = i := by omega
    exact free inside

end Ostest.Util.RunMck
