import Mathlib.Algebra.Order.BigOperators.Group.List
import Ostest.Lib.Decimal
import Ostest.Lib.Xargs

/-! How init.sh reads the answer of `ihkosctl 0 query mem`: the size of all memory
of McKernel, and that of its largest node. Sizes are numbers of the shell, below
2^63. -/
namespace Ostest.Util.InitMemory
open Lib.Decimal Lib.Words Lib.Xargs

abbrev Text := List Char

/-- The commands `sed -e 's/@[0-9]*,/…/g'` and `sed -e 's/@[0-9]*$/…/g'`: what takes
the place of an `@` with its digits, the node, in front of a comma and at the end
of the line. A node that is being read is the first argument. -/
def sedNodes (atComma atEnd : Text → Text) : Option Text → Text → Text
  | none, [] => []
  | some node, [] => atEnd node
  | none, c :: rest =>
    if c = '@' then sedNodes atComma atEnd (some ['@']) rest
    else c :: sedNodes atComma atEnd none rest
  | some node, c :: rest =>
    if c.isDigit then sedNodes atComma atEnd (some (node ++ [c])) rest
    else if c = ',' then atComma node ++ sedNodes atComma atEnd none rest
    else if c = '@' then node ++ sedNodes atComma atEnd (some ['@']) rest
    else node ++ c :: sedNodes atComma atEnd none rest

/-- `s/@[0-9]*,/separator/g` -/
def sedSeparate (separator : Text) (line : Text) : Text := sedNodes (fun _ => separator) id none line

/-- `s/@[0-9]*$//g` -/
def sedLast (line : Text) : Text := sedNodes (· ++ [',']) (fun _ => []) none line

/-- echo of an unquoted text that starts with a digit. -/
def echoed (text : Text) : Text := unwords (words text)

def isNumber (text : Text) : Bool := !text.isEmpty && text.all Char.isDigit && numeral text < 2^63

def exprFrom (total : Nat) : List Text → Option Nat
  | [] => some total
  | ['+'] :: number :: rest =>
    if isNumber number && total+numeral number < 2^63 then exprFrom (total+numeral number) rest else none
  | _ => none

/-- expr with the sum of numbers; it reads a plus sign in front of all as one that
quotes the next word. -/
def expr : List Text → Option Nat
  | ['+'] :: number :: rest => if isNumber number then exprFrom (numeral number) rest else none
  | number :: rest => if isNumber number then exprFrom (numeral number) rest else none
  | [] => none

def exprOutput (args : List Text) : Text :=
  match expr args with
  | some value => decimal value ++ ['\n']
  | none => []

/-- `[ left -lt right ]` -/
def lessThan (left right : Text) : Bool :=
  isNumber left && isNumber right && numeral left < numeral right

@[ext]
structure Sizes where
  mckMaxMemSize : Text
  mckMaxNodeMemSize : Text
  deriving DecidableEq

/-- `limit` is the room that xargs has for arguments. -/
def resolveMemorySize (limit : Nat) (queryMemStr : Text) : Sizes :=
  let sum := sedLast (sedSeparate " + ".toList (echoed queryMemStr))
  let queryMemSepStr := sedLast (sedSeparate [','] (echoed queryMemStr))
  let sizes := words ((echoed queryMemSepStr).map (fun c => if c = ',' then ' ' else c))
  { mckMaxMemSize :=
      substituted ((commandLines limit (items .space (sum ++ ['\n']))).flatMap exprOutput)
    mckMaxNodeMemSize :=
      sizes.foldl (fun max i => if lessThan max i then i else max)
        (((echoed queryMemSepStr).splitOn ',').headD []) }

/-! The answer of the query, and what it says. -/

structure Entry where
  size : Nat
  node : Nat
  deriving DecidableEq

def Entry.text (entry : Entry) : Text := decimal entry.size ++ '@' :: decimal entry.node

def queryMem (entries : List Entry) : Text := List.intercalate [','] (entries.map Entry.text)

def total (entries : List Entry) : Nat := (entries.map Entry.size).sum

def nodeTotal (entries : List Entry) (node : Nat) : Nat :=
  total (entries.filter (fun entry => entry.node = node))

def largestNode (entries : List Entry) : Nat :=
  (entries.map (fun entry => nodeTotal entries entry.node)).foldl max 0

def largestEntry (entries : List Entry) : Nat := (entries.map Entry.size).foldl max 0

def sizeTexts (entries : List Entry) : List Text := entries.map (fun entry => decimal entry.size)

/-! The substitutions. -/

theorem sedNodes_plain (atComma atEnd : Text → Text) (plain rest : Text) (noNode : '@' ∉ plain) :
    sedNodes atComma atEnd none (plain ++ rest) = plain ++ sedNodes atComma atEnd none rest := by
  induction plain with
  | nil => rfl
  | cons c plain ih =>
    have here : c ≠ '@' := fun same => noNode (same ▸ List.mem_cons_self)
    rw [List.cons_append,sedNodes,if_neg here,ih (fun later => noNode (List.mem_cons_of_mem c later)),
      List.cons_append]

theorem sedNodes_digits (atComma atEnd : Text → Text) (node digits rest : Text)
    (all : ∀ c ∈ digits, c.isDigit = true) :
    sedNodes atComma atEnd (some node) (digits ++ rest) =
      sedNodes atComma atEnd (some (node ++ digits)) rest := by
  induction digits generalizing node with
  | nil => rw [List.nil_append,List.append_nil]
  | cons c digits ih =>
    rw [List.cons_append,sedNodes,if_pos (all c List.mem_cons_self),
      ih (node ++ [c]) (fun d later => all d (List.mem_cons_of_mem c later)),List.append_assoc,
      List.singleton_append]

theorem sedNodes_entry (atComma atEnd : Text → Text) (entry : Entry) (rest : Text) :
    sedNodes atComma atEnd none (entry.text ++ rest) =
      decimal entry.size ++ sedNodes atComma atEnd (some ('@' :: decimal entry.node)) rest := by
  rw [Entry.text,List.append_assoc,sedNodes_plain _ _ _ _ (decimal_without entry.size '@' rfl),
    List.cons_append,sedNodes,if_pos rfl,sedNodes_digits _ _ _ _ _ (decimal_digits entry.node)]
  rfl

theorem sed_queryMem (separator : Text) (noNode : '@' ∉ separator) (entries : List Entry) :
    sedLast (sedSeparate separator (queryMem entries)) =
      List.intercalate separator (sizeTexts entries) := by
  induction entries with
  | nil => rfl
  | cons entry entries ih =>
    cases entries with
    | nil =>
      -- the first substitution leaves the node of the last entry to the second
      have separated : sedSeparate separator (queryMem [entry]) = entry.text := by
        have whole := sedNodes_entry (fun _ => separator) id entry []
        rw [List.append_nil] at whole
        simpa [queryMem,sedSeparate,sedNodes,Entry.text] using whole
      have last := sedNodes_entry (· ++ [',']) (fun _ => []) entry []
      rw [List.append_nil] at last
      rw [separated,sedLast,last]
      simp [sedNodes,sizeTexts]
    | cons next entries =>
      have joined : queryMem (entry :: next :: entries) =
          entry.text ++ ',' :: queryMem (next :: entries) := by
        simp [queryMem,List.intercalate_cons_cons]
      have separated : sedSeparate separator (queryMem (entry :: next :: entries)) =
          (decimal entry.size ++ separator) ++ sedSeparate separator (queryMem (next :: entries)) := by
        rw [joined,sedSeparate,sedNodes_entry,sedNodes,if_neg (by decide),if_pos rfl,
          List.append_assoc]
        rfl
      have plain : '@' ∉ decimal entry.size ++ separator := by
        simp [decimal_without,noNode]
      rw [separated,sedLast,sedNodes_plain _ _ _ _ plain]
      change _ ++ sedLast (sedSeparate separator (queryMem (next :: entries))) = _
      rw [ih]
      simp [sizeTexts,List.intercalate_cons_cons]

/-! The texts as words. -/

theorem echoed_word (text : Text) (isWord : IsWord text) : echoed text = text := by
  rw [echoed,words_single text isWord]
  simp [unwords]

theorem sizeTexts_words (entries : List Entry) : ∀ word ∈ sizeTexts entries, IsWord word := by
  intro word member
  obtain ⟨entry,_,rfl⟩ := List.mem_map.mp member
  exact decimal_isWord entry.size

theorem entry_isWord (entry : Entry) : IsWord entry.text :=
  (decimal_isWord entry.size).join _ _ (decimal_isWord entry.node) '@' rfl

theorem echoed_queryMem (entries : List Entry) (nonempty : entries ≠ []) :
    echoed (queryMem entries) = queryMem entries := by
  apply echoed_word
  apply intercalate_isWord ',' rfl _ (by simpa using nonempty)
  intro word member
  obtain ⟨entry,_,rfl⟩ := List.mem_map.mp member
  exact entry_isWord entry

/-! The sum. -/

/-- The arguments of expr. -/
def summands : List Text → List Text
  | [] => []
  | first :: rest => first :: rest.flatMap (fun text => [['+'],text])

theorem words_sum (list : List Text) (all : ∀ word ∈ list, IsWord word) :
    words (List.intercalate " + ".toList list) = summands list := by
  induction list with
  | nil => exact words_nil
  | cons first list ih =>
    have firstWord := all first List.mem_cons_self
    cases list with
    | nil => simpa [summands] using words_single first firstWord
    | cons second list =>
      have rest := ih (fun word member => all word (List.mem_cons_of_mem first member))
      have joined : List.intercalate " + ".toList (first :: second :: list) =
          first ++ ' ' :: (['+'] ++ ' ' :: List.intercalate " + ".toList (second :: list)) := by
        simp [List.intercalate_cons_cons]
      rw [joined,words_append first _ ' ' firstWord rfl,words_append ['+'] _ ' ' (by decide) rfl,rest]
      rfl

theorem sum_chars (entries : List Entry) :
    ∀ c ∈ List.intercalate " + ".toList (sizeTexts entries), c ∈ " +0123456789".toList := by
  have digits : ∀ n, ∀ c ∈ decimal n, c ∈ " +0123456789".toList := by
    intro n c member
    exact List.mem_append_right " +".toList (isDigit_mem c (decimal_digits n c member))
  have separators : ∀ c ∈ " + ".toList, c ∈ " +0123456789".toList := by simp
  induction entries with
  | nil => simp [sizeTexts]
  | cons entry entries ih =>
    cases entries with
    | nil => simpa [sizeTexts] using digits entry.size
    | cons next entries =>
      intro c member
      have joined : List.intercalate " + ".toList (sizeTexts (entry :: next :: entries)) =
          decimal entry.size ++ " + ".toList ++
            List.intercalate " + ".toList (sizeTexts (next :: entries)) :=
        List.intercalate_cons_cons
      rw [joined] at member
      rcases List.mem_append.mp member with front | rest
      · rcases List.mem_append.mp front with size | separator
        · exact digits entry.size c size
        · exact separators c separator
      · exact ih c rest

theorem items_sum (entries : List Entry) :
    items .space (List.intercalate " + ".toList (sizeTexts entries) ++ ['\n']) =
      summands (sizeTexts entries) := by
  have known : Plain " +0123456789".toList := by simp [Plain,isSpace,blank]
  have plain : Plain (List.intercalate " + ".toList (sizeTexts entries)) :=
    fun c member => known c (sum_chars entries c member)
  rw [items_line _ [] plain,words_sum _ (sizeTexts_words entries)]
  simp [items]

theorem decimal_isNumber (n : Nat) (small : n < 2^63) : isNumber (decimal n) = true := by
  simp only [isNumber,Bool.and_eq_true,Bool.not_eq_true',List.isEmpty_eq_false_iff,List.all_eq_true,
    decide_eq_true_eq,numeral_decimal]
  exact ⟨⟨decimal_ne_nil n,decimal_digits n⟩,small⟩

theorem decimal_ne_plus (n : Nat) : decimal n ≠ ['+'] := by
  intro same
  have digit := decimal_digits n '+' (by simp [same])
  contradiction

theorem total_cons (entry : Entry) (entries : List Entry) :
    total (entry :: entries) = entry.size + total entries := by
  rw [total,List.map_cons,List.sum_cons,total]

/-- What follows the first argument of expr. -/
def added (entries : List Entry) : List Text := (sizeTexts entries).flatMap (fun text => [['+'],text])

theorem added_cons (entry : Entry) (entries : List Entry) :
    added (entry :: entries) = ['+'] :: decimal entry.size :: added entries := rfl

theorem summands_cons (entry : Entry) (entries : List Entry) :
    summands (sizeTexts (entry :: entries)) = decimal entry.size :: added entries := rfl

theorem exprFrom_sum (entries : List Entry) (start : Nat) (small : start+total entries < 2^63) :
    exprFrom start (added entries) = some (start+total entries) := by
  induction entries generalizing start with
  | nil => rfl
  | cons entry entries ih =>
    rw [total_cons] at small ⊢
    have next : start+entry.size < 2^63 := by omega
    rw [added_cons,exprFrom,decimal_isNumber _ (by omega),numeral_decimal,Bool.true_and,
      if_pos (decide_eq_true next),ih (start+entry.size) (by omega),Nat.add_assoc]

theorem expr_sum (entries : List Entry) (nonempty : entries ≠ []) (small : total entries < 2^63) :
    expr (summands (sizeTexts entries)) = some (total entries) := by
  obtain ⟨entry,rest,rfl⟩ := List.exists_cons_of_ne_nil nonempty
  rw [total_cons] at small ⊢
  have plain := decimal_ne_plus entry.size
  have isNumber := decimal_isNumber entry.size (by omega)
  have value := numeral_decimal entry.size
  have following := exprFrom_sum rest entry.size small
  rw [summands_cons]
  generalize decimal entry.size = first at *
  unfold expr
  split
  · rename_i same
    exact absurd (List.cons.inj same).1 plain
  · rename_i same
    obtain ⟨rfl,rfl⟩ := List.cons.inj same
    rw [if_pos isNumber,value,following]
  · contradiction

/-! The largest size. -/

theorem commas_to_blanks (list : List Text) (plain : ∀ text ∈ list, ',' ∉ text) :
    (List.intercalate [','] list).map (fun c => if c = ',' then ' ' else c) = unwords list := by
  have same : ∀ text ∈ list, text.map (fun c => if c = ',' then ' ' else c) = text := by
    intro text member
    have kept : ∀ c ∈ text, (if c = ',' then ' ' else c) = id c := by
      intro c inside
      have other : c ≠ ',' := ne_of_mem_of_not_mem inside (plain text member)
      exact if_neg other
    exact (List.map_congr_left kept).trans (List.map_id text)
  induction list with
  | nil => rfl
  | cons first list ih =>
    have rest := ih (fun text member => plain text (List.mem_cons_of_mem first member))
      (fun text member => same text (List.mem_cons_of_mem first member))
    have here := same first List.mem_cons_self
    cases list with
    | nil => simpa [unwords] using here
    | cons second list =>
      rw [List.intercalate_cons_cons,List.map_append,List.map_append,here,rest]
      simp [unwords,List.intercalate_cons_cons]

theorem lessThan_decimal (a b : Nat) (aSmall : a < 2^63) (bSmall : b < 2^63) :
    lessThan (decimal a) (decimal b) = decide (a < b) := by
  rw [lessThan,decimal_isNumber a aSmall,decimal_isNumber b bSmall,numeral_decimal,numeral_decimal,
    Bool.true_and,Bool.true_and]

theorem foldl_largest (sizes : List Nat) (start : Nat) (startSmall : start < 2^63)
    (small : ∀ size ∈ sizes, size < 2^63) :
    (sizes.map decimal).foldl (fun max i => if lessThan max i then i else max) (decimal start) =
      decimal (sizes.foldl max start) := by
  induction sizes generalizing start with
  | nil => rfl
  | cons size sizes ih =>
    have sizeSmall := small size List.mem_cons_self
    -- one round keeps the larger number
    have step : (if lessThan (decimal start) (decimal size) then decimal size else decimal start) =
        decimal (max start size) := by
      rw [lessThan_decimal start size startSmall sizeSmall]
      by_cases less : start < size
      · rw [decide_eq_true less,if_pos rfl,Nat.max_eq_right (Nat.le_of_lt less)]
      · rw [decide_eq_false less,if_neg Bool.false_ne_true,Nat.max_eq_left (Nat.le_of_not_lt less)]
    rw [List.map_cons,List.foldl_cons,List.foldl_cons,step,ih (max start size) (by omega)
      (fun other member => small other (List.mem_cons_of_mem size member))]

theorem size_le_total (entries : List Entry) : ∀ entry ∈ entries, entry.size ≤ total entries := by
  intro entry member
  exact List.le_sum_of_mem (List.mem_map_of_mem member)

theorem mckMaxMemSize_total (limit : Nat) (entries : List Entry) (nonempty : entries ≠ [])
    (fits : room (summands (sizeTexts entries)) ≤ limit) (small : total entries < 2^63) :
    (resolveMemorySize limit (queryMem entries)).mckMaxMemSize = decimal (total entries) := by
  have sum := sed_queryMem " + ".toList (by decide) entries
  have oneLine := decimal_without (total entries) '\n' rfl
  simp only [resolveMemorySize,echoed_queryMem entries nonempty,sum,items_sum,
    commandLines_single limit _ fits,List.flatMap_cons,List.flatMap_nil,List.append_nil,exprOutput,
    expr_sum entries nonempty small]
  exact substituted_line _ oneLine

theorem mckMaxNodeMemSize_largest (limit : Nat) (entries : List Entry) (nonempty : entries ≠ [])
    (small : total entries < 2^63) :
    (resolveMemorySize limit (queryMem entries)).mckMaxNodeMemSize = decimal (largestEntry entries) := by
  have texts : sizeTexts entries ≠ [] := by simpa [sizeTexts] using nonempty
  have plain : ∀ text ∈ sizeTexts entries, ',' ∉ text := by
    intro text member
    obtain ⟨entry,_,rfl⟩ := List.mem_map.mp member
    exact decimal_without entry.size ',' rfl
  have separated := sed_queryMem [','] (by decide) entries
  have echo := echoed_word _ (intercalate_isWord ',' rfl (sizeTexts entries) texts
    (sizeTexts_words entries))
  have split : (List.intercalate [','] (sizeTexts entries)).splitOn ',' = sizeTexts entries :=
    List.splitOn_intercalate ',' plain texts
  simp only [resolveMemorySize,echoed_queryMem entries nonempty,separated,echo,split,
    commas_to_blanks _ plain,words_unwords _ (sizeTexts_words entries)]
  obtain ⟨entry,rest,rfl⟩ := List.exists_cons_of_ne_nil nonempty
  have bound : ∀ size ∈ (entry :: rest).map Entry.size, size < 2^63 := by
    intro size member
    obtain ⟨other,listed,rfl⟩ := List.mem_map.mp member
    exact Nat.lt_of_le_of_lt (size_le_total _ other listed) small
  have loop := foldl_largest ((entry :: rest).map Entry.size) entry.size
    (bound _ (by simp)) bound
  rw [List.map_map] at loop
  refine loop.trans ?_
  simp [largestEntry]

/-! A sum that is cut into several command lines. -/

/-- What an argument adds to a sum. -/
def weight (arg : Text) : Nat := if arg = ['+'] then 0 else numeral arg

def weights (args : List Text) : Nat := (args.map weight).sum

theorem weights_cons (arg : Text) (args : List Text) : weights (arg :: args) = weight arg + weights args := by
  rw [weights,List.map_cons,List.sum_cons,weights]

theorem weights_append (first second : List Text) :
    weights (first ++ second) = weights first + weights second := by
  rw [weights,List.map_append,List.sum_append,weights,weights]

theorem weight_plus : weight ['+'] = 0 := rfl

theorem weight_number (number : Text) (isNumber : isNumber number = true) :
    weight number = numeral number := by
  apply if_neg
  rintro rfl
  contradiction

theorem exprFrom_weights (start value : Nat) (args : List Text) (summed : exprFrom start args = some value) :
    value = start + weights args := by
  fun_induction exprFrom start args with
  | case1 start =>
    cases summed
    rfl
  | case2 start number rest adds ih =>
    have isNumber := (Bool.and_eq_true_iff.mp adds).1
    rw [ih summed,weights_cons,weights_cons,weight_plus,weight_number number isNumber,Nat.zero_add,
      Nat.add_assoc]
  | case3 => contradiction
  | case4 => contradiction

/-- What expr prints is the sum of its arguments. -/
theorem expr_weights (value : Nat) (args : List Text) (summed : expr args = some value) :
    value = weights args := by
  unfold expr at summed
  split at summed
  · rename_i number rest
    split at summed
    · rename_i isNumber
      rw [weights_cons,weights_cons,weight_plus,weight_number number isNumber,Nat.zero_add]
      exact exprFrom_weights _ _ _ summed
    · contradiction
  · rename_i number rest _
    split at summed
    · rename_i isNumber
      rw [weights_cons,weight_number number isNumber]
      exact exprFrom_weights _ _ _ summed
    · contradiction
  · contradiction

/-- A number can only come out as it is of a command line that prints it. -/
theorem exists_printing (lines : List (List Text)) (value : Nat)
    (printed : substituted (lines.flatMap exprOutput) = decimal value) :
    ∃ line ∈ lines, expr line = some value := by
  induction lines with
  | nil => exact absurd printed.symm (decimal_ne_nil value)
  | cons line lines ih =>
    cases summed : expr line with
    | none =>
      have silent : exprOutput line = [] := by rw [exprOutput,summed]
      rw [List.flatMap_cons,silent,List.nil_append] at printed
      obtain ⟨later,member,right⟩ := ih printed
      exact ⟨later,List.mem_cons_of_mem line member,right⟩
    | some found =>
      have output : exprOutput line = decimal found ++ ['\n'] := by rw [exprOutput,summed]
      rw [List.flatMap_cons,output,List.append_assoc,List.singleton_append] at printed
      have first := first_line_substituted (decimal found) (lines.flatMap exprOutput)
        (decimal_without found '\n' rfl) (by rw [printed]; exact decimal_without value '\n' rfl)
      rw [printed] at first
      exact ⟨line,List.mem_cons_self,by rw [summed,decimal_inj _ _ first]⟩

theorem weight_decimal (n : Nat) : weight (decimal n) = n := by
  rw [weight,if_neg (decimal_ne_plus n),numeral_decimal]

theorem weight_le (arg : Text) (args : List Text) (member : arg ∈ args) : weight arg ≤ weights args :=
  List.le_sum_of_mem (List.mem_map_of_mem member)

theorem weights_summands (entries : List Entry) : weights (summands (sizeTexts entries)) = total entries := by
  cases entries with
  | nil => rfl
  | cons entry rest =>
    have others : weights (added rest) = total rest := by
      induction rest with
      | nil => rfl
      | cons next rest ih =>
        rw [added_cons,weights_cons,weights_cons,weight_plus,weight_decimal,ih,total_cons,Nat.zero_add]
    rw [summands_cons,weights_cons,weight_decimal,others,total_cons]

theorem getLast?_summands (texts : List Text) : (summands texts).getLast? = texts.getLast? := by
  cases texts with
  | nil => rfl
  | cons first rest =>
    rcases List.eq_nil_or_concat rest with rfl | ⟨front,last,rfl⟩
    · rfl
    · simp [summands,List.getLast?_cons]

/-- Arguments with the sum of all leave nothing to those in front of them and
behind them; so these are none, if the first size and the last are not 0. -/
theorem part_is_all (entries : List Entry) (nonempty : entries ≠ [])
    (firstSized : 0 < (entries.head nonempty).size) (lastSized : 0 < (entries.getLast nonempty).size)
    (before part after : List Text) (cut : summands (sizeTexts entries) = before ++ part ++ after)
    (sum : weights part = total entries) : part = summands (sizeTexts entries) := by
  have parts : weights before + weights part + weights after = total entries := by
    rw [← weights_summands,cut,weights_append,weights_append]
  have noneBefore : before = [] := by
    obtain ⟨entry,rest,rfl⟩ := List.exists_cons_of_ne_nil nonempty
    cases before with
    | nil => rfl
    | cons arg before =>
      obtain rfl : decimal entry.size = arg := (List.cons.inj cut).1
      have counted := weight_le _ (decimal entry.size :: before) List.mem_cons_self
      rw [weight_decimal] at counted
      rw [List.head_cons] at firstSized
      omega
  have noneAfter : after = [] := by
    have last : (sizeTexts entries).getLast? = some (decimal (entries.getLast nonempty).size) := by
      rw [sizeTexts,List.getLast?_map,List.getLast?_eq_getLast_of_ne_nil nonempty]
      rfl
    rw [← getLast?_summands,cut] at last
    rcases List.eq_nil_or_concat after with rfl | ⟨front,arg,rfl⟩
    · rfl
    · rw [List.concat_eq_append,← List.append_assoc,List.getLast?_concat] at last
      obtain rfl := Option.some.inj last
      have counted := weight_le (decimal (entries.getLast nonempty).size)
        (front.concat (decimal (entries.getLast nonempty).size)) (by simp)
      rw [weight_decimal] at counted
      omega
  rw [cut,noneBefore,noneAfter,List.nil_append,List.append_nil]

theorem summands_short (limit : Nat) (entries : List Entry)
    (each : ∀ text ∈ sizeTexts entries, text.length < limit) :
    ∀ arg ∈ summands (sizeTexts entries), arg.length < limit := by
  intro arg member
  cases entries with
  | nil => contradiction
  | cons entry rest =>
    have plus : 1 < limit := by
      have positive := List.length_pos_iff.mpr (decimal_ne_nil entry.size)
      have short := each (decimal entry.size) List.mem_cons_self
      omega
    rcases List.mem_cons.mp member with rfl | member
    · exact each _ List.mem_cons_self
    · obtain ⟨text,listed,inside⟩ := List.mem_flatMap.mp member
      rcases List.mem_pair.mp inside with rfl | rfl
      · exact plus
      · exact each _ (List.mem_cons_of_mem _ listed)

/-- A total that comes out right has been summed on one command line. -/
theorem fits_of_total (limit : Nat) (entries : List Entry) (nonempty : entries ≠ [])
    (each : ∀ text ∈ sizeTexts entries, text.length < limit)
    (firstSized : 0 < (entries.head nonempty).size) (lastSized : 0 < (entries.getLast nonempty).size)
    (right : (resolveMemorySize limit (queryMem entries)).mckMaxMemSize = decimal (total entries)) :
    room (summands (sizeTexts entries)) ≤ limit := by
  have sum := sed_queryMem " + ".toList (by decide) entries
  simp only [resolveMemorySize,echoed_queryMem entries nonempty,sum,items_sum] at right
  obtain ⟨line,member,printed⟩ := exists_printing _ _ right
  obtain ⟨before,after,lines⟩ := List.append_of_mem member
  have cut : summands (sizeTexts entries) = before.flatten ++ line ++ after.flatten := by
    rw [← flatten_commandLines limit (summands (sizeTexts entries)),lines]
    simp
  have all := part_is_all entries nonempty firstSized lastSized _ line _ cut
    (expr_weights _ line printed).symm
  rw [← all]
  exact room_commandLines limit _ (summands_short limit entries each) line member

/-- The node numbers are dropped before the sizes are compared, so the second size
is that of the largest entry; and a sum that does not fit on one command line is
printed in parts. -/
theorem resolve_memory_iff (limit : Nat) (entries : List Entry) (nonempty : entries ≠ [])
    (small : total entries < 2^63) (each : ∀ text ∈ sizeTexts entries, text.length < limit)
    (sized : limit < room (summands (sizeTexts entries)) →
      0 < (entries.head nonempty).size ∧ 0 < (entries.getLast nonempty).size) :
    resolveMemorySize limit (queryMem entries) =
        ⟨decimal (total entries),decimal (largestNode entries)⟩ ↔
      largestEntry entries = largestNode entries ∧ room (summands (sizeTexts entries)) ≤ limit := by
  have node := mckMaxNodeMemSize_largest limit entries nonempty small
  constructor
  · intro resolved
    refine ⟨?_,?_⟩
    · rw [resolved] at node
      exact (decimal_inj _ _ node).symm
    · by_contra long
      obtain ⟨firstSized,lastSized⟩ := sized (Nat.lt_of_not_le long)
      exact long (fits_of_total limit entries nonempty each firstSized lastSized (by rw [resolved]))
  · rintro ⟨same,fits⟩
    exact Sizes.ext (mckMaxMemSize_total limit entries nonempty fits small)
      (node.trans (congrArg decimal same))

theorem resolve_memory_two_nodes :
    resolveMemorySize 131072 "100@0,200@1".toList = ⟨"300".toList,"200".toList⟩ :=
  (resolve_memory_iff 131072 [⟨100,0⟩,⟨200,1⟩] (by decide) (by decide) (by decide) (by decide)).mpr
    (by decide)

theorem split_node_missed :
    queryMem [⟨100,0⟩,⟨200,0⟩] = "100@0,200@0".toList ∧ largestNode [⟨100,0⟩,⟨200,0⟩] = 300 ∧
    resolveMemorySize 131072 "100@0,200@0".toList = ⟨"300".toList,"200".toList⟩ := by
  decide

theorem nodeTotal_of_nodup (entries : List Entry) (nodup : (entries.map Entry.node).Nodup) :
    ∀ entry ∈ entries, nodeTotal entries entry.node = entry.size := by
  induction entries with
  | nil => simp
  | cons first entries ih =>
    obtain ⟨fresh,rest⟩ := List.nodup_cons.mp nodup
    intro entry member
    rcases List.mem_cons.mp member with rfl | later
    · have others : entries.filter (fun other => other.node = entry.node) = [] := by
        apply List.filter_eq_nil_iff.mpr
        intro other listed same
        exact fresh (List.mem_map.mpr ⟨other,listed,of_decide_eq_true same⟩)
      simp [nodeTotal,total,others]
    · have other : first.node ≠ entry.node := by
        intro same
        exact fresh (List.mem_map.mpr ⟨entry,later,same.symm⟩)
      have shorter : nodeTotal (first :: entries) entry.node = nodeTotal entries entry.node := by
        simp [nodeTotal,other]
      rw [shorter,ih rest entry later]

/-- Both sizes are right when no node is listed twice. -/
theorem resolve_memory_of_nodup (limit : Nat) (entries : List Entry) (nonempty : entries ≠ [])
    (small : total entries < 2^63) (fits : room (summands (sizeTexts entries)) ≤ limit)
    (nodup : (entries.map Entry.node).Nodup) :
    resolveMemorySize limit (queryMem entries) =
      ⟨decimal (total entries),decimal (largestNode entries)⟩ := by
  have sizes : entries.map (fun entry => nodeTotal entries entry.node) = entries.map Entry.size :=
    List.map_congr_left (nodeTotal_of_nodup entries nodup)
  have node := mckMaxNodeMemSize_largest limit entries nonempty small
  rw [largestEntry,← sizes] at node
  exact Sizes.ext (mckMaxMemSize_total limit entries nonempty fits small) node

end Ostest.Util.InitMemory
