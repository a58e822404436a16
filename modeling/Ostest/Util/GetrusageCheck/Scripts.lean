import Ostest.Lib.Grep
import Ostest.TestMck.Getrusage
import Ostest.Util.Run

/-! check/getrusage.000.sh to 002.sh with getrusage.common.sh, on what the tests leave
in the record. The numbers of perl and of the shell are large enough. -/
namespace Ostest.Util.GetrusageCheck
open Lib.Decimal Lib.Echo Lib.Grep Lib.Words TestMck.Getrusage
open Run (integer_isWord integer_not_isOption)

/-! getrusage.common.sh -/

/-- `(\d+)s \+ (\d+)us` at the start of a text. -/
def timesAt (text : Line) : Option (Nat × Nat) :=
  let seconds := text.takeWhile Char.isDigit
  if seconds.isEmpty then none
  else
    match text.dropWhile Char.isDigit with
    | 's' :: ' ' :: '+' :: ' ' :: rest =>
      let microseconds := rest.takeWhile Char.isDigit
      if microseconds.isEmpty then none
      else if "us".toList.isPrefixOf (rest.dropWhile Char.isDigit) then
        some (numeral seconds,numeral microseconds)
      else none
    | _ => none

/-- The first place where the expression matches. -/
def searchTimes : Line → Option (Nat × Nat)
  | [] => none
  | c :: rest => (timesAt (c :: rest)).or (searchTimes rest)

/-- The perl loop of `getrusage_time`, from the times of the last line that matched. -/
def perlTimes : Option (Nat × Nat) → List Line → List Line
  | _, [] => []
  | last, line :: rest =>
    match searchTimes line with
    | none => perlTimes last rest
    | some (s,us) =>
      (match last with
        | none => []
        | some (ps,pus) => [integer (((s : Int) - ps) * 1000000 + ((us : Int) - pus))]) ++
      perlTimes (some (s,us)) rest

/-- The perl loop of `getrusage_maxrss`. -/
def perlMaxrss : Option Line → List Line → List Line
  | _, [] => []
  | prev, line :: rest =>
    (match prev with
      | none => []
      | some prev => [integer (signedNumeral line - signedNumeral prev)]) ++
    perlMaxrss (some line) rest

/-- The common frame: `temp` from the lines that grep finds, and `ret` from `temp`. -/
def getrusage (perl : List Line → List Line) (name : String) (file : List Line) (field : Nat) : Line :=
  let found := file.filter (occurs name.toList)
  let temp := substituted (printed (perl (found.map (cutOn '=' 2))))
  substituted (printed ((lines (echo (words temp))).map (cutOn ' ' field)))

def getrusageTime (name : String) (file : List Line) (field : Nat) : Line :=
  getrusage (perlTimes none) name file field

def getrusageMaxrss (name : String) (file : List Line) (field : Nat) : Line :=
  getrusage (perlMaxrss none) name file field

/-- The awk program of `getrusage_section`, with the value of `c`. -/
def sectionFrom (start stop : String) : Bool → List Line → List Line
  | _, [] => []
  | c, line :: rest =>
    let c := if occurs start.toList line then true else c
    let c := if occurs stop.toList line then false else c
    (if c then [line] else []) ++ sectionFrom start stop c rest

def getrusageSection (file : List Line) (start stop : String) : List Line := sectionFrom start stop false file

/-! The comparisons of the checks. An operand that is no integer is an error, and then
the branch is not taken. -/

def operand (text : Line) : Option Int :=
  match text with
  | '-' :: digits => if !digits.isEmpty && digits.all Char.isDigit then some (-(numeral digits : Int)) else none
  | digits => if !digits.isEmpty && digits.all Char.isDigit then some (numeral digits) else none

/-- `[ "$ret" -lt bound ]` -/
def below (ret : Line) (bound : Int) : Bool := (operand ret).any (· < bound)

/-- `[ "$ret" -gt bound ]` -/
def above (ret : Line) (bound : Int) : Bool := (operand ret).any (bound < ·)

/-- `[ "$ret" != "0" ]` -/
def nonzero (ret : Line) : Bool := ret != "0".toList

/-- The value of rc after the checks. -/
def rc (failures : List Bool) : Nat := if failures.any id then 1 else 0

def check000 (file : List Line) : Nat := rc
  [below (getrusageTime "ru_utime" file 1) (2000000/10*9),above (getrusageTime "ru_utime" file 2) 1000,
    below (getrusageTime "ru_stime" file 1) (2000000/10*9),above (getrusageTime "ru_stime" file 2) 1000,
    below (getrusageMaxrss "ru_maxrss" file 1) (16384/10*9),nonzero (getrusageMaxrss "ru_maxrss" file 2)]

def check001 (file : List Line) : Nat := rc
  [nonzero (getrusageTime "ru_utime" file 1),below (getrusageTime "ru_utime" file 2) (2000000/10*9),
    nonzero (getrusageTime "ru_stime" file 1),below (getrusageTime "ru_stime" file 2) (2000000/10*9),
    nonzero (getrusageMaxrss "ru_maxrss" file 1),below (getrusageMaxrss "ru_maxrss" file 2) (16384/10*9)]

def check002 (file : List Line) : Nat :=
  let parent := getrusageSection file "parent" "child"
  let child := getrusageSection file "child" "parent"
  rc
    [above (getrusageTime "ru_utime" parent 1) 1000,below (getrusageTime "ru_stime" parent 1) (4000000/10*9),
      below (getrusageMaxrss "ru_maxrss" parent 1) (16384/10*9),
      below (getrusageTime "ru_utime" child 1) (2000000/10*9),below (getrusageTime "ru_stime" child 1) (2000000/10*9),
      below (getrusageMaxrss "ru_maxrss" child 1) (16384/10*9)]

/-! What the shell reads back. -/

theorem operand_integer (n : Int) : operand (integer n) = some n := by
  have digits : (decimal n.natAbs).all Char.isDigit = true :=
    List.all_eq_true.mpr (fun c member => decimal_digits n.natAbs c member)
  have filled : (decimal n.natAbs).isEmpty = false := by simp [decimal_ne_nil]
  unfold integer
  split
  next negative =>
    rw [operand,filled,digits,numeral_decimal]
    simp only [Bool.not_false,Bool.and_self,if_true,Option.some.injEq]
    omega
  next positive =>
    have unsigned := decimal_unsigned n.natAbs
    unfold operand
    split
    next rest same => simp [same] at unsigned
    next =>
      rw [filled,digits,numeral_decimal]
      simp only [Bool.not_false,Bool.and_self,if_true,Option.some.injEq]
      omega

theorem integer_eq_zero_iff (n : Int) : integer n = "0".toList ↔ n = 0 := by
  constructor
  · intro same
    have read := operand_integer n
    rw [same] at read
    exact (Option.some.inj read).symm
  · rintro rfl
    rfl

/-- The field that cut finds: of a single one always that. -/
def pick (deltas : List Int) (field : Nat) : Option Int :=
  if deltas.length = 1 then deltas.head? else deltas[field-1]?

def shown (delta : Option Int) : Line := delta.elim [] integer

theorem below_shown (delta : Option Int) (bound : Int) :
    below (shown delta) bound = false ↔ ∀ value ∈ delta, bound ≤ value := by
  cases delta with
  | none => simp [below,shown,operand]
  | some delta => simp [below,shown,operand_integer]

theorem above_shown (delta : Option Int) (bound : Int) :
    above (shown delta) bound = false ↔ ∀ value ∈ delta, value ≤ bound := by
  cases delta with
  | none => simp [above,shown,operand]
  | some delta => simp [above,shown,operand_integer]

theorem nonzero_shown (delta : Option Int) : nonzero (shown delta) = false ↔ delta = some 0 := by
  cases delta with
  | none => exact iff_of_false (by decide) (by simp)
  | some delta =>
    rw [nonzero,shown,Option.elim_some,bne_eq_false_iff_eq,integer_eq_zero_iff,Option.some.injEq]

theorem cutOn_line (list : List Line) (all : ∀ word ∈ list, IsWord word) (field : Nat) :
    cutOn ' ' field (unwords list) =
      (if list.length = 1 then list.head? else list[field-1]?).getD [] := by
  match list,all with
  | [],_ => simp [cutOn,unwords]
  | [word],all =>
    have blankless : ' ' ∉ word := (all word List.mem_cons_self).blankless
    simp [cutOn,unwords,blankless]
  | first :: second :: rest,all =>
    have free : ∀ word ∈ first :: second :: rest, ' ' ∉ word := fun word member => (all word member).blankless
    have split := List.splitOn_intercalate ' ' free (List.cons_ne_nil _ _)
    have separated : ' ' ∈ unwords (first :: second :: rest) := by simp [unwords,List.intercalate,List.intersperse]
    rw [cutOn,if_pos separated,unwords,split,List.getD_eq_getElem?_getD]
    simp

theorem ret_eq (deltas : List Int) (field : Nat) :
    substituted (printed ((lines (echo (words (substituted (printed (deltas.map integer)))))).map (cutOn ' ' field))) =
      shown (pick deltas field) := by
  have isWord : ∀ word ∈ deltas.map integer, IsWord word := by
    intro word member
    obtain ⟨n,_,rfl⟩ := List.mem_map.mp member
    exact integer_isWord n
  have split : words (substituted (printed (deltas.map integer))) = deltas.map integer := by
    rw [words_substituted]
    exact words_terminated '\n' rfl _ isWord
  have plain : ∀ first ∈ (deltas.map integer).head?, isOption first = false := by
    intro first head
    obtain ⟨n,_,rfl⟩ := List.mem_map.mp (List.mem_of_mem_head? head)
    exact integer_not_isOption n
  have line : lines (unwords (deltas.map integer) ++ ['\n']) = [unwords (deltas.map integer)] := by
    simpa using lines_printed [unwords (deltas.map integer)] (by simpa using newline_unwords _ isWord)
  rw [split,echo_plain _ plain,line,List.map_singleton,cutOn_line _ isWord]
  have picked : (if (deltas.map integer).length = 1 then (deltas.map integer).head? else (deltas.map integer)[field-1]?) =
      (pick deltas field).map integer := by
    unfold pick
    split_ifs <;> simp_all
  rw [picked]
  have oneLine : '\n' ∉ shown (pick deltas field) := by
    cases pick deltas field with
    | none => simp [shown]
    | some n => exact fun member => absurd ((integer_isWord n).2 _ member) (by decide)
  have same : ((pick deltas field).map integer).getD [] = shown (pick deltas field) := by
    cases pick deltas field <;> rfl
  rw [same]
  simpa [printed] using substituted_line _ oneLine

/-! What perl computes. -/

def deltas : List Int → List Int
  | first :: second :: rest => (second - first) :: deltas (second :: rest)
  | _ => []

def micros (time : Timeval) : Int := time.sec * 1000000 + time.usec

theorem searchTimes_text (time : Timeval) : searchTimes time.text = some (time.sec,time.usec) := by
  have whole (n : Nat) (c : Char) (rest : Line) (other : c.isDigit = false) :
      (decimal n ++ c :: rest).takeWhile Char.isDigit = decimal n ∧
        (decimal n ++ c :: rest).dropWhile Char.isDigit = c :: rest := by
    have digits := decimal_digits n
    rw [List.takeWhile_append_of_pos digits,List.dropWhile_append_of_pos digits,
      List.takeWhile_cons_of_neg (by simp [other]),List.dropWhile_cons_of_neg (by simp [other])]
    simp
  have matched : timesAt time.text = some (time.sec,time.usec) := by
    have first := whole time.sec 's' (" + ".toList ++ decimal time.usec ++ "us".toList) rfl
    have second := whole time.usec 'u' ['s'] rfl
    have text : time.text = decimal time.sec ++ 's' :: (" + ".toList ++ decimal time.usec ++ "us".toList) := by
      simp [Timeval.text]
    rw [timesAt,text,first.1,first.2]
    have filled (n : Nat) : (decimal n).isEmpty = false := by simp [decimal_ne_nil]
    have rest : 's' :: (" + ".toList ++ decimal time.usec ++ "us".toList) =
        's' :: ' ' :: '+' :: ' ' :: (decimal time.usec ++ ['u','s']) := by simp
    rw [rest]
    simp only [filled,second.1,second.2,numeral_decimal]
    rfl
  obtain ⟨c,rest,cut⟩ := List.exists_cons_of_ne_nil (show time.text ≠ [] by simp [Timeval.text,decimal_ne_nil])
  rw [cut] at matched ⊢
  rw [searchTimes,matched]
  rfl

theorem perlTimes_texts (times : List Timeval) :
    perlTimes none (times.map Timeval.text) = (deltas (times.map micros)).map integer := by
  have after (last : Timeval) (times : List Timeval) :
      perlTimes (some (last.sec,last.usec)) (times.map Timeval.text) =
        (deltas ((last :: times).map micros)).map integer := by
    induction times generalizing last with
    | nil => rfl
    | cons time times ih =>
      rw [List.map_cons,perlTimes,searchTimes_text]
      dsimp only
      rw [ih time]
      simp only [List.map_cons,deltas,List.singleton_append,List.cons.injEq,and_true]
      congr 1
      unfold micros
      omega
  cases times with
  | nil => rfl
  | cons time times =>
    rw [List.map_cons,perlTimes,searchTimes_text]
    exact after time times

theorem perlMaxrss_texts (sizes : List Nat) :
    perlMaxrss none (sizes.map decimal) = (deltas (sizes.map Int.ofNat)).map integer := by
  have after (last : Nat) (sizes : List Nat) :
      perlMaxrss (some (decimal last)) (sizes.map decimal) =
        (deltas ((last :: sizes).map Int.ofNat)).map integer := by
    induction sizes generalizing last with
    | nil => rfl
    | cons size sizes ih =>
      rw [List.map_cons,perlMaxrss,ih size]
      simp only [List.map_cons,deltas,List.singleton_append,signedNumeral_decimal]
      rfl
  cases sizes with
  | nil => rfl
  | cons size sizes => exact after size sizes

/-! What grep finds in the record. -/

def usage? : Item → Option Usage
  | .usage used => some used
  | _ => none

def usages (items : List Item) : List Usage := items.filterMap usage?

def file (items : List Item) : List Line := items.flatMap Item.lines

/-- The fields that the checks ask for. -/
inductive Field where
  | utime
  | stime
  | maxrss

def Field.name : Field → String
  | .utime => "ru_utime"
  | .stime => "ru_stime"
  | .maxrss => "ru_maxrss"

def Field.text : Field → Usage → Line
  | .utime,usage => usage.utime.text
  | .stime,usage => usage.stime.text
  | .maxrss,usage => decimal usage.maxrss

theorem Field.text_without (field : Field) (usage : Usage) : 'r' ∉ field.text usage := by
  have free (n : Nat) : 'r' ∉ decimal n := decimal_without n 'r' rfl
  cases field <;> simp [Field.text,Timeval.text,free]

theorem occurs_field (pattern : Line) (name : String) (value : Line) (c : Char) (equals : '=' ∉ pattern)
    (needed : c ∈ pattern) (missing : c ∉ value) :
    occurs pattern (fieldLine name value) = occurs pattern ("  ".toList ++ name.toList) :=
  occurs_before pattern ("  ".toList ++ name.toList) value '=' c equals needed missing

theorem occurs_text (field : Field) (line : Text) : occurs field.name.toList line.text.toList = false := by
  cases line with
  | testNumber number =>
    revert number
    cases field <;> decide
  | result message => cases message <;> cases field <;> decide
  | _ => cases field <;> decide

theorem grep_usage (field : Field) (used : Usage) :
    (showRusage used).filter (occurs field.name.toList) = [fieldLine field.name (field.text used)] := by
  have line (other : Field) : occurs field.name.toList (fieldLine other.name (other.text used)) =
      occurs field.name.toList ("  ".toList ++ other.name.toList) :=
    occurs_field _ _ _ 'r' (by cases field <;> decide) (by cases field <;> decide) (other.text_without used)
  have counted (c : Counter) : occurs field.name.toList (fieldLine c.name (decimal (used.counter c))) = false := by
    rw [occurs_field _ _ _ 'r' (by cases field <;> decide) (by cases field <;> decide) (decimal_without _ 'r' rfl)]
    cases field <;> cases c <;> decide
  have dashed : occurs field.name.toList dashes = false := by cases field <;> decide
  have titled : occurs field.name.toList "show_rusage():".toList = false := by cases field <;> decide
  have none (list : List Counter) : (list.map fun c => fieldLine c.name (decimal (used.counter c))).filter
      (occurs field.name.toList) = [] := by
    rw [List.filter_eq_nil_iff]
    intro found member
    obtain ⟨c,_,rfl⟩ := List.mem_map.mp member
    exact Bool.eq_false_iff.mp (counted c)
  have fields : showRusage used = [dashes,"show_rusage():".toList] ++ [fieldLine Field.utime.name (Field.utime.text used),
      fieldLine Field.stime.name (Field.stime.text used),fieldLine Field.maxrss.name (Field.maxrss.text used)] ++
      (counters.filter (fun c => used.counter c ≠ 0)).map (fun c => fieldLine c.name (decimal (used.counter c))) ++
      [dashes] := rfl
  rw [fields,List.filter_append,List.filter_append,List.filter_append,none]
  simp only [List.filter_cons,List.filter_nil,dashed,titled,line]
  cases field <;> rfl

theorem grep_item (field : Field) (item : Item) :
    item.lines.filter (occurs field.name.toList) =
      (usage? item).toList.map (fun used => fieldLine field.name (field.text used)) := by
  cases item with
  | text line => simp [Item.lines,usage?,occurs_text]
  | usage used => exact grep_usage field used
  | failed errno =>
    have missing : '_' ∉ "getrusage() failed. (".toList ++ integer errno ++ [')'] := by
      have free := integer_without errno '_' rfl (by decide)
      simp [free]
    have foreign : occurs field.name.toList ("getrusage() failed. (".toList ++ integer errno ++ [')']) = false :=
      occurs_foreign _ _ '_' (by cases field <;> decide) missing
    rw [Item.lines,List.filter_cons_of_neg (Bool.eq_false_iff.mp foreign),List.filter_nil]
    rfl

theorem grep_file (field : Field) (items : List Item) :
    (file items).filter (occurs field.name.toList) =
      (usages items).map (fun used => fieldLine field.name (field.text used)) := by
  induction items with
  | nil => rfl
  | cons item items ih =>
    have rest : (items.flatMap Item.lines).filter (occurs field.name.toList) =
        (usages items).map (fun used => fieldLine field.name (field.text used)) := ih
    rw [file,List.flatMap_cons,List.filter_append,grep_item,rest,usages,usages,List.filterMap_cons]
    cases usage? item <;> rfl

/-! What the checks read from a record. -/

def Field.value : Field → Usage → Int
  | .utime,usage => micros usage.utime
  | .stime,usage => micros usage.stime
  | .maxrss,usage => usage.maxrss

theorem cut_field (field : Field) (used : Usage) :
    cutOn '=' 2 (fieldLine field.name (field.text used)) = field.text used := by
  have free (n : Nat) : '=' ∉ decimal n := decimal_without n '=' rfl
  have parts : ∀ part ∈ ["  ".toList ++ field.name.toList,field.text used], '=' ∉ part := by
    intro part member
    simp only [List.mem_cons,List.not_mem_nil,or_false] at member
    rcases member with rfl | rfl
    · cases field <;> decide
    · cases field <;> simp [Field.text,Timeval.text,free]
  have cut := cutOn_intercalate '=' _ parts 1 Nat.one_lt_two
  simpa [List.intercalate,fieldLine] using cut

theorem cut_file (field : Field) (items : List Item) :
    ((file items).filter (occurs field.name.toList)).map (cutOn '=' 2) = (usages items).map field.text := by
  rw [grep_file,List.map_map]
  exact List.map_congr_left (fun used _ => cut_field field used)

/-- The change of a field from one usage of the record to the next. -/
def change (field : Field) (items : List Item) (i : Nat) : Option Int :=
  pick (deltas ((usages items).map field.value)) i

theorem time_file (name : Field) (items : List Item) (i : Nat) (time : Usage → Timeval)
    (text : name.text = fun used => (time used).text) (value : name.value = fun used => micros (time used)) :
    getrusageTime name.name (file items) i = shown (change name items i) := by
  have texts : (usages items).map name.text = ((usages items).map time).map Timeval.text := by
    rw [text,List.map_map]
    rfl
  have values : (usages items).map name.value = ((usages items).map time).map micros := by
    rw [value,List.map_map]
    rfl
  rw [getrusageTime,getrusage,cut_file,texts,perlTimes_texts,change,values]
  exact ret_eq _ i

theorem utime_file (items : List Item) (i : Nat) :
    getrusageTime "ru_utime" (file items) i = shown (change .utime items i) :=
  time_file .utime items i Usage.utime rfl rfl

theorem stime_file (items : List Item) (i : Nat) :
    getrusageTime "ru_stime" (file items) i = shown (change .stime items i) :=
  time_file .stime items i Usage.stime rfl rfl

theorem maxrss_file (items : List Item) (i : Nat) :
    getrusageMaxrss "ru_maxrss" (file items) i = shown (change .maxrss items i) := by
  have texts : (usages items).map Field.maxrss.text = ((usages items).map Usage.maxrss).map decimal := by
    rw [List.map_map]
    rfl
  have values : (usages items).map Field.maxrss.value = ((usages items).map Usage.maxrss).map Int.ofNat := by
    rw [List.map_map]
    rfl
  have cut := cut_file .maxrss items
  rw [texts] at cut
  rw [getrusageMaxrss,getrusage]
  change substituted (printed ((lines (echo (words (substituted (printed (perlMaxrss none
    (((file items).filter (occurs Field.maxrss.name.toList)).map (cutOn '=' 2)))))))).map (cutOn ' ' i))) = _
  rw [cut,perlMaxrss_texts,change,values]
  exact ret_eq _ i

theorem rc_zero_iff (failures : List Bool) : rc failures = 0 ↔ ∀ failure ∈ failures, failure = false := by
  unfold rc
  split
  next failed =>
    simp only [List.any_eq_true,id_eq] at failed
    obtain ⟨failure,member,rfl⟩ := failed
    exact ⟨fun zero => absurd zero (by decide),fun all => absurd (all true member) (by decide)⟩
  next passed =>
    simp only [List.any_eq_true,id_eq,not_exists,not_and] at passed
    exact ⟨fun _ failure member => by simpa using passed failure member,fun _ => rfl⟩

/-- Nine tenths of what the tests use up: two seconds, or 16384 KiB. -/
def Field.enough : Field → Int
  | .maxrss => 16384/10*9
  | _ => 2000000/10*9

end Ostest.Util.GetrusageCheck
