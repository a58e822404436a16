import Mathlib.Data.BitVec
import Ostest.Lib.GetoptLong
import Ostest.Lib.Strtoll

/-! The arguments of the mremap_mmap_anon tests: six addresses and lengths, each
converted by test_mck_strtoul of test_mck.c. -/
namespace Ostest.TestMck.MremapArgument
open Lib.Getopt Lib.GetoptLong Lib.Strtoll Lib.Decimal

abbrev Word := BitVec 64

def longMin : Word := BitVec.ofInt 64 (-2^63)

def longMax : Word := BitVec.ofInt 64 (2^63-1)

/-- The end pointer is at the start if nothing of the text was taken. -/
def testMckStrtoul (nptr : Option (List Char)) (defaultValue : Word) : Word :=
  match nptr with
  | none => defaultValue
  | some nptr =>
    let result := strtoll nptr
    let ret := BitVec.ofInt 64 result.value
    if ret = 0 ∧ result.endptr.length = nptr.length then defaultValue
    else if (ret = longMin ∨ ret = longMax) ∧ result.erange = true then defaultValue
    else ret

def numberOf (text : List Char) : Option Int := (number text).map Prod.fst

theorem testMckStrtoul_none (text : List Char) (d : Word) (none : numberOf text = none) :
    testMckStrtoul (some text) d = d := by
  have nothing : number text = .none := Option.map_eq_none_iff.mp none
  simp [testMckStrtoul,strtoll,nothing]

/-- The conversion is that of a signed number. -/
theorem testMckStrtoul_some (text : List Char) (n : Int) (d : Word) (found : numberOf text = some n) :
    testMckStrtoul (some text) d = if -2^63 ≤ n ∧ n < 2^63 then BitVec.ofInt 64 n else d := by
  obtain ⟨⟨m,rest⟩,same,first⟩ := Option.map_eq_some_iff.mp found
  obtain rfl : m = n := first
  have moved := number_length text rest m same
  simp only [testMckStrtoul,strtoll,same]
  by_cases low : m < -2^63
  · rw [if_pos low,if_neg (fun start => by simp only at start; omega),if_pos ⟨.inl rfl,rfl⟩,
      if_neg (by omega)]
  · by_cases high : 2^63 ≤ m
    · rw [if_neg low,if_pos high,if_neg (fun start => by simp only at start; omega),
        if_pos ⟨.inr rfl,rfl⟩,if_neg (by omega)]
    · rw [if_neg low,if_neg high,if_neg (fun start => by simp only at start; omega),
        if_neg (fun range => Bool.false_ne_true range.2),if_pos (by omega)]

theorem numberOf_decimal (n : Nat) : numberOf (decimal n) = some (n : Int) := by
  rw [numberOf,number_decimal]
  rfl

theorem numberOf_hex (n : Nat) : numberOf (hex n) = some (n : Int) := by
  rw [numberOf,number_hex]
  rfl

theorem strtoul_value_iff (text : List Char) (v d : Word) (found : numberOf text = some (v.toNat : Int)) :
    testMckStrtoul (some text) d = v ↔ v.toNat < 2^63 ∨ d = v := by
  rw [testMckStrtoul_some text _ d found]
  split
  · rename_i range
    rw [BitVec.ofInt_natCast,BitVec.ofNat_toNat,BitVec.setWidth_eq]
    exact ⟨fun _ => .inl (by omega),fun _ => rfl⟩
  · rename_i range
    have high : ¬ v.toNat < 2^63 := by omega
    exact ⟨.inr,fun either => either.resolve_left high⟩

theorem strtoul_outside_iff (text : List Char) (n : Int) (d : Word) (found : numberOf text = some n)
    (outside : n < 0 ∨ 2^64 ≤ n) :
    testMckStrtoul (some text) d = d ↔ (n < -2^63 ∨ 2^64 ≤ n) ∨ d = BitVec.ofInt 64 n := by
  rw [testMckStrtoul_some text n d found]
  split
  · rename_i range
    have inside : ¬ (n < -2^63 ∨ 2^64 ≤ n) := by omega
    exact ⟨fun same => .inr same.symm,fun either => (either.resolve_left inside).symm⟩
  · rename_i range
    exact ⟨fun _ => .inl (by omega),fun _ => rfl⟩

/-! The options. -/

structure MremapArgs where
  text : Word
  textLen : Word
  data : Word
  dataLen : Word
  bss : Word
  bssLen : Word
  deriving DecidableEq

def MremapArgs.zero : MremapArgs := ⟨0,0,0,0,0,0⟩

def optstring : List Char := "t:T:d:D:b:B:".toList

def longOptions : List LongOption := [
  ⟨"text".toList,.required,'t'⟩,
  ⟨"text-len".toList,.required,'T'⟩,
  ⟨"data".toList,.required,'d'⟩,
  ⟨"data-len".toList,.required,'D'⟩,
  ⟨"bss".toList,.required,'b'⟩,
  ⟨"bss-len".toList,.required,'B'⟩]

/-- The switch in the loop; what is no option is passed over. -/
def storeOption (args : MremapArgs) : Answer → Except Empty MremapArgs
  | .option 't' optarg => .ok {args with text := testMckStrtoul optarg 0}
  | .option 'T' optarg => .ok {args with textLen := testMckStrtoul optarg 0}
  | .option 'd' optarg => .ok {args with data := testMckStrtoul optarg 0}
  | .option 'D' optarg => .ok {args with dataLen := testMckStrtoul optarg 0}
  | .option 'b' optarg => .ok {args with bss := testMckStrtoul optarg 0}
  | .option 'B' optarg => .ok {args with bssLen := testMckStrtoul optarg 0}
  | _ => .ok args

def parseArgument (s : State) : Option MremapArgs :=
  match scan (getoptLong optstring longOptions) storeOption (fuel s) .zero s with
  | some (.ok (args,_)) => some args
  | _ => none

def verifySectionArgument (args : MremapArgs) : Option String :=
  if args.text = 0 then some "invalid argument(-t, --text)."
  else if args.textLen = 0 then some "invalid argument(-T, --text-len)."
  else if args.data = 0 then some "invalid argument(-d, --data)."
  else if args.dataLen = 0 then some "invalid argument(-D, --data-len)."
  else if args.bss = 0 then some "invalid argument(-b, --bss)."
  else if args.bssLen = 0 then some "invalid argument(-B, --bss-len)."
  else none

inductive Field where
  | text
  | textLen
  | data
  | dataLen
  | bss
  | bssLen
  deriving DecidableEq

def Field.letter : Field → Char
  | .text => 't'
  | .textLen => 'T'
  | .data => 'd'
  | .dataLen => 'D'
  | .bss => 'b'
  | .bssLen => 'B'

def MremapArgs.get (args : MremapArgs) : Field → Word
  | .text => args.text
  | .textLen => args.textLen
  | .data => args.data
  | .dataLen => args.dataLen
  | .bss => args.bss
  | .bssLen => args.bssLen

def store (args : MremapArgs) (option : Char × Option Arg) : MremapArgs :=
  match storeOption args (.option option.1 option.2) with
  | .ok next => next

theorem storeOption_ok (args : MremapArgs) (c : Char) (optarg : Option Arg) :
    storeOption args (.option c optarg) = .ok (store args (c,optarg)) := by
  unfold store
  dsimp only
  cases storeOption args (.option c optarg) with
  | error impossible => exact impossible.elim
  | ok next => rfl

theorem store_get (args : MremapArgs) (c : Char) (optarg : Option Arg) (field : Field) :
    (store args (c,optarg)).get field =
      if c = field.letter then testMckStrtoul optarg 0 else args.get field := by
  have option := storeOption_ok args c optarg
  generalize store args (c,optarg) = next at *
  unfold storeOption at option
  split at option
  case h_7 noText noTextLen noData noDataLen noBss noBssLen =>
    obtain rfl : args = next := Except.ok.inj option
    have other : c ≠ field.letter := by
      rintro rfl
      cases field with
      | text => exact noText _ rfl
      | textLen => exact noTextLen _ rfl
      | data => exact noData _ rfl
      | dataLen => exact noDataLen _ rfl
      | bss => exact noBss _ rfl
      | bssLen => exact noBssLen _ rfl
    rw [if_neg other]
  all_goals
    rename_i same
    cases same
    cases Except.ok.inj option
    cases field <;> rfl

/-- The argument that counts for a field: that of its last option. -/
def given (field : Field) (options : List (Char × Option Arg)) : Option (Option Arg) :=
  options.foldl (fun last (c,optarg) => if c = field.letter then some optarg else last) none

def converted : Option (Option Arg) → Word
  | none => 0
  | some optarg => testMckStrtoul optarg 0

theorem foldl_get (options : List (Char × Option Arg)) (args : MremapArgs) (field : Field)
    (last : Option (Option Arg)) (same : args.get field = converted last) :
    (options.foldl store args).get field = converted
      (options.foldl (fun last (c,optarg) => if c = field.letter then some optarg else last) last) := by
  induction options generalizing args last with
  | nil => exact same
  | cons option options ih =>
    obtain ⟨c,optarg⟩ := option
    rw [List.foldl_cons,List.foldl_cons]
    apply ih
    rw [store_get]
    dsimp only
    split
    · rfl
    · exact same

/-- The options of a vector, as getopt_long reports them. -/
def options (s : State) : Option (List (Char × Option Arg)) :=
  match scan (getoptLong optstring longOptions) collect (fuel s) [] s with
  | some (.ok (options,_)) => some options
  | _ => none

theorem storeOption_collect (before : List (Char × Option Arg)) (answer : Answer) :
    storeOption (before.foldl store .zero) answer =
      (collect before answer).map (fun options => options.foldl store .zero) := by
  cases answer with
  | option c optarg =>
    simp only [collect,Except.map,List.foldl_append,List.foldl_cons,List.foldl_nil,storeOption_ok]
  | unknown c => rfl
  | missing c => rfl
  | finished => rfl

theorem parseArgument_options (s : State) :
    parseArgument s = (options s).map (fun options => options.foldl store .zero) := by
  have viewed := scan_map (getoptLong optstring longOptions) collect storeOption
    (fun options => options.foldl store .zero) storeOption_collect (fuel s) [] s
  change scan _ _ _ MremapArgs.zero s = _ at viewed
  rw [parseArgument,options,viewed]
  match scan (getoptLong optstring longOptions) collect (fuel s) [] s with
  | none => rfl
  | some (.error impossible) => exact impossible.elim
  | some (.ok (options,t)) => rfl

theorem options_ends (s : State) (ordered : Ordered s) : ∃ found, options s = some found := by
  obtain ⟨result,scanned,_⟩ := scan_enough _ (getoptLong_lowers optstring longOptions) collect [] s
    ordered (fuel s) (Nat.lt_succ_self _)
  match result with
  | .error impossible => exact impossible.elim
  | .ok (found,t) => exact ⟨found,by rw [options,scanned]⟩

def Field.name : Field → List Char
  | .text => "text".toList
  | .textLen => "text-len".toList
  | .data => "data".toList
  | .dataLen => "data-len".toList
  | .bss => "bss".toList
  | .bssLen => "bss-len".toList

theorem spells_letter (field : Field) : Spells optstring longOptions ['-',field.letter] field.letter := by
  apply Spells.short
  · cases field <;> rfl
  · cases field <;> decide

theorem spells_name (field : Field) : Spells optstring longOptions ('-' :: '-' :: field.name) field.letter := by
  have found : ∃ option, lookup longOptions field.name = .one option ∧ option.hasArg = .required ∧
      option.val = field.letter := by
    cases field <;> exact ⟨_,rfl,rfl,rfl⟩
  obtain ⟨option,found,required,letter⟩ := found
  rw [← letter]
  refine Spells.long field.name option ?_ ?_ found required
  · cases field <;> decide
  · cases field <;> decide

/-- In a vector of options in either spelling, each with its argument, these are
what getopt_long reports. -/
theorem options_pairs (s : State) (ordered : Ordered s) (between : Between s) (words : List (Arg × Arg))
    (fields : List Field) (rest : s.argv.drop s.optind = pairs words)
    (spelled : List.Forall₂ (fun word field => word.1 = ['-',field.letter] ∨ word.1 = '-' :: '-' :: field.name)
      words fields) :
    options s = some ((fields.map Field.letter).zip (words.map (fun word => some word.2))) := by
  have spells : List.Forall₂ (fun word c => Spells optstring longOptions word.1 c) words
      (fields.map Field.letter) := by
    rw [List.forall₂_map_right_iff]
    apply spelled.imp
    rintro word field (short | long)
    · rw [short]
      exact spells_letter field
    · rw [long]
      exact spells_name field
  obtain ⟨t,scanned⟩ := scan_pairs optstring longOptions words _ spells s ordered between rest []
    (fuel s) (pairs_fuel s between words rest)
  rw [options,scanned]
  rfl

/-- The option of a field gives it a number, in decimal or hexadecimal. -/
def Gives (s : State) (field : Field) (v : Word) : Prop :=
  ∃ found, options s = some found ∧
    (given field found = some (some (decimal v.toNat)) ∨ given field found = some (some (hex v.toNat)))

def Stores (s : State) : Prop :=
  ∃ args, parseArgument s = some args ∧ ∀ field v, Gives s field v → args.get field = v

theorem parseArgument_get (s : State) (args : MremapArgs) (parsed : parseArgument s = some args)
    (field : Field) (v : Word) (gives : Gives s field v) :
    ∃ text, numberOf text = some (v.toNat : Int) ∧ args.get field = testMckStrtoul (some text) 0 := by
  obtain ⟨found,scanned,spelled⟩ := gives
  rw [parseArgument_options,scanned] at parsed
  obtain rfl := Option.some.inj parsed
  have value : (found.foldl store .zero).get field = converted (given field found) :=
    foldl_get found .zero field none (by cases field <;> rfl)
  rcases spelled with text | text
  · exact ⟨_,numberOf_decimal _,value.trans (by rw [text]; rfl)⟩
  · exact ⟨_,numberOf_hex _,value.trans (by rw [text]; rfl)⟩

theorem stores_iff (s : State) (ordered : Ordered s) :
    Stores s ↔ ∀ field v, Gives s field v → v.toNat < 2^63 := by
  constructor
  · rintro ⟨args,parsed,stores⟩ field v gives
    obtain ⟨text,number,got⟩ := parseArgument_get s args parsed field v gives
    rcases (strtoul_value_iff text v 0 number).mp (got.symm.trans (stores field v gives)) with small | zero
    · exact small
    · rw [← zero]
      decide
  · intro small
    obtain ⟨found,scanned⟩ := options_ends s ordered
    refine ⟨_,by rw [parseArgument_options,scanned]; rfl,?_⟩
    intro field v gives
    obtain ⟨text,number,got⟩ := parseArgument_get s _ (by rw [parseArgument_options,scanned]; rfl) field v gives
    exact got.trans ((strtoul_value_iff text v 0 number).mpr (.inl (small field v gives)))

/-- The conversion is right below 2^63, and where the default happens to be the
number. -/
theorem strtoul_right_iff (v d : Word) (text : List Char) (s : State) (ordered : Ordered s) :
    ((testMckStrtoul (some (decimal v.toNat)) d = v ∧ testMckStrtoul (some (hex v.toNat)) d = v) ↔
      v.toNat < 2^63 ∨ d = v) ∧
    (numberOf text = none → testMckStrtoul (some text) d = d) ∧
    (∀ n, numberOf text = some n → n < 0 ∨ 2^64 ≤ n →
      (testMckStrtoul (some text) d = d ↔ (n < -2^63 ∨ 2^64 ≤ n) ∨ d = BitVec.ofInt 64 n)) ∧
    (Stores s ↔ ∀ field v, Gives s field v → v.toNat < 2^63) := by
  refine ⟨?_,testMckStrtoul_none text d,?_,stores_iff s ordered⟩
  · rw [strtoul_value_iff _ v d (numberOf_decimal _),strtoul_value_iff _ v d (numberOf_hex _),and_self]
  · intro n found outside
    exact strtoul_outside_iff text n d found outside

/-- `test_mck … -- --text 0x400000 -T 65536`. -/
def sections : State :=
  State.initial false ("test_mck".toList ::
    pairs [("--text".toList,hex 0x400000),("-T".toList,decimal 0x10000)])

theorem sections_ordered : Ordered sections := ⟨by decide,by decide,by decide,by decide,by decide⟩

theorem sections_options : options sections = some [('t',some (hex 0x400000)),('T',some (decimal 0x10000))] :=
  options_pairs sections sections_ordered ⟨rfl,rfl⟩ _ [.text,.textLen] rfl
    (.cons (.inr rfl) (.cons (.inl rfl) .nil))

theorem strtoul_right_iff_sections :
    testMckStrtoul (some (decimal (2^64))) 5 = 5 ∧ testMckStrtoul (some "text".toList) 5 = 5 ∧ Stores sections := by
  refine ⟨?_,?_,?_⟩
  · exact ((strtoul_right_iff 0 5 _ sections sections_ordered).2.2.1 _ (numberOf_decimal _)
      (by decide)).mpr (by decide)
  · exact (strtoul_right_iff 0 5 "text".toList sections sections_ordered).2.1 rfl
  · refine (strtoul_right_iff 0 5 [] sections sections_ordered).2.2.2.mpr ?_
    rintro field v ⟨found,scanned,gives⟩
    obtain rfl := Option.some.inj (sections_options.symm.trans scanned)
    have small (text : Arg) (same : given field [('t',some (hex 0x400000)),('T',some (decimal 0x10000))] =
        some (some text)) : ∀ n, numberOf text = some n → n < 2^63 := by
      intro n number
      cases field with
      | text =>
        obtain rfl := Option.some.inj (Option.some.inj same)
        rw [← Option.some.inj ((numberOf_hex _).symm.trans number)]
        decide
      | textLen =>
        obtain rfl := Option.some.inj (Option.some.inj same)
        rw [← Option.some.inj ((numberOf_decimal _).symm.trans number)]
        decide
      | _ => contradiction
    rcases gives with text | text
    · exact Int.ofNat_lt.mp (small _ text _ (numberOf_decimal _))
    · exact Int.ofNat_lt.mp (small _ text _ (numberOf_hex _))

/-- The start of the Tofu mapping becomes the default, and -1 does not. -/
theorem strtoul_not_right :
    testMckStrtoul (some (hex 0xFFFFF80100020000)) 0 ≠ 0xFFFFF80100020000 ∧
    testMckStrtoul (some (decimal 0x8000000000000000)) 0 ≠ 0x8000000000000000 ∧
    testMckStrtoul (some "-1".toList) 0 ≠ 0 := by
  decide

theorem check_none_iff (test : Prop) [Decidable test] (message : String) (rest : Option String) :
    (if test then some message else rest) = none ↔ ¬ test ∧ rest = none := by
  by_cases fails : test
  · simp [fails]
  · simp [fails]

theorem verifySectionArgument_none_iff (args : MremapArgs) :
    verifySectionArgument args = none ↔ ∀ field, args.get field ≠ 0 := by
  simp only [verifySectionArgument,check_none_iff,and_true]
  constructor
  · rintro ⟨text,textLen,data,dataLen,bss,bssLen⟩ field
    cases field <;> assumption
  · intro nonzero
    exact ⟨nonzero .text,nonzero .textLen,nonzero .data,nonzero .dataLen,nonzero .bss,nonzero .bssLen⟩

/-- A section at a high address is refused as if it had not been given. -/
theorem high_section_refused (s : State) (args : MremapArgs) (parsed : parseArgument s = some args)
    (field : Field) (v : Word) (gives : Gives s field v) (high : 2^63 ≤ v.toNat) :
    verifySectionArgument args ≠ none := by
  intro passed
  obtain ⟨text,number,got⟩ := parseArgument_get s args parsed field v gives
  rw [testMckStrtoul_some text _ 0 number,if_neg (by omega)] at got
  exact (verifySectionArgument_none_iff args).mp passed field got

end Ostest.TestMck.MremapArgument
