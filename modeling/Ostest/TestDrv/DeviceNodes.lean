import Ostest.Lib.Echo
import Ostest.TestDrv.Setup

/-! The text of the devno buffer, and how insmod_test_drv.sh reads it back and
makes the device nodes. Both proc files are read whole. -/
namespace Ostest.TestDrv
open Lib.Decimal Lib.Memory Lib.Words Lib.Echo

/-- test_mck_tp_names: the names with a blank behind each. -/
def testMckTpNames (names : List (List Char)) : List Char := names.flatMap (· ++ [' '])

/-- `sed 's/:[0-9]*//g'`; `inside` is set behind a colon. -/
def sedDropMinor (inside : Bool) : List Char → List Char
  | [] => []
  | c :: rest =>
    if c = ':' then sedDropMinor true rest
    else if inside && c.isDigit then sedDropMinor true rest
    else c :: sedDropMinor false rest

/-- `sed 's/[0-9]*://g'`; `digits` may still be followed by a colon. -/
def sedDropMajor (digits : List Char) : List Char → List Char
  | [] => digits
  | c :: rest =>
    if c = ':' then sedDropMajor [] rest
    else if c.isDigit then sedDropMajor (digits ++ [c]) rest
    else digits ++ c :: sedDropMajor [] rest

structure Node where
  name : List Char
  major : Nat
  minor : Nat
  deriving DecidableEq

section
variable (glob : List Char → List (List Char))

/-- `echo $text`; only its first line is looked at. -/
def echoLine (text : List Char) : List Char := (echo (expand glob text)).takeWhile (· != '\n')

/-- mknod makes no node of a number that it cannot read. -/
def createNode (devnos names : List Char) (i : Nat) : Option Node := do
  let maj := sedDropMinor false (cutOn ' ' i (echoLine glob devnos))
  let min := sedDropMajor [] (cutOn ' ' i (echoLine glob devnos))
  let devname := if (words (echoLine glob names)).length < i then "test_mck".toList ++ min
    else cutOn ' ' i (echoLine glob names)
  return ⟨devname,← cNumeral maj,← cNumeral min⟩

/-- The loop of insmod_test_drv.sh that creates the device files. -/
def createDeviceFiles (devnos names : List Char) : List Node :=
  (List.range' 1 (words (echoLine glob devnos)).length).filterMap (createNode glob devnos names)

end

/-! Reading. -/

def devnoWord (major minor : Nat) : List Char := decimal major ++ ':' :: decimal minor

theorem digit_not_colon (c : Char) (digit : c.isDigit = true) : c ≠ ':' := by
  rintro rfl
  contradiction

theorem devnoWord_isWord (major minor : Nat) : IsWord (devnoWord major minor) :=
  (decimal_isWord major).join _ _ (decimal_isWord minor) ':' rfl

theorem devnoWord_plain (major minor : Nat) : isOption (devnoWord major minor) = false := by
  apply not_isOption
  rw [devnoWord,List.head?_append_of_ne_nil _ (decimal_ne_nil major)]
  intro head
  have digit := decimal_digits major '-' (List.mem_of_mem_head? head)
  contradiction

theorem sedDropMinor_digits (digits rest : List Char) (inside : Bool)
    (all : ∀ c ∈ digits, c.isDigit = true) :
    sedDropMinor inside (digits ++ rest) =
      if inside then sedDropMinor true rest else digits ++ sedDropMinor (inside) rest := by
  induction digits with
  | nil => cases inside <;> rfl
  | cons c digits ih =>
    have digit := all c (by simp)
    have colon := digit_not_colon c digit
    have tail := ih (fun d member => all d (List.mem_cons_of_mem _ member))
    cases inside <;> simp_all [sedDropMinor]

theorem sedDropMinor_devnoWord (major minor : Nat) :
    sedDropMinor false (devnoWord major minor) = decimal major := by
  have last := sedDropMinor_digits (decimal minor) [] true (decimal_digits minor)
  rw [devnoWord,sedDropMinor_digits _ _ _ (decimal_digits major)]
  simp_all [sedDropMinor]

theorem sedDropMajor_digits (pending digits rest : List Char)
    (all : ∀ c ∈ digits, c.isDigit = true) :
    sedDropMajor pending (digits ++ rest) = sedDropMajor (pending ++ digits) rest := by
  induction digits generalizing pending with
  | nil => simp
  | cons c digits ih =>
    have digit := all c (by simp)
    have colon := digit_not_colon c digit
    rw [List.cons_append,sedDropMajor,if_neg colon,if_pos digit,
      ih _ (fun d member => all d (List.mem_cons_of_mem _ member))]
    simp

theorem sedDropMajor_devnoWord (major minor : Nat) :
    sedDropMajor [] (devnoWord major minor) = decimal minor := by
  have last := sedDropMajor_digits [] (decimal minor) [] (decimal_digits minor)
  rw [devnoWord,sedDropMajor_digits _ _ _ (decimal_digits major)]
  simp_all [sedDropMajor]

theorem devnoWord_literal (major minor : Nat) : (devnoWord major minor).any isPattern = false := by
  rw [devnoWord,List.any_append,List.any_cons,digits_plain _ (decimal_digits major),
    digits_plain _ (decimal_digits minor)]
  rfl

section
variable (glob : List Char → List (List Char))

theorem echoLine_words (text : List Char) (list : List (List Char)) (split : words text = list)
    (all : ∀ word ∈ list, IsWord word) (plain : ∀ first ∈ list.head?, isOption first = false)
    (literal : ∀ word ∈ list, word.any isPattern = false) : echoLine glob text = unwords list := by
  have oneLine : ∀ c ∈ unwords list, (c != '\n') = true :=
    fun c member => by simpa using ne_of_mem_of_not_mem member (newline_unwords list all)
  rw [echoLine,expand_plain glob text (by rwa [split]),split,echo_plain list plain,
    List.takeWhile_append_of_pos oneLine]
  simp

theorem createDeviceFiles_words (devnos tpNames : List Char) (major : Nat) (names : List (List Char))
    (devnoWords : words devnos = (List.range names.length).map (devnoWord major))
    (nameWords : words tpNames = names) (all : ∀ name ∈ names, IsWord name)
    (plain : ∀ first ∈ names.head?, isOption first = false)
    (literal : ∀ name ∈ names, name.any isPattern = false) :
    createDeviceFiles glob devnos tpNames = names.mapIdx (fun i name => ⟨name,major,i⟩) := by
  have devnosAll : ∀ word ∈ (List.range names.length).map (devnoWord major), IsWord word := by
    intro word member
    obtain ⟨i,_,rfl⟩ := List.mem_map.mp member
    exact devnoWord_isWord major i
  have devnosPlain : ∀ first ∈ ((List.range names.length).map (devnoWord major)).head?,
      isOption first = false := by
    intro first member
    obtain ⟨i,_,rfl⟩ := List.mem_map.mp (List.mem_of_mem_head? member)
    exact devnoWord_plain major i
  have devnosLiteral : ∀ word ∈ (List.range names.length).map (devnoWord major),
      word.any isPattern = false := by
    intro word member
    obtain ⟨i,_,rfl⟩ := List.mem_map.mp member
    exact devnoWord_literal major i
  have devnoLine := echoLine_words glob devnos _ devnoWords devnosAll devnosPlain devnosLiteral
  have nameLine := echoLine_words glob tpNames _ nameWords all plain literal
  have node (i : Nat) (bound : i < names.length) :
      createNode glob devnos tpNames (i+1) = some ⟨names[i],major,i⟩ := by
    have devno := cutOn_unwords _ devnosAll i (by simpa using bound)
    simp only [List.getElem_map,List.getElem_range] at devno
    simp [createNode,devnoLine,nameLine,devno,words_unwords _ all,cutOn_unwords _ all i bound,
      Nat.not_lt.mpr bound,sedDropMinor_devnoWord,sedDropMajor_devnoWord,cNumeral_decimal]
  have count : (words (echoLine glob devnos)).length = names.length := by
    rw [devnoLine,words_unwords _ devnosAll,List.length_map,List.length_range]
  have nodes : createDeviceFiles glob devnos tpNames =
      (List.range names.length).map (fun i => ⟨names.getD i [],major,i⟩) := by
    rw [createDeviceFiles,count,List.range'_eq_map_range,List.filterMap_map,← List.filterMap_eq_map]
    apply List.filterMap_congr
    intro i member
    have bound := List.mem_range.mp member
    rw [Function.comp_apply,Nat.add_comm 1 i,node i bound]
    simp [bound]
  rw [nodes]
  apply List.ext_getElem
  · simp
  · intro i left right
    have bound : i < names.length := by simpa using right
    simp [bound]

end

/-! Writing. -/

theorem majminEntry_length (major minor : Nat) (majorBound : major ≤ 999) (minorBound : minor ≤ 999) :
    (majminEntry major minor).length = 8 := by
  have left := decimal_length major 3 (by decide) (by omega)
  have right := decimal_length minor 3 (by decide) (by omega)
  simp only [majminEntry,padLeft,padRight,List.length_append,List.length_cons,List.length_replicate,
    List.length_nil]
  omega

theorem majminEntry_words (major minor : Nat) (rest : List Char) :
    words (majminEntry major minor ++ rest) = devnoWord major minor :: words rest := by
  have turned : List.replicate (3-(decimal minor).length) ' ' ++ [' '] =
      ' ' :: List.replicate (3-(decimal minor).length) ' ' := by
    rw [← List.replicate_succ',List.replicate_succ]
  have split : majminEntry major minor ++ rest = List.replicate (3-(decimal major).length) ' ' ++
      (devnoWord major minor ++ ' ' :: (List.replicate (3-(decimal minor).length) ' ' ++ rest)) := by
    rw [← List.cons_append,← turned]
    simp [majminEntry,padLeft,padRight,devnoWord]
  rw [split,words_blanks,words_append _ _ _ (devnoWord_isWord major minor) rfl,words_blanks]

theorem majminEntry_printable (major minor : Nat) (c : Char) (member : c ∈ majminEntry major minor) :
    (c != '\x00') = true := by
  have digit (d : Char) (isDigit : d.isDigit = true) : (d != '\x00') = true := by
    by_contra same
    obtain rfl : d = '\x00' := by simpa using same
    contradiction
  simp only [majminEntry,padLeft,padRight,List.mem_append,List.mem_cons,List.mem_replicate,
    List.not_mem_nil,or_false] at member
  rcases member with ((⟨_,rfl⟩ | left) | rfl | right | ⟨_,rfl⟩) | rfl
  · rfl
  · exact digit c (decimal_digits major c left)
  · rfl
  · exact digit c (decimal_digits minor c right)
  · rfl
  · rfl

/-- The devno buffer with `count` whole entries, and nothing written at its last
byte or behind it. -/
structure Printed (nrDevs : Nat) (behind : Nat → Char) (major count : Nat) (s : Setup) : Prop where
  few : nrDevs ≤ 1000
  small : major ≤ 999
  sameMajor : s.driver.major = major
  cursor : s.majmin = 8*count
  entries : load s.driver.majmin 0 (8*count) = (List.range count).flatMap (majminEntry major)
  last : s.driver.majmin (nrDevs*8) = '\x00'
  frame : ∀ address, nrDevs*8+1 ≤ address → s.driver.majmin address = behind address

theorem setUp_majmin (k : Kernel) (nrDevs : Nat) (s : Setup) (i : Nat) :
    (setUp k nrDevs s i).driver.majmin = snprintf s.driver.majmin s.majmin
      (sizeT ((nrDevs*8+1 : Nat) - (s.majmin : Nat) - 1)) (majminEntry s.driver.major i) ∧
    (setUp k nrDevs s i).majmin = s.majmin + (majminEntry s.driver.major i).length := by
  cases created : k.deviceCreate i <;> cases allocated : (k.init i).toOption.getD false <;>
    simp [setUp,printMajmin,initDev,createDevice,addCdev,createClass,Driver.record,Driver.setDev,
      created,allocated]

section
variable {nrDevs major count : Nat} {behind : Nat → Char} {s : Setup}
variable (printed : Printed nrDevs behind major count s) (k : Kernel) (bound : count < nrDevs)
include printed bound

theorem Printed.setUp_writes : (setUp k nrDevs s count).driver.majmin =
    snprintf s.driver.majmin (8*count) (8*(nrDevs-count)) (majminEntry major count) := by
  have size : sizeT ((nrDevs*8+1 : Nat) - (8*count : Nat) - 1) = 8*(nrDevs-count) := by
    have few := printed.few
    unfold sizeT
    omega
  rw [(setUp_majmin k nrDevs s count).1,printed.sameMajor,printed.cursor,size]

theorem Printed.setUp_above (address : Nat) (above : nrDevs*8 ≤ address) :
    (setUp k nrDevs s count).driver.majmin address = s.driver.majmin address := by
  rw [printed.setUp_writes k bound]
  exact snprintf_above _ _ _ _ _ (by omega)

theorem Printed.setUp_frame (address : Nat) (above : nrDevs*8+1 ≤ address) :
    (setUp k nrDevs s count).driver.majmin address = behind address := by
  rw [printed.setUp_above k bound address (by omega),printed.frame address above]

theorem Printed.entry_length : (majminEntry major count).length = 8 := by
  have few := printed.few
  exact majminEntry_length major count printed.small (by omega)

theorem Printed.setUp_load :
    load (setUp k nrDevs s count).driver.majmin 0
      (8*count+(((majminEntry major count).take (8*(nrDevs-count)-1)).length+1)) =
    (List.range count).flatMap (majminEntry major) ++
      ((majminEntry major count).take (8*(nrDevs-count)-1) ++ ['\x00']) := by
  have before : load (setUp k nrDevs s count).driver.majmin 0 (8*count) =
      (List.range count).flatMap (majminEntry major) := by
    rw [printed.setUp_writes k bound,← printed.entries]
    apply load_congr
    intro offset inside
    exact snprintf_below _ _ _ _ _ (by omega)
  rw [load_add,before,Nat.zero_add,printed.setUp_writes k bound,load_snprintf _ _ _ _ (by omega)]

end

theorem Printed.setUp_next {nrDevs major count : Nat} {behind : Nat → Char} {s : Setup}
    (printed : Printed nrDevs behind major count s) (k : Kernel) (bound : count+1 < nrDevs) :
    Printed nrDevs behind major (count+1) (setUp k nrDevs s count) := by
  have inside : count < nrDevs := by omega
  have length := printed.entry_length inside
  refine ⟨printed.few,printed.small,?_,?_,?_,?_,printed.setUp_frame k inside⟩
  · rw [(TestDrv.setUp_frame k nrDevs s count).1,printed.sameMajor]
  · rw [(setUp_majmin k nrDevs s count).2,printed.sameMajor,printed.cursor,length]
    omega
  · have whole : (majminEntry major count).take (8*(nrDevs-count)-1) = majminEntry major count :=
      List.take_of_length_le (by omega)
    have stored := printed.setUp_load k inside
    rw [whole,length,← Nat.add_assoc,load_add,← List.append_assoc] at stored
    have entries := List.append_inj_left' stored (by simp [load])
    rw [show 8*(count+1) = 8*count+8 by omega,entries,List.range_succ,List.flatMap_append]
    simp
  · rw [printed.setUp_above k inside _ (by omega),printed.last]

theorem setUps_printed (k : Kernel) (nrDevs major : Nat) (behind : Nat → Char)
    (few : nrDevs ≤ 1000) (small : major ≤ 999) (count : Nat) (bound : count < nrDevs) :
    Printed nrDevs behind major count
      ((List.range count).foldl (setUp k nrDevs) (started nrDevs behind major)) := by
  induction count with
  | zero =>
    refine ⟨few,small,rfl,rfl,rfl,?_,?_⟩
    · simp [started,Driver.record,loaded]
    · intro address above
      simp only [List.range_zero,List.foldl_nil,started,Driver.record,loaded]
      rw [if_neg (by omega)]
  | succ count ih =>
    rw [List.range_succ,List.foldl_append]
    exact (ih (by omega)).setUp_next k bound

/-- The last entry loses its trailing blank to the NUL. -/
theorem Printed.text {nrDevs major count : Nat} {behind : Nat → Char} {s : Setup}
    (printed : Printed nrDevs behind major count s) (k : Kernel) (final : count+1 = nrDevs) :
    cString (setUp k nrDevs s count).driver.majmin 0 (nrDevs*8+1) =
      (List.range count).flatMap (majminEntry major) ++ (majminEntry major count).take 7 := by
  have inside : count < nrDevs := by omega
  have stored := printed.setUp_load k inside
  have length := printed.entry_length inside
  have seven : 8*(nrDevs-count)-1 = 7 := by omega
  rw [seven,List.length_take,length,← List.append_assoc] at stored
  have printable : ∀ c ∈ (List.range count).flatMap (majminEntry major) ++
      (majminEntry major count).take 7, (c != '\x00') = true := by
    intro c member
    rcases List.mem_append.mp member with earlier | last
    · obtain ⟨i,_,inside⟩ := List.mem_flatMap.mp earlier
      exact majminEntry_printable major i c inside
    · exact majminEntry_printable major count c (List.mem_of_mem_take last)
  rw [cString,show nrDevs*8+1 = 8*count+(min 7 8+1)+1 by omega,load_add,stored,List.append_assoc,
    List.takeWhile_append_of_pos printable]
  simp

theorem Printed.text_words {nrDevs major count : Nat} {behind : Nat → Char} {s : Setup}
    (printed : Printed nrDevs behind major count s) (k : Kernel) (final : count+1 = nrDevs) :
    words (cString (setUp k nrDevs s count).driver.majmin 0 (nrDevs*8+1)) =
      (List.range nrDevs).map (devnoWord major) := by
  have entries (n : Nat) (rest : List Char) :
      words ((List.range n).flatMap (majminEntry major) ++ rest) =
        (List.range n).map (devnoWord major) ++ words rest := by
    induction n generalizing rest with
    | zero => rfl
    | succ n ih =>
      rw [List.range_succ,List.flatMap_append,List.append_assoc,ih,List.flatMap_singleton,
        majminEntry_words]
      simp
  have cut : (majminEntry major count).take 7 ++ [' '] = majminEntry major count := by
    have length := printed.entry_length (by omega)
    unfold majminEntry at length ⊢
    rw [List.length_append,List.length_singleton] at length
    rw [List.take_left' (by omega)]
  have last : words ((majminEntry major count).take 7) = [devnoWord major count] := by
    have whole := majminEntry_words major count []
    rw [← cut,List.append_nil,words_join _ _ _ rfl,words_nil,List.append_nil] at whole
    exact whole
  rw [printed.text k final,entries,last,← final,List.range_succ,List.map_append]
  rfl

/-- insmod_test_drv.sh makes the nodes of the device list, and setup stays within
the devno buffer. -/
theorem device_nodes (k : Kernel) (names : List (List Char)) (behind : Nat → Char) (major : Nat)
    (nonempty : 1 ≤ names.length) (few : names.length ≤ 1000) (small : major ≤ 999)
    (all : ∀ name ∈ names, IsWord name) (plain : ∀ first ∈ names.head?, isOption first = false)
    (literal : ∀ name ∈ names, name.any isPattern = false) (glob : List Char → List (List Char))
    (region : k.allocChrdevRegion = .ok major)
    (works : ¬(EarlyFails k names.length ∨ EntFails k)) :
    let after := testMckInit k names.length (loaded names.length behind)
    after.1 = 0 ∧
      (∀ address, names.length*8+1 ≤ address → after.2.majmin address = behind address) ∧
      createDeviceFiles glob (cString after.2.majmin 0 (names.length*8+1)) (testMckTpNames names) =
        names.mapIdx (fun i name => ⟨name,major,i⟩) := by
  obtain ⟨early,late⟩ := not_or.mp works
  obtain ⟨same,answer,body⟩ := setupBody_late k names.length behind early
  obtain rfl : major = same := Except.ok.inj (region.symm.trans answer)
  have directory : k.procMkdir = true := by
    simp only [EarlyFails,not_or] at early
    simpa using early.2.2
  have ready := setUps_ready k names.length names.length _ (started_ready k names.length behind major)
  obtain ⟨t,_,text,⟨ended,_⟩ | ⟨_,_,failed⟩⟩ :=
    testMckInitProcfs_ends k names.length _ ready directory
  · obtain ⟨count,final⟩ : ∃ count, count+1 = names.length := ⟨names.length-1,by omega⟩
    have printed := setUps_printed k names.length major behind few small count (by omega)
    have buffer : t.driver.majmin = (setUp k names.length ((List.range count).foldl
        (setUp k names.length) (started names.length behind major)) count).driver.majmin := by
      have range : List.range names.length = List.range count ++ [count] := by
        rw [← final,List.range_succ]
      rw [text,range,List.foldl_append]
      rfl
    simp only [testMckInit,testMckSetup,body,ended,buffer]
    refine ⟨trivial,printed.setUp_frame k (by omega),?_⟩
    exact createDeviceFiles_words glob _ _ major names (printed.text_words k final)
      (words_flatMap names all) all plain literal
  · contradiction

def allWorks : Kernel where
  allocChrdevRegion := .ok 250
  classCreate _ := true
  cdevAdd _ := none
  deviceCreate _ := true
  init _ := .ok true
  procMkdir := true
  procCreateData _ := true

theorem suite_nodes :
    let after := testMckInit allWorks 3 (loaded 3 (fun _ => 'x'))
    after.1 = 0 ∧ (∀ address, 3*8+1 ≤ address → after.2.majmin address = 'x') ∧
      createDeviceFiles (fun _ => []) (cString after.2.majmin 0 (3*8+1))
        (testMckTpNames ["mmap_dev".toList,"mmap_dev2".toList,"writecombine".toList]) =
        [⟨"mmap_dev".toList,250,0⟩,⟨"mmap_dev2".toList,250,1⟩,⟨"writecombine".toList,250,2⟩] :=
  device_nodes allWorks ["mmap_dev".toList,"mmap_dev2".toList,"writecombine".toList] (fun _ => 'x') 250
    (by decide) (by decide) (by decide) (by decide) (by decide) (by decide) _ rfl
    (by simp [EarlyFails,EntFails,DevFails,allWorks,Except.isOk,Except.toBool])

end Ostest.TestDrv
