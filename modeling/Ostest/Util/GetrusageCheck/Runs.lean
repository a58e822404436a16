import Ostest.Util.GetrusageCheck.Scripts

/-! Which runs of tests getrusage/000 to 002 their checks accept. -/
namespace Ostest.Util.GetrusageCheck
open Lib.Decimal Lib.Grep TestMck.Getrusage

/-! Test 000. -/

theorem usages_record000 (buffered : Bool) (answers : Answers000) :
    usages (record000 buffered answers) =
      if answers.signalled then
        answers.first.toOption.toList.flatMap (fun before =>
          if answers.mapping = .mapped then
            before :: answers.second.toOption.toList.flatMap (fun during => during :: answers.third.toOption.toList)
          else if answers.mapping = .failed ∧ buffered then []
          else [before])
      else [] := by
  rcases answers with ⟨signalled,first,mapping,second,third⟩
  cases signalled with
  | false => cases buffered <;> rfl
  | true =>
    cases first with
    | error errno => cases buffered <;> rfl
    | ok before =>
      cases mapping with
      | null => cases buffered <;> rfl
      | failed => cases buffered <;> rfl
      | mapped => cases buffered <;> cases second <;> cases third <;> rfl

theorem check000_zero_iff (items : List Item) : check000 (file items) = 0 ↔
    (∀ field : Field, ∀ delta ∈ change field items 1, field.enough ≤ delta) ∧
    (∀ delta ∈ change .utime items 2, delta ≤ 1000) ∧ (∀ delta ∈ change .stime items 2, delta ≤ 1000) ∧
    change .maxrss items 2 = some 0 := by
  rw [check000,rc_zero_iff]
  simp only [utime_file,stime_file,maxrss_file,nonzero_shown,below_shown,above_shown,List.forall_mem_cons,
    List.not_mem_nil,false_implies,implies_true,and_true]
  constructor
  · rintro ⟨utime1,utime2,stime1,stime2,maxrss1,maxrss2⟩
    refine ⟨fun field => ?_,utime2,stime2,maxrss2⟩
    cases field with
    | utime => exact utime1
    | stime => exact stime1
    | maxrss => exact maxrss1
  · rintro ⟨all,utime2,stime2,maxrss2⟩
    exact ⟨all .utime,utime2,all .stime,stime2,all .maxrss,maxrss2⟩

theorem three_usages (items : List Item) (least : ∀ delta ∈ change .maxrss items 1, Field.maxrss.enough ≤ delta)
    (still : change .maxrss items 2 = some 0) : 3 ≤ (usages items).length := by
  unfold change at least still
  generalize usages items = used at least still
  rcases used with _ | ⟨before,_ | ⟨during,_ | ⟨after,rest⟩⟩⟩
  case cons.cons.cons => simp
  case cons.cons.nil =>
    -- The only change would be 0 and large.
    have large : Field.maxrss.enough ≤ 0 := least 0 still
    exact absurd large (by decide)
  all_goals exact absurd still (by simp [deltas,pick])

theorem measured000 (buffered : Bool) (answers : Answers000)
    (three : 3 ≤ (usages (record000 buffered answers)).length) :
    answers.signalled = true ∧ answers.mapping = .mapped ∧
      ∃ before during after, answers.first = .ok before ∧ answers.second = .ok during ∧ answers.third = .ok after := by
  rw [usages_record000] at three
  rcases answers with ⟨signalled,first,mapping,second,third⟩
  cases signalled with
  | false => simp at three
  | true =>
    cases first with
    | error errno => simp [Except.toOption] at three
    | ok before =>
      cases mapping with
      | null => simp [Except.toOption] at three
      | failed => cases buffered <;> simp [Except.toOption] at three
      | mapped =>
        cases second with
        | error errno => simp [Except.toOption] at three
        | ok during =>
          cases third with
          | error errno => simp [Except.toOption] at three
          | ok after => exact ⟨rfl,rfl,before,during,after,rfl,rfl,rfl⟩

theorem change_three (field : Field) {items : List Item} {before during after : Usage}
    (used : usages items = [before,during,after]) :
    change field items 1 = some (field.value during - field.value before) ∧
      change field items 2 = some (field.value after - field.value during) := by
  simp [change,used,deltas,pick]

/-- The check of test 000 rejects every run that fails on the way: with less than
three usages the two changes of maxrss are missing, or the same one. -/
theorem check000_accepts_iff (buffered : Bool) (answers : Answers000) :
    check000 (file (record000 buffered answers)) = 0 ↔
      answers.signalled = true ∧ answers.mapping = .mapped ∧
      ∃ before during after, answers.first = .ok before ∧ answers.second = .ok during ∧ answers.third = .ok after ∧
        (∀ field : Field, field.enough ≤ field.value during - field.value before) ∧
        micros after.utime - micros during.utime ≤ 1000 ∧ micros after.stime - micros during.stime ≤ 1000 ∧
        after.maxrss = during.maxrss := by
  have used (signalled : answers.signalled = true) (mapped : answers.mapping = .mapped) {before during after : Usage}
      (first : answers.first = .ok before) (second : answers.second = .ok during) (third : answers.third = .ok after) :
      usages (record000 buffered answers) = [before,during,after] := by
    rw [usages_record000,signalled,mapped,first,second,third]
    rfl
  have unmoved {during after : Usage} :
      some ((after.maxrss : Int) - during.maxrss) = some 0 ↔ after.maxrss = during.maxrss := by
    rw [Option.some.injEq]
    omega
  rw [check000_zero_iff]
  constructor
  · rintro ⟨least,utime2,stime2,maxrss2⟩
    obtain ⟨signalled,mapped,before,during,after,first,second,third⟩ :=
      measured000 buffered answers (three_usages _ (least .maxrss) maxrss2)
    have changes (field : Field) := change_three field (used signalled mapped first second third)
    refine ⟨signalled,mapped,before,during,after,first,second,third,fun field => least field _ (changes field).1,
      utime2 _ (changes .utime).2,stime2 _ (changes .stime).2,?_⟩
    rw [(changes .maxrss).2] at maxrss2
    exact unmoved.mp maxrss2
  · rintro ⟨signalled,mapped,before,during,after,first,second,third,least,utime2,stime2,maxrss2⟩
    have changes (field : Field) := change_three field (used signalled mapped first second third)
    simp only [(changes _).1,(changes _).2,Option.mem_def,Option.some.injEq,forall_eq']
    exact ⟨least,utime2,stime2,Option.some.inj (unmoved.mpr maxrss2)⟩

/-! Test 001. -/

/-- Of test 001 the record has the first usage twice if the child has had a copy of
it in its buffer, and has come to write it. -/
theorem usages_record001 (buffered : Bool) (answers : Answers001) :
    usages (record001 buffered answers) = answers.first.toOption.toList.flatMap (fun before =>
      if answers.forked then
        (if buffered ∧ answers.course ≠ .crashed then [before] else []) ++ [before] ++
          answers.second.toOption.toList
      else [before]) := by
  rcases answers with ⟨first,forked,course,second⟩
  cases first with
  | error errno => cases buffered <;> rfl
  | ok before =>
    cases forked with
    | false => cases buffered <;> rfl
    | true => cases buffered <;> cases course <;> cases second <;> rfl

theorem check001_zero_iff (items : List Item) : check001 (file items) = 0 ↔
    ∀ field : Field, change field items 1 = some 0 ∧ ∀ delta ∈ change field items 2, field.enough ≤ delta := by
  rw [check001,rc_zero_iff]
  simp only [utime_file,stime_file,maxrss_file,nonzero_shown,below_shown,List.forall_mem_cons,List.not_mem_nil,
    false_implies,implies_true,and_true]
  constructor
  · rintro ⟨utime1,utime2,stime1,stime2,maxrss1,maxrss2⟩ field
    cases field with
    | utime => exact ⟨utime1,utime2⟩
    | stime => exact ⟨stime1,stime2⟩
    | maxrss => exact ⟨maxrss1,maxrss2⟩
  · intro all
    exact ⟨(all .utime).1,(all .utime).2,(all .stime).1,(all .stime).2,(all .maxrss).1,(all .maxrss).2⟩

/-- The check of test 001 counts on the first usage being in the record twice. It
accepts a run exactly if the output goes through a buffer that the child inherits
and writes, and the children have used their two seconds and their memory. -/
theorem check001_accepts_iff (buffered : Bool) (answers : Answers001) :
    check001 (file (record001 buffered answers)) = 0 ↔
      buffered = true ∧ answers.forked = true ∧ answers.course ≠ .crashed ∧
      ∃ before after, answers.first = .ok before ∧ answers.second = .ok after ∧
        ∀ field : Field, field.enough ≤ field.value after - field.value before := by
  have positive (field : Field) : 0 < field.enough := by cases field <;> decide
  rw [check001_zero_iff]
  simp only [change,usages_record001]
  cases first : answers.first with
  | error errno => simpa [Except.toOption,deltas,pick] using ⟨Field.utime⟩
  | ok before =>
    cases forked : answers.forked with
    | false => simpa [Except.toOption,deltas,pick] using ⟨Field.utime⟩
    | true =>
      by_cases inherited : buffered = true ∧ answers.course ≠ .crashed
      · obtain ⟨rfl,alive⟩ := inherited
        cases second : answers.second with
        | error errno =>
          -- The only change is that of the copy, and cut takes it for the second as well.
          have late : ¬∀ field : Field, field.enough ≤ 0 := fun all => by have := all .utime; have := positive .utime; omega
          simpa [Except.toOption,deltas,pick,alive] using late
        | ok after => simp [Except.toOption,deltas,pick,alive]
      · refine iff_of_false (fun all => ?_) (fun accepted => inherited ⟨accepted.1,accepted.2.2.1⟩)
        obtain ⟨zero,least⟩ := all .utime
        -- The only change would be 0 and large.
        cases second : answers.second with
        | error errno => simp [Except.toOption,deltas,pick,inherited,second] at zero
        | ok after =>
          simp only [Except.toOption,deltas,pick,inherited,second,if_false,if_true,Option.toList_some,List.flatMap_cons,
            List.flatMap_nil,List.append_nil,List.nil_append,List.singleton_append,List.map_cons,List.map_nil,
            List.length_singleton,List.head?_cons,Option.some.injEq,Option.mem_def,forall_eq'] at zero least
          have := positive .utime
          omega

/-! Test 002. -/

def title : Process → String
  | .parent => "parent"
  | .child => "child"

def other : Process → Process
  | .parent => .child
  | .child => .parent

/-- The lines that open the section of a thread, and close that of the other. -/
def marks : Process → Item → Bool
  | .parent,.text .parentBefore => true
  | .parent,.text .parentAfter => true
  | .child,.text .childBefore => true
  | .child,.text .childAfter => true
  | _,_ => false

/-- A section in terms of what has been printed. -/
def partFrom (who : Process) : Bool → List Item → List Item
  | _,[] => []
  | c,item :: rest =>
    let c := if marks who item then true else c
    let c := if marks (other who) item then false else c
    (if c then [item] else []) ++ partFrom who c rest

/-- A letter of the name that numbers and times are without. -/
def letter : Process → Char
  | .parent => 'p'
  | .child => 'h'

theorem occurs_usage (who : Process) (used : Usage) : ∀ line ∈ showRusage used, occurs (title who).toList line = false := by
  have free (n : Nat) : letter who ∉ decimal n := decimal_without n _ (by cases who <;> rfl)
  have valued (name : String) (value : Line) (missing : letter who ∉ value) :
      occurs (title who).toList (fieldLine name value) = occurs (title who).toList ("  ".toList ++ name.toList) :=
    occurs_field _ _ _ (letter who) (by cases who <;> decide) (by cases who <;> decide) missing
  have timed (time : Timeval) : letter who ∉ time.text := by
    have texts : letter who ∉ "s + ".toList ∧ letter who ∉ "us".toList := by cases who <;> decide
    simp only [Timeval.text,List.mem_append,not_or]
    exact ⟨⟨⟨free _,texts.1⟩,free _⟩,texts.2⟩
  intro line member
  simp only [showRusage,List.mem_append,List.mem_cons,List.not_mem_nil,or_false,List.mem_map] at member
  rcases member with ((rfl | rfl | rfl | rfl | rfl) | ⟨c,_,rfl⟩) | rfl
  · cases who <;> decide
  · cases who <;> decide
  · rw [valued _ _ (timed _)]
    cases who <;> decide
  · rw [valued _ _ (timed _)]
    cases who <;> decide
  · rw [valued _ _ (free _)]
    cases who <;> decide
  · rw [valued _ _ (free _)]
    cases who <;> cases c <;> decide
  · cases who <;> decide

theorem occurs_item (who : Process) (item : Item) :
    ∀ line ∈ item.lines, occurs (title who).toList line = marks who item := by
  intro line member
  cases item with
  | text text =>
    rw [List.mem_singleton.mp member]
    clear member
    cases text with
    | testNumber number =>
      revert number
      cases who <;> decide
    | result message => cases message <;> cases who <;> decide
    | _ => cases who <;> decide
  | usage used =>
    rw [occurs_usage who used line member]
    cases who <;> rfl
  | failed errno =>
    have missing : letter who ∉ "getrusage() failed. (".toList ++ integer errno ++ [')'] := by
      have texts : letter who ∉ "getrusage() failed. (".toList ∧ letter who ∉ [')'] := by cases who <;> decide
      have free : letter who ∉ integer errno :=
        integer_without errno _ (by cases who <;> rfl) (by cases who <;> decide)
      simp only [List.mem_append,not_or]
      exact ⟨⟨texts.1,free⟩,texts.2⟩
    rw [List.mem_singleton.mp member,occurs_foreign _ _ (letter who) (by cases who <;> decide) missing]
    cases who <;> rfl

theorem sectionFrom_append (start stop : String) (opens closes : Bool) (list rest : List Line) (filled : list ≠ [])
    (opened : ∀ line ∈ list, occurs start.toList line = opens)
    (closed : ∀ line ∈ list, occurs stop.toList line = closes) (c : Bool) :
    sectionFrom start stop c (list ++ rest) =
      (if (!closes && (opens || c)) then list else []) ++ sectionFrom start stop (!closes && (opens || c)) rest := by
  have step (line : Line) (member : line ∈ list) (c : Bool) (rest : List Line) :
      sectionFrom start stop c (line :: rest) =
        (if (!closes && (opens || c)) then [line] else []) ++ sectionFrom start stop (!closes && (opens || c)) rest := by
    rw [sectionFrom,opened line member,closed line member]
    cases opens <;> cases closes <;> cases c <;> rfl
  induction list generalizing c with
  | nil => exact absurd rfl filled
  | cons line list ih =>
    rw [List.cons_append,step line List.mem_cons_self]
    cases list with
    | nil => rfl
    | cons next list =>
      rw [ih (List.cons_ne_nil next list) (fun line member => opened line (List.mem_cons_of_mem _ member))
        (fun line member => closed line (List.mem_cons_of_mem _ member))
        _ (fun line member => step line (List.mem_cons_of_mem _ member))]
      cases opens <;> cases closes <;> cases c <;> rfl

theorem sectionFrom_file (who : Process) (c : Bool) (items : List Item) :
    sectionFrom (title who) (title (other who)) c (file items) = file (partFrom who c items) := by
  induction items generalizing c with
  | nil => rfl
  | cons item items ih =>
    have filled : item.lines ≠ [] := by cases item <;> simp [Item.lines,showRusage]
    have rest (c : Bool) : sectionFrom (title who) (title (other who)) c (items.flatMap Item.lines) =
        file (partFrom who c items) := ih c
    rw [file,List.flatMap_cons,sectionFrom_append _ _ _ _ _ _ filled (occurs_item who item) (occurs_item (other who) item),
      rest,partFrom]
    cases marks who item <;> cases marks (other who) item <;> cases c <;> simp [file]

def part (who : Process) (items : List Item) : List Item := partFrom who false items

theorem check002_zero_iff (items : List Item) : check002 (file items) = 0 ↔
    ((∀ delta ∈ change .utime (part .parent items) 1, delta ≤ 1000) ∧
      (∀ delta ∈ change .stime (part .parent items) 1, 4000000/10*9 ≤ delta) ∧
      (∀ delta ∈ change .maxrss (part .parent items) 1, Field.maxrss.enough ≤ delta)) ∧
    ∀ field : Field, ∀ delta ∈ change field (part .child items) 1, field.enough ≤ delta := by
  have parent : getrusageSection (file items) "parent" "child" = file (part .parent items) :=
    sectionFrom_file .parent false items
  have child : getrusageSection (file items) "child" "parent" = file (part .child items) :=
    sectionFrom_file .child false items
  rw [check002,parent,child,rc_zero_iff]
  simp only [utime_file,stime_file,maxrss_file,below_shown,above_shown,List.forall_mem_cons,List.not_mem_nil,
    false_implies,implies_true,and_true]
  constructor
  · rintro ⟨utime,stime,maxrss,childUtime,childStime,childMaxrss⟩
    refine ⟨⟨utime,stime,maxrss⟩,fun field => ?_⟩
    cases field with
    | utime => exact childUtime
    | stime => exact childStime
    | maxrss => exact childMaxrss
  · rintro ⟨⟨utime,stime,maxrss⟩,all⟩
    exact ⟨utime,stime,maxrss,all .utime,all .stime,all .maxrss⟩

/-- Whether the process outlives the thread, which writes to where a failed mapping
points. -/
def survives (answers : Answers002) : Bool :=
  !(answers.childFirst.isOk && answers.signalled && answers.mapping = .failed)

theorem usages_parent (buffered : Bool) (answers : Answers002) :
    usages (part .parent (record002 buffered answers)) = answers.first.toOption.toList.flatMap (fun before =>
      if answers.created then
        if survives answers then before :: answers.second.toOption.toList
        else if buffered then [] else [before]
      else [before]) := by
  rcases answers with ⟨first,created,childFirst,signalled,mapping,childSecond,second⟩
  -- The cases are in the order of the run; what comes behind a failure is not reached.
  cases first with
  | error errno => cases buffered <;> rfl
  | ok before =>
    cases created with
    | false => cases buffered <;> rfl
    | true =>
      cases childFirst with
      | error errno => cases buffered <;> cases second <;> rfl
      | ok childBefore =>
        cases signalled with
        | false => cases buffered <;> cases second <;> rfl
        | true => cases mapping <;> cases buffered <;> cases childSecond <;> cases second <;> rfl

theorem usages_child (buffered : Bool) (answers : Answers002) :
    usages (part .child (record002 buffered answers)) = answers.first.toOption.toList.flatMap (fun _ =>
      if answers.created then
        answers.childFirst.toOption.toList.flatMap (fun before =>
          if !answers.signalled then [before]
          else if answers.mapping = .mapped then before :: answers.childSecond.toOption.toList
          else if answers.mapping = .failed ∧ buffered then [] else [before])
      else []) := by
  rcases answers with ⟨first,created,childFirst,signalled,mapping,childSecond,second⟩
  -- The cases are in the order of the run; what comes behind a failure is not reached.
  cases first with
  | error errno => cases buffered <;> rfl
  | ok before =>
    cases created with
    | false => cases buffered <;> rfl
    | true =>
      cases childFirst with
      | error errno => cases buffered <;> cases second <;> rfl
      | ok childBefore =>
        cases signalled with
        | false => cases buffered <;> cases second <;> rfl
        | true => cases mapping <;> cases buffered <;> cases childSecond <;> cases second <;> rfl

theorem change_pair (field : Field) (items : List Item) (short : (usages items).length ≤ 2) (P : Int → Prop) :
    (∀ delta ∈ change field items 1, P delta) ↔
      ∀ before after, usages items = [before,after] → P (field.value after - field.value before) := by
  unfold change
  generalize usages items = used at short
  rcases used with _ | ⟨before,_ | ⟨after,_ | ⟨more,rest⟩⟩⟩
  case cons.cons.cons => simp at short
  all_goals simp [deltas,pick]

/-- The parent comes to show its usage for the second time. -/
def ParentMeasured (answers : Answers002) (before after : Usage) : Prop :=
  answers.first = .ok before ∧ answers.created = true ∧ survives answers = true ∧ answers.second = .ok after

def ChildMeasured (answers : Answers002) (before after : Usage) : Prop :=
  answers.first.isOk = true ∧ answers.created = true ∧ answers.childFirst = .ok before ∧ answers.signalled = true ∧
    answers.mapping = .mapped ∧ answers.childSecond = .ok after

theorem parent_pair_iff (buffered : Bool) (answers : Answers002) (before after : Usage) :
    usages (part .parent (record002 buffered answers)) = [before,after] ↔ ParentMeasured answers before after := by
  rw [usages_parent,ParentMeasured]
  cases answers.first with
  | error errno => simp [Except.toOption]
  | ok first =>
    cases answers.created <;> cases survives answers <;> cases buffered <;> cases answers.second <;>
      simp [Except.toOption]

theorem child_pair_iff (buffered : Bool) (answers : Answers002) (before after : Usage) :
    usages (part .child (record002 buffered answers)) = [before,after] ↔ ChildMeasured answers before after := by
  rw [usages_child,ChildMeasured]
  cases answers.first with
  | error errno => simp [Except.toOption,Except.isOk,Except.toBool]
  | ok used =>
    cases answers.created <;> cases answers.childFirst <;> cases answers.signalled <;> cases answers.mapping <;>
      cases buffered <;> cases answers.childSecond <;> simp [Except.toOption,Except.isOk,Except.toBool]

theorem part_short (buffered : Bool) (answers : Answers002) (who : Process) :
    (usages (part who (record002 buffered answers))).length ≤ 2 := by
  cases who with
  | parent =>
    rw [usages_parent]
    cases answers.first <;> cases answers.created <;> cases survives answers <;> cases buffered <;>
      cases answers.second <;> simp [Except.toOption]
  | child =>
    rw [usages_child]
    cases answers.first <;> cases answers.created <;> cases answers.childFirst <;> cases answers.signalled <;>
      cases answers.mapping <;> cases buffered <;> cases answers.childSecond <;> simp [Except.toOption]

/-- The check of test 002 only looks at what has been measured. A run without the
second usages is accepted, be it that the first getrusage or the creation of the
thread has failed or that the process has died: the changes are empty then, and no
number for `[`. -/
theorem check002_accepts_iff (buffered : Bool) (answers : Answers002) :
    check002 (file (record002 buffered answers)) = 0 ↔
      (∀ before after, ParentMeasured answers before after →
        micros after.utime - micros before.utime ≤ 1000 ∧
        4000000/10*9 ≤ micros after.stime - micros before.stime ∧
        16384/10*9 ≤ (after.maxrss : Int) - before.maxrss) ∧
      ∀ before after, ChildMeasured answers before after →
        ∀ field : Field, field.enough ≤ field.value after - field.value before := by
  rw [check002_zero_iff]
  simp only [change_pair _ _ (part_short buffered answers _),parent_pair_iff,child_pair_iff]
  constructor
  · rintro ⟨⟨utime,stime,maxrss⟩,child⟩
    exact ⟨fun before after measured => ⟨utime before after measured,stime before after measured,
      maxrss before after measured⟩,fun before after measured field => child field before after measured⟩
  · rintro ⟨parent,child⟩
    exact ⟨⟨fun before after measured => (parent before after measured).1,
      fun before after measured => (parent before after measured).2.1,
      fun before after measured => (parent before after measured).2.2⟩,
      fun field before after measured => child before after measured field⟩

end Ostest.Util.GetrusageCheck
