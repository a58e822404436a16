import Ostest.Lib.Calls

/-! Test gettimeofday/000: it sets the clock, reads it, and sets it back, for
every result of the calls. The fields of a time are unbounded here. -/
namespace Ostest.TestMck.Gettimeofday
open Lib.Calls

abbrev Msg := Option String

structure Timeval where
  sec : Int
  usec : Int
  deriving DecidableEq

def Timeval.Valid (time : Timeval) : Prop := 0 ≤ time.usec ∧ time.usec < 1000000

def Timeval.micros (time : Timeval) : Int := time.sec * 1000000 + time.usec

instance (time : Timeval) : Decidable time.Valid := inferInstanceAs (Decidable (_ ∧ _))

inductive Request where
  | gettimeofday
  | settimeofday (time : Timeval)

/-- The errno after the call, and for gettimeofday the time. -/
abbrev Request.Answer : Request → Type
  | .gettimeofday => Int × Timeval
  | .settimeofday _ => Int

abbrev Code := Prog Request Request.Answer

def ask (asked : Request) : Code asked.Answer := request asked

def setTime : Timeval := ⟨6,6⟩

/-- The time that the test restores; the second `+=` is the source's own. -/
def restoreTime (before get : Timeval) : Timeval :=
  let sec := before.sec + (get.sec - setTime.sec)
  let usec := before.usec + (get.usec - setTime.usec)
  if 1000000 ≤ usec then ⟨sec + usec.tdiv 1000000,usec + usec.tmod 1000000⟩ else ⟨sec,usec⟩

def NotHigh (get : Timeval) : Prop := get.sec ≤ setTime.sec + 1

def NotLow (get : Timeval) : Prop :=
  get.sec > setTime.sec ∨ (get.sec = setTime.sec ∧ get.usec > setTime.usec)

instance (get : Timeval) : Decidable (NotHigh get) := inferInstanceAs (Decidable (_ ≤ _))
instance (get : Timeval) : Decidable (NotLow get) := inferInstanceAs (Decidable (_ ∨ _))

def runFunc : Code Msg := do
  let (errno,before) ← ask .gettimeofday
  if errno ≠ 0 then return some "gettimeofday error. 1"
  if (← ask (.settimeofday setTime)) ≠ 0 then return some "settimeofday error. 1"
  let (errno,get) ← ask .gettimeofday
  if errno ≠ 0 then return some "gettimeofday error. 2"
  if ¬NotHigh get then return some "gotten timeval is too high."
  if ¬NotLow get then return some "gotten timecal is too low"
  if (← ask (.settimeofday (restoreTime before get))) ≠ 0 then return some "settimeofday error. 2"
  return none

abbrev Trace := List (Event Request.Answer)

def Passes (get : Timeval) : Prop := NotHigh get ∧ NotLow get

theorem runs_after_set (errno : Int) (before : Timeval) (rest : Trace) (msg : Msg)
    (runs : Runs runFunc (⟨.gettimeofday,(errno,before)⟩ :: ⟨.settimeofday setTime,(0 : Int)⟩ :: rest) msg) :
    ∃ errno' get later, rest = ⟨.gettimeofday,(errno',get)⟩ :: later ∧
      ((later = [] ∧ ¬(errno' = 0 ∧ Passes get)) ∨
        ((errno' = 0 ∧ Passes get) ∧
          ∃ last : Int, later = [⟨.settimeofday (restoreTime before get),last⟩])) := by
  have afterGet := (runs_request_cons _ _ _ _ _).mp runs
  rcases runs_check _ _ _ _ _ afterGet with ⟨_,ended,_⟩ | ⟨_,got⟩
  · contradiction
  have afterSet := (runs_request_cons _ _ _ _ _).mp got
  rcases runs_check _ _ _ _ _ afterSet with ⟨failed,_⟩ | ⟨_,set⟩
  · contradiction
  obtain ⟨⟨errno',get⟩,later,rfl,afterSecond⟩ := (runs_request_bind _ _ _ _).mp set
  refine ⟨errno',get,later,rfl,?_⟩
  rcases runs_check _ _ _ _ _ afterSecond with ⟨failed,ended,_⟩ | ⟨succeeded,gotSecond⟩
  · exact .inl ⟨ended,fun passes => failed passes.1⟩
  rcases runs_check _ _ _ _ _ gotSecond with ⟨high,ended,_⟩ | ⟨notHigh,checkedHigh⟩
  · exact .inl ⟨ended,fun passes => high passes.2.1⟩
  rcases runs_check _ _ _ _ _ checkedHigh with ⟨low,ended,_⟩ | ⟨notLow,checkedLow⟩
  · exact .inl ⟨ended,fun passes => low passes.2.2⟩
  obtain ⟨last,none,rfl,afterRestore⟩ := (runs_request_bind _ _ _ _).mp checkedLow
  have ended : none = [] := by
    rcases runs_check _ _ _ _ _ afterRestore with ⟨_,ended,_⟩ | ⟨_,restored⟩
    · exact ended
    · exact ((runs_pure _ _ _).mp restored).1
  refine .inr ⟨⟨not_not.mp succeeded,not_not.mp notHigh,not_not.mp notLow⟩,last,?_⟩
  rw [ended]

/-- The clock is put back by a time that is normalised and later than `before`
by what has passed since the clock was set. -/
def PutsBack (before get time : Timeval) : Prop :=
  time.Valid ∧ time.micros = before.micros + (get.micros - setTime.micros)

instance (before get time : Timeval) : Decidable (PutsBack before get time) :=
  inferInstanceAs (Decidable (_ ∧ _))

theorem restoreTime_right_iff (before get : Timeval) (validBefore : before.Valid) (validGet : get.Valid) :
    PutsBack before get (restoreTime before get) ↔
      0 ≤ before.usec + get.usec - 6 ∧ before.usec + get.usec - 6 < 1000000 := by
  obtain ⟨lowBefore,highBefore⟩ := validBefore
  obtain ⟨lowGet,highGet⟩ := validGet
  unfold PutsBack restoreTime setTime
  dsimp only
  split
  · rename_i carry
    have rest : 0 ≤ (before.usec + (get.usec - 6)).tmod 1000000 := Int.tmod_nonneg _ (by omega)
    simp only [Timeval.Valid]
    omega
  · simp only [Timeval.Valid,Timeval.micros]
    omega

/-- After the first settimeofday has succeeded the clock is put back exactly when
it could be read, passed the two assertions, and the microseconds neither borrow
from the seconds nor carry into them. -/
theorem restore_issued_iff (errno : Int) (before : Timeval) (rest : Trace) (msg : Msg)
    (validBefore : before.Valid)
    (validGet : ∀ get later, rest = ⟨.gettimeofday,((0 : Int),get)⟩ :: later → get.Valid)
    (runs : Runs runFunc (⟨.gettimeofday,(errno,before)⟩ :: ⟨.settimeofday setTime,(0 : Int)⟩ :: rest) msg) :
    (∃ (get time : Timeval) (last : Int), ⟨.gettimeofday,((0 : Int),get)⟩ ∈ rest ∧
        ⟨.settimeofday time,last⟩ ∈ rest ∧ PutsBack before get time) ↔
      ∃ get later, rest = ⟨.gettimeofday,((0 : Int),get)⟩ :: later ∧ Passes get ∧
        0 ≤ before.usec + get.usec - 6 ∧ before.usec + get.usec - 6 < 1000000 := by
  obtain ⟨errno',get,later,rfl,⟨rfl,failed⟩ | ⟨⟨rfl,passes⟩,last,rfl⟩⟩ :=
    runs_after_set errno before rest msg runs
  · constructor
    · rintro ⟨_,time,last,_,member,_⟩
      rcases List.mem_singleton.mp member with ⟨⟩
    · rintro ⟨get',later,same,passes,_⟩
      cases same
      exact absurd ⟨rfl,passes⟩ failed
  · have right := restoreTime_right_iff before get validBefore (validGet get _ rfl)
    constructor
    · rintro ⟨get',time,last',first,second,back⟩
      -- the record holds one reading and one setting, so these are the two
      simp only [List.mem_cons,List.not_mem_nil,or_false] at first second
      obtain ⟨⟨⟩⟩ | ⟨⟨⟩⟩ := first
      obtain ⟨⟨⟩⟩ | ⟨⟨⟩⟩ := second
      exact ⟨get,_,rfl,passes,right.mp back⟩
    · rintro ⟨get',_,same,_,inRange⟩
      cases same
      exact ⟨get,restoreTime before get,last,by simp,by simp,right.mpr inRange⟩

theorem restore_issued_iff_passing :
    PutsBack ⟨0,0⟩ ⟨6,7⟩ ⟨0,1⟩ ∧
    ((∃ (get time : Timeval) (last : Int),
        ⟨.gettimeofday,((0 : Int),get)⟩ ∈
          ([⟨.gettimeofday,((0 : Int),⟨6,7⟩)⟩,⟨.settimeofday ⟨0,1⟩,(0 : Int)⟩] : Trace) ∧
        ⟨.settimeofday time,last⟩ ∈
          ([⟨.gettimeofday,((0 : Int),⟨6,7⟩)⟩,⟨.settimeofday ⟨0,1⟩,(0 : Int)⟩] : Trace) ∧
        PutsBack ⟨0,0⟩ get time) ↔
      ∃ get later, ([⟨.gettimeofday,((0 : Int),⟨6,7⟩)⟩,⟨.settimeofday ⟨0,1⟩,(0 : Int)⟩] : Trace) =
        ⟨.gettimeofday,((0 : Int),get)⟩ :: later ∧ Passes get ∧
          (0 : Int) ≤ 0 + get.usec - 6 ∧ (0 : Int) + get.usec - 6 < 1000000) := by
  refine ⟨by decide,restore_issued_iff 0 ⟨0,0⟩ _ none (by decide) ?_ ?_⟩
  · rintro get later ⟨⟩
    decide
  · exact .call _ _ _ _ _ (.call _ _ _ _ _ (.call _ _ _ _ _ (.call _ _ _ _ _ (.ret _))))

/-- The clock jumps to 8 seconds: the test ends, and the clock stays there. -/
theorem clock_left_set :
    ∃ rest msg, Runs runFunc
        (⟨.gettimeofday,((0 : Int),⟨100,0⟩)⟩ :: ⟨.settimeofday setTime,(0 : Int)⟩ :: rest) msg ∧
      msg = some "gotten timeval is too high." ∧
      ¬∃ (time : Timeval) (last : Int), ⟨.settimeofday time,last⟩ ∈ rest := by
  refine ⟨[⟨.gettimeofday,((0 : Int),⟨8,0⟩)⟩],_,?_,rfl,?_⟩
  · exact .call _ _ _ _ _ (.call _ _ _ _ _ (.call _ _ _ _ _ (.ret _)))
  · rintro ⟨time,last,member⟩
    rcases List.mem_singleton.mp member with ⟨⟩

/-- The time restored is normalised and right exactly when the microseconds
neither have to borrow from the seconds nor carry into them. -/
theorem restored_right_iff (before get restored : Timeval) (validBefore : before.Valid)
    (validGet : get.Valid) (last : Int) (msg : Msg)
    (runs : Runs runFunc [⟨.gettimeofday,((0 : Int),before)⟩,⟨.settimeofday setTime,(0 : Int)⟩,
      ⟨.gettimeofday,((0 : Int),get)⟩,⟨.settimeofday restored,last⟩] msg) :
    restored.Valid ∧ restored.micros = before.micros + (get.micros - setTime.micros) ↔
      0 ≤ before.usec + get.usec - 6 ∧ before.usec + get.usec - 6 < 1000000 := by
  obtain ⟨errno,get',later,same,⟨rfl,_⟩ | ⟨_,last',rfl⟩⟩ := runs_after_set 0 before _ msg runs
  · simp at same
  · cases same
    exact restoreTime_right_iff before get validBefore validGet

theorem restored_right_iff_plain :
    (⟨0,1⟩ : Timeval).Valid ∧
        (⟨0,1⟩ : Timeval).micros =
          (⟨0,0⟩ : Timeval).micros + ((⟨6,7⟩ : Timeval).micros - setTime.micros) ↔
      (0 : Int) ≤ 0 + 7 - 6 ∧ (0 : Int) + 7 - 6 < 1000000 :=
  restored_right_iff ⟨0,0⟩ ⟨6,7⟩ ⟨0,1⟩ (by decide) (by decide) 0 none
    (.call _ _ _ _ _ (.call _ _ _ _ _ (.call _ _ _ _ _ (.call _ _ _ _ _ (.ret _)))))

/-- A carry is added instead of being taken off, and a borrow is left negative. -/
theorem restored_wrong :
    (Runs runFunc [⟨.gettimeofday,((0 : Int),⟨100,999999⟩)⟩,⟨.settimeofday setTime,(0 : Int)⟩,
        ⟨.gettimeofday,((0 : Int),⟨6,8⟩)⟩,⟨.settimeofday ⟨101,1000002⟩,(0 : Int)⟩] none ∧
      ¬(⟨101,1000002⟩ : Timeval).Valid) ∧
    Runs runFunc [⟨.gettimeofday,((0 : Int),⟨100,0⟩)⟩,⟨.settimeofday setTime,(0 : Int)⟩,
        ⟨.gettimeofday,((0 : Int),⟨7,0⟩)⟩,⟨.settimeofday ⟨101,-6⟩,(0 : Int)⟩] none ∧
      ¬(⟨101,-6⟩ : Timeval).Valid := by
  refine ⟨⟨?_,by decide⟩,?_,by decide⟩
  · exact .call _ _ _ _ _ (.call _ _ _ _ _ (.call _ _ _ _ _ (.call _ _ _ _ _ (.ret _))))
  · exact .call _ _ _ _ _ (.call _ _ _ _ _ (.call _ _ _ _ _ (.call _ _ _ _ _ (.ret _))))

end Ostest.TestMck.Gettimeofday
