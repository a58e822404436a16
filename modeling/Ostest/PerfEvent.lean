import Mathlib.Data.BitVec
import Ostest.Lib.Calls
import Ostest.Lib.Decimal

/-! common.c of cpu_pa_info: one use of the performance counters, from setting the
events to destroying them. -/
namespace Ostest.PerfEvent
open Lib.Calls Lib.Decimal

inductive Command where
  | enable
  | disable
  | destroy
  deriving DecidableEq

inductive Request where
  | setperfevent (osNum : Int) (n : BitVec 32)
  | perfctl (osNum : Int) (command : Command)
  | calloc (count : Int)
  | getperfevent (osNum : Int) (count : Int)
  | printf (text : String)
  | perror (text : String)
  | free

/-- The library answers with an int, getperfevent also with the counters it has
stored; calloc succeeds or not. -/
abbrev Request.Answer : Request → Type
  | .setperfevent _ _ => Int
  | .perfctl _ _ => Int
  | .calloc _ => Bool
  | .getperfevent _ _ => Int × (Nat → BitVec 64)
  | .printf _ => Unit
  | .perror _ => Unit
  | .free => Unit

abbrev Code := Prog Request Request.Answer

abbrev Trace := List (Event Request.Answer)

def ask (asked : Request) : Code asked.Answer := request asked

/-- `%d`. -/
def percentD (n : Int) : String := String.ofList (integer n)

def registeredLine (ret : Int) (n : BitVec 32) : String :=
  "  set event " ++ percentD ret ++ " / " ++ percentD n.toInt ++ " registered.\n"

def countLine (i : Nat) (count : BitVec 64) : String :=
  "  countval[" ++ percentD i ++ "] = 0x" ++ String.ofList (Nat.toDigits 16 count.toNat) ++ "\n"

def printCounts (countval : Nat → BitVec 64) : List Nat → Code Unit
  | [] => return
  | i :: rest => do
    ask (.printf (countLine i (countval i)))
    printCounts countval rest

/-- The part that has the memory for the counters. -/
def readCounters (osNum getCount : Int) : Code Int := do
  let (ret,countval) ← ask (.getperfevent osNum getCount)
  if ret < 0 then
    ask (.perror "  ihk_os_getperfevent")
    ask .free
    return ret
  printCounts countval (List.range getCount.toNat)
  let ret ← ask (.perfctl osNum .disable)
  if ret < 0 then
    ask (.perror "  ihk_os_perfctl(PERF_EVENT_DISABLE)")
    ask .free
    return ret
  let ret ← ask (.perfctl osNum .destroy)
  if ret < 0 then
    ask (.perror "  ihk_os_perfctl(PERF_EVENT_DESTROY)")
    ask .free
    return ret
  ask .free
  return 0

def perfeventExec (osNum : Int) (n : BitVec 32) : Code Int := do
  let ret ← ask (.setperfevent osNum n)
  if ret < 0 then
    ask (.perror "  ihk_os_setperfevent")
    return ret
  ask (.printf (registeredLine ret n))
  if ret = 0 then
    ask (.printf "  no registered perfevent.\n")
    return ret
  let getCount := ret
  let ret ← ask (.perfctl osNum .enable)
  if ret < 0 then
    ask (.perror "  ihk_os_perfctl(PERF_EVENT_ENABLE)")
    return ret
  let allocated ← ask (.calloc getCount)
  if allocated = false then
    ask (.printf "  memory allocate failed. (countval)\n")
    -- ret is still what enabling has returned
    return ret
  readCounters osNum getCount

/-! The ways through the function. -/

def counts (count : Int) (countval : Nat → BitVec 64) : Trace :=
  (List.range count.toNat).map (fun i => ⟨.printf (countLine i (countval i)),()⟩)

inductive Reads (osNum count : Int) : Trace → Int → Prop
  | notGot (ret : Int) (countval : Nat → BitVec 64) (failed : ret < 0) :
      Reads osNum count [⟨.getperfevent osNum count,(ret,countval)⟩,
        ⟨.perror "  ihk_os_getperfevent",()⟩,⟨.free,()⟩] ret
  | notDisabled (get : Int) (countval : Nat → BitVec 64) (ret : Int) (gets : 0 ≤ get) (failed : ret < 0) :
      Reads osNum count (⟨.getperfevent osNum count,(get,countval)⟩ :: (counts count countval ++
        [⟨.perfctl osNum .disable,ret⟩,⟨.perror "  ihk_os_perfctl(PERF_EVENT_DISABLE)",()⟩,⟨.free,()⟩])) ret
  | notDestroyed (get : Int) (countval : Nat → BitVec 64) (disable ret : Int) (gets : 0 ≤ get) (disables : 0 ≤ disable)
      (failed : ret < 0) :
      Reads osNum count (⟨.getperfevent osNum count,(get,countval)⟩ :: (counts count countval ++
        [⟨.perfctl osNum .disable,disable⟩,⟨.perfctl osNum .destroy,ret⟩,
          ⟨.perror "  ihk_os_perfctl(PERF_EVENT_DESTROY)",()⟩,⟨.free,()⟩])) ret
  | destroyed (get : Int) (countval : Nat → BitVec 64) (disable destroy : Int) (gets : 0 ≤ get) (disables : 0 ≤ disable)
      (destroys : 0 ≤ destroy) :
      Reads osNum count (⟨.getperfevent osNum count,(get,countval)⟩ :: (counts count countval ++
        [⟨.perfctl osNum .disable,disable⟩,⟨.perfctl osNum .destroy,destroy⟩,⟨.free,()⟩])) 0

inductive Goes (osNum : Int) (n : BitVec 32) : Trace → Int → Prop
  | notSet (ret : Int) (failed : ret < 0) :
      Goes osNum n [⟨.setperfevent osNum n,ret⟩,⟨.perror "  ihk_os_setperfevent",()⟩] ret
  | nothing :
      Goes osNum n [⟨.setperfevent osNum n,0⟩,⟨.printf (registeredLine 0 n),()⟩,
        ⟨.printf "  no registered perfevent.\n",()⟩] 0
  | notEnabled (count ret : Int) (registered : 0 < count) (failed : ret < 0) :
      Goes osNum n [⟨.setperfevent osNum n,count⟩,⟨.printf (registeredLine count n),()⟩,
        ⟨.perfctl osNum .enable,ret⟩,⟨.perror "  ihk_os_perfctl(PERF_EVENT_ENABLE)",()⟩] ret
  | notAllocated (count enable : Int) (registered : 0 < count) (enables : 0 ≤ enable) :
      Goes osNum n [⟨.setperfevent osNum n,count⟩,⟨.printf (registeredLine count n),()⟩,
        ⟨.perfctl osNum .enable,enable⟩,⟨.calloc count,false⟩,
        ⟨.printf "  memory allocate failed. (countval)\n",()⟩] enable
  | reads (count enable : Int) (trace : Trace) (ret : Int) (registered : 0 < count) (enables : 0 ≤ enable)
      (reads : Reads osNum count trace ret) :
      Goes osNum n (⟨.setperfevent osNum n,count⟩ :: ⟨.printf (registeredLine count n),()⟩ ::
        ⟨.perfctl osNum .enable,enable⟩ :: ⟨.calloc count,true⟩ :: trace) ret

theorem runs_printCounts (countval : Nat → BitVec 64) (list : List Nat) (next : Unit → Code Int)
    (trace : Trace) (value : Int) (runs : Runs (printCounts countval list >>= next) trace value) :
    ∃ rest, trace = list.map (fun i => ⟨.printf (countLine i (countval i)),()⟩) ++ rest ∧
      Runs (next ()) rest value := by
  induction list generalizing trace with
  | nil => exact ⟨trace,rfl,runs⟩
  | cons i list ih =>
    obtain ⟨_,later,rfl,afterLine⟩ := (runs_request_bind _ _ _ _).mp runs
    obtain ⟨rest,rfl,afterLines⟩ := ih later afterLine
    exact ⟨rest,rfl,afterLines⟩

theorem runs_freed (text : String) (ret result : Int) (trace : Trace)
    (runs : Runs (do ask (.perror text); ask .free; return ret) trace result) :
    trace = [⟨.perror text,()⟩,⟨.free,()⟩] ∧ result = ret := by
  obtain ⟨_,_,rfl,after⟩ := (runs_request_bind _ _ _ _).mp runs
  obtain ⟨⟨_,rfl⟩,same⟩ := runs_last Request.free ret result _ after
  exact ⟨rfl,same⟩

theorem readCounters_reads (osNum count : Int) (trace : Trace) (result : Int)
    (runs : Runs (readCounters osNum count) trace result) : Reads osNum count trace result := by
  obtain ⟨⟨get,countval⟩,_,rfl,afterGet⟩ := (runs_request_bind _ _ _ _).mp runs
  dsimp only at afterGet
  by_cases failed : get < 0
  · rw [if_pos failed] at afterGet
    obtain ⟨rfl,rfl⟩ := runs_freed _ _ _ _ afterGet
    exact .notGot _ countval failed
  rw [if_neg failed] at afterGet
  have gets : 0 ≤ get := Int.not_lt.mp failed
  obtain ⟨_,rfl,afterCounts⟩ := runs_printCounts _ _ _ _ _ afterGet
  obtain ⟨disable,_,rfl,afterDisable⟩ := (runs_request_bind _ _ _ _).mp afterCounts
  by_cases failed : (disable : Int) < 0
  · rw [if_pos failed] at afterDisable
    obtain ⟨rfl,same⟩ := runs_freed _ _ _ _ afterDisable
    rw [same]
    exact .notDisabled get countval _ gets failed
  rw [if_neg failed] at afterDisable
  have disables : (0 : Int) ≤ disable := Int.not_lt.mp failed
  obtain ⟨destroy,_,rfl,afterDestroy⟩ := (runs_request_bind _ _ _ _).mp afterDisable
  by_cases failed : (destroy : Int) < 0
  · rw [if_pos failed] at afterDestroy
    obtain ⟨rfl,same⟩ := runs_freed _ _ _ _ afterDestroy
    rw [same]
    exact .notDestroyed get countval _ _ gets disables failed
  rw [if_neg failed] at afterDestroy
  obtain ⟨⟨_,rfl⟩,rfl⟩ := runs_last _ _ _ _ afterDestroy
  exact .destroyed get countval _ _ gets disables (Int.not_lt.mp failed)

theorem perfeventExec_goes (osNum : Int) (n : BitVec 32) (trace : Trace) (result : Int)
    (runs : Runs (perfeventExec osNum n) trace result) : Goes osNum n trace result := by
  obtain ⟨count,_,rfl,afterSet⟩ := (runs_request_bind _ _ _ _).mp runs
  by_cases failed : (count : Int) < 0
  · rw [if_pos failed] at afterSet
    obtain ⟨⟨_,rfl⟩,same⟩ := runs_last _ _ _ _ afterSet
    rw [same]
    exact .notSet _ failed
  rw [if_neg failed] at afterSet
  obtain ⟨_,_,rfl,afterLine⟩ := (runs_request_bind _ _ _ _).mp afterSet
  by_cases none : (count : Int) = 0
  · rw [if_pos none] at afterLine
    obtain ⟨⟨_,rfl⟩,same⟩ := runs_last _ _ _ _ afterLine
    rw [same,none]
    exact .nothing
  rw [if_neg none] at afterLine
  have registered : (0 : Int) < count := lt_of_le_of_ne (Int.not_lt.mp failed) (Ne.symm none)
  obtain ⟨enable,_,rfl,afterEnable⟩ := (runs_request_bind _ _ _ _).mp afterLine
  by_cases failed : (enable : Int) < 0
  · rw [if_pos failed] at afterEnable
    obtain ⟨⟨_,rfl⟩,same⟩ := runs_last _ _ _ _ afterEnable
    rw [same]
    exact .notEnabled count _ registered failed
  rw [if_neg failed] at afterEnable
  have enables : (0 : Int) ≤ enable := Int.not_lt.mp failed
  obtain ⟨allocated,_,rfl,afterCalloc⟩ := (runs_request_bind _ _ _ _).mp afterEnable
  match allocated with
  | false =>
    rw [if_pos rfl] at afterCalloc
    obtain ⟨⟨_,rfl⟩,same⟩ := runs_last _ _ _ _ afterCalloc
    rw [same]
    exact .notAllocated count _ registered enables
  | true =>
    rw [if_neg Bool.noConfusion] at afterCalloc
    exact .reads count _ _ _ registered enables (readCounters_reads osNum count _ _ afterCalloc)

/-! What the function is to do. -/

section
variable (osNum : Int) (n : BitVec 32) (trace : Trace)

def Registered : Prop := ∃ count : Int, 0 < count ∧ ⟨.setperfevent osNum n,count⟩ ∈ trace

def Controlled (command : Command) : Prop := ∃ ret : Int, 0 ≤ ret ∧ ⟨.perfctl osNum command,ret⟩ ∈ trace

def Got : Prop := ∃ (count ret : Int) (countval : Nat → BitVec 64), 0 ≤ ret ∧
  ⟨.getperfevent osNum count,(ret,countval)⟩ ∈ trace

structure Balanced (result : Int) : Prop where
  success : result = 0 → Registered osNum n trace ∧ Controlled osNum trace .enable ∧ Got osNum trace ∧
    Controlled osNum trace .disable ∧ Controlled osNum trace .destroy
  destroys : Registered osNum n trace → ∃ ret : Int, ⟨.perfctl osNum .destroy,ret⟩ ∈ trace

/-- Nothing goes wrong between the registration and the destruction. -/
def Undisturbed : Prop :=
  (∃ ret : Int, ret < 0 ∧ ⟨.setperfevent osNum n,ret⟩ ∈ trace) ∨
  Registered osNum n trace ∧ Controlled osNum trace .enable ∧
    (∃ count, ⟨.calloc count,true⟩ ∈ trace) ∧ Got osNum trace ∧ Controlled osNum trace .disable

end

theorem mem_counts (count : Int) (countval : Nat → BitVec 64) (event : Event Request.Answer)
    (member : event ∈ counts count countval) : ∃ text, event.1 = .printf text := by
  obtain ⟨i,_,rfl⟩ := List.mem_map.mp member
  exact ⟨_,rfl⟩

@[simp]
theorem perfctl_not_mem_counts (count osNum : Int) (countval : Nat → BitVec 64) (command : Command)
    (ret : Int) : (⟨.perfctl osNum command,ret⟩ : Event Request.Answer) ∉ counts count countval := by
  intro member
  obtain ⟨_,same⟩ := mem_counts _ _ _ member
  contradiction

@[simp]
theorem setperfevent_not_mem_counts (count osNum : Int) (countval : Nat → BitVec 64) (n : BitVec 32)
    (ret : Int) : (⟨.setperfevent osNum n,ret⟩ : Event Request.Answer) ∉ counts count countval := by
  intro member
  obtain ⟨_,same⟩ := mem_counts _ _ _ member
  contradiction

theorem balanced_reads_iff (osNum : Int) (n : BitVec 32) (count enable : Int) (trace : Trace) (ret : Int)
    (registered : 0 < count) (enables : 0 ≤ enable) (reads : Reads osNum count trace ret) :
    let whole := ⟨.setperfevent osNum n,count⟩ :: ⟨.printf (registeredLine count n),()⟩ ::
      ⟨.perfctl osNum .enable,enable⟩ :: ⟨.calloc count,true⟩ :: trace
    Balanced osNum n whole ret ↔ Undisturbed osNum n whole := by
  intro whole
  have isRegistered : Registered osNum n whole := ⟨count,registered,by simp [whole]⟩
  have isEnabled : Controlled osNum whole .enable := ⟨enable,enables,by simp [whole]⟩
  have isAllocated : ∃ count, ⟨.calloc count,true⟩ ∈ whole := ⟨count,by simp [whole]⟩
  cases reads with
  | notGot _ countval failed =>
    refine iff_of_false ?_ ?_
    · intro balanced
      simpa [whole] using balanced.destroys isRegistered
    · simp [Undisturbed,Got,whole]
      omega
  | notDisabled get countval _ gets failed =>
    refine iff_of_false ?_ ?_
    · intro balanced
      simpa [whole] using balanced.destroys isRegistered
    · simp [Undisturbed,Controlled,whole]
      omega
  | notDestroyed get countval disable _ gets disables failed =>
    refine iff_of_true ⟨?_,fun _ => ⟨ret,by simp [whole]⟩⟩
      (.inr ⟨isRegistered,isEnabled,isAllocated,⟨count,get,countval,gets,by simp [whole]⟩,
        disable,disables,by simp [whole]⟩)
    omega
  | destroyed get countval disable destroy gets disables destroys =>
    have isGot : Got osNum whole := ⟨count,get,countval,gets,by simp [whole]⟩
    have isDisabled : Controlled osNum whole .disable := ⟨disable,disables,by simp [whole]⟩
    have isDestroyed : Controlled osNum whole .destroy := ⟨destroy,destroys,by simp [whole]⟩
    refine iff_of_true ⟨fun _ => ?_,fun _ => ⟨destroy,by simp [whole]⟩⟩ ?_
    · exact ⟨isRegistered,isEnabled,isGot,isDisabled,isDestroyed⟩
    · exact .inr ⟨isRegistered,isEnabled,isAllocated,isGot,isDisabled⟩

/-- A count of 0 is returned as it is, the return value of enabling stands when the
memory cannot be had, and no error path destroys the events. -/
theorem perfevent_balanced_iff (osNum : Int) (n : BitVec 32) (trace : Trace) (result : Int)
    (runs : Runs (perfeventExec osNum n) trace result) :
    Balanced osNum n trace result ↔ Undisturbed osNum n trace := by
  cases perfeventExec_goes osNum n trace result runs with
  | notSet ret failed =>
    refine iff_of_true ⟨?_,?_⟩ (.inl ⟨_,failed,by simp⟩)
    · omega
    · simp [Registered]
      omega
  | nothing =>
    refine iff_of_false ?_ ?_
    · intro balanced
      simpa [Registered] using (balanced.success rfl).1
    · simp [Undisturbed,Registered]
  | notEnabled count ret registered failed =>
    refine iff_of_false ?_ ?_
    · intro balanced
      simpa using balanced.destroys ⟨count,registered,by simp⟩
    · simp [Undisturbed,Controlled]
      omega
  | notAllocated count enable registered enables =>
    refine iff_of_false ?_ ?_
    · intro balanced
      simpa using balanced.destroys ⟨count,registered,by simp⟩
    · simp [Undisturbed,Got]
      omega
  | reads count enable trace _ registered enables reads =>
    exact balanced_reads_iff osNum n count enable trace result registered enables reads

def oneEvent : Trace :=
  [⟨.setperfevent 0 1,(1 : Int)⟩,⟨.printf (registeredLine 1 1),()⟩,⟨.perfctl 0 .enable,(0 : Int)⟩,
    ⟨.calloc 1,true⟩,⟨.getperfevent 0 1,((0 : Int),fun _ => 0x1a)⟩,⟨.printf (countLine 0 0x1a),()⟩,
    ⟨.perfctl 0 .disable,(0 : Int)⟩,⟨.perfctl 0 .destroy,(0 : Int)⟩,⟨.free,()⟩]

theorem perfevent_balanced_iff_one :
    Runs (perfeventExec 0 1) oneEvent 0 ∧ Balanced 0 1 oneEvent 0 := by
  have runs : Runs (perfeventExec 0 1) oneEvent 0 :=
    .call _ _ _ _ _ (.call _ _ _ _ _ (.call _ _ _ _ _ (.call _ _ _ _ _ (.call _ _ _ _ _
      (.call _ _ _ _ _ (.call _ _ _ _ _ (.call _ _ _ _ _ (.call _ _ _ _ _ (.ret _)))))))))
  refine ⟨runs,(perfevent_balanced_iff 0 1 oneEvent 0 runs).mpr (.inr ⟨?_,?_,?_,?_,?_⟩)⟩
  · exact ⟨1,by decide,by simp [oneEvent]⟩
  · exact ⟨0,by decide,by simp [oneEvent]⟩
  · exact ⟨1,by simp [oneEvent]⟩
  · exact ⟨1,0,fun _ => 0x1a,by decide,by simp [oneEvent]⟩
  · exact ⟨0,by decide,by simp [oneEvent]⟩

/-- No event is registered, and 0 is returned. -/
def noEvent : Trace :=
  [⟨.setperfevent 0 1,(0 : Int)⟩,⟨.printf (registeredLine 0 1),()⟩,
    ⟨.printf "  no registered perfevent.\n",()⟩]

/-- One event is registered and never destroyed; 0 is returned without a counter. -/
def noMemory : Trace :=
  [⟨.setperfevent 0 1,(1 : Int)⟩,⟨.printf (registeredLine 1 1),()⟩,⟨.perfctl 0 .enable,(0 : Int)⟩,
    ⟨.calloc 1,false⟩,⟨.printf "  memory allocate failed. (countval)\n",()⟩]

theorem perfevent_unbalanced :
    (Runs (perfeventExec 0 1) noEvent 0 ∧ ¬ Registered 0 1 noEvent ∧ ¬ Balanced 0 1 noEvent 0) ∧
    Runs (perfeventExec 0 1) noMemory 0 ∧ Registered 0 1 noMemory ∧ ¬ Got 0 noMemory ∧
      ¬ Balanced 0 1 noMemory 0 := by
  have unregistered : ¬ Registered 0 1 noEvent := by simp [Registered,noEvent]
  have notGot : ¬ Got 0 noMemory := by simp [Got,noMemory]
  refine ⟨⟨?_,unregistered,fun balanced => unregistered (balanced.success rfl).1⟩,?_,?_,notGot,
    fun balanced => notGot (balanced.success rfl).2.2.1⟩
  · exact .call _ _ _ _ _ (.call _ _ _ _ _ (.call _ _ _ _ _ (.ret _)))
  · exact .call _ _ _ _ _ (.call _ _ _ _ _ (.call _ _ _ _ _ (.call _ _ _ _ _ (.call _ _ _ _ _ (.ret _)))))
  · exact ⟨1,by decide,by simp [noMemory]⟩

end Ostest.PerfEvent
