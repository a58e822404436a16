import Mathlib.Data.List.Nodup
import Ostest.Lib.Decimal
import Ostest.Lib.Ledger
import Ostest.Lib.Loop
import Ostest.Lib.Memory

/-! test_mck_drv.c: module init with its common cleanup, and module exit.
A driver carries the record of what the kernel handed out and took back.
cdev_del, remove_proc_entry and unregister_chrdev_region take back whatever they
are given; class_destroy and device_destroy return at once for a NULL class, and
device_destroy does nothing for a device that was not created. -/
namespace Ostest.TestDrv
open Lib.Decimal Lib.Memory
open Lib.Ledger (Event Settled)

inductive Resource where
  | region
  | devClass (dev : Nat)
  | cdev (dev : Nat)
  | node (dev : Nat)
  | buffer (dev : Nat)
  | procDir
  | procEntry (ent : Nat)
  deriving DecidableEq

def errno (e : Nat) : Int := -(e+1)

def enomem : Int := -12

/-- What the kernel and the init functions of the devices answer. A failure
gives its error number less one; an init function that succeeds says whether it
allocated a buffer. -/
structure Kernel where
  allocChrdevRegion : Except Nat Nat
  classCreate : Nat → Bool
  cdevAdd : Nat → Option Nat
  deviceCreate : Nat → Bool
  init : Nat → Except Nat Bool
  procMkdir : Bool
  procCreateData : Nat → Bool

/-- The fields of struct test_mck_dev that setup and cleanup touch, and whether
the kernel knows the device. -/
structure Dev where
  hasClass : Bool
  devno : Nat × Nat
  privateData : Bool
  created : Bool

structure Driver where
  major : Nat
  devs : Nat → Dev
  procDir : Bool
  pents : Nat → Bool
  majmin : Nat → Char
  events : List (Event Resource)

def loaded (nrDevs : Nat) (behind : Nat → Char) : Driver where
  major := 0
  devs _ := ⟨false,(0,0),false,false⟩
  procDir := false
  pents _ := false
  majmin address := if address < nrDevs*8+1 then '\x00' else behind address
  events := []

def Driver.record (driver : Driver) (event : Event Resource) : Driver :=
  {driver with events := driver.events ++ [event]}

def Driver.setDev (driver : Driver) (i : Nat) (dev : Dev) : Driver :=
  {driver with devs := Function.update driver.devs i dev}

/-! Cleanup. -/

def procEnts : List Nat := [0,1]

def removeEnt (driver : Driver) (ent : Nat) : Driver :=
  if driver.pents ent then
    {driver.record (.release (.procEntry ent)) with pents := Function.update driver.pents ent false}
  else driver

def testMckCleanupProcfs (driver : Driver) : Driver :=
  let driver := procEnts.foldl removeEnt driver
  {driver.record (.release .procDir) with procDir := false}

/-- The fin functions of the devices: free the buffer if there is one. -/
def fin (driver : Driver) (i : Nat) : Driver :=
  if (driver.devs i).privateData then
    (driver.record (.release (.buffer i))).setDev i {driver.devs i with privateData := false}
  else driver

def deviceDestroy (driver : Driver) (i : Nat) : Driver :=
  if (driver.devs i).hasClass && (driver.devs i).created then
    (driver.record (.release (.node i))).setDev i {driver.devs i with created := false}
  else driver

def classDestroy (driver : Driver) (i : Nat) : Driver :=
  if (driver.devs i).hasClass then driver.record (.release (.devClass i)) else driver

def cleanupDev (driver : Driver) (i : Nat) : Driver :=
  classDestroy (deviceDestroy ((fin driver i).record (.release (.cdev i))) i) i

def testMckCleanup (nrDevs : Nat) (driver : Driver) : Driver :=
  let driver := testMckCleanupProcfs driver
  let driver := (List.range nrDevs).foldl cleanupDev driver
  driver.record (.release .region)

/-! Setup. -/

/-- The locals of test_mck_setup beside the statics of the driver; the pointer
majmin is an offset in the array. -/
structure Setup where
  driver : Driver
  res : Int
  majmin : Nat

/-- A difference of addresses as the size_t that snprintf takes. -/
def sizeT (difference : Int) : Nat := (difference % 2^64).toNat

/-- `"%3d:%-3d "` of the major and the minor number. -/
def majminEntry (major minor : Nat) : List Char :=
  padLeft ' ' 3 (decimal major) ++ ':' :: padRight ' ' 3 (decimal minor) ++ [' ']

def printMajmin (nrDevs : Nat) (s : Setup) (i : Nat) : Setup :=
  let text := majminEntry s.driver.major i
  let size := sizeT ((nrDevs*8+1 : Nat) - (s.majmin : Nat) - 1)
  {s with
    driver := {s.driver with majmin := snprintf s.driver.majmin s.majmin size text}
    majmin := s.majmin + text.length}

def createClass (driver : Driver) (i : Nat) : Driver :=
  (driver.record (.acquire (.devClass i))).setDev i {driver.devs i with hasClass := true}

def addCdev (driver : Driver) (i : Nat) : Driver :=
  (driver.record (.acquire (.cdev i))).setDev i {driver.devs i with devno := (driver.major,i)}

def createDevice (k : Kernel) (driver : Driver) (i : Nat) : Driver :=
  if k.deviceCreate i then
    (driver.record (.acquire (.node i))).setDev i {driver.devs i with created := true}
  else driver

def initDev (driver : Driver) (i : Nat) (allocated : Bool) : Driver :=
  if allocated then
    (driver.record (.acquire (.buffer i))).setDev i {driver.devs i with privateData := true}
  else driver

/-- One turn of the loop over the devices; an error is a jump to the label fail.
When class_create fails, res still holds what the last step left there. -/
def setupDev (k : Kernel) (nrDevs : Nat) (s : Setup) (i : Nat) : Except Setup Setup :=
  if k.classCreate i then
    let s := {s with driver := createClass s.driver i}
    match k.cdevAdd i with
    | some e => .error {s with res := errno e}
    | none =>
      let s := {s with driver := createDevice k (addCdev s.driver i) i, res := 0}
      let s := printMajmin nrDevs s i
      match k.init i with
      | .error e => .error {s with res := errno e}
      | .ok allocated => .ok {s with driver := initDev s.driver i allocated}
  else .error s

def Setup.makeEnt (s : Setup) (ent : Nat) : Setup :=
  {s with driver := {s.driver.record (.acquire (.procEntry ent)) with
    pents := Function.update s.driver.pents ent true}}

def createEnt (k : Kernel) (s : Setup) (ent : Nat) : Except Setup Setup :=
  if k.procCreateData ent then .ok (s.makeEnt ent) else .error {s with res := enomem}

def Setup.makeDir (s : Setup) : Setup :=
  {s with driver := {s.driver.record (.acquire .procDir) with procDir := true}}

def testMckInitProcfs (k : Kernel) (s : Setup) : Except Setup Setup :=
  if k.procMkdir then procEnts.foldlM (createEnt k) s.makeDir else .error {s with res := enomem}

/-- test_mck_setup up to its return or the label fail. -/
def setupBody (k : Kernel) (nrDevs : Nat) (driver : Driver) : Except Setup Setup :=
  match k.allocChrdevRegion with
  | .error e => .error ⟨driver,errno e,0⟩
  | .ok major => do
    let driver := {driver.record (.acquire .region) with major := major}
    let s ← (List.range nrDevs).foldlM (setupDev k nrDevs) ⟨driver,0,0⟩
    testMckInitProcfs k s

def testMckSetup (k : Kernel) (nrDevs : Nat) (driver : Driver) : Int × Driver :=
  match setupBody k nrDevs driver with
  | .ok s => (0,s.driver)
  | .error s => (s.res,testMckCleanup nrDevs s.driver)

def testMckInit (k : Kernel) (nrDevs : Nat) (driver : Driver) : Int × Driver :=
  testMckSetup k nrDevs driver

def testMckExit (nrDevs : Nat) (driver : Driver) : Driver := testMckCleanup nrDevs driver

/-! Where setup can fail. -/

def DevFails (k : Kernel) (i : Nat) : Prop :=
  k.classCreate i = false ∨ (k.cdevAdd i).isSome ∨ ¬(k.init i).isOk

/-- A step before the proc entries fails. -/
def EarlyFails (k : Kernel) (nrDevs : Nat) : Prop :=
  ¬k.allocChrdevRegion.isOk ∨ (∃ i < nrDevs, DevFails k i) ∨ k.procMkdir = false

def EntFails (k : Kernel) : Prop := ∃ ent ∈ procEnts, k.procCreateData ent = false

/-- Init fails cleanly if a step fails, and init and exit leave nothing behind if
none does. -/
def ReleasesAll (k : Kernel) (nrDevs : Nat) (driver : Driver) : Prop :=
  let after := testMckInit k nrDevs driver
  (EarlyFails k nrDevs ∨ EntFails k → after.1 < 0 ∧ Settled after.2.events) ∧
  (¬(EarlyFails k nrDevs ∨ EntFails k) → Settled (testMckExit nrDevs after.2).events)

/-! The loop over the devices. -/

def setUp (k : Kernel) (nrDevs : Nat) (s : Setup) (i : Nat) : Setup :=
  let s := {s with driver := createDevice k (addCdev (createClass s.driver i) i) i, res := 0}
  let s := printMajmin nrDevs s i
  {s with driver := initDev s.driver i ((k.init i).toOption.getD false)}

theorem setupDev_ok (k : Kernel) (nrDevs : Nat) (s : Setup) (i : Nat) (works : ¬DevFails k i) :
    setupDev k nrDevs s i = .ok (setUp k nrDevs s i) := by
  simp only [DevFails,not_or,Bool.not_eq_false,Decidable.not_not] at works
  obtain ⟨classed,added,initialised⟩ := works
  cases answer : k.init i with
  | error e => simp [answer,Except.isOk,Except.toBool] at initialised
  | ok allocated =>
    cases refusal : k.cdevAdd i with
    | some e => simp [refusal] at added
    | none => simp [setupDev,setUp,classed,refusal,answer,Except.toOption]

theorem setupDev_refused (k : Kernel) (nrDevs : Nat) (s : Setup) (i : Nat) (fails : DevFails k i) :
    ∃ t, setupDev k nrDevs s i = .error t := by
  unfold setupDev
  split
  · rename_i classed
    split
    · exact ⟨_,rfl⟩
    · rename_i added
      rcases fails with refused | refused | refused
      · simp [classed] at refused
      · simp [added] at refused
      · cases answer : k.init i with
        | error e => exact ⟨_,rfl⟩
        | ok allocated => simp [answer,Except.isOk,Except.toBool] at refused
  · exact ⟨s,rfl⟩

def allocates (k : Kernel) (i : Nat) : Bool := (k.init i).toOption.getD false

def devResources (k : Kernel) (i : Nat) : List Resource :=
  [.devClass i,.cdev i] ++ (if k.deviceCreate i then [.node i] else []) ++
    (if allocates k i then [.buffer i] else [])

theorem setUp_events (k : Kernel) (nrDevs : Nat) (s : Setup) (i : Nat) :
    (setUp k nrDevs s i).driver.events = s.driver.events ++ (devResources k i).map .acquire := by
  cases created : k.deviceCreate i <;> cases allocated : (k.init i).toOption.getD false <;>
    simp [setUp,printMajmin,initDev,createDevice,addCdev,createClass,Driver.record,Driver.setDev,
      devResources,allocates,created,allocated]

theorem setUp_devs (k : Kernel) (nrDevs : Nat) (s : Setup) (i : Nat)
    (blank : s.driver.devs i = ⟨false,(0,0),false,false⟩) :
    (setUp k nrDevs s i).driver.devs = Function.update s.driver.devs i
      ⟨true,(s.driver.major,i),allocates k i,k.deviceCreate i⟩ := by
  cases created : k.deviceCreate i <;> cases allocated : (k.init i).toOption.getD false <;>
    simp [setUp,printMajmin,initDev,createDevice,addCdev,createClass,Driver.record,Driver.setDev,
      allocates,created,allocated,blank]

theorem setUp_frame (k : Kernel) (nrDevs : Nat) (s : Setup) (i : Nat) :
    (setUp k nrDevs s i).driver.major = s.driver.major ∧
      (setUp k nrDevs s i).driver.pents = s.driver.pents := by
  cases created : k.deviceCreate i <;> cases allocated : (k.init i).toOption.getD false <;>
    simp [setUp,printMajmin,initDev,createDevice,addCdev,createClass,Driver.record,Driver.setDev,
      created,allocated]

structure Ready (k : Kernel) (count : Nat) (driver : Driver) : Prop where
  events : driver.events =
    (.region :: (List.range count).flatMap (devResources k)).map .acquire
  devs : ∀ i, driver.devs i = if i < count then ⟨true,(driver.major,i),allocates k i,k.deviceCreate i⟩
    else ⟨false,(0,0),false,false⟩
  pents : driver.pents = fun _ => false

theorem setUp_ready (k : Kernel) (nrDevs count : Nat) (s : Setup) (ready : Ready k count s.driver) :
    Ready k (count+1) (setUp k nrDevs s count).driver := by
  obtain ⟨major,pents⟩ := setUp_frame k nrDevs s count
  refine ⟨?_,?_,pents.trans ready.pents⟩
  · rw [setUp_events,ready.events]
    simp [List.range_succ]
  · intro i
    have blank : s.driver.devs count = ⟨false,(0,0),false,false⟩ := by simp [ready.devs]
    rw [setUp_devs k nrDevs s count blank,major]
    by_cases same : i = count
    · simp [same]
    · rw [Function.update_of_ne same,ready.devs]
      have bounds : i < count ↔ i < count+1 := by omega
      simp only [bounds]

theorem setUps_ready (k : Kernel) (nrDevs count : Nat) (s : Setup) (ready : Ready k 0 s.driver) :
    Ready k count ((List.range count).foldl (setUp k nrDevs) s).driver := by
  induction count with
  | zero => exact ready
  | succ count ih =>
    rw [List.range_succ,List.foldl_append]
    exact setUp_ready k nrDevs count _ ih

/-! What cleanup gives back, from any state. -/

def devReleases (dev : Dev) (i : Nat) : List Resource :=
  (if dev.privateData then [.buffer i] else []) ++ [.cdev i] ++
    (if dev.hasClass && dev.created then [.node i] else []) ++
    (if dev.hasClass then [.devClass i] else [])

def cleanupResources (nrDevs : Nat) (driver : Driver) : List Resource :=
  (procEnts.filter driver.pents).map .procEntry ++ .procDir ::
    (List.range nrDevs).flatMap (fun i => devReleases (driver.devs i) i) ++ [.region]

theorem removeEnts_events (ents : List Nat) (distinct : ents.Nodup) (driver : Driver) :
    (ents.foldl removeEnt driver).events =
      driver.events ++ ((ents.filter driver.pents).map .procEntry).map .release ∧
    (ents.foldl removeEnt driver).devs = driver.devs := by
  induction ents generalizing driver with
  | nil => simp
  | cons ent rest ih =>
    obtain ⟨absent,distinct⟩ := List.nodup_cons.mp distinct
    obtain ⟨events,devs⟩ := ih distinct (removeEnt driver ent)
    rw [List.foldl_cons,events,devs]
    cases present : driver.pents ent with
    | false => simp [removeEnt,present]
    | true =>
      have others : rest.filter (Function.update driver.pents ent false) = rest.filter driver.pents := by
        apply List.filter_congr
        intro other member
        rw [Function.update_of_ne (ne_of_mem_of_not_mem member absent)]
      simp [removeEnt,present,Driver.record,others]

theorem cleanupDev_events (driver : Driver) (i : Nat) : (cleanupDev driver i).events =
    driver.events ++ (devReleases (driver.devs i) i).map .release := by
  cases buffer : (driver.devs i).privateData <;> cases classed : (driver.devs i).hasClass <;>
    cases created : (driver.devs i).created <;>
    simp [cleanupDev,classDestroy,deviceDestroy,fin,Driver.record,Driver.setDev,devReleases,
      buffer,classed,created]

theorem cleanupDev_devs (driver : Driver) (i j : Nat) (other : j ≠ i) :
    (cleanupDev driver i).devs j = driver.devs j := by
  simp only [cleanupDev,classDestroy,deviceDestroy,fin]
  repeat' split
  all_goals simp [Driver.record,Driver.setDev,other]

theorem cleanupDevs_events (devs : List Nat) (distinct : devs.Nodup) (driver : Driver) :
    (devs.foldl cleanupDev driver).events =
      driver.events ++ (devs.flatMap (fun i => devReleases (driver.devs i) i)).map .release := by
  induction devs generalizing driver with
  | nil => simp
  | cons i rest ih =>
    obtain ⟨absent,distinct⟩ := List.nodup_cons.mp distinct
    have others : rest.flatMap (fun j => devReleases ((cleanupDev driver i).devs j) j) =
        rest.flatMap (fun j => devReleases (driver.devs j) j) := by
      apply List.flatMap_congr
      intro j member
      rw [cleanupDev_devs driver i j (ne_of_mem_of_not_mem member absent)]
    rw [List.foldl_cons,ih distinct,cleanupDev_events,others]
    simp

theorem testMckCleanup_events (nrDevs : Nat) (driver : Driver) :
    (testMckCleanup nrDevs driver).events =
      driver.events ++ (cleanupResources nrDevs driver).map .release := by
  obtain ⟨events,devs⟩ := removeEnts_events procEnts (by decide) driver
  simp only [testMckCleanup,testMckCleanupProcfs,Driver.record]
  rw [cleanupDevs_events _ List.nodup_range]
  simp [events,devs,cleanupResources]

/-! Failures after the proc directory, and exit. -/

theorem devResources_nodup (k : Kernel) (count : Nat) :
    ((List.range count).flatMap (devResources k)).Nodup := by
  refine List.nodup_flatMap.mpr ⟨?_,?_⟩
  · intro i _
    unfold devResources
    repeat' split
    all_goals simp
  · refine List.nodup_range.imp ?_
    intro i j different resource left right
    apply different
    unfold devResources at left right
    grind

theorem devReleases_perm (k : Kernel) (major i : Nat) :
    (devReleases ⟨true,(major,i),allocates k i,k.deviceCreate i⟩ i).Perm (devResources k i) := by
  simp only [devReleases,devResources,Bool.true_and,if_true,List.perm_iff_count]
  intro resource
  simp only [List.count_append,List.count_cons,List.count_nil]
  omega

def acquired (k : Kernel) (nrDevs : Nat) (ents : List Nat) : List Resource :=
  .region :: (List.range nrDevs).flatMap (devResources k) ++ .procDir :: ents.map .procEntry

theorem acquired_nodup (k : Kernel) (nrDevs : Nat) (ents : List Nat) (distinct : ents.Nodup) :
    (acquired k nrDevs ents).Nodup := by
  have foreign (resource : Resource)
      (member : resource ∈ (List.range nrDevs).flatMap (devResources k)) :
      resource ≠ .region ∧ resource ≠ .procDir ∧ ∀ ent, resource ≠ .procEntry ent := by
    obtain ⟨i,_,member⟩ := List.mem_flatMap.mp member
    unfold devResources at member
    grind
  have entries : (ents.map Resource.procEntry).Nodup :=
    distinct.map (fun _ _ same => Resource.procEntry.inj same)
  have devices := devResources_nodup k nrDevs
  unfold acquired
  grind

/-- Once the proc directory exists, cleanup gives back what setup has acquired. -/
theorem cleanup_settled (k : Kernel) (nrDevs : Nat) (driver : Driver)
    (events : driver.events = (acquired k nrDevs (procEnts.filter driver.pents)).map .acquire)
    (devs : ∀ i < nrDevs, driver.devs i = ⟨true,(driver.major,i),allocates k i,k.deviceCreate i⟩) :
    Settled (testMckCleanup nrDevs driver).events := by
  have same : ((List.range nrDevs).flatMap (fun i => devReleases (driver.devs i) i)).Perm
      ((List.range nrDevs).flatMap (devResources k)) := by
    apply List.Perm.flatMap_left
    intro i member
    rw [devs i (List.mem_range.mp member)]
    exact devReleases_perm k driver.major i
  rw [testMckCleanup_events,events]
  apply Lib.Ledger.settled_of_perm
  · exact acquired_nodup k nrDevs _ (List.Nodup.filter _ (by decide))
  · rw [List.perm_iff_count]
    intro resource
    simp only [cleanupResources,acquired,List.count_append,List.count_cons,List.count_nil,
      same.count_eq]
    omega

theorem listed_settled (k : Kernel) (nrDevs : Nat) (s t : Setup) (ents : List Nat)
    (ready : Ready k nrDevs s.driver)
    (events : t.driver.events = s.driver.events ++ (.procDir :: ents.map .procEntry).map .acquire)
    (present : procEnts.filter t.driver.pents = ents) (same : t.driver.devs = s.driver.devs)
    (major : t.driver.major = s.driver.major) :
    Settled (testMckCleanup nrDevs t.driver).events := by
  apply cleanup_settled k nrDevs t.driver
  · rw [events,ready.events,present,acquired,List.map_append]
  · intro i bound
    rw [same,ready.devs,if_pos bound,major]

theorem testMckInitProcfs_ends (k : Kernel) (nrDevs : Nat) (s : Setup)
    (ready : Ready k nrDevs s.driver) (directory : k.procMkdir = true) :
    ∃ t, Settled (testMckCleanup nrDevs t.driver).events ∧ t.driver.majmin = s.driver.majmin ∧
      (testMckInitProcfs k s = .ok t ∧ ¬EntFails k ∨
        testMckInitProcfs k s = .error t ∧ t.res = enomem ∧ EntFails k) := by
  have unfolded : testMckInitProcfs k s =
      (createEnt k s.makeDir 0 >>= fun t => createEnt k t 1) := by
    simp [testMckInitProcfs,directory,procEnts]
  rw [unfolded]
  cases first : k.procCreateData 0 with
  | false =>
    refine ⟨{s.makeDir with res := enomem},?_,rfl,.inr ⟨?_,rfl,0,by decide,first⟩⟩
    · exact listed_settled k nrDevs s _ [] ready rfl (by simp [Setup.makeDir,Driver.record,ready.pents]) rfl rfl
    · simp only [createEnt,first]
      rfl
  | true =>
    have taken : createEnt k s.makeDir 0 = .ok (s.makeDir.makeEnt 0) := by simp [createEnt,first]
    rw [taken]
    cases second : k.procCreateData 1 with
    | false =>
      refine ⟨{s.makeDir.makeEnt 0 with res := enomem},?_,rfl,.inr ⟨?_,rfl,1,by decide,second⟩⟩
      · exact listed_settled k nrDevs s _ [0] ready (by simp [Setup.makeDir,Setup.makeEnt,Driver.record])
          (by simp [Setup.makeDir,Setup.makeEnt,Driver.record,ready.pents,procEnts]) rfl rfl
      · change createEnt k (s.makeDir.makeEnt 0) 1 = _
        simp [createEnt,second]
    | true =>
      refine ⟨(s.makeDir.makeEnt 0).makeEnt 1,?_,rfl,.inl ⟨?_,by simp [EntFails,procEnts,first,second]⟩⟩
      · exact listed_settled k nrDevs s _ [0,1] ready (by simp [Setup.makeDir,Setup.makeEnt,Driver.record])
          (by simp [Setup.makeDir,Setup.makeEnt,Driver.record,ready.pents,procEnts]) rfl rfl
      · change createEnt k (s.makeDir.makeEnt 0) 1 = _
        simp [createEnt,second]

/-! Failures before the proc directory. -/

def Unlisted (driver : Driver) : Prop :=
  .acquire .procDir ∉ driver.events ∧ driver.pents = fun _ => false

theorem cleanup_unsettled (nrDevs : Nat) (driver : Driver) (unlisted : Unlisted driver) :
    ¬Settled (testMckCleanup nrDevs driver).events := by
  have noEnts : procEnts.filter driver.pents = [] := by simp [unlisted.2]
  rw [testMckCleanup_events,cleanupResources,noEnts]
  exact Lib.Ledger.not_settled _ _ _ unlisted.1

theorem unlisted_acquire (driver : Driver) (i : Nat) (dev : Dev) (resource : Resource)
    (other : resource ≠ .procDir) (unlisted : Unlisted driver) :
    Unlisted ((driver.record (.acquire resource)).setDev i dev) := by
  refine ⟨?_,unlisted.2⟩
  simp [Driver.setDev,Driver.record,unlisted.1,Ne.symm other]

theorem setupDev_unlisted (k : Kernel) (nrDevs : Nat) (s : Setup) (i : Nat)
    (unlisted : Unlisted s.driver) (t : Setup)
    (ends : setupDev k nrDevs s i = .ok t ∨ setupDev k nrDevs s i = .error t) :
    Unlisted t.driver := by
  have classed : Unlisted (createClass s.driver i) :=
    unlisted_acquire _ _ _ _ (by simp) unlisted
  have added : Unlisted (addCdev (createClass s.driver i) i) :=
    unlisted_acquire _ _ _ _ (by simp) classed
  have created : Unlisted (createDevice k (addCdev (createClass s.driver i) i) i) := by
    unfold createDevice
    split
    · exact unlisted_acquire _ _ _ _ (by simp) added
    · exact added
  unfold setupDev at ends
  split at ends
  · split at ends
    · obtain rfl : _ = t := by simpa using ends
      exact classed
    · split at ends
      · obtain rfl : _ = t := by simpa using ends
        exact created
      · obtain rfl : _ = t := by simpa using ends
        unfold initDev
        split
        · exact unlisted_acquire _ _ _ _ (by simp) created
        · exact created
  · obtain rfl : _ = t := by simpa using ends
    exact unlisted

theorem setupBody_early (k : Kernel) (nrDevs : Nat) (behind : Nat → Char)
    (fails : EarlyFails k nrDevs) :
    ∃ s, setupBody k nrDevs (loaded nrDevs behind) = .error s ∧ Unlisted s.driver := by
  have fresh : Unlisted (loaded nrDevs behind) := ⟨by simp [loaded],rfl⟩
  unfold setupBody
  cases answer : k.allocChrdevRegion with
  | error e => exact ⟨_,rfl,fresh⟩
  | ok major =>
    have start : Unlisted {(loaded nrDevs behind).record (.acquire .region) with major := major} :=
      ⟨by simp [Driver.record,loaded],rfl⟩
    have kept := Lib.Loop.foldlM_keeps (setupDev k nrDevs) (fun s => Unlisted s.driver)
      (setupDev_unlisted k nrDevs) (List.range nrDevs) ⟨_,0,0⟩ start
    dsimp only
    cases loop : (List.range nrDevs).foldlM (setupDev k nrDevs) ⟨_,0,0⟩ with
    | error s => exact ⟨s,rfl,kept s (.inr loop)⟩
    | ok s =>
      have directory : k.procMkdir = false := by
        rcases fails with refused | ⟨i,bound,refused⟩ | refused
        · simp [answer,Except.isOk,Except.toBool] at refused
        · obtain ⟨e,left⟩ := Lib.Loop.foldlM_refused (setupDev k nrDevs) (List.range nrDevs) ⟨_,0,0⟩ i
            (List.mem_range.mpr bound) (fun s => setupDev_refused k nrDevs s i refused)
          rw [left] at loop
          contradiction
        · exact refused
      refine ⟨{s with res := enomem},?_,kept s (.inl loop)⟩
      change testMckInitProcfs k s = _
      simp [testMckInitProcfs,directory]

def started (nrDevs : Nat) (behind : Nat → Char) (major : Nat) : Setup :=
  ⟨{(loaded nrDevs behind).record (.acquire .region) with major := major},0,0⟩

theorem setupBody_late (k : Kernel) (nrDevs : Nat) (behind : Nat → Char)
    (works : ¬EarlyFails k nrDevs) : ∃ major, k.allocChrdevRegion = .ok major ∧
      setupBody k nrDevs (loaded nrDevs behind) = testMckInitProcfs k
        ((List.range nrDevs).foldl (setUp k nrDevs) (started nrDevs behind major)) := by
  simp only [EarlyFails,not_or,not_exists,not_and,Decidable.not_not] at works
  obtain ⟨region,devices,_⟩ := works
  cases answer : k.allocChrdevRegion with
  | error e => simp [answer,Except.isOk,Except.toBool] at region
  | ok major =>
    have passes : ∀ s, ∀ i ∈ List.range nrDevs, setupDev k nrDevs s i = .ok (setUp k nrDevs s i) :=
      fun s i member => setupDev_ok k nrDevs s i (devices i (List.mem_range.mp member))
    refine ⟨major,rfl,?_⟩
    simp only [setupBody,answer]
    rw [Lib.Loop.foldlM_ok _ _ _ _ passes]
    rfl

theorem started_ready (k : Kernel) (nrDevs : Nat) (behind : Nat → Char) (major : Nat) :
    Ready k 0 (started nrDevs behind major).driver :=
  ⟨by simp [started,Driver.record,loaded],by simp [started,Driver.record,loaded],rfl⟩

/-- Init and exit settle what they acquired, and a failing init returns a
negative error, exactly if nothing before the proc entries fails. -/
theorem releases_all_iff (k : Kernel) (nrDevs : Nat) (behind : Nat → Char) :
    ReleasesAll k nrDevs (loaded nrDevs behind) ↔ ¬EarlyFails k nrDevs := by
  constructor
  · rintro ⟨failing,_⟩ fails
    obtain ⟨s,body,unlisted⟩ := setupBody_early k nrDevs behind fails
    have settled := (failing (.inl fails)).2
    simp only [testMckInit,testMckSetup,body] at settled
    exact cleanup_unsettled nrDevs s.driver unlisted settled
  · intro works
    obtain ⟨major,_,body⟩ := setupBody_late k nrDevs behind works
    have ready := setUps_ready k nrDevs nrDevs _ (started_ready k nrDevs behind major)
    have directory : k.procMkdir = true := by
      simp only [EarlyFails,not_or] at works
      simpa using works.2.2
    obtain ⟨t,settled,_,⟨ended,passed⟩ | ⟨ended,res,failed⟩⟩ :=
      testMckInitProcfs_ends k nrDevs _ ready directory
    · simp only [ReleasesAll,testMckInit,testMckSetup,testMckExit,body,ended]
      exact ⟨fun fails => absurd fails (by simp [works,passed]),fun _ => settled⟩
    · simp only [ReleasesAll,testMckInit,testMckSetup,body,ended]
      exact ⟨fun _ => ⟨by simp [res,enomem],settled⟩,fun none => absurd (.inr failed) none⟩

def classRefused : Kernel where
  allocChrdevRegion := .ok 250
  classCreate i := i != 1
  cdevAdd _ := none
  deviceCreate _ := true
  init _ := .ok false
  procMkdir := true
  procCreateData _ := true

/-- Init returns 0 when class_create fails, after a cleanup that also removed a
proc directory and a character device that were never there. -/
theorem refused_class_returns_zero :
    let after := testMckInit classRefused 3 (loaded 3 (fun _ => '\x00'))
    EarlyFails classRefused 3 ∧ after.1 = 0 ∧
      .release .procDir ∈ after.2.events ∧ .acquire .procDir ∉ after.2.events ∧
      .release (.cdev 2) ∈ after.2.events ∧ .acquire (.cdev 2) ∉ after.2.events ∧
      ¬ReleasesAll classRefused 3 (loaded 3 (fun _ => '\x00')) := by
  have fails : EarlyFails classRefused 3 := .inr (.inl ⟨1,by decide,.inl rfl⟩)
  have zero : (testMckInit classRefused 3 (loaded 3 (fun _ => '\x00'))).1 = 0 := rfl
  refine ⟨fails,zero,by decide,by decide,by decide,by decide,?_⟩
  rintro ⟨failing,_⟩
  have negative := (failing (.inl fails)).1
  rw [zero] at negative
  contradiction

end Ostest.TestDrv
