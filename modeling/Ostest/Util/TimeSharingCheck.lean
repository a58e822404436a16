import Ostest.Lib.Grep
import Ostest.Lib.Xargs
import Ostest.Lib.Echo
import Ostest.TestMck.TimeSharing.Runs

/-! util/check/time_sharing.000.sh on the record of a run of the test. The words in
brackets that it reads there are patterns for the shell. -/
namespace Ostest.Util.TimeSharingCheck
open Lib.Decimal Lib.Words Lib.Grep Lib.Runs Lib.Threads
open TestMck.TimeSharing

def label : Party → List Char
  | .child => "[child]".toList
  | .parent => "[parent]".toList

def text : Line → List Char
  | .running who core => label who ++ " running core ".toList ++ integer core
  | .migrating core => "[parent] child process migrate/bind to core ".toList ++ integer core
  | .binding core => "[parent] parent process bind to core ".toList ++ integer core
  | .errno number => "errno = ".toList ++ integer number
  | .moved oldMycore newMycore =>
    "[child] before migrate prevcore ".toList ++ integer oldMycore ++ ", nowcore ".toList ++
      integer newMycore
  | .notMigrated => "TP failed, not migrate child process.".toList
  | .notRequired => "[child] migrate not required.".toList
  | .loop who count => label who ++ " in loop count=".toList ++ decimal count
  | .result none => "RESULT: ok".toList
  | .result (some message) => "RESULT: ".toList ++ message.text.toList

def pattern (i : Nat) : List Char := "loop count=".toList ++ decimal i

/-- The lines that awk prints, one for each line with the pattern. -/
def printed (i : Nat) (record : List (List Char)) : List (List Char) :=
  (record.filter (occurs (pattern i))).map (fun line => (words line).headD [])

section
variable (glob : List Char → List (List Char))

/-- The array `scheduled`. -/
def scheduled (i : Nat) (record : List (List Char)) : List (List Char) :=
  let items := Lib.Xargs.items .space ((printed i record).flatMap (· ++ ['\n']))
  if items = [] then [] else expand glob (substituted (Lib.Echo.echo items))

/-- `[ $value != text ]`. With no word for the value, or with several, the test is an
error and not true. -/
def differs (value text : List Char) : Bool :=
  match expand glob value with
  | [word] => word != text
  | _ => false

def check (record : List (List Char)) (rc : Nat) : Nat :=
  (List.range 5).foldl (fun rc i =>
    if differs glob ((scheduled glob i record).getD 0 []) "[child]".toList ||
      differs glob ((scheduled glob i record).getD 1 []) "[parent]".toList
    then 1 else rc) rc
end

theorem pattern_needs (i : Nat) (c : Char) (needed : c ∈ "loop count=".toList) (line : List Char)
    (missing : c ∉ line) : occurs (pattern i) line = false :=
  occurs_foreign (pattern i) line c (List.mem_append_left _ needed) missing

theorem other_unmatched (i : Nat) (line : Line) (silent : turn line = none) :
    occurs (pattern i) (text line) = false := by
  have equals (n : Int) := integer_without n '=' rfl (by decide)
  have joined (c : Char) (first second : List Char) (left : c ∉ first) (right : c ∉ second) :
      c ∉ first ++ second := fun member => (List.mem_append.mp member).elim left right
  cases line with
  | running who core =>
    have plain : '=' ∉ label who ++ " running core ".toList := by
      cases who <;> decide
    exact pattern_needs i '=' (by decide) _ (joined _ _ _ plain (equals core))
  | migrating core | binding core =>
    exact pattern_needs i '=' (by decide) _ (joined _ _ _ (by decide) (equals core))
  | moved oldMycore newMycore =>
    have first := joined _ "[child] before migrate prevcore ".toList _ (by decide) (equals oldMycore)
    have second := joined _ _ ", nowcore ".toList first (by decide)
    exact pattern_needs i '=' (by decide) _ (joined _ _ _ second (equals newMycore))
  | errno number =>
    have letter := integer_without number 'l' rfl (by decide)
    exact pattern_needs i 'l' (by decide) _ (joined _ _ _ (by decide) letter)
  | notMigrated | notRequired => exact pattern_needs i '=' (by decide) _ (by decide)
  | loop who count => contradiction
  | result message =>
    refine pattern_needs i '=' (by decide) _ ?_
    cases message with
    | none => decide
    | some message => cases message <;> decide

theorem loop_matched : ∀ who, ∀ count < 5, ∀ i < 5,
    occurs (pattern i) (text (.loop who count)) = decide (count = i) := by
  decide

theorem loop_first (who : Party) (count : Nat) : (words (text (.loop who count))).headD [] = label who := by
  have isWord : IsWord (label who) := by
    cases who <;> decide
  have shape : text (.loop who count) = label who ++ ' ' :: ("in loop count=".toList ++ decimal count) :=
    List.append_assoc (label who) " in loop count=".toList (decimal count)
  rw [shape,words_append _ _ _ isWord rfl]
  rfl

theorem printed_cons (i : Nat) (line : List Char) (record : List (List Char)) :
    printed i (line :: record) =
      if occurs (pattern i) line then (words line).headD [] :: printed i record else printed i record := by
  unfold printed
  rw [List.filter_cons]
  split
  · rfl
  · rfl

/-- What awk finds are the turns of round `i`. -/
theorem printed_turns (i : Nat) (bound : i < 5) (record : List Line)
    (rounds : ∀ turn ∈ turns record, turn.2 < 5) :
    printed i (record.map text) = ((turns record).filter (·.2 = i)).map (label ·.1) := by
  induction record with
  | nil => rfl
  | cons line record ih =>
    rw [List.map_cons,printed_cons]
    cases found : turn line with
    | none =>
      have silent : turns (line :: record) = turns record := List.filterMap_cons_none found
      rw [silent] at rounds ⊢
      rw [other_unmatched i line found,ih rounds]
      rfl
    | some taken =>
      have listed : turns (line :: record) = taken :: turns record := List.filterMap_cons_some found
      rw [listed] at rounds ⊢
      have rest := ih (fun turn member => rounds turn (List.mem_cons_of_mem _ member))
      obtain ⟨who,count⟩ := taken
      obtain rfl : line = .loop who count := by
        cases line <;> simp_all [turn]
      rw [loop_matched who count (rounds _ List.mem_cons_self) i bound,loop_first,rest,List.filter_cons]
      by_cases same : count = i
      · simp [same]
      · simp [same]

theorem round_turns : ∀ count < 11, ∀ i < 5, ∃ shown < 3,
    (((List.range count).map alternate).filter (·.2 = i)).map (label ·.1) =
      [label .child,label .parent].take shown := by
  decide

theorem items_labels : ∀ shown < 3,
    Lib.Xargs.items .space (([label .child,label .parent].take shown).flatMap (· ++ ['\n'])) =
      [label .child,label .parent].take shown := by
  decide

theorem label_shape (who : Party) : IsWord (label who) ∧ (label who).any isPattern = true := by
  cases who <;> decide

section
variable (glob : List Char → List (List Char)) (alone : ∀ who, glob (label who) = [label who])
include alone

theorem expand_labels (parties : List Party) : expand glob (unwords (parties.map label)) = parties.map label := by
  have isWord : ∀ word ∈ parties.map label, IsWord word := List.forall_mem_map.mpr fun who _ => (label_shape who).1
  have each : ∀ word ∈ parties.map label, (if word.any isPattern then glob word else [word]) = [word] :=
    List.forall_mem_map.mpr fun who _ => by rw [if_pos (label_shape who).2,alone]
  rw [expand,words_unwords _ isWord,List.flatMap_congr each,List.flatMap_singleton']

theorem scheduled_accepted (shown : Nat) (bound : shown < 3) (i : Nat) (record : List (List Char))
    (same : printed i record = [label .child,label .parent].take shown) :
    scheduled glob i record = [label .child,label .parent].take shown := by
  have whole (parties : List Party) :
      expand glob (substituted (Lib.Echo.echo (parties.map label))) = parties.map label := by
    have isWord : ∀ word ∈ parties.map label, IsWord word := List.forall_mem_map.mpr fun who _ => (label_shape who).1
    have literal : ∀ first ∈ (parties.map label).head?, Lib.Echo.isOption first = false := by
      cases parties with
      | nil => nofun
      | cons who _ =>
        intro first leads
        obtain rfl : label who = first := by simpa using leads
        cases who <;> decide
    rw [Lib.Echo.echo_plain _ literal,substituted_line _ (newline_unwords _ isWord),expand_labels glob alone]
  unfold scheduled
  rw [same,items_labels shown bound]
  interval_cases shown
  · rfl
  · exact whole [.child]
  · exact whole [.child,.parent]

theorem differs_label (who : Party) : differs glob (label who) (label who) = false := by
  have single : expand glob (label who) = [label who] := by
    have shown := expand_labels glob alone [who]
    simpa [unwords] using shown
  rw [differs,single]
  exact bne_self_eq_false (label who)

omit alone in
theorem differs_missing (text : List Char) : differs glob [] text = false := by
  rw [differs,expand,words_nil]
  rfl

omit alone in
theorem printed_none (i : Nat) (header record : List (List Char))
    (plain : ∀ line ∈ header, occurs "loop count=".toList line = false) :
    printed i (header ++ record) = printed i record := by
  have unmatched : header.filter (occurs (pattern i)) = [] := by
    refine List.filter_eq_nil_iff.mpr (fun line member found => ?_)
    have absent := plain line member
    simp only [occurs,decide_eq_false_iff_not,decide_eq_true_eq] at absent found
    exact absent ((List.prefix_append _ _).isInfix.trans found)
  rw [printed,List.filter_append,unmatched]
  rfl

theorem check_accepts (record : List (List Char)) (rc : Nat)
    (each : ∀ i < 5, ∃ shown < 3, printed i record = [label .child,label .parent].take shown) :
    check glob record rc = rc := by
  have present := differs_label glob alone
  have missing := differs_missing glob
  have passes (i : Nat) (member : i ∈ List.range 5) (rc : Nat) :
      (if differs glob ((scheduled glob i record).getD 0 []) (label .child) ||
        differs glob ((scheduled glob i record).getD 1 []) (label .parent) then 1 else rc) = rc := by
    obtain ⟨shown,bound,same⟩ := each i (List.mem_range.mp member)
    rw [scheduled_accepted glob alone shown bound i record same,if_neg]
    interval_cases shown
    · simp [missing]
    · simp [missing,present]
    · simp [present]
  change (List.range 5).foldl (fun rc i => if differs glob ((scheduled glob i record).getD 0 []) (label .child) ||
    differs glob ((scheduled glob i record).getD 1 []) (label .parent) then 1 else rc) rc = rc
  generalize List.range 5 = list at passes
  induction list generalizing rc with
  | nil => rfl
  | cons i list ih =>
    rw [List.foldl_cons,passes i List.mem_cons_self]
    exact ih rc (fun i member => passes i (List.mem_cons_of_mem _ member))

/-- Whatever the kernel does and however the two are scheduled, the check finds
nothing wrong with the record, whenever it is looked at, unless the directory has a
file whose name is one of the letters in the brackets. -/
theorem check_accepts_runs (header : List (List Char))
    (plain : ∀ line ∈ header, occurs "loop count=".toList line = false)
    (actions : List (Action Party Request.Answer)) (world : System)
    (computed : run (step serve) actions start = some world) (rc : Nat) :
    check glob (header ++ world.shared.record.map text) rc = rc := by
  obtain ⟨count,most,taken⟩ := run_alternates actions world computed
  have rounds : ∀ turn ∈ turns world.shared.record, turn.2 < 5 := by
    rw [taken]
    intro turn member
    obtain ⟨k,inside,rfl⟩ := List.mem_map.mp member
    have bound := List.mem_range.mp inside
    change k/2 < 5
    omega
  apply check_accepts glob alone
  intro i bound
  rw [printed_none i header _ plain,printed_turns i bound _ rounds,taken]
  exact round_turns count (by omega) i bound
end

/-- The parent waits forever for a child that has not migrated. -/
theorem check_accepts_runs_unmoved :
    ∃ world, run (step serve) (handshake 1 ++ acts .child 1 3) start = some world ∧
      check (fun word => [word]) (["TEST_SUITE: time_sharing".toList] ++ world.shared.record.map text) 0 = 0 := by
  obtain ⟨world,computed⟩ := Option.isSome_iff_exists.mp
    (show (run (step serve) (handshake 1 ++ acts .child 1 3) start).isSome = true from rfl)
  exact ⟨world,computed,check_accepts_runs (fun word => [word]) (fun _ => rfl) ["TEST_SUITE: time_sharing".toList]
    (by decide) _ world computed 0⟩

end Ostest.Util.TimeSharingCheck
