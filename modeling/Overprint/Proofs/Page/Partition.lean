import Overprint.Page.Schedule
import Overprint.Proofs.Success

/-!
# What a page is given, position by position

The walk over a script carries the selection in force. Seen from a position of the script, that
selection is the one of the last `pages` command before the position, or the first page alone if
there is none. The queue of a page is therefore a filter of the positions, each looked at by itself.
-/

namespace Overprint.Page.Schedule

open Script

def lastSelector? (commands : List Command) : Option Command :=
  commands.reverse.find? fun command => command.verb = .pages

/-- Whether a page is selected at the end of some commands. -/
def selectedAfter (pageCount : Nat) (before : List Command) (page : Nat) : Bool :=
  match lastSelector? before with
  | none => page = 1
  | some selector =>
    match Selection.ofTokens pageCount selector.operands with
    | .ok selection => selection.contains page
    | .error _ => false

/-- The commands of a script at the positions where a page is selected. -/
def commandsFor (script : List Command) (pageCount page : Nat) : List Command :=
  (script.zipIdx.filter fun (command, index) =>
    command.verb ≠ .pages && selectedAfter pageCount (script.take index) page).map (·.1)

theorem lastSelector?_concat (before : List Command) (command : Command) :
    lastSelector? (before ++ [command]) =
      if command.verb = .pages then some command else lastSelector? before := by
  rw [lastSelector?, List.reverse_append, List.reverse_singleton, List.singleton_append,
    List.find?_cons]
  by_cases hverb : command.verb = .pages
  · simp [hverb]
  · simp [hverb, lastSelector?]

theorem selectedAfter_nil (pageCount page : Nat) :
    selectedAfter pageCount [] page = decide (page = 1) := rfl

theorem selectedAfter_concat_of_ne {command : Command} (hverb : command.verb ≠ .pages)
    (pageCount : Nat) (before : List Command) (page : Nat) :
    selectedAfter pageCount (before ++ [command]) page = selectedAfter pageCount before page := by
  rw [selectedAfter, selectedAfter, lastSelector?_concat, if_neg hverb]

theorem selectedAfter_concat_selector {selector : Command} {pageCount : Nat} {selection : Selection}
    (hverb : selector.verb = .pages)
    (hselection : Selection.ofTokens pageCount selector.operands = .ok selection)
    (before : List Command) (page : Nat) :
    selectedAfter pageCount (before ++ [selector]) page = selection.contains page := by
  rw [selectedAfter, lastSelector?_concat, if_pos hverb]
  simp only [hselection]

theorem contains_initial {pageCount : Nat} (hpages : 1 ≤ pageCount) (page : Nat) :
    (Selection.initial pageCount).contains page = decide (page = 1) := by
  simp only [Selection.contains, Selection.initial, List.any_cons, List.any_nil, Bool.or_false,
    Span.covers, Option.all_some]
  by_cases hpage : page = 1
  · subst hpage
    simp [hpages]
  · have houtside : ¬ (1 ≤ page ∧ page ≤ 1) := by omega
    simp [hpage]
    omega

theorem pageCount_of_ofTokens {pageCount : Nat} {tokens : List Operand} {selection : Selection}
    (hselection : Selection.ofTokens pageCount tokens = .ok selection) :
    selection.pageCount = pageCount := by
  obtain ⟨spans, -, hselection⟩ := Outcome.bind_eq_ok.1 hselection
  cases hselection
  rfl

theorem assign_selector {selector : Command} (hverb : selector.verb = .pages)
    (selection : Selection) (rest : List Command) :
    assign selection (selector :: rest) =
      Selection.ofTokens selection.pageCount selector.operands >>= fun next => assign next rest := by
  rw [assign, if_pos hverb]

theorem assign_command {command : Command} (hverb : command.verb ≠ .pages)
    (selection : Selection) (rest : List Command) :
    assign selection (command :: rest) =
      assign selection rest >>= fun tail => .ok ((selection, command) :: tail) := by
  rw [assign, if_neg hverb]
  rfl

/-- What is assigned after some commands, under the selection that they leave in force. -/
theorem queue_of_assign {pageCount page : Nat} {before rest : List Command} {selection : Selection}
    {assigned : List (Selection × Command)} (hassign : assign selection rest = .ok assigned)
    (hcount : selection.pageCount = pageCount)
    (hforce : selection.contains page = selectedAfter pageCount before page) :
    (assigned.filter (·.1.contains page)).map (·.2) =
      ((rest.zipIdx before.length).filter fun (command, index) => command.verb ≠ .pages &&
        selectedAfter pageCount ((before ++ rest).take index) page).map (·.1) := by
  induction rest generalizing before selection assigned with
  | nil =>
    cases hassign
    rfl
  | cons command rest ih =>
    have hsplit : before ++ command :: rest = (before ++ [command]) ++ rest := by simp
    have hlength : before.length + 1 = (before ++ [command]).length := by simp
    have htake : (before ++ command :: rest).take before.length = before := List.take_left
    rw [List.zipIdx_cons, List.filter_cons]
    by_cases hverb : command.verb = .pages
    · rw [assign_selector hverb] at hassign
      obtain ⟨next, hnext, hrest⟩ := Outcome.bind_eq_ok.1 hassign
      rw [hcount] at hnext
      have hnow := selectedAfter_concat_selector hverb hnext before page
      have htail := ih hrest (pageCount_of_ofTokens hnext) hnow.symm
      rw [if_neg (by simp [hverb]), hsplit, hlength]
      exact htail
    · rw [assign_command hverb] at hassign
      obtain ⟨tail, hrest, hassign⟩ := Outcome.bind_eq_ok.1 hassign
      cases hassign
      have hsame := selectedAfter_concat_of_ne hverb pageCount before page
      have htail := ih hrest hcount (hforce.trans hsame.symm)
      rw [← hsplit, ← hlength] at htail
      simp only [htake, List.filter_cons, ← hforce]
      cases hcontains : selection.contains page with
      | true => simp [hverb, htail]
      | false => simp [htail]

/-- Why a command cannot change the selection, if it is to. -/
def selectorFault? (pageCount : Nat) (command : Command) : Option Failure :=
  if command.verb = .pages then
    match Selection.ofTokens pageCount command.operands with
    | .ok _ => none
    | .error failure => some failure
  else none

section Faults

variable {pageCount : Nat} {command : Command}

theorem selectorFault?_eq_some_iff {failure : Failure} :
    selectorFault? pageCount command = some failure ↔ command.verb = .pages ∧
      Selection.ofTokens pageCount command.operands = .error failure := by
  rw [selectorFault?]
  by_cases hverb : command.verb = .pages
  · rw [if_pos hverb, and_iff_right hverb]
    cases Selection.ofTokens pageCount command.operands <;> simp
  · simp [hverb]

theorem selectorFault?_eq_none_iff : selectorFault? pageCount command = none ↔
    (command.verb = .pages → (Selection.ofTokens pageCount command.operands).Succeeds) := by
  rw [selectorFault?]
  by_cases hverb : command.verb = .pages
  · rw [if_pos hverb]
    cases Selection.ofTokens pageCount command.operands <;> simp [hverb, Outcome.Succeeds]
  · simp [hverb]

/-- A walk ends in the failure of the first selector that has one. -/
theorem assign_endsIn (selection : Selection) (script : List Command) :
    (assign selection script).EndsIn (script.findSome? (selectorFault? selection.pageCount)) := by
  induction script generalizing selection with
  | nil => exact ⟨[], rfl⟩
  | cons command rest ih =>
    rw [List.findSome?_cons]
    by_cases hverb : command.verb = .pages
    · rw [assign_selector hverb, selectorFault?, if_pos hverb]
      cases hnext : Selection.ofTokens selection.pageCount command.operands with
      | error failure => exact rfl
      | ok next =>
        have hrest := ih next
        rw [pageCount_of_ofTokens hnext] at hrest
        exact hrest
    · rw [assign_command hverb, selectorFault?, if_neg hverb]
      exact (ih selection).bind_succeeds fun tail _ => .pure _

theorem ofScript_endsIn (hpages : 1 ≤ pageCount) (script : List Command) :
    (ofScript script pageCount).EndsIn (script.findSome? (selectorFault? pageCount)) := by
  rw [ofScript, if_neg (by omega)]
  exact (assign_endsIn (Selection.initial pageCount) script).bind_succeeds fun assigned _ => .pure _

end Faults

section Queues

variable {pageCount page : Nat} {script : List Command} {schedule : Schedule}

theorem queue_of_ofScript (hpages : 1 ≤ pageCount) (hscript : ofScript script pageCount = .ok schedule)
    (page : Nat) : schedule.queue page = commandsFor script pageCount page := by
  rw [ofScript, if_neg (by omega)] at hscript
  obtain ⟨assigned, hassign, hscript⟩ := Outcome.bind_eq_ok.1 hscript
  cases hscript
  have hforce : (Selection.initial pageCount).contains page = selectedAfter pageCount [] page := by
    rw [contains_initial hpages, selectedAfter_nil]
  have hqueue := queue_of_assign hassign rfl hforce
  rw [queue, hqueue]
  rfl

theorem selectedAfter_of_outside (hpages : 1 ≤ pageCount) (houtside : page = 0 ∨ pageCount < page)
    (before : List Command) : selectedAfter pageCount before page = false := by
  rw [selectedAfter]
  split
  next =>
    rw [decide_eq_false_iff_not]
    omega
  next selector _ =>
    split
    next selection hselection =>
      have hcount := pageCount_of_ofTokens hselection
      rw [Selection.contains, hcount]
      rcases houtside with rfl | houtside
      · rfl
      · simp
        omega
    next => rfl

theorem commandsFor_of_outside (hpages : 1 ≤ pageCount) (houtside : page = 0 ∨ pageCount < page)
    (script : List Command) : commandsFor script pageCount page = [] := by
  rw [commandsFor, List.map_eq_nil_iff, List.filter_eq_nil_iff]
  intro entry _
  simp [selectedAfter_of_outside hpages houtside]

/-- A script is divided among the pages of a document unless one of its selectors cannot be read, and
then the first such selector says why. A page gets the commands at the positions where the last
selector before selects it; where no selector has come yet, the first page gets them. -/
theorem ofScript_partitions (hpages : 1 ≤ pageCount) (script : List Command) :
    ((ofScript script pageCount).Succeeds ↔ ∀ command ∈ script, command.verb = .pages →
      (Selection.ofTokens pageCount command.operands).Succeeds) ∧
    (∀ failure, ofScript script pageCount = .error failure ↔
      ∃ before selector after, script = before ++ selector :: after ∧
        selector.verb = .pages ∧
        Selection.ofTokens pageCount selector.operands = .error failure ∧
        ∀ earlier ∈ before, earlier.verb = .pages →
          (Selection.ofTokens pageCount earlier.operands).Succeeds) ∧
    ∀ schedule, ofScript script pageCount = .ok schedule →
      (∀ page, schedule.queue page = commandsFor script pageCount page) ∧
      ∀ page, page = 0 ∨ pageCount < page → schedule.queue page = [] := by
  have hends := ofScript_endsIn hpages script
  refine ⟨?_, fun failure => ?_, fun schedule hschedule => ⟨?_, fun page houtside => ?_⟩⟩
  · rw [hends.succeeds_iff, List.findSome?_eq_none_iff]
    simp only [selectorFault?_eq_none_iff]
  · rw [hends.eq_error_iff, List.findSome?_eq_some_iff]
    simp only [selectorFault?_eq_some_iff, selectorFault?_eq_none_iff, and_assoc]
  · exact queue_of_ofScript hpages hschedule
  · rw [queue_of_ofScript hpages hschedule, commandsFor_of_outside hpages houtside]

end Queues

/-- Three commands among two selectors, on three pages. -/
theorem ofScript_partitions_by_two_selectors :
    let script : List Command := [{ verb := .fill }, { verb := .pages, operands := [⟨"2-"⟩] },
      { verb := .stroke }, { verb := .pages, operands := [⟨"1"⟩, ⟨"3"⟩] }, { verb := .endPath }]
    1 ≤ 3 ∧ ∃ schedule, ofScript script 3 = .ok schedule ∧
      schedule.queue 1 = [{ verb := .fill }, { verb := .endPath }] ∧
      schedule.queue 2 = [{ verb := .stroke }] ∧
      schedule.queue 3 = [{ verb := .stroke }, { verb := .endPath }] ∧
      schedule.queue 4 = [] := by
  intro script
  obtain ⟨hsucceeds, -, hqueues⟩ := ofScript_partitions (by decide : 1 ≤ 3) script
  have hselectors : ∀ command ∈ script, command.verb = .pages →
      (Selection.ofTokens 3 command.operands).Succeeds := by
    intro command hmem _
    simp only [script, List.mem_cons, List.not_mem_nil, or_false] at hmem
    rcases hmem with rfl | rfl | rfl | rfl | rfl <;> exact ⟨_, rfl⟩
  obtain ⟨schedule, hschedule⟩ := hsucceeds.2 hselectors
  obtain ⟨hqueue, houtside⟩ := hqueues schedule hschedule
  refine ⟨by decide, schedule, hschedule, ?_, ?_, ?_, houtside 4 (by decide)⟩
  · rw [hqueue]
    decide +kernel
  · rw [hqueue]
    decide +kernel
  · rw [hqueue]
    decide +kernel

end Overprint.Page.Schedule
