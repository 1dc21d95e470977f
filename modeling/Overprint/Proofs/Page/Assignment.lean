import Overprint.Page.Schedule
import Overprint.Proofs.Success

/-!
# What a schedule assigns

The queue of a page is a part of the script: no command is drawn that was not read.
-/

namespace Overprint.Page.Schedule

open Script

variable {script : List Command} {command : Command}

theorem pageCount_of_ofScript {pageCount : Nat} {schedule : Schedule}
    (hschedule : ofScript script pageCount = .ok schedule) : schedule.pageCount = pageCount := by
  rw [ofScript] at hschedule
  split at hschedule
  · cases hschedule
  · obtain ⟨assigned, -, hschedule⟩ := Outcome.bind_eq_ok.1 hschedule
    cases hschedule
    rfl

theorem mem_of_mem_assign {selection : Selection} {assigned : List (Selection × Command)}
    (hassign : assign selection script = .ok assigned) {entry : Selection × Command}
    (hmem : entry ∈ assigned) : entry.2 ∈ script := by
  induction script generalizing selection assigned with
  | nil =>
    cases hassign
    cases hmem
  | cons first rest ih =>
    rw [assign] at hassign
    split at hassign
    · obtain ⟨next, -, hrest⟩ := Outcome.bind_eq_ok.1 hassign
      exact List.mem_cons_of_mem first (ih hrest hmem)
    · obtain ⟨tail, hrest, hassign⟩ := Outcome.bind_eq_ok.1 hassign
      cases hassign
      rcases List.mem_cons.1 hmem with rfl | hmem
      · exact List.mem_cons_self
      · exact List.mem_cons_of_mem first (ih hrest hmem)

theorem mem_of_mem_queue {pageCount page : Nat} {schedule : Schedule}
    (hschedule : ofScript script pageCount = .ok schedule)
    (hmem : command ∈ schedule.queue page) : command ∈ script := by
  rw [ofScript] at hschedule
  split at hschedule
  · cases hschedule
  · obtain ⟨assigned, hassign, hschedule⟩ := Outcome.bind_eq_ok.1 hschedule
    cases hschedule
    obtain ⟨entry, hentry, rfl⟩ := List.mem_map.1 hmem
    exact mem_of_mem_assign hassign (List.mem_filter.1 hentry).1

end Overprint.Page.Schedule
