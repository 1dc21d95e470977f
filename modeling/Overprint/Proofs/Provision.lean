import Overprint.Proofs.Script.Admission
import Overprint.Stock

/-!
# What loading leaves at hand

A command names at most one font or picture. Loading a script puts what each of its commands names
into the stock, and no later request takes anything out again; so whatever part of the script is
drawn afterwards, and on whatever page, finds what it names.
-/

namespace Overprint

open Script

def Script.Command.request? (command : Command) : Option Request :=
  match command.verb with
  | .image => command.operands[0]?.map fun path => .picture path.text
  | .fontFile => command.operands[0]?.map fun name => .font name.text
  | .text => (command.setting? "ff").map fun name => .font name.text
  | _ => none

namespace Stock

def Provides (stock : Stock) : Request → Prop
  | .font name => (stock.fonts.get? name).isSome
  | .picture path => (stock.pictures.get? path).isSome

variable {library : Library} {stock after : Stock}

theorem addFont_ok {name : String} (hadd : (stock.addFont library name).outcome = .ok after) :
    after.Provides (.font name) ∧ ∀ request, stock.Provides request → after.Provides request := by
  rw [addFont] at hadd
  split at hadd
  next hcontains =>
    cases hadd
    exact ⟨hcontains, fun _ h => h⟩
  next =>
    obtain ⟨_, _, hadd⟩ := Traced.outcome_bind_eq_ok.1 hadd
    obtain ⟨font, _, hadd⟩ := Traced.outcome_bind_eq_ok.1 hadd
    cases hadd
    refine ⟨?_, fun request h => ?_⟩
    · rw [Provides, SortedMap.get?_insert_self, Option.isSome_some]
    · cases request with
      | font other => exact SortedMap.isSome_get?_insert h
      | picture path => exact h

theorem addPicture_ok {path : String}
    (hadd : (stock.addPicture library path).outcome = .ok after) :
    after.Provides (.picture path) ∧
      ∀ request, stock.Provides request → after.Provides request := by
  rw [addPicture] at hadd
  split at hadd
  next hcontains =>
    cases hadd
    exact ⟨hcontains, fun _ h => h⟩
  next =>
    obtain ⟨_, _, hadd⟩ := Traced.outcome_bind_eq_ok.1 hadd
    obtain ⟨picture, _, hadd⟩ := Traced.outcome_bind_eq_ok.1 hadd
    cases hadd
    refine ⟨?_, fun request h => ?_⟩
    · rw [Provides, SortedMap.get?_insert_self, Option.isSome_some]
    · cases request with
      | font name => exact h
      | picture other => exact SortedMap.isSome_get?_insert h

private theorem provides_of_eq_some {request? : Option Request} {request : Request}
    (hrequest : request? = some request) (hprovides : stock.Provides request) :
    ∀ request ∈ request?, stock.Provides request := by
  intro other hmem
  rw [hrequest] at hmem
  cases hmem
  exact hprovides

private theorem provides_of_eq_none {request? : Option Request} (hrequest : request? = none) :
    ∀ request ∈ request?, stock.Provides request := by
  intro other hmem
  rw [hrequest] at hmem
  cases hmem

theorem supply_ok {command : Command}
    (hsupply : (stock.supply library command).outcome = .ok after) :
    (∀ request ∈ command.request?, after.Provides request) ∧
      ∀ request, stock.Provides request → after.Provides request := by
  rw [supply] at hsupply
  split at hsupply
  next hverb =>
    obtain ⟨path, hpath, hadd⟩ := Traced.outcome_bind_eq_ok.1 hsupply
    obtain ⟨hprovides, hkept⟩ := addPicture_ok hadd
    have hrequest : command.request? = some (.picture path.text) := by
      rw [Command.request?, hverb, Command.operand_eq_ok.1 hpath]
      rfl
    exact ⟨provides_of_eq_some hrequest hprovides, hkept⟩
  next hverb =>
    obtain ⟨name, hname, hadd⟩ := Traced.outcome_bind_eq_ok.1 hsupply
    obtain ⟨hprovides, hkept⟩ := addFont_ok hadd
    have hrequest : command.request? = some (.font name.text) := by
      rw [Command.request?, hverb, Command.operand_eq_ok.1 hname]
      rfl
    exact ⟨provides_of_eq_some hrequest hprovides, hkept⟩
  next hverb =>
    split at hsupply
    next name hname =>
      obtain ⟨hprovides, hkept⟩ := addFont_ok hsupply
      have hrequest : command.request? = some (.font name.text) := by
        rw [Command.request?, hverb]
        simp only [hname, Option.map_some]
      exact ⟨provides_of_eq_some hrequest hprovides, hkept⟩
    next hnone =>
      cases hsupply
      have hrequest : command.request? = none := by
        rw [Command.request?, hverb]
        simp only [hnone, Option.map_none]
      exact ⟨provides_of_eq_none hrequest, fun _ h => h⟩
  next himage hfont htext =>
    cases hsupply
    have hrequest : command.request? = none := by
      rw [Command.request?]
      split
      · exact absurd ‹_› himage
      · exact absurd ‹_› hfont
      · exact absurd ‹_› htext
      · rfl
    exact ⟨provides_of_eq_none hrequest, fun _ h => h⟩

theorem provides_of_foldlM_supply {script : List Command} {stock after : Stock}
    (hfold : (script.foldlM (supply library) stock).outcome = .ok after) :
    (∀ command ∈ script, ∀ request ∈ command.request?, after.Provides request) ∧
      ∀ request, stock.Provides request → after.Provides request := by
  induction script generalizing stock with
  | nil =>
    cases hfold
    exact ⟨fun _ hmem => absurd hmem List.not_mem_nil, fun _ h => h⟩
  | cons command rest ih =>
    rw [List.foldlM_cons] at hfold
    obtain ⟨next, hsupply, hfold⟩ := Traced.outcome_bind_eq_ok.1 hfold
    obtain ⟨hcommand, hkept⟩ := supply_ok hsupply
    obtain ⟨hrest, hlater⟩ := ih hfold
    refine ⟨fun other hmem request hrequest => ?_, fun request h => hlater request (hkept request h)⟩
    rcases List.mem_cons.1 hmem with rfl | hmem
    · exact hlater request (hcommand request hrequest)
    · exact hrest other hmem request hrequest

theorem provides_of_load {defaultFont? : Option String} {script : List Command}
    (hload : (load library defaultFont? script).outcome = .ok stock) :
    ∀ command ∈ script, ∀ request ∈ command.request?, stock.Provides request := by
  obtain ⟨_, _, hfold⟩ := Traced.outcome_bind_eq_ok.1 hload
  exact (provides_of_foldlM_supply hfold).1

theorem font_succeeds {name : String} (hprovides : stock.Provides (.font name)) :
    (stock.font name).Succeeds := by
  obtain ⟨font, hfont⟩ := Option.isSome_iff_exists.1 hprovides
  exact ⟨font, by rw [Stock.font, hfont]⟩

theorem picture_succeeds {path : String} (hprovides : stock.Provides (.picture path)) :
    (stock.picture path).Succeeds := by
  obtain ⟨picture, hpicture⟩ := Option.isSome_iff_exists.1 hprovides
  exact ⟨picture, by rw [Stock.picture, hpicture]⟩

end Stock

end Overprint
