import Overprint.Proofs.Drawing.Provenance
import Overprint.Proofs.Provision

/-!
# What loading asks for

A script refers to fonts and pictures, often to one of them many times. Loading asks for each of them
when it is first referred to and never again, and stops at the first request that is refused. What it
asks for is therefore read off the references: they are taken in order, each for the first time it
occurs. The selectors of a script refer to nothing, so the pages play no part in it.
-/

namespace Overprint

open Script

/-- A command that is to name a font or picture by its first operand has one. -/
def Script.Command.IsNamed (command : Command) : Prop :=
  command.verb = .image ∨ command.verb = .fontFile → command.operands ≠ []

namespace Library

def refusal? (library : Library) : Request → Option Failure
  | .font name =>
    match library.font name with
    | .ok _ => none
    | .error failure => some failure
  | .picture path =>
    match library.picture path with
    | .ok _ => none
    | .error failure => some failure

/-- A library that gives for a request what another one gives. -/
def Follows (library followed : Library) : Request → Prop
  | .font name => ∀ font, followed.font name = .ok font → library.font name = .ok font
  | .picture path =>
    ∀ picture, followed.picture path = .ok picture → library.picture path = .ok picture

/-- The requests up to the first one that is refused, and that one. -/
def calls (library : Library) : List Request → List Request
  | [] => []
  | request :: rest =>
    request :: if (library.refusal? request).isSome then [] else library.calls rest

end Library

namespace Stock

variable {library : Library} {stock after : Stock} {request : Request}

/-- What a script refers to, in order and as often as it does. The default font comes first. -/
def references (defaultFont? : Option String) (script : List Command) : List Request :=
  (defaultFont?.map Request.font).toList ++ script.filterMap Command.request?

instance (stock : Stock) : DecidablePred stock.Provides
  | .font name => inferInstanceAs (Decidable ((stock.fonts.get? name).isSome = true))
  | .picture path => inferInstanceAs (Decidable ((stock.pictures.get? path).isSome = true))

/-- Loads what a request asks for unless it is there. -/
def ask (library : Library) (stock : Stock) : Request → Traced Request Stock
  | .font name => stock.addFont library name
  | .picture path => stock.addPicture library path

def take (library : Library) (stock : Stock) : Request → Outcome Stock
  | .font name => do
    return { stock with fonts := stock.fonts.insert name (← library.font name) }
  | .picture path => do
    return { stock with pictures := stock.pictures.insert path (← library.picture path) }

theorem ask_of_provides (hprovides : stock.Provides request) :
    stock.ask library request = pure stock := by
  cases request with
  | font name =>
    have hcontains : stock.fonts.contains name := hprovides
    rw [ask, addFont, if_pos hcontains]
  | picture path =>
    have hcontains : stock.pictures.contains path := hprovides
    rw [ask, addPicture, if_pos hcontains]

theorem ask_of_not_provides (hmissing : ¬ stock.Provides request) :
    stock.ask library request = ⟨[request], stock.take library request⟩ := by
  cases request with
  | font name =>
    have hcontains : ¬ stock.fonts.contains name := hmissing
    rw [ask, addFont, if_neg hcontains, take]
    cases library.font name <;> rfl
  | picture path =>
    have hcontains : ¬ stock.pictures.contains path := hmissing
    rw [ask, addPicture, if_neg hcontains, take]
    cases library.picture path <;> rfl

theorem refusal?_of_take_error {failure : Failure}
    (htake : stock.take library request = .error failure) :
    library.refusal? request = some failure := by
  cases request with
  | font name =>
    cases hfont : library.font name with
    | ok font => simp only [take, hfont] at htake; cases htake
    | error found =>
      simp only [take, hfont] at htake
      cases htake
      simp only [Library.refusal?, hfont]
  | picture path =>
    cases hpicture : library.picture path with
    | ok picture => simp only [take, hpicture] at htake; cases htake
    | error found =>
      simp only [take, hpicture] at htake
      cases htake
      simp only [Library.refusal?, hpicture]

theorem refusal?_of_take_ok (htake : stock.take library request = .ok after) :
    library.refusal? request = none := by
  cases request with
  | font name =>
    obtain ⟨font, hfont, -⟩ := Outcome.bind_eq_ok.1 htake
    simp only [Library.refusal?, hfont]
  | picture path =>
    obtain ⟨picture, hpicture, -⟩ := Outcome.bind_eq_ok.1 htake
    simp only [Library.refusal?, hpicture]

theorem provides_take (htake : stock.take library request = .ok after) (other : Request) :
    after.Provides other ↔ other = request ∨ stock.Provides other := by
  cases request with
  | font name =>
    obtain ⟨font, -, htake⟩ := Outcome.bind_eq_ok.1 htake
    cases htake
    cases other with
    | font probe =>
      by_cases hprobe : probe = name
      · simp [Provides, hprobe]
      · simp [Provides, SortedMap.get?_insert_of_ne hprobe, hprobe]
    | picture path => simp [Provides]
  | picture path =>
    obtain ⟨picture, -, htake⟩ := Outcome.bind_eq_ok.1 htake
    cases htake
    cases other with
    | font name => simp [Provides]
    | picture probe =>
      by_cases hprobe : probe = path
      · simp [Provides, hprobe]
      · simp [Provides, SortedMap.get?_insert_of_ne hprobe, hprobe]

/-- The references to what is not at hand, each at its first occurrence. -/
def missing (stock : Stock) (references : List Request) : List Request :=
  (references.filter fun request => ¬ stock.Provides request).eraseDups

theorem not_provides_empty (request : Request) : ¬ Provides {} request := by
  cases request <;> simp [Provides, EmptyCollection.emptyCollection]

theorem missing_empty (references : List Request) :
    missing {} references = references.eraseDups := by
  rw [missing, List.filter_eq_self.2 fun request _ => by simp [not_provides_empty request]]

theorem missing_cons_of_provides (hprovides : stock.Provides request) (rest : List Request) :
    stock.missing (request :: rest) = stock.missing rest := by
  rw [missing, List.filter_cons_of_neg (by simpa using hprovides), missing]

theorem missing_cons_of_not_provides (hmissing : ¬ stock.Provides request) (rest : List Request) :
    stock.missing (request :: rest) = request ::
      (rest.filter fun other => ¬ (other = request ∨ stock.Provides other)).eraseDups := by
  rw [missing, List.filter_cons_of_pos (by simpa using hmissing), List.eraseDups_cons,
    List.filter_filter]
  simp [BEq.beq]

/-- Work that loads what some references are to: it asks for what is not at hand, up to the first
request that is refused, and in the end everything is at hand. -/
structure Loads (library : Library) (stock : Stock) (references : List Request)
    (work : Traced Request Stock) : Prop where
  trace : work.trace = library.calls (stock.missing references)
  ends : work.outcome.EndsIn ((stock.missing references).findSome? library.refusal?)
  provides : ∀ after, work.outcome = .ok after →
    ∀ request, after.Provides request ↔ request ∈ references ∨ stock.Provides request

theorem loads_nil (library : Library) (stock : Stock) : Loads library stock [] (pure stock) where
  trace := rfl
  ends := ⟨stock, rfl⟩
  provides after hafter request := by
    cases hafter
    simp

/-- One reference and then others. -/
theorem loads_cons {rest : List Request} {next : Stock → Traced Request Stock}
    (hnext : ∀ after, (stock.ask library request).outcome = .ok after →
      Loads library after rest (next after)) :
    Loads library stock (request :: rest) (stock.ask library request >>= next) := by
  by_cases hprovides : stock.Provides request
  · rw [ask_of_provides hprovides] at hnext ⊢
    obtain ⟨htrace, hends, hafter⟩ := hnext stock rfl
    rw [pure_bind]
    refine ⟨?_, ?_, fun after hok other => ?_⟩
    · rw [htrace, missing_cons_of_provides hprovides]
    · rwa [missing_cons_of_provides hprovides]
    · rw [hafter after hok other, List.mem_cons, or_assoc, iff_comm, or_iff_right_iff_imp]
      rintro rfl
      exact .inr hprovides
  · have hmissing := missing_cons_of_not_provides hprovides rest
    rw [ask_of_not_provides hprovides] at hnext ⊢
    cases htake : stock.take library request with
    | error failure =>
      rw [Traced.bind_of_error next rfl]
      refine ⟨?_, ?_, fun after hok => by cases hok⟩
      · simp [hmissing, Library.calls, refusal?_of_take_error htake]
      · rw [hmissing, List.findSome?_cons, refusal?_of_take_error htake]
        rfl
    | ok after =>
      obtain ⟨htrace, hends, hlast⟩ := hnext after htake
      have hrest : (rest.filter fun other => ¬ (other = request ∨ stock.Provides other)).eraseDups =
          after.missing rest := by
        simp only [missing, provides_take htake]
      rw [hrest] at hmissing
      rw [Traced.bind_of_ok next rfl]
      refine ⟨?_, ?_, fun result hok other => ?_⟩
      · simp [hmissing, Library.calls, refusal?_of_take_ok htake, htrace]
      · rwa [hmissing, List.findSome?_cons, refusal?_of_take_ok htake]
      · rw [hlast result hok other, provides_take htake, List.mem_cons, or_left_comm, or_assoc]

theorem loads_foldlM_ask (library : Library) (references : List Request) (stock : Stock) :
    Loads library stock references (references.foldlM (ask library) stock) := by
  induction references generalizing stock with
  | nil => exact loads_nil library stock
  | cons request rest ih =>
    rw [List.foldlM_cons]
    exact loads_cons fun after _ => ih after

theorem supply_of_isNamed {command : Command} (hnamed : command.IsNamed) (library : Library)
    (stock : Stock) : stock.supply library command =
      match command.request? with
      | some request => stock.ask library request
      | none => pure stock := by
  cases hverb : command.verb with
  | image =>
    obtain ⟨path, rest, hpath⟩ := List.exists_cons_of_ne_nil (hnamed (.inl hverb))
    simp only [supply, Command.request?, hverb, Command.operand, hpath, List.getElem?_cons_zero,
      Option.map_some, Traced.lift_ok_bind, ask]
  | fontFile =>
    obtain ⟨name, rest, hname⟩ := List.exists_cons_of_ne_nil (hnamed (.inr hverb))
    simp only [supply, Command.request?, hverb, Command.operand, hname, List.getElem?_cons_zero,
      Option.map_some, Traced.lift_ok_bind, ask]
  | text =>
    simp only [supply, Command.request?, hverb]
    cases command.setting? "ff" <;> rfl
  | _ => simp only [supply, Command.request?, hverb]

theorem foldlM_supply_eq {script : List Command} (hnamed : ∀ command ∈ script, command.IsNamed)
    (library : Library) (stock : Stock) : script.foldlM (supply library) stock =
      (script.filterMap Command.request?).foldlM (ask library) stock := by
  induction script generalizing stock with
  | nil => rfl
  | cons command rest ih =>
    obtain ⟨hcommand, hrest⟩ := List.forall_mem_cons.1 hnamed
    rw [List.foldlM_cons, supply_of_isNamed hcommand, List.filterMap_cons]
    cases command.request? with
    | none => rw [pure_bind, ih hrest]
    | some request =>
      rw [List.foldlM_cons]
      simp only [ih hrest]

/-- The font that is in force at the start is not looked at by anything that is loaded later. -/
theorem loads_withDefaultFont {references : List Request} {work : Traced Request Stock} {face : Font}
    (hwork : Loads library { stock with defaultFont := face } references work) :
    Loads library stock references work := by
  have hprovides (request : Request) :
      ({ stock with defaultFont := face } : Stock).Provides request ↔ stock.Provides request := by
    cases request <;> rfl
  have hmissing : ({ stock with defaultFont := face } : Stock).missing references =
      stock.missing references := by
    simp only [missing, hprovides]
  obtain ⟨htrace, hends, hafter⟩ := hwork
  rw [hmissing] at htrace hends
  exact ⟨htrace, hends, fun after hok request => by rw [hafter after hok, hprovides]⟩

theorem loads_load (library : Library) (defaultFont? : Option String) {script : List Command}
    (hnamed : ∀ command ∈ script, command.IsNamed) :
    Loads library {} (references defaultFont? script) (load library defaultFont? script) := by
  cases defaultFont? with
  | none =>
    have hload : load library none script =
        (script.filterMap Command.request?).foldlM (ask library) {} := by
      rw [load, withDefault, pure_bind, foldlM_supply_eq hnamed]
    rw [hload]
    exact loads_foldlM_ask library _ {}
  | some name =>
    rw [load, withDefault, bind_assoc]
    show Loads library {} (.font name :: script.filterMap Command.request?)
      (ask library {} (.font name) >>= _)
    refine loads_cons fun after hask => ?_
    obtain ⟨font, hfont⟩ := font_succeeds (addFont_ok hask).1
    rw [hfont, Traced.lift_ok_bind, pure_bind, foldlM_supply_eq hnamed]
    exact loads_withDefaultFont (loads_foldlM_ask library _ _)

/-- The selectors of a script load nothing. -/
theorem foldlM_supply_filter (library : Library) (script : List Command) (stock : Stock) :
    (script.filter (·.verb ≠ .pages)).foldlM (supply library) stock =
      script.foldlM (supply library) stock := by
  induction script generalizing stock with
  | nil => rfl
  | cons command rest ih =>
    by_cases hverb : command.verb = .pages
    · have hsupply : stock.supply library command = pure stock := by simp only [supply, hverb]
      rw [List.filter_cons_of_neg (by simp [hverb]), List.foldlM_cons, hsupply, pure_bind, ih]
    · rw [List.filter_cons_of_pos (by simp [hverb]), List.foldlM_cons, List.foldlM_cons]
      simp only [ih]

/-- What a stock provides that was loaded from a library is what the library gives. -/
theorem Matches.get?_iff {face : Font} (hmatches : stock.Matches library face) :
    (∀ name font, stock.fonts.get? name = some font ↔
      stock.Provides (.font name) ∧ library.font name = .ok font) ∧
    ∀ path picture, stock.pictures.get? path = some picture ↔
      stock.Provides (.picture path) ∧ library.picture path = .ok picture := by
  refine ⟨fun name font => ⟨fun hget => ?_, ?_⟩, fun path picture => ⟨fun hget => ?_, ?_⟩⟩
  · exact ⟨Option.isSome_iff_exists.2 ⟨font, hget⟩, hmatches.fonts name font hget⟩
  · rintro ⟨hprovides, hfont⟩
    obtain ⟨found, hfound⟩ := Option.isSome_iff_exists.1 hprovides
    rw [hmatches.fonts name found hfound, Except.ok.injEq] at hfont
    rw [hfound, hfont]
  · exact ⟨Option.isSome_iff_exists.2 ⟨picture, hget⟩, hmatches.pictures path picture hget⟩
  · rintro ⟨hprovides, hpicture⟩
    obtain ⟨found, hfound⟩ := Option.isSome_iff_exists.1 hprovides
    rw [hmatches.pictures path found hfound, Except.ok.injEq] at hpicture
    rw [hfound, hpicture]

theorem provides_of_loads_empty {references : List Request} {work : Traced Request Stock}
    (hwork : Loads library {} references work) (hafter : work.outcome = .ok after) :
    after.Provides request ↔ request ∈ references.eraseDups := by
  rw [hwork.provides after hafter, or_iff_left (not_provides_empty request), List.mem_eraseDups]

/-- A stock that was loaded has what the library gave for the references, and nothing else. -/
theorem gives_of_load {defaultFont? : Option String} {script : List Command}
    (hnamed : ∀ command ∈ script, command.IsNamed)
    (hload : (load library defaultFont? script).outcome = .ok stock) :
    (∀ name font, stock.fonts.get? name = some font ↔
      .font name ∈ (references defaultFont? script).eraseDups ∧ library.font name = .ok font) ∧
    (∀ path picture, stock.pictures.get? path = some picture ↔
      .picture path ∈ (references defaultFont? script).eraseDups ∧
        library.picture path = .ok picture) ∧
    library.defaultFont defaultFont? = .ok stock.defaultFont := by
  have hloads := loads_load library defaultFont? hnamed
  obtain ⟨face, hface, hmatches⟩ := matches_of_load hload
  obtain ⟨hfonts, hpictures⟩ := hmatches.get?_iff
  refine ⟨fun name font => ?_, fun path picture => ?_, by rw [hface, hmatches.default]⟩
  · rw [hfonts, provides_of_loads_empty hloads hload]
  · rw [hpictures, provides_of_loads_empty hloads hload]

/-- Loading asks for what a script refers to in the order of the first references, and for nothing
twice. It stops at the first request that is refused and fails for that reason; if none is, the stock
has what the library gave for the references, and nothing else. The selectors of the script are of no
account. -/
theorem load_asks_once (library : Library) (defaultFont? : Option String) {script : List Command}
    (hnamed : ∀ command ∈ script, command.IsNamed) :
    let wanted := (references defaultFont? script).eraseDups
    let loading := load library defaultFont? script
    loading.trace = library.calls wanted ∧
    loading.outcome.EndsIn (wanted.findSome? library.refusal?) ∧
    (∀ stock, loading.outcome = .ok stock →
      (∀ name font, stock.fonts.get? name = some font ↔
        .font name ∈ wanted ∧ library.font name = .ok font) ∧
      (∀ path picture, stock.pictures.get? path = some picture ↔
        .picture path ∈ wanted ∧ library.picture path = .ok picture) ∧
      library.defaultFont defaultFont? = .ok stock.defaultFont) ∧
    ∀ other : List Command, other.filter (·.verb ≠ .pages) = script.filter (·.verb ≠ .pages) →
      load library defaultFont? other = loading := by
  intro wanted loading
  have hloads : Loads library {} (references defaultFont? script) loading :=
    loads_load library defaultFont? hnamed
  have hwanted : missing {} (references defaultFont? script) = wanted := missing_empty _
  refine ⟨?_, ?_, fun stock hstock => gives_of_load hnamed hstock, fun other hother => ?_⟩
  · rw [hloads.trace, hwanted]
  · rw [← hwanted]
    exact hloads.ends
  · have hfold (stock : Stock) :
        other.foldlM (supply library) stock = script.foldlM (supply library) stock := by
      rw [← foldlM_supply_filter, hother, foldlM_supply_filter]
    simp only [loading, load, hfold]

/-- Names that come back, a default font that the script names too, and a picture that is not there. -/
theorem load_asks_once_of_missing_picture :
    let library : Library := {
      font := fun _ => .ok (.standard .courier)
      picture := fun path =>
        if path = "gone.png" then .error (.asset path .notFound)
        else .ok { path, width := 1, height := 1, data := .samples [] none } }
    let script : List Command := [{ verb := .image, operands := [⟨"logo.png"⟩] },
      { verb := .pages, operands := [⟨"2-"⟩] }, { verb := .fontFile, operands := [⟨"Courier"⟩] },
      { verb := .image, operands := [⟨"logo.png"⟩] }, { verb := .image, operands := [⟨"gone.png"⟩] },
      { verb := .fontFile, operands := [⟨"late.ttf"⟩] }]
    (∀ command ∈ script, command.IsNamed) ∧
      (load library (some "Courier") script).trace =
        [.font "Courier", .picture "logo.png", .picture "gone.png"] ∧
      (load library (some "Courier") script).outcome = .error (.asset "gone.png" .notFound) := by
  intro library script
  have hnamed : ∀ command ∈ script, command.IsNamed := by
    simp [script, Command.IsNamed]
  obtain ⟨htrace, hends, -⟩ := load_asks_once library (some "Courier") hnamed
  refine ⟨hnamed, ?_, ?_⟩
  · rw [htrace]
    decide +kernel
  · exact hends.eq_error_iff.2 (by decide +kernel)

/-! ## Loading from two libraries -/

theorem isNamed_of_load {defaultFont? : Option String} {script : List Command}
    (hload : (load library defaultFont? script).outcome = .ok stock) :
    ∀ command ∈ script, command.IsNamed := by
  obtain ⟨started, -, hfold⟩ := Traced.outcome_bind_eq_ok.1 hload
  clear hload
  induction script generalizing started with
  | nil => exact fun _ hmem => absurd hmem List.not_mem_nil
  | cons command rest ih =>
    rw [List.foldlM_cons] at hfold
    obtain ⟨next, hsupply, hfold⟩ := Traced.outcome_bind_eq_ok.1 hfold
    refine List.forall_mem_cons.2 ⟨fun hverb hnone => ?_, ih next hfold⟩
    rcases hverb with hverb | hverb
    all_goals
      simp only [supply, hverb] at hsupply
      obtain ⟨operand, hoperand, -⟩ := Traced.outcome_bind_eq_ok.1 hsupply
      rw [Traced.outcome_lift, Command.operand_eq_ok, hnone] at hoperand
      cases hoperand

theorem calls_of_forall {requests : List Request}
    (hgiven : ∀ request ∈ requests, library.refusal? request = none) :
    library.calls requests = requests := by
  induction requests with
  | nil => rfl
  | cons request rest ih =>
    obtain ⟨hrequest, hrest⟩ := List.forall_mem_cons.1 hgiven
    rw [Library.calls, hrequest, ih hrest]
    rfl

theorem requests_eq (defaultFont? : Option String) {script : List Command}
    (hnamed : ∀ command ∈ script, command.IsNamed) :
    requests defaultFont? script = (references defaultFont? script).eraseDups := by
  rw [requests, (loads_load _ defaultFont? hnamed).trace, missing_empty]
  exact calls_of_forall fun request _ => by cases request <;> rfl

theorem ask_of_follows {other : Library} (hask : (stock.ask library request).outcome = .ok after)
    (hfollows : other.Follows library request) :
    (stock.ask other request).outcome = .ok after := by
  by_cases hprovides : stock.Provides request
  · rw [ask_of_provides hprovides] at hask ⊢
    exact hask
  · rw [ask_of_not_provides hprovides] at hask ⊢
    cases request with
    | font name =>
      obtain ⟨font, hfont, hafter⟩ := Outcome.bind_eq_ok.1 hask
      exact Outcome.bind_eq_ok.2 ⟨font, hfollows font hfont, hafter⟩
    | picture path =>
      obtain ⟨picture, hpicture, hafter⟩ := Outcome.bind_eq_ok.1 hask
      exact Outcome.bind_eq_ok.2 ⟨picture, hfollows picture hpicture, hafter⟩

theorem foldlM_ask_of_follows {other : Library} {references : List Request}
    (hfold : (references.foldlM (ask library) stock).outcome = .ok after)
    (hfollows : ∀ request ∈ references, other.Follows library request) :
    (references.foldlM (ask other) stock).outcome = .ok after := by
  induction references generalizing stock with
  | nil => exact hfold
  | cons request rest ih =>
    obtain ⟨hrequest, hrest⟩ := List.forall_mem_cons.1 hfollows
    rw [List.foldlM_cons] at hfold ⊢
    obtain ⟨next, hask, hfold⟩ := Traced.outcome_bind_eq_ok.1 hfold
    exact Traced.outcome_bind_eq_ok.2 ⟨next, ask_of_follows hask hrequest, ih hfold hrest⟩

/-- A library that gives what another one gives for a script loads the same stock. -/
theorem load_of_follows {other : Library} {defaultFont? : Option String} {script : List Command}
    (hload : (load library defaultFont? script).outcome = .ok stock)
    (hfollows : ∀ request ∈ requests defaultFont? script, other.Follows library request) :
    (load other defaultFont? script).outcome = .ok stock := by
  have hnamed := isNamed_of_load hload
  simp only [requests_eq defaultFont? hnamed, List.mem_eraseDups, references, List.mem_append,
    or_imp, forall_and] at hfollows
  obtain ⟨hdefault, hscript⟩ := hfollows
  obtain ⟨started, hstarted, hfold⟩ := Traced.outcome_bind_eq_ok.1 hload
  rw [foldlM_supply_eq hnamed] at hfold
  refine Traced.outcome_bind_eq_ok.2 ⟨started, ?_, ?_⟩
  · cases defaultFont? with
    | none => exact hstarted
    | some name =>
      obtain ⟨asked, hask, hstarted⟩ := Traced.outcome_bind_eq_ok.1 hstarted
      have hname : other.Follows library (.font name) := hdefault _ List.mem_cons_self
      have hasked : (ask library {} (.font name)).outcome = .ok asked := hask
      exact Traced.outcome_bind_eq_ok.2 ⟨asked, ask_of_follows hasked hname, hstarted⟩
  · rw [foldlM_supply_eq hnamed]
    exact foldlM_ask_of_follows hfold hscript

end Stock

end Overprint
