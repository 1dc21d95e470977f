import Overprint.Traced

/-!
# Work that succeeds

Reading operands, loading and drawing are chains of steps any of which can stop the run. A chain
succeeds if its first step does and what follows succeeds for the value of that step; conversely a
chain that gave a value had a value at every step. The two directions are `bind` and `bind_eq_ok`,
once for plain results and once for work that leaves a trace.
-/

namespace Overprint

variable {ω α β : Type}

namespace Outcome

/-- The computation gives a value. -/
def Succeeds (outcome : Outcome α) : Prop :=
  ∃ value, outcome = .ok value

theorem bind_eq_ok {ε : Type} {outcome : Except ε α} {next : α → Except ε β} {result : β} :
    outcome >>= next = .ok result ↔ ∃ value, outcome = .ok value ∧ next value = .ok result := by
  constructor
  · intro h
    cases outcome with
    | ok value => exact ⟨value, rfl, h⟩
    | error fault => cases h
  · rintro ⟨value, rfl, h⟩
    exact h

theorem mapError_eq_ok {ε : Type} {result : Except ε α} {rename : ε → Failure} {value : α} :
    (result.mapError rename : Outcome α) = .ok value ↔ result = .ok value := by
  cases result with
  | ok found =>
    constructor
    · intro hfound
      have hfound : (Except.ok found : Outcome α) = .ok value := hfound
      rw [Except.ok.inj hfound]
    · intro hfound
      rw [Except.ok.inj hfound]
      rfl
  | error failure =>
    constructor
    · intro hfound
      have hfound : (Except.error (rename failure) : Outcome α) = .ok value := hfound
      cases hfound
    · intro hfound
      cases hfound

/-- A value that is all one looks at is the value of the computation. -/
theorem eq_ok_of_toOption {outcome : Outcome α} {value : α}
    (hvalue : outcome.toOption = some value) : outcome = .ok value := by
  cases outcome with
  | ok other =>
    cases hvalue
    rfl
  | error failure => cases hvalue

theorem exists_eq_ok {outcome : Outcome α} (hsome : outcome.toOption.isSome) :
    ∃ value, outcome = .ok value :=
  (Option.isSome_iff_exists.1 hsome).imp fun _ => eq_ok_of_toOption

theorem Succeeds.pure (value : α) : Succeeds (.ok value) :=
  ⟨value, rfl⟩

theorem Succeeds.bind {outcome : Outcome α} {next : α → Outcome β} (hfirst : outcome.Succeeds)
    (hnext : ∀ value, outcome = .ok value → Succeeds (next value)) :
    Succeeds (outcome >>= next) := by
  obtain ⟨value, hvalue⟩ := hfirst
  obtain ⟨result, hresult⟩ := hnext value hvalue
  exact ⟨result, bind_eq_ok.2 ⟨value, hvalue, hresult⟩⟩

theorem Succeeds.mapM {items : List α} {step : α → Outcome β}
    (hsteps : ∀ item ∈ items, Succeeds (step item)) : Succeeds (items.mapM step) := by
  induction items with
  | nil => exact .pure []
  | cons item rest ih =>
    rw [List.mapM_cons]
    refine (hsteps item List.mem_cons_self).bind fun value _ => ?_
    refine (ih fun other hmem => hsteps other (List.mem_cons_of_mem _ hmem)).bind fun values _ => ?_
    exact .pure (value :: values)

theorem exists_of_mem_mapM {items : List α} {step : α → Outcome β} {results : List β}
    (hmapM : items.mapM step = .ok results) {result : β} (hmem : result ∈ results) :
    ∃ item ∈ items, step item = .ok result := by
  induction items generalizing results with
  | nil =>
    cases hmapM
    cases hmem
  | cons item rest ih =>
    rw [List.mapM_cons] at hmapM
    obtain ⟨first, hfirst, hmapM⟩ := bind_eq_ok.1 hmapM
    obtain ⟨others, hothers, hmapM⟩ := bind_eq_ok.1 hmapM
    cases hmapM
    rcases List.mem_cons.1 hmem with rfl | hmem
    · exact ⟨item, List.mem_cons_self, hfirst⟩
    · obtain ⟨found, hfound, hstep⟩ := ih hothers hmem
      exact ⟨found, List.mem_cons_of_mem item hfound, hstep⟩

theorem exists_mem_of_mapM {items : List α} {step : α → Outcome β} {results : List β}
    (hmapM : items.mapM step = .ok results) {item : α} (hmem : item ∈ items) :
    ∃ result ∈ results, step item = .ok result := by
  induction items generalizing results with
  | nil => cases hmem
  | cons first rest ih =>
    rw [List.mapM_cons] at hmapM
    obtain ⟨result, hfirst, hmapM⟩ := bind_eq_ok.1 hmapM
    obtain ⟨others, hothers, hmapM⟩ := bind_eq_ok.1 hmapM
    cases hmapM
    rcases List.mem_cons.1 hmem with rfl | hmem
    · exact ⟨result, List.mem_cons_self, hfirst⟩
    · obtain ⟨found, hfound, hstep⟩ := ih hothers hmem
      exact ⟨found, List.mem_cons_of_mem result hfound, hstep⟩

/-- What every result shares with its item, all of them share in order. -/
theorem map_of_mapM {γ : Type} {items : List α} {step : α → Outcome β} {results : List β}
    {read : β → γ} {key : α → γ}
    (hstep : ∀ item result, step item = .ok result → read result = key item)
    (hmapM : items.mapM step = .ok results) : results.map read = items.map key := by
  induction items generalizing results with
  | nil =>
    cases hmapM
    rfl
  | cons item rest ih =>
    rw [List.mapM_cons] at hmapM
    obtain ⟨first, hfirst, hmapM⟩ := bind_eq_ok.1 hmapM
    obtain ⟨others, hothers, hmapM⟩ := bind_eq_ok.1 hmapM
    cases hmapM
    rw [List.map_cons, List.map_cons, hstep item first hfirst, ih hothers]

theorem foldlM_congr {items : List β} {step other : α → β → Outcome α}
    (hsteps : ∀ item ∈ items, ∀ state, step state item = other state item) (start : α) :
    items.foldlM step start = items.foldlM other start := by
  induction items generalizing start with
  | nil => rfl
  | cons item rest ih =>
    obtain ⟨hitem, hrest⟩ := List.forall_mem_cons.1 hsteps
    rw [List.foldlM_cons, List.foldlM_cons, hitem start]
    simp only [ih hrest]

theorem foldlM_preserves {motive : α → Prop} {step : α → β → Outcome α} {items : List β}
    (hstep : ∀ state item next, item ∈ items → step state item = .ok next → motive state →
      motive next) {start result : α} (hfold : items.foldlM step start = .ok result)
    (hstart : motive start) : motive result := by
  induction items generalizing start with
  | nil =>
    cases hfold
    exact hstart
  | cons item rest ih =>
    rw [List.foldlM_cons] at hfold
    obtain ⟨next, hnext, hfold⟩ := bind_eq_ok.1 hfold
    refine ih (fun state other after hmem => hstep state other after (List.mem_cons_of_mem _ hmem))
      hfold ?_
    exact hstep start item next List.mem_cons_self hnext hstart

/-- The computation ends in a failure, or gives a value if there is none. -/
def EndsIn (fault? : Option Failure) (outcome : Outcome α) : Prop :=
  match fault? with
  | some failure => outcome = .error failure
  | none => outcome.Succeeds

namespace EndsIn

variable {fault? : Option Failure}

theorem bind {outcome : Outcome α} {next : α → Outcome β} (hfirst : outcome.Succeeds)
    (hnext : ∀ value, outcome = .ok value → EndsIn fault? (next value)) :
    EndsIn fault? (outcome >>= next) := by
  obtain ⟨value, hvalue⟩ := hfirst
  rw [hvalue]
  exact hnext value hvalue

theorem bind_succeeds {outcome : Outcome α} {next : α → Outcome β}
    (hfirst : EndsIn fault? outcome) (hnext : ∀ value, outcome = .ok value → Succeeds (next value)) :
    EndsIn fault? (outcome >>= next) := by
  cases fault? with
  | some failure =>
    have herror : outcome = .error failure := hfirst
    rw [herror]
    rfl
  | none => exact Succeeds.bind hfirst hnext

theorem eq_of_error {outcome : Outcome α} {failure : Failure} (hends : EndsIn fault? outcome)
    (herror : outcome = .error failure) : fault? = some failure := by
  cases fault? with
  | some expected =>
    have hexpected : outcome = .error expected := hends
    rw [hexpected, Except.error.injEq] at herror
    rw [herror]
  | none =>
    obtain ⟨value, hvalue⟩ := hends
    rw [hvalue] at herror
    cases herror

theorem eq_error_iff {outcome : Outcome α} {failure : Failure} (hends : EndsIn fault? outcome) :
    outcome = .error failure ↔ fault? = some failure := by
  refine ⟨hends.eq_of_error, fun hfault => ?_⟩
  rw [hfault] at hends
  exact hends

theorem succeeds_iff {outcome : Outcome α} (hends : EndsIn fault? outcome) :
    outcome.Succeeds ↔ fault? = none := by
  cases fault? with
  | some failure =>
    have herror : outcome = .error failure := hends
    rw [herror]
    refine iff_of_false ?_ (Option.some_ne_none failure)
    rintro ⟨value, hvalue⟩
    cases hvalue
  | none => exact iff_of_true hends rfl

theorem exists_error_iff {outcome : Outcome α} (hends : EndsIn fault? outcome) :
    (∃ failure, outcome = .error failure) ↔ fault?.isSome := by
  constructor
  · rintro ⟨failure, herror⟩
    rw [hends.eq_of_error herror, Option.isSome_some]
  · intro hsome
    obtain ⟨failure, rfl⟩ := Option.isSome_iff_exists.1 hsome
    exact ⟨failure, hends⟩

end EndsIn

end Outcome

namespace Traced

/-- The work gives a value. -/
def Succeeds (work : Traced ω α) : Prop :=
  work.outcome.Succeeds

theorem Succeeds.bind {work : Traced ω α} {next : α → Traced ω β} (hfirst : work.Succeeds)
    (hnext : ∀ value, work.outcome = .ok value → Succeeds (next value)) :
    Succeeds (work >>= next) := by
  rw [Succeeds, outcome_bind]
  exact Outcome.Succeeds.bind hfirst hnext

theorem Succeeds.check {outcome : Outcome α} {next : α → Traced ω β} (hfirst : outcome.Succeeds)
    (hnext : ∀ value, outcome = .ok value → Succeeds (next value)) :
    Succeeds ((liftM outcome : Traced ω α) >>= next) :=
  bind hfirst hnext

theorem eq_of_outcome {work : Traced ω α} {outcome : Outcome α} (houtcome : work.outcome = outcome) :
    work = ⟨work.trace, outcome⟩ := by
  rw [← houtcome]

theorem outcome_bind_eq_ok {work : Traced ω α} {next : α → Traced ω β} {result : β} :
    (work >>= next).outcome = .ok result ↔
      ∃ value, work.outcome = .ok value ∧ (next value).outcome = .ok result := by
  rw [outcome_bind, Outcome.bind_eq_ok]

theorem bind_eq_ok {work : Traced ω α} {next : α → Traced ω β} {trace : List ω} {result : β} :
    work >>= next = ⟨trace, .ok result⟩ ↔ ∃ first value last,
      work = ⟨first, .ok value⟩ ∧ next value = ⟨last, .ok result⟩ ∧ trace = first ++ last := by
  constructor
  · intro h
    obtain ⟨first, outcome⟩ := work
    cases outcome with
    | ok value =>
      rw [bind_of_ok next rfl, mk.injEq] at h
      refine ⟨first, value, (next value).trace, rfl, ?_, h.1.symm⟩
      rw [← h.2]
    | error failure => cases h
  · rintro ⟨first, value, last, rfl, hnext, rfl⟩
    rw [bind_of_ok next rfl, hnext]

theorem check_bind_eq_ok {outcome : Outcome α} {next : α → Traced ω β} {trace : List ω}
    {result : β} : (liftM outcome : Traced ω α) >>= next = ⟨trace, .ok result⟩ ↔
      ∃ value, outcome = .ok value ∧ next value = ⟨trace, .ok result⟩ := by
  constructor
  · intro h
    obtain ⟨first, value, last, hwork, hnext, rfl⟩ := bind_eq_ok.1 h
    cases hwork
    exact ⟨value, rfl, hnext⟩
  · rintro ⟨value, rfl, hnext⟩
    rw [lift_ok_bind, hnext]

theorem recordAll_bind_eq_ok {events : List ω} {next : Unit → Traced ω β} {trace : List ω}
    {result : β} : recordAll events >>= next = ⟨trace, .ok result⟩ ↔
      ∃ last, next () = ⟨last, .ok result⟩ ∧ trace = events ++ last := by
  constructor
  · intro h
    obtain ⟨first, value, last, hwork, hnext, rfl⟩ := bind_eq_ok.1 h
    cases hwork
    exact ⟨last, hnext, rfl⟩
  · rintro ⟨last, hnext, rfl⟩
    exact bind_eq_ok.2 ⟨events, (), last, rfl, hnext, rfl⟩

theorem trace_bind_of_ok {work : Traced ω α} {value : α} (next : α → Traced ω β)
    (hok : work.outcome = .ok value) :
    (work >>= next).trace = work.trace ++ (next value).trace := by
  rw [bind_of_ok next hok]

theorem outcome_bind_of_ok {work : Traced ω α} {value : α} (next : α → Traced ω β)
    (hok : work.outcome = .ok value) : (work >>= next).outcome = (next value).outcome := by
  rw [bind_of_ok next hok]

def All (p : ω → Prop) (work : Traced ω α) : Prop :=
  ∀ event ∈ work.trace, p event

variable {p : ω → Prop}

theorem All.pure (value : α) : All p (Pure.pure value : Traced ω α) := by
  intro event hmem
  cases hmem

theorem All.lift (outcome : Outcome α) : All p (liftM outcome : Traced ω α) := by
  intro event hmem
  cases hmem

theorem All.recordAll {events : List ω} (hall : ∀ event ∈ events, p event) :
    All p (recordAll events) :=
  hall

theorem All.bind {work : Traced ω α} {next : α → Traced ω β} (hfirst : All p work)
    (hnext : ∀ value, All p (next value)) : All p (work >>= next) := by
  intro event hmem
  rcases mem_trace_bind hmem with hmem | ⟨value, -, hmem⟩
  · exact hfirst event hmem
  · exact hnext value event hmem

theorem All.check {outcome : Outcome α} {next : α → Traced ω β}
    (hnext : ∀ value, All p (next value)) : All p ((liftM outcome : Traced ω α) >>= next) :=
  (All.lift outcome).bind hnext

/-- If the work fails, every event on record has a property. -/
def AllOnFailure (p : ω → Prop) (work : Traced ω α) : Prop :=
  ∀ failure, work.outcome = .error failure → All p work

theorem Succeeds.allOnFailure {work : Traced ω α} (hsucceeds : work.Succeeds) :
    AllOnFailure p work := by
  intro failure hfailure
  obtain ⟨value, hvalue⟩ := hsucceeds
  rw [hvalue] at hfailure
  cases hfailure

theorem AllOnFailure.bind {work : Traced ω α} {next : α → Traced ω β} (hfirst : All p work)
    (hnext : ∀ value, AllOnFailure p (next value)) : AllOnFailure p (work >>= next) := by
  intro failure hfailure event hmem
  rw [outcome_bind] at hfailure
  rcases mem_trace_bind hmem with hmem | ⟨value, hvalue, hmem⟩
  · exact hfirst event hmem
  · rw [hvalue] at hfailure
    exact hnext value failure hfailure event hmem

theorem AllOnFailure.check {outcome : Outcome α} {next : α → Traced ω β}
    (hnext : ∀ value, AllOnFailure p (next value)) :
    AllOnFailure p ((liftM outcome : Traced ω α) >>= next) :=
  bind (.lift outcome) hnext

end Traced

end Overprint
