import Overprint.Failure

/-!
# Work that leaves a trace

Loading and drawing go step by step, and any step can fail. What was done up to the failure stays on
record, in the order in which it was done: the trace of two pieces of work is the trace of the first
and, if that succeeded, the trace of the second after it.
-/

namespace Overprint

/-- What was done, and how it ended. -/
structure Traced (ω α : Type) where
  trace : List ω
  outcome : Outcome α

namespace Traced

variable {ω α β : Type}

def bind (work : Traced ω α) (next : α → Traced ω β) : Traced ω β :=
  match work.outcome with
  | .ok value =>
    let rest := next value
    ⟨work.trace ++ rest.trace, rest.outcome⟩
  | .error failure => ⟨work.trace, .error failure⟩

instance : Monad (Traced ω) where
  pure value := ⟨[], .ok value⟩
  bind := bind

def record (event : ω) : Traced ω Unit :=
  ⟨[event], .ok ()⟩

def recordAll (events : List ω) : Traced ω Unit :=
  ⟨events, .ok ()⟩

/-- A check or computation that does nothing worth a record. -/
instance : MonadLift Outcome (Traced ω) where
  monadLift outcome := ⟨[], outcome⟩

@[simp]
theorem trace_pure (value : α) : (pure value : Traced ω α).trace = [] := rfl

@[simp]
theorem outcome_pure (value : α) : (pure value : Traced ω α).outcome = .ok value := rfl

theorem bind_of_ok {work : Traced ω α} {value : α} (next : α → Traced ω β)
    (hok : work.outcome = .ok value) :
    work >>= next = ⟨work.trace ++ (next value).trace, (next value).outcome⟩ := by
  show bind work next = _
  simp only [bind, hok]

theorem bind_of_error {work : Traced ω α} {failure : Failure} (next : α → Traced ω β)
    (herror : work.outcome = .error failure) : work >>= next = ⟨work.trace, .error failure⟩ := by
  show bind work next = _
  simp only [bind, herror]

@[simp]
theorem trace_record (event : ω) : (record event).trace = [event] := rfl

@[simp]
theorem trace_recordAll (events : List ω) : (recordAll events).trace = events := rfl

@[simp]
theorem trace_lift (outcome : Outcome α) : (liftM outcome : Traced ω α).trace = [] := rfl

@[simp]
theorem outcome_lift (outcome : Outcome α) : (liftM outcome : Traced ω α).outcome = outcome := rfl

theorem lift_ok_bind (value : α) (next : α → Traced ω β) :
    (liftM (.ok value : Outcome α) : Traced ω α) >>= next = next value :=
  bind_of_ok next rfl

theorem outcome_bind (work : Traced ω α) (next : α → Traced ω β) :
    (work >>= next).outcome = work.outcome >>= fun value => (next value).outcome := by
  cases houtcome : work.outcome with
  | ok value => rw [bind_of_ok next houtcome]; rfl
  | error failure => rw [bind_of_error next houtcome]; rfl

/-- An event of two pieces of work is one of the first, or one of the second after the first has
succeeded. -/
theorem mem_trace_bind {work : Traced ω α} {next : α → Traced ω β} {event : ω}
    (hmem : event ∈ (work >>= next).trace) :
    event ∈ work.trace ∨ ∃ value, work.outcome = .ok value ∧ event ∈ (next value).trace := by
  cases houtcome : work.outcome with
  | ok value =>
    rw [bind_of_ok next houtcome] at hmem
    exact (List.mem_append.1 hmem).imp_right fun h => ⟨value, rfl, h⟩
  | error failure =>
    rw [bind_of_error next houtcome] at hmem
    exact .inl hmem

instance : LawfulMonad (Traced ω) := LawfulMonad.mk' _
  (fun ⟨_, outcome⟩ => by cases outcome <;> simp [Functor.map, bind])
  (fun _ _ => by simp [Bind.bind, bind, Pure.pure])
  (fun ⟨_, outcome⟩ next _ => by
    cases outcome with
    | error => rfl
    | ok value =>
      simp only [Bind.bind, bind]
      cases (next value).outcome <;> simp)

end Traced

end Overprint
