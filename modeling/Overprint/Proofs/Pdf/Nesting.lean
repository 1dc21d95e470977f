import Overprint.Pdf.Operation

/-!
# Saved graphics states

Page content saves the graphics state with `q` and goes back to the saved one with `Q`. Content in
brackets, which never goes back beyond where it started, leaves every state as it found it, whatever
its other operations do to the one in force.
-/

namespace Overprint.Pdf

def level (operator : String) : Int :=
  if operator = "q" then 1 else if operator = "Q" then -1 else 0

def depth : List String → Int
  | [] => 0
  | operator :: rest => level operator + depth rest

theorem depth_append (first second : List String) :
    depth (first ++ second) = depth first + depth second := by
  induction first with
  | nil => simp [depth]
  | cons operator rest ih =>
    rw [List.cons_append, depth, depth, ih]
    omega

/-- Operations that restore what they have saved and nothing else. -/
structure Balanced (operators : List String) : Prop where
  nonneg : ∀ first, first <+: operators → 0 ≤ depth first
  closed : depth operators = 0

namespace Balanced

variable {first second inner operators : List String}

theorem nil : Balanced [] where
  nonneg first hinit := by
    rw [List.prefix_nil.1 hinit]
    exact Int.le_refl 0
  closed := rfl

theorem append (hfirst : Balanced first) (hsecond : Balanced second) :
    Balanced (first ++ second) where
  nonneg before hinit := by
    rcases List.prefix_or_prefix_of_prefix hinit (List.prefix_append first second) with
      hshort | ⟨rest, rfl⟩
    · exact hfirst.nonneg before hshort
    · have hrest := hsecond.nonneg rest ((List.prefix_append_right_inj first).1 hinit)
      rw [depth_append, hfirst.closed]
      omega
  closed := by rw [depth_append, hfirst.closed, hsecond.closed, Int.add_zero]

theorem single {operator : String} (hlevel : level operator = 0) : Balanced [operator] where
  nonneg first hinit := by
    rcases List.prefix_cons_iff.1 hinit with rfl | ⟨rest, rfl, hrest⟩
    · exact Int.le_refl 0
    · rw [List.prefix_nil.1 hrest, depth, depth, hlevel]
      exact Int.le_refl 0
  closed := by rw [depth, depth, hlevel, Int.add_zero]

theorem one_le_depth (hinner : Balanced inner) (hsplit : "q" :: inner ++ ["Q"] = first ++ second)
    (hfirst : first ≠ []) (hsecond : second ≠ []) : 1 ≤ depth first := by
  obtain ⟨operator, rest, rfl⟩ := List.exists_cons_of_ne_nil hfirst
  rw [List.cons_append, List.cons_append, List.cons.injEq] at hsplit
  obtain ⟨rfl, hsplit⟩ := hsplit
  have hrest : rest <+: inner := by
    rcases List.append_eq_append_iff.1 hsplit with ⟨middle, rfl, hmiddle⟩ | ⟨middle, rfl, -⟩
    · cases middle with
      | nil => exact ⟨[], by rw [List.append_nil, List.append_nil]⟩
      | cons other others =>
        rw [List.cons_append, List.cons.injEq] at hmiddle
        exact absurd (List.append_eq_nil_iff.1 hmiddle.2.symm).2 hsecond
    · exact List.prefix_append rest middle
  have hlevel : level "q" = 1 := rfl
  have := hinner.nonneg rest hrest
  rw [depth, hlevel]
  omega

theorem depth_bracket (hinner : Balanced inner) : depth ("q" :: inner ++ ["Q"]) = 0 := by
  rw [List.cons_append, depth, depth_append, hinner.closed]
  decide

theorem bracket (hinner : Balanced inner) : Balanced ("q" :: inner ++ ["Q"]) where
  nonneg before hinit := by
    obtain ⟨rest, hsplit⟩ := hinit
    by_cases hbefore : before = []
    · rw [hbefore]
      exact Int.le_refl 0
    · by_cases hrest : rest = []
      · rw [hrest, List.append_nil] at hsplit
        rw [hsplit]
        exact Int.le_of_eq hinner.depth_bracket.symm
      · have := hinner.one_le_depth hsplit.symm hbefore hrest
        omega
  closed := hinner.depth_bracket

end Balanced

/-- Graphics states after some operations: the one in force, and the saved ones. There are none if a
state is to be restored and none is saved. What other operations do to the state in force is given by
`effect`. -/
def interpret {σ : Type} (effect : Operation → σ → σ) : List Operation → σ → List σ →
    Option (σ × List σ)
  | [], state, saved => some (state, saved)
  | operation :: rest, state, saved =>
    if operation.operator = "q" then interpret effect rest state (state :: saved)
    else if operation.operator = "Q" then
      match saved with
      | [] => none
      | former :: saved => interpret effect rest former saved
    else interpret effect rest (effect operation state) saved

section Interpretation

variable {σ : Type} (effect : Operation → σ → σ)

theorem interpret_append (first second : List Operation) (state : σ) (saved : List σ) :
    interpret effect (first ++ second) state saved =
      (interpret effect first state saved).bind fun (state, saved) =>
        interpret effect second state saved := by
  fun_induction interpret effect first state saved <;> simp_all [interpret]

/-- Operations that go back no further than a base of saved states leave the base as it is. -/
theorem interpret_above (base : List σ) {operations : List Operation} (state : σ) (above : List σ)
    (hnonneg : ∀ first, first <+: operations.map (·.operator) →
      0 ≤ (above.length : Int) + depth first) :
    ∃ after left, interpret effect operations state (above ++ base) = some (after, left ++ base) ∧
      (left.length : Int) = above.length + depth (operations.map (·.operator)) := by
  induction operations generalizing state above with
  | nil => exact ⟨state, above, rfl, by simp [depth]⟩
  | cons operation rest ih =>
    have hrest (first : List String) (hinit : first <+: rest.map (·.operator)) :
        0 ≤ (above.length : Int) + (level operation.operator + depth first) :=
      hnonneg (operation.operator :: first) ((List.prefix_cons_inj _).2 hinit)
    simp only [interpret, List.map_cons, depth]
    by_cases hsave : operation.operator = "q"
    · have hlevel : level operation.operator = 1 := by rw [hsave]; rfl
      obtain ⟨after, left, hafter, hleft⟩ := ih state (state :: above) fun first hinit => by
        have := hrest first hinit
        rw [List.length_cons]
        omega
      refine ⟨after, left, ?_, ?_⟩
      · rw [if_pos hsave]
        exact hafter
      · rw [hleft, List.length_cons]
        omega
    · rw [if_neg hsave]
      by_cases hrestore : operation.operator = "Q"
      · have hlevel : level operation.operator = -1 := by rw [hrestore]; rfl
        have hone := hrest [] List.nil_prefix
        rw [depth] at hone
        obtain ⟨former, others, rfl⟩ : ∃ former others, above = former :: others := by
          cases above with
          | nil => simp only [List.length_nil] at hone; omega
          | cons former others => exact ⟨former, others, rfl⟩
        rw [List.length_cons] at hrest
        obtain ⟨after, left, hafter, hleft⟩ := ih former others fun first hinit => by
          have := hrest first hinit
          omega
        refine ⟨after, left, ?_, ?_⟩
        · rw [if_pos hrestore]
          exact hafter
        · rw [hleft, List.length_cons]
          omega
      · have hlevel : level operation.operator = 0 := by
          rw [level, if_neg hsave, if_neg hrestore]
        obtain ⟨after, left, hafter, hleft⟩ := ih (effect operation state) above
          fun first hinit => by
            have := hrest first hinit
            omega
        refine ⟨after, left, ?_, ?_⟩
        · rw [if_neg hrestore]
          exact hafter
        · rw [hleft]
          omega

/-- Content in brackets leaves the graphics state in force and the saved ones as they were. -/
theorem interpret_bracket {operations : List Operation} {inner : List String}
    (hinner : Balanced inner) (hoperators : operations.map (·.operator) = "q" :: inner ++ ["Q"])
    (state : σ) (saved : List σ) :
    interpret effect operations state saved = some (state, saved) := by
  rw [List.cons_append] at hoperators
  obtain ⟨save, rest, rfl, hsave, hoperators⟩ := List.map_eq_cons_iff.1 hoperators
  obtain ⟨body, last, rfl, hbody, hlast⟩ := List.map_eq_append_iff.1 hoperators
  obtain ⟨restore, others, rfl, hrestore, hnil⟩ := List.map_eq_cons_iff.1 hlast
  cases List.map_eq_nil_iff.1 hnil
  obtain ⟨after, left, hafter, hleft⟩ := interpret_above effect (state :: saved) state [] (by
    intro first hinit
    rw [hbody] at hinit
    simpa using hinner.nonneg first hinit)
  rw [hbody, hinner.closed] at hleft
  have hempty : left = [] := by
    cases left with
    | nil => rfl
    | cons _ _ => simp at hleft; omega
  rw [hempty] at hafter
  have hbody : interpret effect body state (state :: saved) = some (after, state :: saved) := hafter
  simp [interpret, hsave, interpret_append, hbody, hrestore]

end Interpretation

end Overprint.Pdf
