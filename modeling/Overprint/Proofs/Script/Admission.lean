import Overprint.Proofs.Success
import Overprint.Script.Reading

/-!
# What reading a command line guarantees

Every command that a command line is read into has the shape of its form: a number of operands that
the form allows, each of the kind at its place, and only settings that the form declares, each of its
kind. From there on nobody looks at the reader again: an operand of a numeric kind is a number, one
of a whole kind a whole number, one of the kind of colours a colour.
-/

namespace Overprint.Script

open Number

def Verb.form (verb : Verb) : Form :=
  (vocabulary.find? fun form => form.verb = verb).getD { verb }

/-- The vocabulary has one form a verb. -/
theorem form_verb_of_mem {form : Form} (hmem : form ∈ vocabulary) : form.verb.form = form := by
  have hall : ∀ form ∈ vocabulary, form.verb.form = form := by
    simp only [vocabulary, List.forall_mem_cons, List.not_mem_nil, false_implies, implies_true,
      and_true]
    repeat' constructor
  exact hall form hmem

namespace Form

/-- Settings that a form declares, with values of the declared kinds. -/
def Declares (form : Form) (settings : SortedMap String Operand) : Prop :=
  ∀ key value, settings.get? key = some value →
    ∃ kind, form.keyedKind? key = some kind ∧ kind.objection? value = none

theorem declares_empty (form : Form) : form.Declares ∅ := by
  intro key value hget
  cases hget

theorem Declares.insert {form : Form} {settings : SortedMap String Operand} {key : String}
    {kind : Kind} {value : Operand} (hdeclares : form.Declares settings)
    (hkind : form.keyedKind? key = some kind) (hvalue : kind.objection? value = none) :
    form.Declares (settings.insert key value) := by
  intro probe found hget
  by_cases hprobe : probe = key
  · subst hprobe
    rw [SortedMap.get?_insert_self, Option.some.injEq] at hget
    exact ⟨kind, hkind, hget ▸ hvalue⟩
  · rw [SortedMap.get?_insert_of_ne hprobe] at hget
    exact hdeclares probe found hget

theorem keyedKind?_of_setting? {form : Form} {item : Item} {key : String} {kind : Kind}
    {value : Operand} (hsetting : form.setting? item = some (key, kind, value)) :
    form.keyedKind? key = some kind := by
  simp only [setting?, Option.bind_eq_bind, Option.bind_eq_some_iff, Option.some.injEq,
    Prod.mk.injEq] at hsetting
  obtain ⟨_, _, _, hkind, rfl, rfl, _⟩ := hsetting
  exact hkind

theorem gather_ok {form : Form} {items : List Item} {command gathered : Command}
    (hgather : form.gather items command = .ok gathered)
    (hdeclares : form.Declares command.settings) :
    gathered.verb = command.verb ∧ form.Declares gathered.settings := by
  induction items generalizing command with
  | nil =>
    cases hgather
    exact ⟨rfl, hdeclares⟩
  | cons item rest ih =>
    rw [gather] at hgather
    split at hgather
    next key kind value hsetting =>
      split at hgather
      · cases hgather
      next hvalue =>
        split at hgather
        · cases hgather
        · have hrest := ih hgather (hdeclares.insert (keyedKind?_of_setting? hsetting) hvalue)
          exact hrest
    next =>
      have hrest := ih hgather hdeclares
      exact hrest

theorem objection?_of_checkFrom {form : Form} {start : Nat} {operands : List Operand}
    (hcheck : form.checkFrom start operands = .ok ()) {index : Nat} {operand : Operand}
    (hget : operands[index]? = some operand) :
    (form.kindAt (start + index)).objection? operand = none := by
  induction operands generalizing start index with
  | nil => cases hget
  | cons first rest ih =>
    rw [checkFrom] at hcheck
    split at hcheck
    · cases hcheck
    next hfirst =>
      cases index with
      | zero =>
        cases hget
        exact hfirst
      | succ index =>
        have hrest := ih hcheck hget
        rwa [show start + 1 + index = start + (index + 1) from by omega] at hrest

end Form

/-- A command of the shape that the form of its verb describes. -/
structure Command.Admitted (command : Command) : Prop where
  allows : command.verb.form.allows command.operands.length = true
  operands : ∀ {index : Nat} {operand : Operand}, command.operands[index]? = some operand →
    (command.verb.form.kindAt index).objection? operand = none
  settings : command.verb.form.Declares command.settings

theorem Form.admitted_of_command {form : Form} (hmem : form ∈ vocabulary) {values : String}
    {command : Command} (hcommand : form.command values = .ok command) : command.Admitted := by
  rw [Form.command, Outcome.bind_eq_ok] at hcommand
  obtain ⟨gathered, hgather, hcommand⟩ := hcommand
  obtain ⟨hverb, hsettings⟩ := gather_ok hgather form.declares_empty
  dsimp only at hcommand
  split at hcommand
  next hallows =>
    rw [Outcome.bind_eq_ok] at hcommand
    obtain ⟨_, hcheck, hcommand⟩ := hcommand
    cases hcommand
    have hform : command.verb.form = form := by rw [hverb, form_verb_of_mem hmem]
    refine ⟨hform ▸ hallows, fun hget => ?_, hform ▸ hsettings⟩
    have hkind := objection?_of_checkFrom hcheck hget
    rwa [Nat.zero_add, ← hform] at hkind
  next => cases hcommand

namespace Kind

def isNumeric : Kind → Bool
  | number | positive | nonNegative => true
  | _ => false

theorem number_succeeds {kind : Kind} {operand : Operand} (hkind : kind.isNumeric = true)
    (hfits : kind.objection? operand = none) :
    Outcome.Succeeds (operand.number : Outcome Double) := by
  have hsome : ∃ value, operand.number? Double = some value := by
    cases hnumber : operand.number? Double with
    | some value => exact ⟨value, rfl⟩
    | none => cases kind <;> simp_all [isNumeric, objection?]
  obtain ⟨value, hvalue⟩ := hsome
  exact ⟨value, by rw [Operand.number, hvalue]⟩

theorem integer_succeeds {low high : Int} {operand : Operand}
    (hfits : (integer low high).objection? operand = none) : operand.integer.Succeeds := by
  rw [objection?] at hfits
  split at hfits
  next value hvalue => exact ⟨value, by rw [Operand.integer, hvalue]⟩
  next => cases hfits

theorem color_succeeds {operand : Operand} (hfits : color.objection? operand = none) :
    operand.color.Succeeds := by
  rw [objection?] at hfits
  split at hfits
  next hsome =>
    obtain ⟨color, hcolor⟩ := Option.isSome_iff_exists.1 hsome
    exact ⟨color, by rw [Operand.color, Color.Rgb.read, hcolor]⟩
  next => cases hfits

end Kind

theorem Form.admitted_of_flag {form : Form} (hmem : form ∈ vocabulary)
    (hflag : form.takesValues = false) : Command.Admitted { verb := form.verb } := by
  have hallows : ∀ form ∈ vocabulary, form.takesValues = false → form.allows 0 = true := by decide
  have hform := form_verb_of_mem hmem
  refine ⟨?_, fun hget => ?_, form.verb.form.declares_empty⟩
  · rw [hform]
    exact hallows form hmem hflag
  · cases hget

theorem mem_vocabulary_of_form? {token : String} {form : Form} (hform : form? token = some form) :
    form ∈ vocabulary := by
  rw [form?] at hform
  split at hform
  · exact List.mem_of_find?_eq_some hform
  · exact List.mem_of_find?_eq_some hform
  · cases hform

theorem admitted_of_read {arguments : List String} {line : Line}
    (hread : read arguments = .ok line) : ∀ command ∈ line.commands, command.Admitted := by
  fun_induction read arguments generalizing line with
  | case1 | case2 | case3 =>
    cases hread
    intro command hmem
    cases hmem
  | case4 => cases hread
  | case5 => cases hread
  | case6 token _ _ form hform _ values rest ih =>
    obtain ⟨command, hcommand, hread⟩ := Outcome.bind_eq_ok.1 hread
    obtain ⟨tail, htail, hread⟩ := Outcome.bind_eq_ok.1 hread
    cases hread
    intro other hmem
    rcases List.mem_cons.1 hmem with rfl | hmem
    · exact Form.admitted_of_command (mem_vocabulary_of_form? hform) hcommand
    · exact ih htail other hmem
  | case7 token rest _ _ form hform hflag ih =>
    obtain ⟨tail, htail, hread⟩ := Outcome.bind_eq_ok.1 hread
    cases hread
    intro other hmem
    rcases List.mem_cons.1 hmem with rfl | hmem
    · exact Form.admitted_of_flag (mem_vocabulary_of_form? hform) (by simpa using hflag)
    · exact ih htail other hmem

namespace Command

variable {command : Command}

theorem operand_eq_ok {index : Nat} {operand : Operand} :
    command.operand index = .ok operand ↔ command.operands[index]? = some operand := by
  rw [Command.operand]
  split
  next found hget => rw [hget, Except.ok.injEq, Option.some.injEq]
  next hget =>
    rw [hget]
    simp only [reduceCtorEq]

theorem operand_succeeds {index : Nat} (hlt : index < command.operands.length) :
    (command.operand index).Succeeds :=
  ⟨command.operands[index], operand_eq_ok.2 (List.getElem?_eq_getElem hlt)⟩

namespace Admitted

variable (hadmitted : command.Admitted)

include hadmitted

theorem least_le : command.verb.form.least ≤ command.operands.length := by
  have hallows := hadmitted.allows
  simp only [Form.allows, Bool.and_eq_true, decide_eq_true_eq] at hallows
  exact hallows.1

theorem le_most {most : Nat} (hmost : command.verb.form.most = some most) :
    command.operands.length ≤ most := by
  have hallows := hadmitted.allows
  simp only [Form.allows, hmost, Option.all_some, Bool.and_eq_true, decide_eq_true_eq] at hallows
  exact hallows.2

theorem objection?_eq_none {verb : Verb} (hverb : command.verb = verb) {index : Nat}
    {operand : Operand} (hoperand : command.operand index = .ok operand) :
    (verb.form.kindAt index).objection? operand = none := by
  subst hverb
  exact hadmitted.operands (operand_eq_ok.1 hoperand)

theorem operand {verb : Verb} (hverb : command.verb = verb) (index : Nat)
    (hlt : index < verb.form.least) : (command.operand index).Succeeds := by
  subst hverb
  exact operand_succeeds (Nat.lt_of_lt_of_le hlt hadmitted.least_le)

theorem number_of_lt {verb : Verb} (hverb : command.verb = verb) {index : Nat}
    (hlt : index < command.operands.length)
    (hkind : (verb.form.kindAt index).isNumeric = true) :
    Outcome.Succeeds (command.number index : Outcome Double) :=
  (operand_succeeds hlt).bind fun _ hoperand =>
    Kind.number_succeeds hkind (hadmitted.objection?_eq_none hverb hoperand)

theorem number {verb : Verb} (hverb : command.verb = verb) (index : Nat)
    (hlt : index < verb.form.least) (hkind : (verb.form.kindAt index).isNumeric = true) :
    Outcome.Succeeds (command.number index : Outcome Double) := by
  refine hadmitted.number_of_lt hverb ?_ hkind
  subst hverb
  exact Nat.lt_of_lt_of_le hlt hadmitted.least_le

theorem setting {verb : Verb} (hverb : command.verb = verb) {key : String} {kind : Kind}
    {value : Operand} (hkind : verb.form.keyedKind? key = some kind)
    (hget : command.setting? key = some value) : kind.objection? value = none := by
  subst hverb
  obtain ⟨declared, hdeclared, hfits⟩ := hadmitted.settings key value hget
  rw [hkind, Option.some.injEq] at hdeclared
  exact hdeclared ▸ hfits

end Admitted

end Command

end Overprint.Script
