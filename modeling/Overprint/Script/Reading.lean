import Overprint.Script.Item
import Overprint.Script.Vocabulary

/-!
# Reading a command line

Arguments are read from the left: a command's name, then one argument with its values if its form
takes any. The commands end at `--` or at the first argument that is no command's name; what follows
are file names.
-/

namespace Overprint.Script

/-- What a command line asks for. -/
structure Line where
  commands : List Command
  files : List String
deriving DecidableEq

namespace Form

/-- The key, its kind and the value of an item that gives a setting of the form. -/
def setting? (form : Form) (item : Item) : Option (String × Kind × Operand) := do
  let value ← item.tail?
  let key := String.ofList item.head
  let kind ← form.keyedKind? key
  some (key, kind, ⟨String.ofList value⟩)

/-- Sorts items into settings and operands. A setting is checked when it is met, first for its kind
and then for having been given before. -/
def gather (form : Form) : List Item → Command → Outcome Command
  | [], command => .ok command
  | item :: rest, command =>
    match form.setting? item with
    | some (key, kind, value) =>
      match kind.objection? value with
      | some expected => .error (.settingMistyped form.verb key expected value.text)
      | none =>
        if command.settings.contains key then .error (.settingRepeated form.verb key)
        else form.gather rest { command with settings := command.settings.insert key value }
    | none =>
      let operand := ⟨String.ofList item.text⟩
      form.gather rest { command with operands := command.operands ++ [operand] }

/-- Checks operands from a place on against their kinds. -/
def checkFrom (form : Form) : Nat → List Operand → Outcome Unit
  | _, [] => .ok ()
  | index, operand :: rest =>
    match (form.kindAt index).objection? operand with
    | some expected => .error (.operandMistyped form.verb (index + 1) expected operand.text)
    | none => form.checkFrom (index + 1) rest

/-- The command of a form with the values of one argument. -/
def command (form : Form) (values : String) : Outcome Command := do
  let command ← form.gather (Item.split values) { verb := form.verb }
  let found := command.operands.length
  if form.allows found then
    form.checkFrom 0 command.operands
    return command
  else .error (.operandCount form.verb form.least form.most found)

end Form

def startsCommand (token : String) : Bool :=
  token.toList.head? = some '-' && token ≠ "-"

def read : List String → Outcome Line
  | [] => .ok ⟨[], []⟩
  | token :: rest =>
    if token = "--" then .ok ⟨[], rest⟩
    else if !startsCommand token then .ok ⟨[], token :: rest⟩
    else
      match form? token with
      | none => .error (.unknownCommand token)
      | some form =>
        if form.takesValues then
          match rest with
          | [] => .error (.missingParameters form.verb)
          | values :: rest => do
            let command ← form.command values
            let line ← read rest
            return { line with commands := command :: line.commands }
        else do
          let line ← read rest
          return { line with commands := { verb := form.verb } :: line.commands }

end Overprint.Script
