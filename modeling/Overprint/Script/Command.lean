import Overprint.Script.Operand
import Overprint.SortedMap

/-!
# Commands

A command is a verb with its operands in order and its settings by key. It is data: nothing about it
has been checked unless it was read by the vocabulary, so every access can fail.
-/

namespace Overprint.Script

open Number

structure Command where
  verb : Verb
  operands : List Operand := []
  settings : SortedMap String Operand := ∅
deriving DecidableEq

namespace Command

def operand (command : Command) (index : Nat) : Outcome Operand :=
  match command.operands[index]? with
  | some operand => .ok operand
  | none => .error (.operandMissing command.verb (index + 1))

def number {α : Type} [Scalar α] (command : Command) (index : Nat) : Outcome α := do
  (← command.operand index).number

def numbers {α : Type} [Scalar α] (command : Command) (count : Nat) : Outcome (List α) :=
  (List.range count).mapM command.number

def setting? (command : Command) (key : String) : Option Operand :=
  command.settings.get? key

end Command

end Overprint.Script
