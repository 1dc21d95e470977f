import Overprint.Script.Vocabulary

/-!
# The usage text

How to call the program: a line for each verb with its names, how many values it takes and its keys.
-/

namespace Overprint.Usage

open Script

def program : String := "stamppdf"

def version : String := "0.3.0"

def heading : String :=
  "usage: " ++ program ++ " [command...] [--] input-file [output-file]\n\n" ++
  "Each command is -short or --long; values follow in the next argument,\n" ++
  "separated by ':', with key=value for keywords (\\: and \\= escape).\n" ++
  "A leading '-' on a coordinate measures it from the right or top edge.\n" ++
  "Without an output file the input is replaced.\n\n" ++
  "commands:\n"

def closing : String :=
  "\nother:\n" ++
  "  -?, --help                             show this text\n" ++
  "  -V, --version                          show the version\n"

def values (form : Form) : String :=
  match form.most with
  | none => s!"{form.least}+ values"
  | some most =>
    if form.least = 0 ∧ most = 0 then ""
    else if form.least = most then s!"{form.least} value(s)"
    else s!"{form.least}-{most} values"

def padded (length : Nat) (text : String) : String :=
  text ++ String.ofList (List.replicate (length - text.length) ' ')

def keys (form : Form) : String :=
  if form.keyed.isEmpty then ""
  else "; keywords " ++ " ".intercalate (form.keyed.map (·.1))

def line (form : Form) : String :=
  let names := s!"-{form.verb.shortName}, --{form.verb.longName}"
  "  " ++ padded 38 names ++ " " ++ values form ++ keys form ++ "\n"

def forms : List Form :=
  Verb.all.filterMap fun verb => vocabulary.find? fun form => form.verb = verb

def text : String :=
  heading ++ String.join (forms.map line) ++ closing

end Overprint.Usage
