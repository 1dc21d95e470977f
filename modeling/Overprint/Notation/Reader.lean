import Overprint.Notation.Token

/-!
# Reading values of a kind

A reader takes the tokens of one value of the kind it is for and gives what it read with the tokens
that are left. Records are written as objects or as lists. In an object every member has to be a
field that was not given before; a list has the fields in order. Either way a field that is not given
keeps its value.
-/

namespace Overprint.Notation

abbrev Reader (α : Type) := List Token → Except NotationFault (α × List Token)

namespace Reader

/-- A value of one token. -/
def single {α : Type} (value? : Token → Option α) : Reader α
  | [] => .error .unfinished
  | token :: rest =>
    match value? token with
    | some value => .ok (value, rest)
    | none => .error token.mismatch

def text : Reader String :=
  single fun
    | .text value => some value
    | _ => none

def number : Reader Numeric :=
  single fun
    | .number value => some value
    | _ => none

def null : Reader Unit :=
  single fun
    | .null => some ()
    | _ => none

def optionalText : Reader (Option String)
  | .null :: rest => .ok (none, rest)
  | tokens => do
    let (value, rest) ← text tokens
    return (some value, rest)

/-- The tokens after one that has to be next. -/
def skip (expected : Token) : List Token → Except NotationFault (List Token)
  | [] => .error .unfinished
  | token :: rest => if token = expected then .ok rest else .error .malformed

def choiceName {α : Type} (choices : List (String × α)) : Reader α := fun tokens => do
  let (name, rest) ← text tokens
  match choices.lookup name with
  | some value => return (value, rest)
  | none => .error .unsuitable

/-- One of several choices by its name, which may be the key of an object with nothing in it. -/
def choice {α : Type} (choices : List (String × α)) : Reader α
  | [] => .error .unfinished
  | .openObject :: rest => do
    let (value, rest) ← choiceName choices rest
    let ((), rest) ← null (← skip .colon rest)
    return (value, ← skip .closeObject rest)
  | token :: rest =>
    match token with
    | .text _ | .brokenText _ => choiceName choices (token :: rest)
    | _ => .error .malformed

/-- A field of a record: its name, and how the tokens of a value change the record. -/
structure Field (α : Type) where
  name : String
  read : α → Reader α

namespace Field

variable {α : Type}

def without (name : String) (fields : List (Field α)) : List (Field α) :=
  fields.filter (·.name ≠ name)

theorem length_without_lt {name : String} {fields : List (Field α)} {field : Field α}
    (hfound : fields.find? (·.name = name) = some field) :
    (without name fields).length < fields.length := by
  have hname : field.name = name := by simpa using List.find?_some hfound
  exact List.length_filter_lt_length_iff_exists.2
    ⟨field, List.mem_of_find?_eq_some hfound, by simp [hname]⟩

end Field

def key : List Token → Except NotationFault (String × List Token)
  | .text name :: rest => .ok (name, rest)
  | .brokenText fault :: _ => .error fault
  | [] => .error .unfinished
  | _ => .error .malformed

def nextKey? (first : Bool) : List Token → Except NotationFault (Option String × List Token)
  | [] => .error .unfinished
  | .closeObject :: rest => .ok (none, rest)
  | tokens => do
    let tokens ← if first then pure tokens else skip .comma tokens
    let (name, rest) ← key tokens
    return (some name, rest)

/-- The members of an object: fields of a record, each once at most. -/
def members {α : Type} (fields : List (Field α)) (first : Bool) (record : α) : Reader α :=
  fun tokens => do
    let (name?, rest) ← nextKey? first tokens
    match name? with
    | none => return (record, rest)
    | some name =>
      match _hfound : fields.find? (·.name = name) with
      | none => .error .unsuitable
      | some field =>
        let (record, rest) ← field.read record (← skip .colon rest)
        members (Field.without name fields) false record rest
termination_by fields.length
decreasing_by exact Field.length_without_lt _hfound

/-- The items of a list: the fields of a record in order, as many as are given. -/
def items {α : Type} (first : Bool) (record : α) : List (Field α) → Reader α
  | _, [] => .error .unfinished
  | _, .closeList :: rest => .ok (record, rest)
  | [], _ => .error .malformed
  | field :: fields, tokens => do
    let tokens ← if first then pure tokens else skip .comma tokens
    match tokens with
    | .closeList :: _ => .error .malformed
    | _ =>
      let (record, rest) ← field.read record tokens
      items false record fields rest

def record {α : Type} (fields : List (Field α)) (base : α) : Reader α
  | [] => .error .unfinished
  | .openObject :: rest => members fields true base rest
  | .openList :: rest => items true base fields rest
  | token :: _ => .error token.mismatch

/-- The value of a whole text. -/
def whole {α : Type} (reader : Reader α) (text : String) : Except NotationFault α := do
  let (value, rest) ← reader (Token.ofText text)
  if rest = [] then return value else .error .malformed

end Reader

end Overprint.Notation
