/-!
# The items of a command's values

The values of a command stand in one argument, separated by `:`. A backslash takes the next
character as it is; the first bare `=` of an item divides a key from its value, if the verb has such
a key.
-/

namespace Overprint.Script

/-- One item: the characters up to the first bare `=`, and those after it. -/
structure Item where
  head : List Char := []
  tail? : Option (List Char) := none
deriving DecidableEq

namespace Item

def text (item : Item) : List Char :=
  match item.tail? with
  | none => item.head
  | some tail => item.head ++ '=' :: tail

/-- The item with a taken character in front. -/
def push (c : Char) (item : Item) : Item :=
  { item with head := c :: item.head }

/-- The item with a bare `=` in front, which is then its first. -/
def pushEquals (item : Item) : Item :=
  ⟨[], some item.text⟩

/-- The items of a text, of which there is at least one. A backslash at the end stands for
itself. -/
def scan : List Char → Item × List Item
  | [] => ({}, [])
  | ['\\'] => (push '\\' {}, [])
  | '\\' :: c :: rest => (scan rest).map (push c) id
  | ':' :: rest => ({}, (scan rest).1 :: (scan rest).2)
  | '=' :: rest => (scan rest).map pushEquals id
  | c :: rest => (scan rest).map (push c) id

def split (values : String) : List Item :=
  let (first, rest) := scan values.toList
  first :: rest

end Item

end Overprint.Script
