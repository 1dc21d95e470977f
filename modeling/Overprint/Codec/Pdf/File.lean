import Overprint.Pdf.Document
import Overprint.Pdf.Lexeme

/-!
# Document files

A document in a file is a list of numbered objects and a trailer. Files are written plainly, with a
table of where the objects start; only the last generation of each number is in it, and only it
counts. Files are read from front to back, so the table is not needed: of two objects with the same
number and generation the later one counts. Files that pack objects into streams, or that are
encrypted, are not read.
-/

namespace Overprint.Pdf

open Number

namespace Object

/-- Half the number of integers there are: those of 64 bits. -/
def integerBound : Int := 0x8000000000000000

/-- The object that a word stands for. A number without a point is an integer. -/
def ofWord? (characters : List Char) : Option Object :=
  if characters = "null".toList then some null
  else if characters = "true".toList then some (boolean true)
  else if characters = "false".toList then some (boolean false)
  else if characters.contains '.' then (Binary.read? characters).map real
  else do
    let value ← Numeral.integer? characters
    if -integerBound ≤ value ∧ value < integerBound then some (integer value) else none

/-- The reference that starts with a number, the bytes after which are given. -/
def reference? (characters : List Char) (rest : List UInt8) : Option (Object × List UInt8) := do
  let number ← Numeral.natural? characters
  let (.word characters, rest) ← Lexeme.read? rest | none
  let generation ← Numeral.natural? characters
  let (.word ['R'], rest) ← Lexeme.read? rest | none
  return (reference ⟨number, generation⟩, rest)

mutual

/-- The object that bytes start with, and the bytes after it; objects lie in each other at most so
deep and long. -/
def read? : (steps : Nat) → List UInt8 → Option (Object × List UInt8)
  | 0, _ => none
  | steps + 1, bytes => do
    match ← Lexeme.read? bytes with
    | (.word characters, rest) =>
      reference? characters rest <|> (ofWord? characters).map fun object => (object, rest)
    | (.name word, rest) => return (name word, rest)
    | (.text bytes, rest) => return (text bytes, rest)
    | (.hexText bytes, rest) => return (hexText bytes, rest)
    | (.openArray, rest) =>
      let (items, rest) ← readItems? steps rest
      return (array items, rest)
    | (.openDictionary, rest) =>
      let (entries, rest) ← readEntries? steps rest
      return (dictionary entries, rest)
    | _ => none

def readItems? : (steps : Nat) → List UInt8 → Option (List Object × List UInt8)
  | 0, _ => none
  | steps + 1, bytes =>
    match Lexeme.read? bytes with
    | some (.closeArray, rest) => some ([], rest)
    | _ => do
      let (item, rest) ← read? steps bytes
      let (items, rest) ← readItems? steps rest
      return (item :: items, rest)

def readEntries? : (steps : Nat) → List UInt8 → Option (List (String × Object) × List UInt8)
  | 0, _ => none
  | steps + 1, bytes => do
    match ← Lexeme.read? bytes with
    | (.closeDictionary, rest) => return ([], rest)
    | (.name key, rest) =>
      let (value, rest) ← read? steps rest
      let (entries, rest) ← readEntries? steps rest
      return ((key, value) :: entries, rest)
    | _ => none

end

end Object

namespace File

/-- The bytes after the end of the line with the word `stream`. -/
def afterLineEnd : List UInt8 → List UInt8
  | 13 :: 10 :: rest => rest
  | 10 :: rest => rest
  | bytes => bytes

def endsStream (bytes : List UInt8) : Bool :=
  match Lexeme.read? bytes with
  | some (.word characters, _) => characters = "endstream".toList
  | _ => false

/-- The data up to the word `endstream`, without the end of the line before it. -/
def dataUpToEnd : List UInt8 → List UInt8
  | [] => []
  | byte :: rest =>
    if "endstream".toList.isPrefixOf (Bytes.characters (afterLineEnd (byte :: rest))) then []
    else byte :: dataUpToEnd rest

/-- The data of a stream. Its length is taken at its word if the data ends there. -/
def streamData (entries : Dictionary) (bytes : List UInt8) : List UInt8 :=
  match Dictionary.get? "Length" entries with
  | some (.integer length) =>
    let length := length.toNat
    if endsStream (bytes.drop length) then bytes.take length else dataUpToEnd bytes
  | _ => dataUpToEnd bytes

/-- The numbered object that bytes start with, and the bytes after it. -/
def numbered? (bytes : List UInt8) : Option ((ObjectId × Object) × List UInt8) := do
  let (.word characters, rest) ← Lexeme.read? bytes | none
  let number ← Numeral.natural? characters
  let (.word characters, rest) ← Lexeme.read? rest | none
  let generation ← Numeral.natural? characters
  let (.word characters, rest) ← Lexeme.read? rest | none
  if characters ≠ "obj".toList then none
  let id : ObjectId := ⟨number, generation⟩
  let (object, rest) ← Object.read? (rest.length + 1) rest
  match object, Lexeme.read? rest with
  | .dictionary entries, some (.word characters, after) =>
    if characters = "stream".toList then
      let bytes := afterLineEnd after
      let data := streamData entries bytes
      let entries := entries.filter (·.1 ≠ "Length")
      return ((id, .stream entries data), bytes.drop data.length)
    else return ((id, object), rest)
  | _, _ => return ((id, object), rest)

/-- The numbered objects of a file, and the entries of its trailers, from the last one back; at most
so many lexemes are passed over. -/
def parts : (steps : Nat) → List UInt8 → List (ObjectId × Object) → Dictionary →
    List (ObjectId × Object) × Dictionary
  | 0, _, objects, trailer => (objects.reverse, trailer)
  | steps + 1, bytes, objects, trailer =>
    match numbered? bytes with
    | some (object, rest) => parts steps rest (object :: objects) trailer
    | none =>
      match Lexeme.read? bytes with
      | some (lexeme, rest) =>
        let entries? := if lexeme = .word "trailer".toList then
          (Object.read? (rest.length + 1) rest).bind (·.1.toDictionary?) else none
        parts steps rest objects (entries?.getD [] ++ trailer)
      | none =>
        match Lexeme.afterBlanks bytes false with
        | [] => (objects.reverse, trailer)
        | _ :: rest => parts steps rest objects trailer

/-- The type that a dictionary gives. One that speaks of a linearized file needs no other. -/
def typeOf? (entries : Dictionary) : Option String :=
  (Dictionary.get? "Type" entries).bind Object.toName? <|>
    if (Dictionary.get? "Linearized" entries).isSome then some "Linearized" else none

/-- Whether a dictionary is about a file: it belongs to packed objects, to the table of where objects
are, or to the order of a linearized file. -/
def isBookkeeping (entries : Dictionary) : Bool :=
  match typeOf? entries with
  | some word => word = "ObjStm" || word = "XRef" || word = "Linearized"
  | none => false

/-- Whether an object is about a file and not about a document. -/
def keepsBooks : Object → Bool
  | .dictionary entries | .stream entries _ => isBookkeeping entries
  | _ => false

/-- Whether a stream packs objects, or the table of where they are. -/
def packsObjects : Object → Bool
  | .stream entries _ => isBookkeeping entries
  | _ => false

/-- Of values by numbers, in order, the last generation of each number. Zero is the number of no
object. -/
def lastGenerations {α : Type} : List (ObjectId × α) → List (ObjectId × α)
  | [] => []
  | (id, value) :: rest =>
    if id.number = 0 ∨ rest.head?.any (·.1.number = id.number) then lastGenerations rest
    else (id, value) :: lastGenerations rest

/-- The entries of a trailer that are about the document and not about its file. -/
def documentEntries (trailer : Dictionary) : Dictionary :=
  trailer.filter fun (key, _) => key ≠ "Size" && key ≠ "Prev" && key ≠ "XRefStm"

def read? (bytes : List UInt8) : Option Document :=
  if !(ascii "%PDF-").isPrefixOf bytes then none
  else
    let (objects, trailer) := parts (bytes.length + 1) bytes [] []
    if objects.any (packsObjects ·.2) || (Dictionary.get? "Encrypt" trailer).isSome ||
        (Dictionary.get? "Root" trailer).isNone then none
    else
      let objects : SortedMap ObjectId Object := .ofList objects
      some (Document.ofObjects (lastGenerations objects.entries) (documentEntries trailer))

/-- How every file starts: its magic, and a comment that is no text. -/
def opening : List UInt8 :=
  ascii "%PDF-1.5\n%" ++ [0xbb, 0xad, 0xc0, 0xde, 10]

def withLength : Object → Object
  | .stream entries data => .stream (Dictionary.set "Length" (.integer data.length) entries) data
  | object => object

def writtenNumbered (id : ObjectId) (object : Object) : List UInt8 :=
  ascii s!"{id.number} {id.generation} obj\n" ++ (withLength object).written ++ ascii "\nendobj\n"

/-- A number in so many digits. -/
def padded (length value : Nat) : List UInt8 :=
  let digits := ascii (toString value)
  List.replicate (length - digits.length) 48 ++ digits

/-- The table entry of an object that starts so many bytes into the file. -/
def tableEntry (id : ObjectId) (start : Nat) : List UInt8 :=
  ascii s!"{id.number} 1\n" ++ padded 10 start ++ [32] ++ padded 5 id.generation ++ ascii " n \n"

/-- Objects after so many bytes of a file, where each of them starts, and where they end. -/
def body : (start : Nat) → List (ObjectId × Object) → List UInt8 × List (ObjectId × Nat) × Nat
  | start, [] => ([], [], start)
  | start, (id, object) :: rest =>
    let bytes := writtenNumbered id object
    let (objects, places, stop) := body (start + bytes.length) rest
    (bytes ++ objects, (id, start) :: places, stop)

def writtenObjects (document : Document) : List (ObjectId × Object) :=
  document.objects.entries.filter (!keepsBooks ·.2)

def written (document : Document) : List UInt8 :=
  let (objects, places, stop) := body opening.length (writtenObjects document)
  let table := (lastGenerations places).flatMap fun (id, start) => tableEntry id start
  let trailer := Dictionary.set "Size" (.integer (document.lastNumber + 1)) document.trailer
  opening ++ objects ++ ascii "xref\n0 1\n0000000000 65535 f \n" ++ table ++
    ascii "trailer\n" ++ (Object.dictionary trailer).written ++
    ascii s!"\nstartxref\n{stop}\n%%EOF"

end File

end Overprint.Pdf
