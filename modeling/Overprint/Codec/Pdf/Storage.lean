import Overprint.Codec.Pdf.File

/-!
# Documents that were stored

What is read of a document after it was written. An object is what is read where it was written: a
real number without a fraction comes back as an integer, and an object with a number or a text that
cannot be read is lost. Objects about a file, and all but the last generation of a number, are lost in
any case. Numbers of objects that were written stay in use.
-/

namespace Overprint.Pdf

/-- The object that is read where the notation of another one stands. -/
def Object.readBack? (object : Object) : Option Object :=
  let bytes := object.written
  (Object.read? (bytes.length + 1) bytes).map (·.1)

def Dictionary.stored? (entries : Dictionary) : Option Dictionary := do
  (← (Object.dictionary entries).readBack?).toDictionary?

/-- The object that is read where another one was written. The data of a stream stays. -/
def Object.stored? : Object → Option Object
  | .stream entries data => (Object.stream · data) <$> Dictionary.stored? entries
  | object => object.readBack?

/-- The trailer that is read where another one was written. If it says where an older trailer is to be
found, it cannot be read, for there is none. -/
def storedTrailer? (trailer : Dictionary) : Option Dictionary := do
  let trailer ← Dictionary.stored? trailer
  match Dictionary.get? "Prev" trailer with
  | some (.integer _) => none
  | _ => return trailer.filter (·.1 ≠ "Prev")

/-- The document that is read where another one was written. Without its trailer there is none. -/
def Document.stored? (document : Document) : Option Document := do
  let trailer ← storedTrailer? document.trailer
  let listed := File.lastGenerations (File.writtenObjects document)
  return {
    objects := .ofList (listed.filterMap fun (id, object) => (id, ·) <$> object.stored?)
    trailer
    lastNumber := (listed.map (·.1.number)).foldl max 0 }

end Overprint.Pdf
