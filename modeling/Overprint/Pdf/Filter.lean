import Overprint.Pdf.Filter.Deflate
import Overprint.Pdf.Filter.Predictor
import Overprint.Pdf.Filter.Radix85
import Overprint.Pdf.Filter.StringCodes

/-!
# Filters

The entries of a stream may name filters that its data went through, the one to be undone first in
front.
-/

namespace Overprint.Pdf

def filters? (entries : Dictionary) : Option (List String) := do
  match ← Dictionary.get? "Filter" entries with
  | .name word => return [word]
  | .array items => items.mapM Object.toName?
  | _ => none

def parameters (entries : Dictionary) : Dictionary :=
  match Dictionary.get? "DecodeParms" entries with
  | some (.dictionary parameters) => parameters
  | _ => []

/-- Whether codes get wider a code before their number is reached; they do unless it is denied. -/
def early (parameters : Dictionary) : Nat :=
  match Dictionary.get? "EarlyChange" parameters with
  | some (.integer 0) => 0
  | _ => 1

/-- Undoes a filter on data, if it is known and the data went through it. -/
def undo? (entries : Dictionary) (data : List UInt8) (filter : String) : Option (List UInt8) :=
  let parameters := parameters entries
  match filter with
  | "FlateDecode" => restored? parameters (Deflate.decode data)
  | "LZWDecode" => restored? parameters (StringCodes.decode (early parameters) data)
  | "ASCII85Decode" => Radix85.decode? data
  | _ => none

/-- The data of a stream before it went through its filters. A picture has none, and an empty list of
filters leaves nothing. -/
def unfiltered? (entries : Dictionary) (data : List UInt8) : Option (List UInt8) := do
  let filters ← filters? entries
  if (Dictionary.get? "Subtype" entries).bind Object.toName? = some "Image" then none
  if filters = [] then some [] else filters.foldlM (undo? entries) data

/-- The data of a stream, as it is in the document if its filters cannot be undone. -/
def plainData (entries : Dictionary) (data : List UInt8) : List UInt8 :=
  (unfiltered? entries data).getD data

end Overprint.Pdf
