import Overprint.Pdf.Written

/-!
# Page content

The content of a page is a list of operations, each with its operands in front.
-/

namespace Overprint.Pdf

/-- One operation of page content. -/
structure Operation where
  operator : String
  operands : List Object := []
deriving BEq

def Operation.written (operation : Operation) : List UInt8 :=
  operation.operands.flatMap (fun operand => operand.written ++ [32]) ++
    Text.encodeUtf8 operation.operator

/-- Operations as page content, one a line. It ends with the end of a line, so that it never runs
into what comes after it. -/
def contentOf (operations : List Operation) : List UInt8 :=
  let body := [10].intercalate (operations.map Operation.written)
  if body.getLast? = some 10 then body else body ++ [10]

end Overprint.Pdf
