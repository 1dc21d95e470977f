import Overprint.Font
import Overprint.Pdf.Document
import Overprint.Picture

/-!
# Formats

Documents, fonts and pictures are in files whose formats are defined elsewhere, and so is what reads
and writes them. What is in a file is left open but for its bytes.
-/

namespace Overprint

open Pdf

/-- What reads and writes files, with the reasons why it cannot. -/
structure Formats (α : Type) where
  bytes : α → ByteArray
  /-- What is in a file that was just made. -/
  empty : α
  document : α → Except String Document
  write : Document → Except String α
  face : ByteArray → Except String Face
  decoded : ByteArray → Except PictureFault Decoded

namespace Formats

variable {α : Type} (formats : Formats α)

/-- A file in which nothing was written is no document. -/
def RefusesEmpty : Prop :=
  ∀ document, formats.document formats.empty ≠ .ok document

def source (content : α) : Outcome Document :=
  (formats.document content).mapError .notDocument

def written (document : Document) : Outcome α :=
  (formats.write document).mapError .notWritten

def font (path : String) (content : α) : Outcome EmbeddedFont :=
  EmbeddedFont.parse formats.face path (formats.bytes content)

def picture (path : String) (content : α) : Outcome Picture :=
  Picture.decode formats.decoded path (formats.bytes content)

end Formats

end Overprint
