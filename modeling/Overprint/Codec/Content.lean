import Overprint.Codec.Pdf.Storage
import Overprint.Codec.Picture.Decoding
import Overprint.Codec.Sfnt.Face
import Overprint.Formats

/-!
# The content of files

What is in a file is a document, as it was written, or other bytes.
-/

namespace Overprint

open Pdf

inductive Content where
  | document (document : Document)
  | bytes (data : ByteArray)

namespace Content

def toBytes : Content → ByteArray
  | document written => ⟨(File.written written).toArray⟩
  | bytes data => data

def document? : Content → Option Document
  | document written => written.stored?
  | bytes data => File.read? data.toList

/-- Reading and writing by the rules of this library. -/
def formats : Formats Content where
  bytes := toBytes
  empty := bytes .empty
  document content := content.document?.elim (.error "not a document") .ok
  write written := .ok (document written)
  face := Sfnt.face
  decoded := Picture.decoded

def toDocument (content : Content) : Outcome Document :=
  formats.source content

end Content

def EmbeddedFont.read (path : String) (data : ByteArray) : Outcome EmbeddedFont :=
  EmbeddedFont.parse Content.formats.face path data

def Picture.read (path : String) (data : ByteArray) : Outcome Picture :=
  Picture.decode Content.formats.decoded path data

end Overprint
