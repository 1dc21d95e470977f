import Overprint.Script.Verb
import Overprint.Text.Utf8

/-!
# Why a run stops

Every failure is fatal to the run it happens in, so there is one type of causes for the whole
program. A cause carries what its message names; the wording stands in `Failure.message` and nowhere
else.
-/

namespace Overprint

/-- What an operand or a setting has to be. -/
inductive Expectation where
  | color
  | number
  | positiveNumber
  | nonNegativeNumber
  | integerIn (low high : Int)
deriving DecidableEq

def Expectation.phrase : Expectation → String
  | color => "a color"
  | number => "a number"
  | positiveNumber => "a positive number"
  | nonNegativeNumber => "a non-negative number"
  | integerIn low high => s!"an integer in {low}..={high}"

/-- Why the file system refuses a request. -/
inductive FileFault where
  | missing
  | notDirectory
  | directory
  | notText
  | notRegular
  | nulInName
  | nameTooLong
  | other (message : String)
deriving DecidableEq

def FileFault.phrase : FileFault → String
  | missing => "No such file or directory (os error 2)"
  | notDirectory => "Not a directory (os error 20)"
  | directory => "Is a directory (os error 21)"
  | notText => "stream did not contain valid UTF-8"
  | notRegular => "the source path is neither a regular file nor a symlink to a regular file"
  | nulInName => "file name contained an unexpected NUL byte"
  | nameTooLong => "File name too long (os error 36)"
  | other message => message

/-- Why a picture cannot be decoded, in the words of the decoder. -/
inductive PictureFault where
  | unknownFormat (reason : String)
  | undecodable (reason : String)
deriving DecidableEq

def PictureFault.phrase : PictureFault → String
  | unknownFormat reason => "unknown image format: " ++ reason
  | undecodable reason => "failed to decode image: " ++ reason

/-- Why a font, a picture or the source document cannot be had. -/
inductive AssetFault where
  | file (fault : FileFault)
  | noSuchFont
  | notFound
  | unusableFont (reason : String)
  | unusablePicture (fault : PictureFault)
deriving DecidableEq

def AssetFault.phrase : AssetFault → String
  | file fault => fault.phrase
  | noSuchFont => "no such font file"
  | notFound => "not found"
  | unusableFont reason => "not a usable font: " ++ reason
  | unusablePicture fault => fault.phrase

/-- How the text of a configuration fails: it is not JSON, it ends too early, or it is JSON of
another shape. -/
inductive NotationFault where
  | malformed
  | unfinished
  | unsuitable
deriving DecidableEq

/-- Why the object of a page cannot be changed. -/
inductive ObjectFault where
  | absent (number generation : Nat)
  | endless
  | notDictionary (found : String)
deriving DecidableEq

def ObjectFault.phrase : ObjectFault → String
  | absent number generation => s!"object ID {number} {generation} not found"
  | endless => "dereferencing object reached the limit, may indicate a reference cycle"
  | notDictionary found =>
    s!"object has wrong type; expected type Dictionary but found type {found}"

/-- Why a run stops. -/
inductive Failure where
  | noArguments
  | fileCount
  | argumentNotText (bytes : List UInt8)
  | unknownCommand (token : String)
  | missingParameters (verb : Script.Verb)
  | settingMistyped (verb : Script.Verb) (key : String) (expected : Expectation) (raw : String)
  | settingRepeated (verb : Script.Verb) (key : String)
  | operandCount (verb : Script.Verb) (least : Nat) (most : Option Nat) (found : Nat)
  | operandMistyped (verb : Script.Verb) (position : Nat) (expected : Expectation) (raw : String)
  | pageNumber (token : String)
  | pageAbsent (number pageCount : Nat)
  | reversedRange (token : String)
  | noPages
  | asset (path : String) (fault : AssetFault)
  | invalidColor (text : String)
  | invalidNumber (text : String)
  | invalidInteger (text : String)
  | invalidCorner (text : String)
  | operandMissing (verb : Script.Verb) (position : Nat)
  | dashPhase
  | curveOperands (found : Nat)
  | textOperands (found : Nat)
  | emptyLiteral
  | fontNotLoaded (name : String)
  | pictureNotLoaded (path : String)
  | textWithoutFont
  | notDocument (reason : String)
  | notWritten (reason : String)
  | pageNotFound (number pageCount : Nat)
  | pageNotWritable (number generation : Nat) (fault : ObjectFault)
  | noPixels (path : String)
  | configurationUnreadable (path : String) (fault : FileFault)
  | file (fault : FileFault)
  | configurationText (fault : NotationFault)
deriving DecidableEq

namespace Failure

/-- The area a failure belongs to. -/
inductive Area where
  | usage
  | grammar
  | pageRange
  | resource
  | render
  | document
  | picture
  | configuration
  | files
  | serialization
deriving DecidableEq

def area : Failure → Area
  | noArguments | fileCount | argumentNotText .. => .usage
  | unknownCommand .. | missingParameters .. | settingMistyped .. | settingRepeated ..
  | operandCount .. | operandMistyped .. => .grammar
  | pageNumber .. | pageAbsent .. | reversedRange .. | noPages => .pageRange
  | asset .. => .resource
  | invalidColor .. | invalidNumber .. | invalidInteger .. | invalidCorner .. | operandMissing ..
  | dashPhase | curveOperands .. | textOperands .. | emptyLiteral | fontNotLoaded ..
  | pictureNotLoaded .. | textWithoutFont => .render
  | notDocument .. | notWritten .. | pageNotFound .. | pageNotWritable .. => .document
  | noPixels .. => .picture
  | configurationUnreadable .. => .configuration
  | file .. => .files
  | configurationText .. => .serialization

def Area.heading : Area → String
  | usage => "invalid arguments: "
  | grammar => "invalid command: "
  | pageRange => "invalid page selection: "
  | resource => "failed to load "
  | render => "rendering failed: "
  | document => "PDF operation failed: "
  | picture => "image embedding failed: "
  | configuration => "configuration error: "
  | files => "file I/O error: "
  | serialization => "serialization error: "

def operandRange (least : Nat) : Option Nat → String
  | none => s!"at least {least}"
  | some most => if least = most then s!"{least}" else s!"{least} to {most}"

/-- What the message says after its heading. -/
def detail : Failure → String
  | noArguments => "no arguments given"
  | fileCount => "expected an input file and an optional output file"
  | argumentNotText bytes => "argument is not valid UTF-8: " ++ Text.quoteBytes bytes
  | unknownCommand token => "unknown command " ++ Text.quote token
  | missingParameters verb => s!"{verb.longName}: missing parameters"
  | settingMistyped verb key expected raw =>
    s!"{verb.longName}: keyword {key} must be {expected.phrase}, got " ++ Text.quote raw
  | settingRepeated verb key => s!"{verb.longName}: keyword {key} given twice"
  | operandCount verb least most found =>
    s!"{verb.longName}: expected {operandRange least most} parameters, got {found}"
  | operandMistyped verb position expected raw =>
    s!"{verb.longName}: parameter #{position} must be {expected.phrase}, got " ++ Text.quote raw
  | pageNumber token => "invalid page number in " ++ Text.quote token
  | pageAbsent number pageCount =>
    s!"page {number} does not exist (document has {pageCount} pages)"
  | reversedRange token => "reversed range " ++ Text.quote token
  | noPages => "document has no pages"
  | asset path fault => path ++ ": " ++ fault.phrase
  | invalidColor text => "invalid color: " ++ Text.quote text
  | invalidNumber text => "invalid number format: " ++ Text.quote text
  | invalidInteger text => "invalid integer format: " ++ Text.quote text
  | invalidCorner text => "invalid corner: " ++ Text.quote text
  | operandMissing verb position => s!"{verb.longName}: missing parameter #{position}"
  | dashPhase => "line-dash: missing phase"
  | curveOperands found => s!"curve-to: expected 4 or 6 parameters, got {found}"
  | textOperands found => s!"text: expected 1 or 3 parameters, got {found}"
  | emptyLiteral => "empty literal"
  | fontNotLoaded name => "font " ++ Text.quote name ++ " was not preloaded"
  | pictureNotLoaded path => "image " ++ Text.quote path ++ " was not preloaded"
  | textWithoutFont => "text shown before a font was selected"
  | notDocument reason => "failed to load PDF from memory: " ++ reason
  | notWritten reason => "failed to serialise PDF: " ++ reason
  | pageNotFound number pageCount => s!"page {number} not found (document has {pageCount} pages)"
  | pageNotWritable number generation fault =>
    s!"cannot update page ({number}, {generation}): " ++ fault.phrase
  | noPixels path => path ++ " has no pixels"
  | configurationUnreadable path fault => s!"cannot read {path}: " ++ fault.phrase
  | file fault => fault.phrase
  | configurationText .malformed => "not a JSON text"
  | configurationText .unfinished => "the JSON text ends too early"
  | configurationText .unsuitable => "not a configuration"

def message (failure : Failure) : String :=
  failure.area.heading ++ failure.detail

end Failure

abbrev Outcome := Except Failure

end Overprint
