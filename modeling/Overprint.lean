import Overprint.BitCode
import Overprint.Bytes
import Overprint.Color.Named
import Overprint.Color.Rgb
import Overprint.CommandLine
import Overprint.Configuration
import Overprint.Drawing.Call
import Overprint.Drawing.Execution
import Overprint.Drawing.Style
import Overprint.Drawing.Template
import Overprint.Failure
import Overprint.Disk
import Overprint.Formats
import Overprint.Run
import Overprint.Font.Face
import Overprint.Codec.Content
import Overprint.Codec.Picture.Decoding
import Overprint.Font
import Overprint.Font.Embedded
import Overprint.Font.Standard
import Overprint.Font.WinAnsi
import Overprint.Geometry.Corner
import Overprint.Geometry.Frame
import Overprint.Geometry.Outline
import Overprint.Geometry.Placement
import Overprint.Geometry.Segment
import Overprint.Invocation
import Overprint.Layer
import Overprint.Main
import Overprint.Notation.Numeric
import Overprint.Notation.Reader
import Overprint.Notation.Token
import Overprint.Number.Binary
import Overprint.Number.Numeral
import Overprint.Number.Scalar
import Overprint.Number.Shortest
import Overprint.Number.Trigonometry
import Overprint.Page.Schedule
import Overprint.Page.Selection
import Overprint.Pdf.Attachment
import Overprint.Pdf.Canvas
import Overprint.Pdf.Document
import Overprint.Codec.Pdf.File
import Overprint.Pdf.Filter
import Overprint.Pdf.Filter.BitReader
import Overprint.Pdf.Filter.Deflate
import Overprint.Pdf.Filter.Predictor
import Overprint.Pdf.Filter.Radix85
import Overprint.Pdf.Filter.StringCodes
import Overprint.Pdf.Fonts
import Overprint.Pdf.Lexeme
import Overprint.Pdf.Object
import Overprint.Pdf.Operation
import Overprint.Pdf.PageEntry
import Overprint.Pdf.PageTree
import Overprint.Pdf.Pictures
import Overprint.Pdf.Press
import Overprint.Codec.Pdf.Storage
import Overprint.Pdf.Written
import Overprint.Picture
import Overprint.Codec.Picture.Jpeg
import Overprint.Codec.Picture.Jpeg.Coded
import Overprint.Codec.Picture.Jpeg.Decoding
import Overprint.Codec.Picture.Jpeg.FilmCode
import Overprint.Codec.Picture.Jpeg.Header
import Overprint.Codec.Picture.Jpeg.Table
import Overprint.Codec.Picture.Netpbm
import Overprint.Picture.Pixel
import Overprint.Picture.Raster
import Overprint.Proofs.Drawing.Agreement
import Overprint.Proofs.Drawing.Faults
import Overprint.Proofs.Drawing.Graphics
import Overprint.Proofs.Drawing.Numbers
import Overprint.Proofs.Drawing.Provenance
import Overprint.Proofs.Drawing.Soundness
import Overprint.Proofs.Drawing.Step
import Overprint.Proofs.Geometry.Arc
import Overprint.Proofs.Geometry.Extent
import Overprint.Proofs.Independence
import Overprint.Proofs.Number.Magnitude
import Overprint.Proofs.Number.Rounding
import Overprint.Proofs.Number.Sine
import Overprint.Proofs.Page.Assignment
import Overprint.Proofs.Page.Partition
import Overprint.Proofs.Pdf.Binding
import Overprint.Proofs.Pdf.Closed
import Overprint.Proofs.Pdf.Completion
import Overprint.Proofs.Pdf.Content
import Overprint.Proofs.Pdf.EmbeddedText
import Overprint.Proofs.Pdf.GlyphUse
import Overprint.Proofs.Pdf.Grounded
import Overprint.Proofs.Pdf.Layering
import Overprint.Proofs.Pdf.Naming
import Overprint.Proofs.Pdf.Nesting
import Overprint.Proofs.Pdf.Operands
import Overprint.Proofs.Pdf.Overprinting
import Overprint.Proofs.Pdf.Recording
import Overprint.Proofs.Pdf.Reference
import Overprint.Proofs.Pdf.Registry
import Overprint.Proofs.Pdf.Rendering
import Overprint.Proofs.Pdf.TextObject
import Overprint.Proofs.Pdf.UnicodeMap
import Overprint.Proofs.Provision
import Overprint.Proofs.Rebinding
import Overprint.Proofs.Resolution
import Overprint.Proofs.Script.Admission
import Overprint.Proofs.Script.Writing
import Overprint.Proofs.Stamping
import Overprint.Proofs.Success
import Overprint.Script.Command
import Overprint.Script.Item
import Overprint.Script.Operand
import Overprint.Script.Reading
import Overprint.Script.Verb
import Overprint.Script.Vocabulary
import Overprint.Codec.Sfnt.CharacterMap
import Overprint.Codec.Sfnt.Compact.Index
import Overprint.Codec.Sfnt.Compact.Outlines
import Overprint.Codec.Sfnt.Compact.Setting
import Overprint.Codec.Sfnt.Directory
import Overprint.Codec.Sfnt.Face
import Overprint.Codec.Sfnt.Metrics
import Overprint.Codec.Sfnt.Names
import Overprint.Codec.Sfnt.Variation
import Overprint.Codec.Sfnt.Variation.DeltaStore
import Overprint.SortedMap
import Overprint.Stamping
import Overprint.Stock
import Overprint.Text.Blank
import Overprint.Text.CodePoint
import Overprint.Text.Extender
import Overprint.Text.Invisible
import Overprint.Text.Path
import Overprint.Text.Quoted
import Overprint.Text.Utf8
import Overprint.Traced
import Overprint.Usage
import Overprint.Proofs.Loading
import Overprint.Proofs.Page.Tokens
import Overprint.Proofs.Drawing.Expansion
import Overprint.Proofs.Files.Walk
import Overprint.Proofs.Files.Replacement
import Overprint.Proofs.Drawing.Lines
import Overprint.Proofs.Color.Shares
import Overprint.Proofs.Drawing.Colors
import Overprint.Proofs.Pdf.ColorOperands
import Overprint.Proofs.Number.Exact
import Overprint.Proofs.Geometry.CurvedPath
import Overprint.Proofs.Geometry.Sweep
import Overprint.Proofs.Picture.Samples
import Overprint.Proofs.Picture.Reading
import Overprint.Proofs.Pdf.PictureSamples
import Overprint.Proofs.Geometry.Mirroring
import Overprint.Proofs.Pdf.Inheritance
import Overprint.Proofs.Notation.Value
import Overprint.Proofs.Notation.Reading
import Overprint.Proofs.Notation.Overlay
import Overprint.Proofs.Configuration
