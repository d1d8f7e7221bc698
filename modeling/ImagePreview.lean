import ImagePreview.Client
import ImagePreview.Document.Basic
import ImagePreview.Document.Buffer
import ImagePreview.Document.Event
import ImagePreview.Document.Piece
import ImagePreview.Document.Run
import ImagePreview.Document.Session
import ImagePreview.Image.Form
import ImagePreview.Image.Ledger
import ImagePreview.Image.Policy
import ImagePreview.Image.Treatment
import ImagePreview.Json.Basic
import ImagePreview.Json.Reader
import ImagePreview.Json.Scanner
import ImagePreview.Log.Basic
import ImagePreview.Log.Json
import ImagePreview.Markup.Attributes
import ImagePreview.Markup.Element
import ImagePreview.Markup.Fault
import ImagePreview.Markup.Item
import ImagePreview.Markup.Tag
import ImagePreview.Markup.Token
import ImagePreview.Preview.Basic
import ImagePreview.Preview.Catalogue
import ImagePreview.Preview.Source
import ImagePreview.Proofs.Document.Apart
import ImagePreview.Proofs.Document.Closing
import ImagePreview.Proofs.Document.Depth
import ImagePreview.Proofs.Document.Draft
import ImagePreview.Proofs.Document.Errors
import ImagePreview.Proofs.Document.Governed
import ImagePreview.Proofs.Document.Inactive
import ImagePreview.Proofs.Document.Insertion
import ImagePreview.Proofs.Document.Moment
import ImagePreview.Proofs.Document.Nesting
import ImagePreview.Proofs.Document.Noscript
import ImagePreview.Proofs.Document.Offsets
import ImagePreview.Proofs.Document.Outlook
import ImagePreview.Proofs.Document.Parts
import ImagePreview.Proofs.Document.PassThrough
import ImagePreview.Proofs.Document.Step
import ImagePreview.Proofs.Document.Taking
import ImagePreview.Proofs.Document.Window
import ImagePreview.Proofs.Document.Windows
import ImagePreview.Proofs.Image.Eligibility
import ImagePreview.Proofs.Image.Faults
import ImagePreview.Proofs.Image.Limit
import ImagePreview.Proofs.Image.Lookups
import ImagePreview.Proofs.Image.Previews
import ImagePreview.Proofs.Image.Retained
import ImagePreview.Proofs.Image.SecondPass
import ImagePreview.Proofs.Image.ShownSource
import ImagePreview.Proofs.Image.Sizes
import ImagePreview.Proofs.Json.Reading
import ImagePreview.Proofs.Json.Scanning
import ImagePreview.Proofs.Log.Applied
import ImagePreview.Proofs.Log.Export
import ImagePreview.Proofs.Log.Report
import ImagePreview.Proofs.Markup.Extent
import ImagePreview.Proofs.Markup.Reading
import ImagePreview.Proofs.Markup.Rereading
import ImagePreview.Proofs.Markup.Seam
import ImagePreview.Proofs.Markup.Sources
import ImagePreview.Proofs.Markup.Whole
import ImagePreview.Proofs.Scripts.Account
import ImagePreview.Proofs.Scripts.Addresses
import ImagePreview.Proofs.Scripts.Arrival
import ImagePreview.Proofs.Scripts.Cue
import ImagePreview.Proofs.Scripts.DataUri
import ImagePreview.Proofs.Scripts.Debugging
import ImagePreview.Proofs.Scripts.Flushes
import ImagePreview.Proofs.Scripts.Keys
import ImagePreview.Proofs.Scripts.LazyLibrary
import ImagePreview.Proofs.Scripts.Note
import ImagePreview.Proofs.Scripts.Order
import ImagePreview.Proofs.Scripts.Page
import ImagePreview.Proofs.Scripts.Parameters
import ImagePreview.Proofs.Scripts.Placement
import ImagePreview.Proofs.Scripts.Register
import ImagePreview.Proofs.Scripts.Statements
import ImagePreview.Proofs.Settings.Environment
import ImagePreview.Proofs.Text.Base64
import ImagePreview.Proofs.Text.Decimal
import ImagePreview.Proofs.Text.Decoding
import ImagePreview.Proofs.Text.Encoding
import ImagePreview.Proofs.Text.Literal
import ImagePreview.Proofs.Text.Numeral
import ImagePreview.Scripts.Assets
import ImagePreview.Scripts.Block
import ImagePreview.Scripts.Commented
import ImagePreview.Scripts.Compact
import ImagePreview.Scripts.Library
import ImagePreview.Scripts.PlainUrl
import ImagePreview.Settings.Basic
import ImagePreview.Settings.Environment
import ImagePreview.Settings.Json
import ImagePreview.Text.Base64
import ImagePreview.Text.Basic
import ImagePreview.Text.Blank
import ImagePreview.Text.Cut
import ImagePreview.Text.Digits
import ImagePreview.Text.JsLiteral
import ImagePreview.Text.Reference
import ImagePreview.Text.ReferenceTable
import ImagePreview.Trace
