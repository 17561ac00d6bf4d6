import TermInterop.Text
import TermInterop.Utf8Lossy
import TermInterop.Json
import TermInterop.Base64
import TermInterop.ScanLoop
import TermInterop.Lexing
import TermInterop.Slices
import TermInterop.Traced
import TermInterop.Lts
import TermInterop.Receipt
import TermInterop.ReceiptJson
import TermInterop.ReceiptSize
import TermInterop.ReceiptFit
import TermInterop.Negotiation
import TermInterop.JsonDocuments
import TermInterop.JsonText
import TermInterop.JsonFormats
import TermInterop.NegotiationJson
import TermInterop.ReceiptDocuments
import TermInterop.ConsumeNegotiation
import TermInterop.Da1
import TermInterop.Deadlines
import TermInterop.Kgp
import TermInterop.Sixel
import TermInterop.Evidence
import TermInterop.PngDisplay
import TermInterop.Tmux
import TermInterop.TtyExchange
import TermInterop.Geometry
import TermInterop.ReplyStream
import TermInterop.Probe
import TermInterop.EmittedReceipts
import TermInterop.Responder
import TermInterop.ArtifactRef
import TermInterop.AspectFit
import TermInterop.Intent
import TermInterop.Preview
import TermInterop.Fit
import TermInterop.Prog
import TermInterop.Calls
import TermInterop.Screen
import TermInterop.PreviewSetup
import TermInterop.Unanswered
import TermInterop.LateReplies
import TermInterop.Histories
import TermInterop.Sockets
import TermInterop.Callback
import TermInterop.Framing
import TermInterop.Transcripts
import TermInterop.Handoff
import TermInterop.Availability
import TermInterop.FileSystem
import TermInterop.Registry
import TermInterop.LoadArtifact
import TermInterop.Registrations
import TermInterop.Resolutions
import TermInterop.RegistryStore
import TermInterop.Loads
import TermInterop.ReferenceDocuments
import TermInterop.Libraries
import TermInterop.Contracts
import TermInterop.PixelNegotiation
import TermInterop.Links
import TermInterop.FailedRegistration
import TermInterop.Reports
import TermInterop.DeviceFields
import TermInterop.Pager
import TermInterop.KeyReads
import TermInterop.Tokens
