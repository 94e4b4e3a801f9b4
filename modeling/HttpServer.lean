import HttpServer.Connection.Address
import HttpServer.Connection.Registry
import HttpServer.Connection.Transport
import HttpServer.Error
import HttpServer.Exchange.Action
import HttpServer.Exchange.Reading
import HttpServer.Exchange.Sending
import HttpServer.Exchange.State
import HttpServer.Exchange.Streaming
import HttpServer.Exchange.Waiting
import HttpServer.Files.Tree
import HttpServer.Request.Basic
import HttpServer.Request.Header
import HttpServer.Request.NameMap
import HttpServer.Request.Reader
import HttpServer.Request.Sink
import HttpServer.Response.Change
import HttpServer.Response.Conclusion
import HttpServer.Response.Cookie
import HttpServer.Response.Header
import HttpServer.Response.MediaType
import HttpServer.Response.Status
import HttpServer.Routing.Mount
import HttpServer.Routing.MountMethods
import HttpServer.Routing.Route
import HttpServer.Routing.Router
import HttpServer.Server.Builder
import HttpServer.Server.Dispatch
import HttpServer.Server.Duration
import HttpServer.Server.Settings
import HttpServer.Session.Credentials
import HttpServer.Session.Guard
import HttpServer.Session.Store
import HttpServer.Stream.Chunk
import HttpServer.Stream.Coding
import HttpServer.Stream.Encoded
import HttpServer.Stream.Feed
import HttpServer.Stream.Producer
import HttpServer.Stream.Writer
import HttpServer.Text.Base64
import HttpServer.Text.Blank
import HttpServer.Text.Caseless
import HttpServer.Text.Form
import HttpServer.Text.Number
import HttpServer.Text.Percent
import HttpServer.Text.Printable
import HttpServer.Text.Quoted
import HttpServer.Text.Split
import HttpServer.Text.Utf8
import HttpServer.Proofs.Request.Segmentation
import HttpServer.Proofs.Stream.Delivery
import HttpServer.Proofs.Response.HeaderLines
import HttpServer.Proofs.Exchange.Evolution
import HttpServer.Proofs.Exchange.Sending
import HttpServer.Proofs.Exchange.Performing
import HttpServer.Proofs.Exchange.Wire
import HttpServer.Proofs.Routing.Confinement
import HttpServer.Proofs.Request.Grammar
import HttpServer.Proofs.Exchange.HeaderOnce
import HttpServer.Proofs.Exchange.BodyDelivery
import HttpServer.Proofs.Session.Admission
import HttpServer.Proofs.Stream.Segments
import HttpServer.Proofs.Routing.Order
import HttpServer.Proofs.Exchange.Production
import HttpServer.Proofs.Exchange.AnyPeer
import HttpServer.Proofs.Exchange.HeaderReading
import HttpServer.Proofs.Server.Handlers
import HttpServer.Proofs.Server.OneExchange
import HttpServer.Proofs.Response.BodyFraming
import HttpServer.Proofs.Exchange.Concluding
import HttpServer.Proofs.Exchange.BodyFraming
import HttpServer.Proofs.Server.FailedHandlers
import HttpServer.Proofs.Server.CrashedHandlers
import HttpServer.Proofs.Connection.History
import HttpServer.Proofs.Request.SizeLimit
import HttpServer.Proofs.Stream.Wakeup
import HttpServer.Proofs.Session.Lifecycle
import HttpServer.Proofs.Stream.Queue
import HttpServer.Proofs.Exchange.SuccessiveReads
import HttpServer.Proofs.Exchange.Completing
import HttpServer.Proofs.Routing.Description
import HttpServer.Proofs.Session.Revival
import HttpServer.Proofs.Request.FieldLookup
import HttpServer.Proofs.Exchange.SourceLength
import HttpServer.Proofs.Session.ReturnedCookie
import HttpServer.Proofs.Session.Recognition
import HttpServer.Proofs.Text.Escaping
import HttpServer.Proofs.Request.Target
import HttpServer.Proofs.Routing.Parameters
import HttpServer.Proofs.Response.OrderedFields
import HttpServer.Proofs.Response.Writability
import HttpServer.Proofs.Request.Bookkeeping
import HttpServer.Proofs.Session.BasicCredentials
import HttpServer.Proofs.Stream.Quality
import HttpServer.Proofs.Stream.ContentNegotiation
import HttpServer.Proofs.Stream.EncodedQueue
import HttpServer.Proofs.Exchange.HeaderPhase
