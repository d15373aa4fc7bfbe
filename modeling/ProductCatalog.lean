import ProductCatalog.Broker.Address
import ProductCatalog.Broker.Connection
import ProductCatalog.Catalog.Basic
import ProductCatalog.Catalog.Call
import ProductCatalog.Catalog.Interleaving
import ProductCatalog.CommandLine
import ProductCatalog.CommandLine.Usage
import ProductCatalog.Consumer.Basic
import ProductCatalog.Consumer.Handler
import ProductCatalog.Consumer.Notifications
import ProductCatalog.Consumer.Run
import ProductCatalog.Consumer.Turn
import ProductCatalog.Database.Address
import ProductCatalog.Database.Connection
import ProductCatalog.Database.Listing
import ProductCatalog.Event.Basic
import ProductCatalog.Event.Envelope
import ProductCatalog.Event.Publication
import ProductCatalog.Event.Report
import ProductCatalog.Http.MediaType
import ProductCatalog.Http.Message
import ProductCatalog.Http.Notifications
import ProductCatalog.Http.Products
import ProductCatalog.Json.Fault
import ProductCatalog.Json.Printer
import ProductCatalog.Json.Reader
import ProductCatalog.Json.Record
import ProductCatalog.Log.Basic
import ProductCatalog.Log.Filter
import ProductCatalog.Log.Line
import ProductCatalog.Log.Signal
import ProductCatalog.Main
import ProductCatalog.Number.Binary64
import ProductCatalog.Number.Binary64.Parser
import ProductCatalog.Number.Decimal
import ProductCatalog.Number.Decimal.Parser
import ProductCatalog.Number.Shortest
import ProductCatalog.Product.Basic
import ProductCatalog.Product.Error
import ProductCatalog.Product.Id
import ProductCatalog.Product.Json
import ProductCatalog.Product.Request
import ProductCatalog.Queue.Basic
import ProductCatalog.Queue.Exchange
import ProductCatalog.Service.Failure
import ProductCatalog.Service.Start
import ProductCatalog.Settings.Basic
import ProductCatalog.Settings.DotEnv
import ProductCatalog.Settings.Load
import ProductCatalog.Settings.Reading
import ProductCatalog.Settings.Value
import ProductCatalog.Shutdown
import ProductCatalog.Store.Basic
import ProductCatalog.Store.Sessions
import ProductCatalog.Text.Blank
import ProductCatalog.Text.Digits
import ProductCatalog.Text.Form
import ProductCatalog.Text.Hexadecimal
import ProductCatalog.Text.Quoted
import ProductCatalog.Text.SocketAddress
import ProductCatalog.Text.Split
import ProductCatalog.Text.Utf8
import ProductCatalog.Text.Visible
import ProductCatalog.Time.Instant
import ProductCatalog.Time.Instant.Parser
import ProductCatalog.Yaml.Cursor
import ProductCatalog.Yaml.Document
import ProductCatalog.Yaml.Scalar
import ProductCatalog.Yaml.Token
import ProductCatalog.Yaml.Token.Lexer
import ProductCatalog.Yaml.Value
import ProductCatalog.Proofs.Catalog.Ledger
import ProductCatalog.Proofs.Catalog.Interleaving
import ProductCatalog.Proofs.Catalog.Protocol
import ProductCatalog.Proofs.Catalog.Creation
import ProductCatalog.Proofs.Consumer.Course
import ProductCatalog.Proofs.Consumer.Moves
import ProductCatalog.Proofs.Queue.Conservation
import ProductCatalog.Proofs.Consumer.Books
import ProductCatalog.Proofs.Consumer.Accounting
import ProductCatalog.Proofs.Queue.History
import ProductCatalog.Proofs.Queue.Tokens
import ProductCatalog.Proofs.Queue.Timing
import ProductCatalog.Proofs.Queue.Polling
import ProductCatalog.Proofs.Store.History
import ProductCatalog.Proofs.Store.Keys
import ProductCatalog.Proofs.Consumer.Clock
import ProductCatalog.Proofs.Consumer.Exclusion
import ProductCatalog.Proofs.Product.Json
import ProductCatalog.Proofs.Catalog.Reachable
import ProductCatalog.Proofs.Catalog.Disturbed
import ProductCatalog.Proofs.Http.Effect
import ProductCatalog.Proofs.Catalog.Faultless
import ProductCatalog.Proofs.Catalog.Contest
import ProductCatalog.Proofs.Catalog.Contention
import ProductCatalog.Proofs.Store.Record
import ProductCatalog.Proofs.Consumer.Voices
import ProductCatalog.Proofs.Consumer.Notifications
import ProductCatalog.Proofs.Consumer.Stints
import ProductCatalog.Proofs.Consumer.Seats
import ProductCatalog.Proofs.Consumer.Judgement
import ProductCatalog.Proofs.Consumer.Liveness
import ProductCatalog.Proofs.Consumer.Closing
import ProductCatalog.Proofs.Consumer.Draining
import ProductCatalog.Proofs.Consumer.Receives
import ProductCatalog.Proofs.Consumer.Receiving
import ProductCatalog.Proofs.Consumer.Instants
import ProductCatalog.Proofs.Consumer.Promptness
import ProductCatalog.Proofs.Consumer.Outlook
import ProductCatalog.Proofs.Consumer.Independence
import ProductCatalog.Proofs.Json.Spelling
import ProductCatalog.Proofs.Json.Grammar
import ProductCatalog.Proofs.Json.Members
import ProductCatalog.Proofs.Json.Written
import ProductCatalog.Proofs.Number.Notation
import ProductCatalog.Proofs.Json.Resolved
import ProductCatalog.Proofs.Json.Skipped
import ProductCatalog.Proofs.Json.Accepted
import ProductCatalog.Proofs.Product.Spelling
import ProductCatalog.Proofs.Event.Spelling
import ProductCatalog.Proofs.Event.Classification
import ProductCatalog.Proofs.Catalog.Departure
import ProductCatalog.Proofs.Store.Listing
import ProductCatalog.Proofs.Database.Listing
import ProductCatalog.Proofs.Product.Request
import ProductCatalog.Proofs.Queue.Order
import ProductCatalog.Proofs.Text.Numeral
import ProductCatalog.Proofs.Product.Window
import ProductCatalog.Proofs.Product.Order
import ProductCatalog.Proofs.Product.Grammar
import ProductCatalog.Proofs.Product.Entrances
import ProductCatalog.Proofs.Http.Limit
import ProductCatalog.Proofs.Broker.Address
import ProductCatalog.Proofs.Database.Connection
import ProductCatalog.Proofs.Settings.Merging
import ProductCatalog.Proofs.Settings.Contents
import ProductCatalog.Proofs.Settings.Variables
import ProductCatalog.Proofs.Settings.Layers
