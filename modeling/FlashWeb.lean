import FlashWeb.Properties.Pipelining
import FlashWeb.Properties.EndOfStream
import FlashWeb.Properties.Responses
import FlashWeb.Properties.Decode
import FlashWeb.Properties.HalfClose
import FlashWeb.Properties.KeepAlive
import FlashWeb.Properties.Clock
import FlashWeb.Properties.Handoff
import FlashWeb.Properties.Workers
import FlashWeb.Properties.Traversal
import FlashWeb.Properties.HeaderFields
import FlashWeb.Properties.NoHeaders
import FlashWeb.Properties.Expiry
import FlashWeb.Properties.Output
import FlashWeb.Properties.Files
import FlashWeb.Properties.Interest
import FlashWeb.Properties.HeaderRanges
import FlashWeb.Properties.Bounds
import FlashWeb.Properties.Overloads
import FlashWeb.Properties.Refinement
import FlashWeb.Properties.Watched
import FlashWeb.Properties.Lifecycle
import FlashWeb.Properties.Progress
import FlashWeb.Properties.Segments
import FlashWeb.Properties.LineGrammar
import FlashWeb.Properties.Shutdown
import FlashWeb.Properties.Clients
import FlashWeb.Properties.Balance
import FlashWeb.Properties.Reaping
import FlashWeb.Properties.Streams
import FlashWeb.Properties.IdleServer
import FlashWeb.Properties.SlowClients
import FlashWeb.Properties.Events
import FlashWeb.Properties.Errors
import FlashWeb.Properties.Bodies
