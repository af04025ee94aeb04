import UrithiBidz.Library.Ranged
import UrithiBidz.Library.Fallible
import UrithiBidz.Library.History
import UrithiBidz.Library.Projection
import UrithiBidz.Library.Bytes
import UrithiBidz.Library.Numeral
import UrithiBidz.Library.Hmac
import UrithiBidz.Library.Sha256
import UrithiBidz.Library.Backing
import UrithiBidz.Library.Dedup
import UrithiBidz.Library.Paging
import UrithiBidz.Library.SlidingWindow
import UrithiBidz.Library.FixedWindow
import UrithiBidz.Library.Reactive
import UrithiBidz.Library.Schema
import UrithiBidz.Contract.Types
import UrithiBidz.Contract.Env
import UrithiBidz.Contract.English
import UrithiBidz.Contract.Dutch
import UrithiBidz.Contract.SealedBid
import UrithiBidz.Contract.Royalty
import UrithiBidz.Contract.Lifecycle
import UrithiBidz.Contract.Settlement
import UrithiBidz.Contract.Call
import UrithiBidz.Contract.Queries
import UrithiBidz.Book.Basic
import UrithiBidz.Book.Refinement
import UrithiBidz.Book.Life
import UrithiBidz.Book.Sealed
import UrithiBidz.Book.Owed
import UrithiBidz.Ledger.Host
import UrithiBidz.Ledger.Run
import UrithiBidz.Ledger.Replay
import UrithiBidz.Ledger.Transfers
import UrithiBidz.Guarantees.Lifecycle
import UrithiBidz.Guarantees.Sale
import UrithiBidz.Guarantees.Cancellation
import UrithiBidz.Guarantees.Conservation
import UrithiBidz.Guarantees.Phases
import UrithiBidz.Guarantees.Deposits
import UrithiBidz.Guarantees.Solvency
import UrithiBidz.Guarantees.HammerPrice
import UrithiBidz.Guarantees.Deadline
import UrithiBidz.Guarantees.Bidding
import UrithiBidz.Guarantees.Headcount
import UrithiBidz.Guarantees.Closing
import UrithiBidz.Guarantees.Isolation
import UrithiBidz.Guarantees.Consent
import UrithiBidz.Guarantees.Attestation
import UrithiBidz.Guarantees.Approval
import UrithiBidz.Guarantees.FallingPrice
import UrithiBidz.Guarantees.Binding
import UrithiBidz.Guarantees.Payout
import UrithiBidz.Guarantees.Finalization
import UrithiBidz.Guarantees.Chronicle
import UrithiBidz.Guarantees.Noninterference
import UrithiBidz.Guarantees.Administration
import UrithiBidz.Guarantees.Answers
import UrithiBidz.Frontend.Commitment
import UrithiBidz.Indexer.Native
import UrithiBidz.Frontend.Stroops
import UrithiBidz.Frontend.Upload
import UrithiBidz.Frontend.AuctionPage
import UrithiBidz.Indexer.Database
import UrithiBidz.Indexer.Handlers
import UrithiBidz.Indexer.Writes
import UrithiBidz.Indexer.Statements
import UrithiBidz.Indexer.Poll
import UrithiBidz.Indexer.Scheduler
import UrithiBidz.Guarantees.Mirror
import UrithiBidz.Guarantees.Cursor
import UrithiBidz.Guarantees.Termination
import UrithiBidz.Guarantees.Idempotence
import UrithiBidz.Guarantees.AuditTrail
import UrithiBidz.Guarantees.Atomicity
import UrithiBidz.Guarantees.Leader
import UrithiBidz.Guarantees.SinglePoll
import UrithiBidz.Server.Challenge
import UrithiBidz.Server.Auth
import UrithiBidz.Guarantees.RequestReplay
import UrithiBidz.Server.Socket
import UrithiBidz.Guarantees.SocketReplay
import UrithiBidz.Guarantees.PrivateRooms
import UrithiBidz.Guarantees.Handshake
import UrithiBidz.Server.Broadcast
import UrithiBidz.Guarantees.Delivery
import UrithiBidz.Guarantees.Announcements
import UrithiBidz.Server.RateLimiter
import UrithiBidz.Guarantees.RateLimit
import UrithiBidz.Server.Schemas
import UrithiBidz.Server.Routes
import UrithiBidz.Guarantees.BidPreflight
import UrithiBidz.Guarantees.CreatePreflight
import UrithiBidz.Server.App
import UrithiBidz.Guarantees.Admission
import UrithiBidz.Guarantees.Gatekeeping
import UrithiBidz.Server.Listing
import UrithiBidz.Guarantees.Catalogue
import UrithiBidz.Guarantees.ListQueries
import UrithiBidz.Guarantees.Uploads
import UrithiBidz.Guarantees.LivePage
