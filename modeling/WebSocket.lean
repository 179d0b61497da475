import WebSocket.CommandLine
import WebSocket.Digest.Base64
import WebSocket.Digest.Sha1
import WebSocket.Fifo
import WebSocket.Hosting.Acceptor
import WebSocket.Hosting.Application
import WebSocket.Hosting.Backoff
import WebSocket.Hosting.Clients
import WebSocket.Hosting.Duration
import WebSocket.Hosting.Host
import WebSocket.Hosting.Job
import WebSocket.Hosting.Service
import WebSocket.Hosting.Settings
import WebSocket.Hosting.Turn
import WebSocket.Hosting.Workbench
import WebSocket.Main
import WebSocket.Opening.Attempt
import WebSocket.Opening.Headers
import WebSocket.Opening.Negotiation
import WebSocket.Opening.OpeningError
import WebSocket.Opening.RequestReader
import WebSocket.Peer.Client
import WebSocket.Peer.Recorder
import WebSocket.Proofs.Hosting.Accepting
import WebSocket.Proofs.Hosting.Additions
import WebSocket.Proofs.Hosting.Admission
import WebSocket.Proofs.Hosting.Advance
import WebSocket.Proofs.Hosting.Asides
import WebSocket.Proofs.Hosting.Closing
import WebSocket.Proofs.Hosting.Core
import WebSocket.Proofs.Hosting.Counting
import WebSocket.Proofs.Hosting.Delivery
import WebSocket.Proofs.Hosting.Draining
import WebSocket.Proofs.Hosting.Dropping
import WebSocket.Proofs.Hosting.Echo
import WebSocket.Proofs.Hosting.Entrance
import WebSocket.Proofs.Hosting.Following
import WebSocket.Proofs.Hosting.GivingUp
import WebSocket.Proofs.Hosting.Happenings
import WebSocket.Proofs.Hosting.Incoming
import WebSocket.Proofs.Hosting.KeepingOut
import WebSocket.Proofs.Hosting.Lapses
import WebSocket.Proofs.Hosting.Numbers
import WebSocket.Proofs.Hosting.Outgoing
import WebSocket.Proofs.Hosting.Panics
import WebSocket.Proofs.Hosting.Performance
import WebSocket.Proofs.Hosting.Poise
import WebSocket.Proofs.Hosting.Quiet
import WebSocket.Proofs.Hosting.Refinement
import WebSocket.Proofs.Hosting.Refusing
import WebSocket.Proofs.Hosting.Saying
import WebSocket.Proofs.Hosting.Scenes
import WebSocket.Proofs.Hosting.Schedules
import WebSocket.Proofs.Hosting.Separation
import WebSocket.Proofs.Hosting.Telling
import WebSocket.Proofs.Hosting.Waits
import WebSocket.Proofs.Opening.Agreement
import WebSocket.Proofs.Opening.Attempts
import WebSocket.Proofs.Opening.Combining
import WebSocket.Proofs.Opening.Cutting
import WebSocket.Proofs.Opening.Grouping
import WebSocket.Proofs.Opening.Heads
import WebSocket.Proofs.Opening.Reading
import WebSocket.Proofs.Opening.Regrouping
import WebSocket.Proofs.Opening.Replies
import WebSocket.Proofs.Opening.Requests
import WebSocket.Proofs.Peer.Announcements
import WebSocket.Proofs.Peer.Reading
import WebSocket.Proofs.Peer.Splitting
import WebSocket.Proofs.Session.Attention
import WebSocket.Proofs.Session.Conversation
import WebSocket.Proofs.Session.Conveyance
import WebSocket.Proofs.Session.Courses
import WebSocket.Proofs.Session.Deeds
import WebSocket.Proofs.Session.Desks
import WebSocket.Proofs.Session.Dispatch
import WebSocket.Proofs.Session.Entries
import WebSocket.Proofs.Session.Errands
import WebSocket.Proofs.Session.Failures
import WebSocket.Proofs.Session.Grammar
import WebSocket.Proofs.Session.Growth
import WebSocket.Proofs.Session.Hearing
import WebSocket.Proofs.Session.LastWords
import WebSocket.Proofs.Session.Leftovers
import WebSocket.Proofs.Session.Lives
import WebSocket.Proofs.Session.Order
import WebSocket.Proofs.Session.Outcomes
import WebSocket.Proofs.Session.Ownership
import WebSocket.Proofs.Session.Posting
import WebSocket.Proofs.Session.Response
import WebSocket.Proofs.Session.Soundness
import WebSocket.Proofs.Session.Speech
import WebSocket.Proofs.Session.Succession
import WebSocket.Proofs.Text.Characters
import WebSocket.Proofs.Wire.Chunks
import WebSocket.Proofs.Wire.Encoders
import WebSocket.Proofs.Wire.Endings
import WebSocket.Proofs.Wire.Framing
import WebSocket.Proofs.Wire.Headers
import WebSocket.Proofs.Wire.Leftovers
import WebSocket.Proofs.Wire.RoundTrip
import WebSocket.Session.Connection
import WebSocket.Session.Desk
import WebSocket.Session.Engine
import WebSocket.Session.Event
import WebSocket.Session.Metrics
import WebSocket.Session.Notice
import WebSocket.Session.Table
import WebSocket.Text.Blank
import WebSocket.Text.Quoted
import WebSocket.Text.Unprintable
import WebSocket.Text.Utf8
import WebSocket.Transport.Address
import WebSocket.Transport.Fault
import WebSocket.Transport.Medium
import WebSocket.Transport.Pipe
import WebSocket.Transport.ReceiveBuffer
import WebSocket.Transport.Source
import WebSocket.Wire.Bytes
import WebSocket.Wire.ClientFrame
import WebSocket.Wire.Decoder
import WebSocket.Wire.FrameError
import WebSocket.Wire.Masking
import WebSocket.Wire.Opcode
import WebSocket.Wire.ServerFrame
