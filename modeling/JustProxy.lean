import JustProxy.Foundation.Bytes
import JustProxy.Foundation.Text
import JustProxy.Foundation.StreamDecoder
import JustProxy.Foundation.FramedChannel
import JustProxy.Foundation.Aead
import JustProxy.Foundation.Transition
import JustProxy.Foundation.OrderedMap
import JustProxy.Foundation.Json
import JustProxy.Message
import JustProxy.Opt
import JustProxy.Config.Merge
import JustProxy.Config.ReadBack
import JustProxy.Tunnel.Codec
import JustProxy.Tunnel.Frames
import JustProxy.Tunnel.RoundTrip
import JustProxy.Tunnel.Strict
import JustProxy.Tunnel.Authenticity
import JustProxy.Tunnel.Replay
import JustProxy.Tunnel.Chunking
import JustProxy.Acceptance
import JustProxy.Launch
import JustProxy.Socks.Message
import JustProxy.Socks.Codec
import JustProxy.Socks.Layout
import JustProxy.Socks.Chunking
import JustProxy.Socks.Session
import JustProxy.Socks.RequestLaws
import JustProxy.Socks.Reply
import JustProxy.Socks.AddressText
import JustProxy.Socks.Discipline
import JustProxy.Encoders
import JustProxy.Component.Server
import JustProxy.Component.Client
import JustProxy.Component.Upstream
import JustProxy.Component.Resolver
import JustProxy.Component.Reader
import JustProxy.Component.Connections
import JustProxy.Component.ClosedQueue
import JustProxy.System.State
import JustProxy.System.Relay
import JustProxy.System.Refinement
import JustProxy.System.Steps
import JustProxy.System.Lifecycle
import JustProxy.System.Isolation
import JustProxy.System.Lookup
import JustProxy.System.Survival
import JustProxy.System.Heartbeats
import JustProxy.System.Dispatch
import JustProxy.System.Agreement
import JustProxy.System.RoundTripTime
import JustProxy.System.Histories
import JustProxy.System.Replies
import JustProxy.System.Settling
import JustProxy.System.Payload
import JustProxy.System.Sockets
import JustProxy.System.Delivery
import JustProxy.System.Messages
import JustProxy.System.Wire
import JustProxy.System.Transport
import JustProxy.System.EndToEnd
import JustProxy.System.Started
import JustProxy.System.Report
import JustProxy.System.Silence
import JustProxy.System.Succession
