import NapCat.Api.Consumers
import NapCat.Api.EventFilter
import NapCat.Api.EventFlow
import NapCat.Api.EventOrder
import NapCat.Api.Federation
import NapCat.Api.Groups
import NapCat.Api.Inbound
import NapCat.Api.Listen
import NapCat.Api.ListenFormat
import NapCat.Api.ListenQuery
import NapCat.Api.MessageId
import NapCat.Api.Payload
import NapCat.Api.Pipeline
import NapCat.Api.PollLoop
import NapCat.Api.Relay
import NapCat.Api.Send
import NapCat.Api.SendGuards
import NapCat.Api.SendRoutes
import NapCat.Api.Server
import NapCat.Api.Subscribers
import NapCat.Cli.RunApp
import NapCat.Config.Load
import NapCat.Config.Patch
import NapCat.Core.Lifecycle
import NapCat.Core.OneShutdown
import NapCat.Core.Rejection
import NapCat.Core.Runtime
import NapCat.Core.Shutdown
import NapCat.Core.Signals
import NapCat.Desktop.Runtime
import NapCat.Desktop.Tap
import NapCat.Desktop.Turns
import NapCat.Lib.BoundedQueue
import NapCat.Lib.Broadcast
import NapCat.Lib.CutWrites
import NapCat.Lib.Decimal
import NapCat.Lib.Ends
import NapCat.Lib.Fallible
import NapCat.Lib.Framing
import NapCat.Lib.Json.Basic
import NapCat.Lib.Json.Range
import NapCat.Lib.Json.RoundTrip
import NapCat.Lib.Json.Serde
import NapCat.Lib.Json.Tails
import NapCat.Lib.Json.Torn
import NapCat.Lib.Json.Value
import NapCat.Lib.Layers
import NapCat.Lib.Leaving
import NapCat.Lib.Lockstep
import NapCat.Lib.LostLines
import NapCat.Lib.Machine
import NapCat.Lib.PartialMap
import NapCat.Lib.Percent
import NapCat.Lib.PosixPath
import NapCat.Lib.Reader
import NapCat.Lib.Rounds
import NapCat.Lib.Run
import NapCat.Lib.Stamps
import NapCat.Lib.TaggedLog
import NapCat.Lib.Text
import NapCat.Lib.Threads
import NapCat.Lib.Turns
import NapCat.Lib.Utf8
import NapCat.Lib.WaitingLine
import NapCat.Lib.Woven
import NapCat.Message.Basic
import NapCat.Plugin.Contents
import NapCat.Plugin.Dispatch
import NapCat.Plugin.Failures
import NapCat.Plugin.HttpPlugin
import NapCat.Plugin.Manager
import NapCat.Plugin.Processes
import NapCat.Plugin.Registry
import NapCat.Plugin.RunPlugin
import NapCat.Protocol.Dismissed
import NapCat.Protocol.Event
import NapCat.Protocol.ListenEnvelope
import NapCat.Protocol.ListenItems
import NapCat.Protocol.OneBotHttp
import NapCat.Protocol.OneBotListener
import NapCat.Protocol.OneBotRequests
import NapCat.Protocol.PeerClosed
import NapCat.Protocol.QQAgreement
import NapCat.Protocol.QQBackend
import NapCat.Protocol.QQDelivery
import NapCat.Protocol.QQListener
import NapCat.Protocol.QQSend
import NapCat.Protocol.RoundTrip
import NapCat.Protocol.SessionEnds
import NapCat.Protocol.Unheard
import NapCat.QQClient.Endpoint
import NapCat.QQClient.Heartbeat
import NapCat.QQClient.LineEnds
import NapCat.QQClient.LoginAck
import NapCat.QQClient.Mock
import NapCat.QQClient.Origin
import NapCat.QQClient.Outbound
import NapCat.QQClient.PeerReads
import NapCat.QQClient.Sequential
import NapCat.QQClient.Session
import NapCat.QQClient.StreamLock
import NapCat.QQClient.Substitution
import NapCat.QQClient.Tcp
import NapCat.QQClient.Timeouts
import NapCat.QQClient.TornLine
import NapCat.QQClient.Wire
import NapCat.Storage.Basic
import NapCat.Storage.DatabaseUrl
import NapCat.Storage.Equivalence
import NapCat.Storage.Memory
import NapCat.Storage.Paths
import NapCat.Storage.Records
import NapCat.Storage.Sqlite
import NapCat.Storage.Times
