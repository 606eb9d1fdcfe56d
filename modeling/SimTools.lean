import SimTools.Lib.Memory
import SimTools.Lib.Sockets
import SimTools.Lib.Channels
import SimTools.Lib.Runs
import SimTools.Lib.Selection
import SimTools.Lib.Relay
import SimTools.DataCenter.ClusterCore
import SimTools.DataCenter.TaskHeader
import SimTools.DataCenter.ClusterBroker
import SimTools.DataCenter.SuperBroker
import SimTools.DataCenter.Network
import SimTools.DataCenter.Itinerary
import SimTools.DataCenter.Tracking
import SimTools.DataCenter.Hops
import SimTools.DataCenter.Delivery
import SimTools.DataCenter.Workers
import SimTools.DataCenter.Routing
import SimTools.DataCenter.AliveSignals
import SimTools.DataCenter.ClusterChoice
import SimTools.DataCenter.StateReports
import SimTools.LoadBalance.Components
import SimTools.Lib.Tokens
import SimTools.LoadBalance.Invariant
import SimTools.LoadBalance.ReadyQueue
import SimTools.LoadBalance.Requests
import SimTools.Lib.Linearization
import SimTools.TopicRpc.Service
import SimTools.TopicRpc.Linearizable
import SimTools.Lib.WireFormat
import SimTools.TopicRpc.RpcProto
import SimTools.TopicRpc.Keys
import SimTools.TopicRpc.Failures
import SimTools.TopicRpc.ServeLoop
import SimTools.PushPull.TasksCore
import SimTools.PushPull.Pipeline
import SimTools.LoadBalance.BackEnd
import SimTools.DataCenter.Stamping
import SimTools.Lib.Checked
import SimTools.DataCenter.LogLines
import SimTools.DataCenter.HeaderCopies
import SimTools.DataCenter.Dispatch
import SimTools.WeatherReport.WeatherCore
import SimTools.WeatherReport.WeatherPub
import SimTools.WeatherReport.WeatherSub
import SimTools.AsyncServer.AsyncCore
import SimTools.AsyncServer.Replies
import SimTools.RouterRequest.SimProto
import SimTools.RouterRequest.DummyRouter
import SimTools.Lib.Refinement
import SimTools.Lib.CallService
import SimTools.LoadBalance.Service
import SimTools.Lib.Accounts
import SimTools.Lib.OpenCalls
import SimTools.DummyProxy.ProxyBroker
import SimTools.DummyProxy.Service
import SimTools.DummyProxy.Progress
import SimTools.LoadBalance.Progress
import SimTools.AsyncServer.Conservation
import SimTools.DataCenter.Service
import SimTools.DataCenter.Progress
import SimTools.Lib.Sessions
import SimTools.TopicRpc.Exchange
import SimTools.Lib.Messages
import SimTools.RouterRequest.SimParse
import SimTools.WeatherReport.Broadcast
import SimTools.Lib.Queueing
import SimTools.LoadBalance.Turns
import SimTools.Lib.Views
import SimTools.DataCenter.Turns
import SimTools.Lib.Decimal
import SimTools.DataCenter.Deployment
import SimTools.DataCenter.Freshness
import SimTools.DataCenter.Refusals
import SimTools.DataCenter.Capacity
