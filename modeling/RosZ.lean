import RosZ.Lib.ByteOrder
import RosZ.Lib.Layout
import RosZ.Lib.Shape
import RosZ.Lib.Machine
import RosZ.Lib.PartialMap
import RosZ.Lib.Names
import RosZ.Lib.Focus
import RosZ.Lib.KeyedMap
import RosZ.Lib.Text
import RosZ.Lib.Lockstep
import RosZ.Lib.Worklist
import RosZ.Lib.RoundRobin
import RosZ.Lib.Fallible
import RosZ.Lib.Calls
import RosZ.Lib.Search
import RosZ.Lib.Ledger
import RosZ.Lib.Json
import RosZ.Lib.Slices
import RosZ.Lib.Words
import RosZ.Lib.Lines
import RosZ.Lib.Numerals
import RosZ.Lib.KeepLast
import RosZ.Lib.Checked
import RosZ.Lib.SortDedup
import RosZ.Cdr.Primitives
import RosZ.Cdr.Serde
import RosZ.Cdr.RoundTrip
import RosZ.Cdr.Buffers
import RosZ.Cdr.Limits
import RosZ.Cdr.Sizes
import RosZ.Cdr.ReaderBounds
import RosZ.Dynamic.Schema
import RosZ.Dynamic.Serialization
import RosZ.Dynamic.RoundTrip
import RosZ.Dynamic.Truncation
import RosZ.Dynamic.Messages
import RosZ.Dynamic.FieldPaths
import RosZ.Dynamic.Encodings
import RosZ.Dynamic.FixedSize
import RosZ.Dynamic.StaticAgreement
import RosZ.Dynamic.Reread
import RosZ.Dynamic.Forwarding
import RosZ.Dynamic.TypeDescription
import RosZ.Dynamic.DescriptionRoundTrip
import RosZ.Dynamic.ReferencedTypes
import RosZ.Pubsub.Shm
import RosZ.Pubsub.CdrOutputs
import RosZ.Queue
import RosZ.QueueWakeups
import RosZ.QueueBlocking
import RosZ.Events
import RosZ.Service.Client
import RosZ.Service.Server
import RosZ.Action.GoalManager
import RosZ.Action.Server
import RosZ.Action.Invariants
import RosZ.Action.Finality
import RosZ.Action.Acceptance
import RosZ.Action.Cancellation
import RosZ.Action.StateMachine
import RosZ.Action.StatusTopic
import RosZ.Action.Results
import RosZ.Action.Delivery
import RosZ.Action.Client
import RosZ.Action.GoalBoard
import RosZ.Lib.Switchboard
import RosZ.Action.GoalStreams
import RosZ.Action.DriverLoop
import RosZ.Action.CancelPolicy
import RosZ.Action.Handlers
import RosZ.Action.HandlerPanics
import RosZ.Action.HandlerSteps
import RosZ.Schema.TypeDescription
import RosZ.Schema.Hash
import RosZ.Codegen.Hashing
import RosZ.Codegen.Resolver
import RosZ.Codegen.Closure
import RosZ.Codegen.Resolution
import RosZ.Codegen.FileOrder
import RosZ.Codegen.Services
import RosZ.Codegen.Definitions
import RosZ.Codegen.ServiceClosure
import RosZ.Codegen.Parser.Lines
import RosZ.Codegen.Parser.Files
import RosZ.Codegen.Parser.FieldTypes
import RosZ.Codegen.Parser.Panics
import RosZ.Codegen.Parser.MessageLines
import RosZ.Codegen.Parser.ActionSections
import RosZ.Codegen.Parser.QuotedDefaults
import RosZ.Codegen.Generator
import RosZ.Codegen.SizeEstimate
import RosZ.Dynamic.Registry
import RosZ.Dynamic.CodegenAgreement
import RosZ.Dynamic.TypeDescriptionService
import RosZ.Dynamic.Discovery
import RosZ.Rmw.Bindings
import RosZ.Rmw.WaitSet
import RosZ.Rmw.WaitReturn
import RosZ.Rmw.Services
import RosZ.Rmw.ClientIds
import RosZ.Lib.Flight
import RosZ.Rmw.RequestReply
import RosZ.Rmw.Callbacks
import RosZ.Rmw.EventCallbacks
import RosZ.Rmw.QosCompatibility
import RosZ.Protocol.Qos
import RosZ.Protocol.Entity
import RosZ.Protocol.RmwZenoh
import RosZ.Protocol.ReadBack
import RosZ.Protocol.TopicKey
import RosZ.Protocol.Ros2Dds
import RosZ.Protocol.Rihs
import RosZ.TopicName
import RosZ.TopicName.Requalification
import RosZ.Node
import RosZ.Qos
import RosZ.QosAgreement
import RosZ.Dynamic.TypeIdentity
import RosZ.Dynamic.AutoSubscription
import RosZ.Lib.Lane
import RosZ.Pubsub.DynamicTopics
import RosZ.Graph.Data
import RosZ.Graph.Index
import RosZ.Graph.Queries
import RosZ.Graph.Runs
import RosZ.Graph.NodeExists
import RosZ.Graph.Matched
import RosZ.Graph.MatchedCounts
import RosZ.Graph.MatchedRuns
import RosZ.Graph.Listings
import RosZ.Graph.Actions
import RosZ.Graph.Discovery
import RosZ.Graph.Sessions
import RosZ.Rmw.EndpointGids
import RosZ.Lib.Broadcast
import RosZ.Lib.Deltas
