import OrionBroker.Lib.Regex
import OrionBroker.Lib.RegexDialects
import OrionBroker.Lib.Mongo
import OrionBroker.Lib.Replay
import OrionBroker.Lib.Scan
import OrionBroker.Lib.Locks
import OrionBroker.Lib.Throttle
import OrionBroker.Lib.Lexer
import OrionBroker.Lib.JsonText
import OrionBroker.Lib.XmlText
import OrionBroker.Ngsi.Types
import OrionBroker.Common.Strings
import OrionBroker.Common.Duration
import OrionBroker.Common.ServicePath
import OrionBroker.Store.Documents
import OrionBroker.Store.World
import OrionBroker.Query.Entities
import OrionBroker.Query.PathFilter
import OrionBroker.Update.Attributes
import OrionBroker.Update.Triggers
import OrionBroker.Update.Notify
import OrionBroker.Update.Element
import OrionBroker.Update.Steps
import OrionBroker.Update.Selectors
import OrionBroker.Update.Isolation
import OrionBroker.Update.Answers
import OrionBroker.Update.Keys
import OrionBroker.Update.Location
import OrionBroker.Update.Carried
import OrionBroker.Update.TriggerSpec
import OrionBroker.Update.Scope
import OrionBroker.Update.Removal
import OrionBroker.Update.ActionSpec
import OrionBroker.Update.Order
import OrionBroker.Update.Repeat
import OrionBroker.Update.AppendUpdate
import OrionBroker.Update.Calls
import OrionBroker.Update.Sure
import OrionBroker.Query.RoundTrip
import OrionBroker.Subscription.Operations
import OrionBroker.Subscription.Frame
import OrionBroker.Subscription.Threads
import OrionBroker.Subscription.Interval
import OrionBroker.Subscription.Unsubscribed
import OrionBroker.Subscription.Throttling
import OrionBroker.Subscription.Counter
import OrionBroker.Register.Documents
import OrionBroker.Register.Query
import OrionBroker.Register.Operations
import OrionBroker.Register.Trace
import OrionBroker.Register.Associations
import OrionBroker.Register.Availability
import OrionBroker.Register.Providers
import OrionBroker.Register.Patterns
import OrionBroker.Backend.Semaphores
import OrionBroker.Backend.Balance
import OrionBroker.Backend.Failures
import OrionBroker.Backend.Spellings
import OrionBroker.Parse.Compound
import OrionBroker.Parse.Json
import OrionBroker.Parse.Xml
import OrionBroker.Parse.UpdateContext
import OrionBroker.Parse.Attached
import OrionBroker.Parse.Forbidden
import OrionBroker.Scripts.MergeDefaultSp
import OrionBroker.Scripts.FixDefaultSp
import OrionBroker.Query.AskedPaths
import OrionBroker.Common.DurationGrammar
import OrionBroker.Update.CleanUp
import OrionBroker.Update.Change
import OrionBroker.Render.Tags
import OrionBroker.Render.Compound
import OrionBroker.Render.RoundTrip
import OrionBroker.Render.Answers
import OrionBroker.Render.ObjectFormat
import OrionBroker.Render.WellFormed
import OrionBroker.Query.EntityTypes
import OrionBroker.Rest.UriParams
import OrionBroker.Subscription.NotifyHeader
import OrionBroker.Parse.JsonCompound
import OrionBroker.Parse.XmlCompound
import OrionBroker.Parse.CompoundNode
import OrionBroker.Parse.CompoundClone
import OrionBroker.Parse.CompoundBuilt
import OrionBroker.Parse.KnownFields
import OrionBroker.Common.Url
import OrionBroker.Lib.CBuffer
import OrionBroker.Lib.SuffixCode
import OrionBroker.Lib.Replacement
import OrionBroker.Common.Buffers
import OrionBroker.Common.Split
import OrionBroker.Common.Numerals
import OrionBroker.Common.TransactionId
import OrionBroker.Render.Escape
import OrionBroker.Render.Replace
import OrionBroker.Rest.RouteTable
import OrionBroker.Rest.Routes
import OrionBroker.Update.Forward
import OrionBroker.Register.Subscriptions
import OrionBroker.Register.SubscriptionRuns
import OrionBroker.Register.Discovery
import OrionBroker.Register.Announcement
import OrionBroker.Register.Forwarding
import OrionBroker.Register.Mirror
import OrionBroker.Lib.Relay
import OrionBroker.Query.Forward
import OrionBroker.Update.Copies
import OrionBroker.Update.NotifyContext
import OrionBroker.Update.Federation
import OrionBroker.Lib.KeyMap
import OrionBroker.Update.Contents
import OrionBroker.Update.EntityStore
