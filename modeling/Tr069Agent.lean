import Tr069Agent.Com.ConnectionSecurity
import Tr069Agent.Com.DeadlockSafety
import Tr069Agent.Com.DigestAuthentication
import Tr069Agent.Com.DigestFields
import Tr069Agent.Com.HttpClient
import Tr069Agent.Com.HttpQueue
import Tr069Agent.Com.HttpRetry
import Tr069Agent.Com.InformMessage
import Tr069Agent.Com.MappedAddress
import Tr069Agent.Com.Md5
import Tr069Agent.Com.Reassembly
import Tr069Agent.Com.RequestAnswers
import Tr069Agent.Com.RpcCommands
import Tr069Agent.Com.Session
import Tr069Agent.Com.SessionLocks
import Tr069Agent.Com.SetRequestEntries
import Tr069Agent.Com.Sha1
import Tr069Agent.Com.SoapDispatcher
import Tr069Agent.Com.SoapMessage
import Tr069Agent.Com.Stun
import Tr069Agent.Com.StunExchange
import Tr069Agent.Com.StunLib
import Tr069Agent.Com.StunLibFormat
import Tr069Agent.Com.StunLibRoundTrip
import Tr069Agent.Com.StunSignature
import Tr069Agent.Com.TimeoutDiscovery
import Tr069Agent.Com.UdpBounds
import Tr069Agent.Com.UdpRequests
import Tr069Agent.Data.ControlCut
import Tr069Agent.Data.ControlData
import Tr069Agent.Data.ControlReload
import Tr069Agent.Data.ControlRoundTrip
import Tr069Agent.Data.CrashSafety
import Tr069Agent.Data.LineDamage
import Tr069Agent.Data.LineFile
import Tr069Agent.Data.ParameterFile
import Tr069Agent.Data.ParameterRoundTrip
import Tr069Agent.Data.ScheduledDrain
import Tr069Agent.Data.ScheduledInforms
import Tr069Agent.Data.TransferOrder
import Tr069Agent.Data.TransferReports
import Tr069Agent.Engine.AttributesReadBack
import Tr069Agent.Engine.ChangeDetection
import Tr069Agent.Engine.Common
import Tr069Agent.Engine.ComputedExp
import Tr069Agent.Engine.DataModel
import Tr069Agent.Engine.DataModelConfiguration
import Tr069Agent.Engine.DataModelExtensions
import Tr069Agent.Engine.DefinitionRelocation
import Tr069Agent.Engine.EventDuplicates
import Tr069Agent.Engine.EventSafety
import Tr069Agent.Engine.ExpressionFailures
import Tr069Agent.Engine.ExpressionPrinting
import Tr069Agent.Engine.IncrementalStatistics
import Tr069Agent.Engine.InstanceCounters
import Tr069Agent.Engine.InstanceCreation
import Tr069Agent.Engine.InstanceLookup
import Tr069Agent.Engine.InstanceNumbers
import Tr069Agent.Engine.KnownParameters
import Tr069Agent.Engine.LoadedLeaves
import Tr069Agent.Engine.LoadingSafety
import Tr069Agent.Engine.NotificationInterface
import Tr069Agent.Engine.NumericEvaluation
import Tr069Agent.Engine.Objects
import Tr069Agent.Engine.ParameterDeletion
import Tr069Agent.Engine.ParameterLoading
import Tr069Agent.Engine.ParameterStore
import Tr069Agent.Engine.ParameterType
import Tr069Agent.Engine.ParameterValue
import Tr069Agent.Engine.ParentNodes
import Tr069Agent.Engine.PeriodicInform
import Tr069Agent.Engine.PrototypeAgreement
import Tr069Agent.Engine.Reboot
import Tr069Agent.Engine.RetryDelay
import Tr069Agent.Engine.SamplePush
import Tr069Agent.Engine.SamplesReport
import Tr069Agent.Engine.SamplingArithmetic
import Tr069Agent.Engine.SetParameterAttributes
import Tr069Agent.Engine.SetParameterValues
import Tr069Agent.Engine.SetValuesKept
import Tr069Agent.Engine.SetValuesRollback
import Tr069Agent.Engine.SetValuesTrack
import Tr069Agent.Engine.StorePreservation
import Tr069Agent.Engine.SystemNotifications
import Tr069Agent.Engine.TransferSafety
import Tr069Agent.Engine.UniqueNames
import Tr069Agent.Engine.ValueEscape
import Tr069Agent.Engine.ValuesReadBack
import Tr069Agent.Library.BoundedHistory
import Tr069Agent.Library.Decimal
import Tr069Agent.Library.Framing
import Tr069Agent.Library.OwnedTree
import Tr069Agent.Library.Scanner
import Tr069Agent.Library.StableQueue
import Tr069Agent.Library.Text
import Tr069Agent.Library.Trail
import Tr069Agent.Library.Transition
