import Vda5050.Common.AgvIdMap
import Vda5050.Common.MqttUtils
import Vda5050.Common.BrokerFilters
import Vda5050.VirtualAgvAdapter.LoadedActions
import Vda5050.System.VirtualAgv
import Vda5050.Library.NestedMap
import Vda5050.MasterController.FinishedOrder
import Vda5050.MasterController.IsolatedCallbacks
import Vda5050.MasterController.CallbackProtocol
import Vda5050.Library.Deltas
import Vda5050.MasterController.EdgeChanges
import Vda5050.MasterController.EdgeHistories
import Vda5050.AgvController.AcceptedOrder
import Vda5050.AgvController.CanceledOrder
import Vda5050.AgvController.OrderUpdates
import Vda5050.AgvController.DrivingStart
import Vda5050.AgvController.ParkedNode
import Vda5050.AgvController.PausedArrival
import Vda5050.AgvController.Robustness
import Vda5050.System.ValidationErrors
import Vda5050.System.CanceledOrders
import Vda5050.System.StaleRejections
import Vda5050.VirtualAgvAdapter.ActionRuns
import Vda5050.VirtualAgvAdapter.ActionTraces
import Vda5050.VirtualAgvAdapter.TickLoop
import Vda5050.VirtualAgvAdapter.ExecutionTimes
import Vda5050.AgvController.ErrorUpdates
import Vda5050.AgvController.ErrorBook
import Vda5050.AgvController.Publications
import Vda5050.AgvController.ErrorExpiry
import Vda5050.VirtualAgvAdapter.ErrorReports
import Vda5050.System.BatteryErrors
import Vda5050.AgvController.InstantTags
import Vda5050.AgvController.ReportedProgress
import Vda5050.AgvController.ActionStateReports
import Vda5050.AgvController.FinalStates
import Vda5050.Common.Client
import Vda5050.Common.ClientCalls
import Vda5050.Common.LifeCycle
import Vda5050.Library.Numbering
import Vda5050.Common.HeaderIds
import Vda5050.Common.ClientSubscriptions
import Vda5050.Common.FailedSubscriptions
import Vda5050.Common.Dispatching
import Vda5050.Common.Timestamps
import Vda5050.Common.Validators
import Vda5050.Common.TopicObjects
import Vda5050.Common.Delivery
import Vda5050.Client.MasterControlClient
import Vda5050.System.ConnectionTracking
import Vda5050.VirtualAgvAdapter.Telemetry
import Vda5050.AgvController.VehicleReports
import Vda5050.System.VehicleTelemetry
import Vda5050.AgvController.Invocations
import Vda5050.Library.Ledger
import Vda5050.VirtualAgvAdapter.Obligations
import Vda5050.VirtualAgvAdapter.Answers
import Vda5050.System.AttachedAgv
import Vda5050.AgvController.ExecutableActions
import Vda5050.System.ClosedLoop
