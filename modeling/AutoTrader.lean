import AutoTrader.Lib.Table
import AutoTrader.Lib.Exec
import AutoTrader.Lib.Interleave
import AutoTrader.Lib.Raising
import AutoTrader.Lib.Trace
import AutoTrader.Lib.Sha256
import AutoTrader.Lib.Digits
import AutoTrader.Lib.Fifo
import AutoTrader.Lib.Streaming
import AutoTrader.Lib.Grouping
import AutoTrader.Lib.AverageCost
import AutoTrader.Lib.SortedRows
import AutoTrader.Lib.AtLeastOnce
import AutoTrader.Lib.Averages
import AutoTrader.Lib.LatestRun
import AutoTrader.Lib.Pacing
import AutoTrader.Lib.Paging
import AutoTrader.Lib.Redaction
import AutoTrader.Lib.TickGrid
import AutoTrader.Lib.Typestate
import AutoTrader.Lib.Validation
import AutoTrader.Python.Values
import AutoTrader.Python.Floats
import AutoTrader.Python.Time
import AutoTrader.Python.IsoOrder
import AutoTrader.Python.FloatArithmetic
import AutoTrader.Python.IsoRead
import AutoTrader.Python.Json
import AutoTrader.Storage.Schema
import AutoTrader.Storage.Orders
import AutoTrader.Storage.Positions
import AutoTrader.Storage.Operations
import AutoTrader.Storage.Leases
import AutoTrader.Storage.Approvals
import AutoTrader.Ledger.Frame
import AutoTrader.Ledger.Orders
import AutoTrader.Ledger.Positions
import AutoTrader.Ledger.Bookable
import AutoTrader.Ledger.OneFill
import AutoTrader.Paper.Ledger
import AutoTrader.Paper.Agreement
import AutoTrader.Paper.Journal
import AutoTrader.Paper.JournalReport
import AutoTrader.Paper.Report
import AutoTrader.Broker.MarketRules
import AutoTrader.Broker.FillNoticeFrames
import AutoTrader.Broker.KisErrors
import AutoTrader.Broker.Listings
import AutoTrader.Broker.RateLimit
import AutoTrader.Broker.CredentialCache
import AutoTrader.Broker.ReceivedNotices
import AutoTrader.Broker.SellOrders
import AutoTrader.Broker.KisAuth
import AutoTrader.Market.Ticks
import AutoTrader.Market.Collector
import AutoTrader.Market.CompletedBars
import AutoTrader.Market.LiveBars
import AutoTrader.Market.ConservedBars
import AutoTrader.Market.Candidates
import AutoTrader.Market.Features
import AutoTrader.Market.Frames
import AutoTrader.Market.MaterializedBars
import AutoTrader.Market.ReferenceBars
import AutoTrader.Market.SessionBars
import AutoTrader.Market.StableBars
import AutoTrader.Pipeline.Actions
import AutoTrader.Pipeline.OrderStatus
import AutoTrader.Pipeline.FillNotice
import AutoTrader.Pipeline.Reconcile
import AutoTrader.Pipeline.OrderManagement
import AutoTrader.Pipeline.Supervisor
import AutoTrader.Pipeline.Submission
import AutoTrader.Pipeline.AutoTrade
import AutoTrader.Pipeline.Alphabet
import AutoTrader.Pipeline.Desk
import AutoTrader.Pipeline.Control
import AutoTrader.Pipeline.Telegram
import AutoTrader.Pipeline.LiveExecution
import AutoTrader.Pipeline.DirectEntry
import AutoTrader.Pipeline.ApprovedEntry
import AutoTrader.Pipeline.EntryRules
import AutoTrader.Pipeline.ShadowCycle
import AutoTrader.Ai.Decision
import AutoTrader.Ai.Budget
import AutoTrader.Ai.Client
import AutoTrader.Ai.SharedBudget
import AutoTrader.Execution.ExitPolicy
import AutoTrader.Execution.TickPrices
import AutoTrader.Execution.ExitLifecycle
import AutoTrader.Execution.PositionManager
import AutoTrader.Execution.Lifecycle
import AutoTrader.Ops.Performance
import AutoTrader.Ops.RecoveryNotice
import AutoTrader.Risk.PortfolioSnapshot
import AutoTrader.Risk.FillTimes
import AutoTrader.Safety.Reconciliation
import AutoTrader.Safety.ReconcileTotal
import AutoTrader.Safety.CancelRequest
import AutoTrader.Safety.CancelOnce
import AutoTrader.Safety.FillChannels
import AutoTrader.Safety.AtMostOnce
import AutoTrader.Safety.RefusedOrder
import AutoTrader.Safety.Headers
import AutoTrader.Safety.TerminalOrders
import AutoTrader.Safety.OrderGate
import AutoTrader.Safety.ServiceLease
import AutoTrader.Safety.ApprovalExpiry
import AutoTrader.Safety.ReviewFlags
import AutoTrader.Safety.ApprovalStates
import AutoTrader.Safety.FailedApproval
import AutoTrader.Safety.EmergencyReaders
import AutoTrader.Safety.StopHolds
import AutoTrader.Safety.RealResume
import AutoTrader.Safety.EnvironmentSwitch
import AutoTrader.Safety.TelegramOnce
import AutoTrader.Safety.ExitChain
import AutoTrader.Safety.ShadowOnce
import AutoTrader.Safety.EntryLimits
import AutoTrader.Safety.Reentry
import AutoTrader.Safety.CumulativeAverages
import AutoTrader.Safety.WorkingOrders
import AutoTrader.Safety.EntryPaths
import AutoTrader.Safety.CycleLimits
import AutoTrader.Safety.OrderOfTheDay
import AutoTrader.Safety.Holdings
import AutoTrader.Safety.NoticeOrder
import AutoTrader.Safety.SellCommitments
import AutoTrader.Safety.CandidateGate
import AutoTrader.Safety.OrderPass
import AutoTrader.Safety.PaperShadow
import AutoTrader.Lib.Workers
