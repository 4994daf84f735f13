import Investor.Execution.SafetyControls
import Investor.Execution.Reconciliation
import Investor.Execution.ReconciliationRuns
import Investor.Market.Venues
import Investor.Market.LivePrices
import Investor.Market.LiveFloats
import Investor.Schema.Decision
import Investor.Risk.Engine
import Investor.Risk.LossStreak
import Investor.Risk.Sizing
import Investor.Universe.Horizons
import Investor.Execution.Validation
import Investor.Execution.ValidationBatch
import Investor.Execution.ExitBatch
import Investor.Execution.EntryLedger
import Investor.Execution.IntentKeys
import Investor.Execution.BlockedEntries
import Investor.Execution.Pretrade
import Investor.Execution.PositionSync
import Investor.Execution.PositionMatching
import Investor.Execution.RiskViews
import Investor.Workflow.States
import Investor.Core.Runtime
import Investor.Core.Services
import Investor.Core.DueJobs
import Investor.Execution.OrderManager
import Investor.Execution.Service
import Investor.Execution.Submission
import Investor.Execution.Sending
import Investor.Execution.RefusedBatch
import Investor.Execution.FirmExecution
import Investor.Core.Scheduler
import Investor.Core.Reaper
import Investor.Workflow.Lease
import Investor.Universe.Allocation
import Investor.Brokers.Mock
import Investor.Brokers.Ibkr
import Investor.Brokers.OrderRefs
import Investor.Services.LlmBudget
import Investor.Services.LlmBudgetRuns
import Investor.Universe.BookStrategy
import Investor.Universe.Membership
import Investor.Universe.Watchlist
import Investor.Universe.WatchlistRuns
import Investor.Agents.Passes
import Investor.Agents.ExitsKept
import Investor.Agents.Sanitize
import Investor.Agents.Cio
import Investor.Agents.PlansLeft
import Investor.Agents.RiskVeto
import Investor.Workflow.Desk
import Investor.Workflow.Daily
import Investor.Intraday.PnlRounded
import Investor.Intraday.PnlQuantity
import Investor.Intraday.PnlOrder
import Investor.Intraday.PnlIsolation
import Investor.Intraday.CloseOrder
import Investor.Intraday.Reanalysis
import Investor.Intraday.Agents
import Investor.Intraday.LifecycleTracking
import Investor.Intraday.SettledPnl
import Investor.Intraday.Verdicts
import Investor.Intraday.StampedLevels
import Investor.Intraday.StopTests
import Investor.Intraday.LockedGains
import Investor.Intraday.ProtectionRuns
import Investor.Intraday.FifoFold
import Investor.Intraday.CloseStamp
import Investor.Intraday.PnlFees
import Investor.Intraday.StampRuns
import Investor.Intraday.PendingEvents
import Investor.Intraday.DedupedEvents
import Investor.Intraday.ReanalysisStore
import Investor.Workflow.Intraday
import Investor.Workflow.SessionEnd
import Investor.Workflow.Steady
import Investor.Workflow.Undisturbed
import Investor.Workflow.Kept
import Investor.Workflow.AnalysisOrders
import Investor.Workflow.TickRecords
import Investor.Workflow.FailedPrep
import Investor.Workflow.RefusedExits
import Investor.Workflow.NoTradePosture
import Investor.Workflow.Transitions
import Investor.Execution.IntentLifecycle
import Investor.Execution.IntentOrders
import Investor.Execution.IntentRuns
import Investor.Execution.LongExits
import Investor.Execution.PretradeLimits
import Investor.Execution.OneOrderPerPlan
import Investor.Execution.OrderUpdates
import Investor.Execution.StatusCasing
import Investor.Execution.FillsBooked
import Investor.Performance.Prices
import Investor.Performance.PriceCache
import Investor.Performance.DailyReturns
import Investor.Performance.Drawdown
import Investor.Performance.MethodTrial
import Investor.Performance.TrialExits
import Investor.Performance.TrialPaths
import Investor.Performance.Evaluations
import Investor.Performance.EvalReruns
import Investor.Performance.FifoBooks
import Investor.Universe.Outcomes
import Investor.Universe.ExitReasons
import Investor.Brokers.Replace
import Investor.Brokers.VenueOrders
import Investor.Intraday.PostTrade
import Investor.Intraday.ReviewHistory
import Investor.Market.Calendar
import Investor.Workflow.PostmarketRetries
import Investor.Workflow.TickScope
import Investor.Workflow.TickEvents
import Investor.Workflow.FlattenOnce
import Investor.Execution.BatchTurns
import Investor.Intraday.Closing
import Investor.Intraday.ClosingStatus
import Investor.Intraday.ClosingCover
import Investor.Execution.ValidationRaises
import Investor.Execution.EntryStops
import Investor.Execution.BridgedIntents
import Investor.Execution.BatchDemand
import Investor.Intraday.DriftGate
import Investor.Agents.PlaybookExits
import Investor.Universe.BookSlots
import Investor.Universe.Proposals
import Investor.Universe.Focus
import Investor.Workflow.IntradayPlan
import Investor.Workflow.Cadence
import Investor.Agents.SetupBudgets
import Investor.Universe.Accumulation
import Investor.Agents.QuantStrategist
import Investor.Agents.TapeFocus
import Investor.Lib.PyJson
import Investor.Lib.Rounding
import Investor.Lib.Streak
import Investor.Lib.FloatOrder
import Investor.Agents.ReplyValues
import Investor.Agents.ReplyShapes
import Investor.Agents.ReplyModels
import Investor.Agents.ReplyReturns
import Investor.Agents.ReplyFinish
import Investor.Agents.ReplyTame
import Investor.Agents.ReplyRaises
import Investor.Agents.ReplyTotal
import Investor.Agents.SwingTrend
import Investor.DataQuality.NewsDedup
import Investor.Alerts.Service
import Investor.Alerts.Ops
import Investor.Intraday.SessionHygiene
import Investor.Storage.News
import Investor.Ops.Backup
import Investor.Intraday.NewsBridge
