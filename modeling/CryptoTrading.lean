import CryptoTrading.Kit.Dict
import CryptoTrading.Kit.Run
import CryptoTrading.Kit.Watermark
import CryptoTrading.Kit.WriteBehind
import CryptoTrading.Models
import CryptoTrading.Exchange.PaperExecutionEngine
import CryptoTrading.Exchange.EngineCalls
import CryptoTrading.Exchange.EngineRecords
import CryptoTrading.Exchange.PaperExchange
import CryptoTrading.Exchange.PaperStateRepository
import CryptoTrading.Exchange.PendingWrites
import CryptoTrading.Exchange.CheckpointConvergence
import CryptoTrading.Exchange.CheckpointSchedules
import CryptoTrading.Exchange.BybitPaperMarketData
import CryptoTrading.Exchange.StreamSequence
import CryptoTrading.Exchange.StreamConfiguration
import CryptoTrading.Reporting.PaperPnl
import CryptoTrading.Accounting.PaperCash
import CryptoTrading.Execution.PaperTradingRuntime
import CryptoTrading.Execution.FeedAcceptance
import CryptoTrading.Risk.RiskEngine
import CryptoTrading.Runtime.Dependencies
import CryptoTrading.Runtime.PaperApplication
import CryptoTrading.Execution.SymbolPrices
import CryptoTrading.Execution.RuntimeWrites
import CryptoTrading.Execution.StateConnection
import CryptoTrading.Exchange.ExecutedOrders
import CryptoTrading.Exchange.RestoredEngine
import CryptoTrading.Execution.FeedReplay
import CryptoTrading.Runtime.CrashRecovery
import CryptoTrading.Kit.AverageCost
import CryptoTrading.Kit.Calendar
import CryptoTrading.Kit.Traced
import CryptoTrading.Models.Trading
import CryptoTrading.Backtest.Portfolio
import CryptoTrading.Backtest.PortfolioConservation
import CryptoTrading.Backtest.PositionLimit
import CryptoTrading.Backtest.ExecutionCosts
import CryptoTrading.Reporting.PaperLedgers
import CryptoTrading.Reporting.LedgerAgreement
import CryptoTrading.Backtest.OrderExecution
import CryptoTrading.Backtest.BacktestEngine
import CryptoTrading.Backtest.EngineEvents
import CryptoTrading.Backtest.AuditTrail
import CryptoTrading.Backtest.ExitOrders
import CryptoTrading.Backtest.OrderPricing
import CryptoTrading.Backtest.Causality
import CryptoTrading.Kit.Drawdown
import CryptoTrading.Backtest.ReportedDrawdown
import CryptoTrading.Kit.RoundTrips
import CryptoTrading.Reporting.TradeReconstruction
import CryptoTrading.Reporting.ReconstructionAgreement
import CryptoTrading.Kit.Smoothing
import CryptoTrading.Indicators.MovingAverages
import CryptoTrading.Indicators.MarketRegime
import CryptoTrading.Collectors.IndicatorCollector
import CryptoTrading.Collectors.IncrementalIndicators
import CryptoTrading.Kit.Fallible
import CryptoTrading.Exchange.BybitClient
import CryptoTrading.Exchange.OrderSubmission
import CryptoTrading.Execution.RiskChecks
import CryptoTrading.Runtime.LossLimits
import CryptoTrading.Pipeline.MarketPipeline
import CryptoTrading.Pipeline.PipelineSteps
import CryptoTrading.Pipeline.ExecutedOnce
import CryptoTrading.Pipeline.CheckpointedEvents
import CryptoTrading.Pipeline.StoppedPipeline
import CryptoTrading.Strategies.TrendDca
import CryptoTrading.Strategies.TrendDcaConfirm3
import CryptoTrading.Strategies.BreakoutRetest
import CryptoTrading.Strategies.BreakoutRetestV2
import CryptoTrading.Strategies.FailureWatch
import CryptoTrading.Strategies.StrategySession
import CryptoTrading.Strategies.ConfirmedExits
import CryptoTrading.Strategies.ResistanceWindow
import CryptoTrading.Strategies.ManagedPositions
import CryptoTrading.Strategies.PositionAudit
import CryptoTrading.Backtest.Anonymity
import CryptoTrading.Strategies.SoundEntries
import CryptoTrading.Strategies.ConservativeExtension
import CryptoTrading.Indicators.IndicatorSeries
import CryptoTrading.Collectors.BatchIndicators
import CryptoTrading.Collectors.CausalIndicators
import CryptoTrading.Collectors.MissingIndicators
import CryptoTrading.Pipeline.WarmupGate
import CryptoTrading.Runtime.StartupRace
import CryptoTrading.Runtime.TradingSchedule
import CryptoTrading.Reconciliation.PaperReconciler
import CryptoTrading.Reconciliation.ConsistentStates
import CryptoTrading.Kit.Relational
import CryptoTrading.Database.PaperStateRepositoryPostgres
import CryptoTrading.Risk.DurableState
import CryptoTrading.Kit.Observed
import CryptoTrading.Risk.EmergencyStop
import CryptoTrading.Kit.Streaks
import CryptoTrading.Monitoring.HealthCoordinator
import CryptoTrading.Monitoring.MarketHealth
import CryptoTrading.Monitoring.RiskHealth
import CryptoTrading.Runtime.FlatPositions
import CryptoTrading.Risk.TradeQuantity
import CryptoTrading.Exchange.AtomicExecution
import CryptoTrading.Backtest.WalkForward
import CryptoTrading.Backtest.OutOfSample
import CryptoTrading.Backtest.SlopeExperiment
import CryptoTrading.Reporting.EntryFilter
import CryptoTrading.Reporting.MomentumDecay
import CryptoTrading.Reporting.TrendDownExits
import CryptoTrading.Backtest.DatasetFingerprint
import CryptoTrading.Reporting.ValidationPreflight
import CryptoTrading.Kit.Progression
import CryptoTrading.Kit.PaddedDigits
import CryptoTrading.Kit.StableSort
import CryptoTrading.Kit.DailyWindow
import CryptoTrading.Kit.KeyedTable
import CryptoTrading.Collectors.CandleCollector
import CryptoTrading.Collectors.HistoricalLoading
import CryptoTrading.Collectors.ResumedLoading
import CryptoTrading.Kit.Selection
import CryptoTrading.Database.RawToDds
import CryptoTrading.Database.LosslessEtl
import CryptoTrading.Database.ConcurrentWriters
import CryptoTrading.Kit.NumberedTable
import CryptoTrading.Backtest.Persistence
import CryptoTrading.Backtest.Percentile
import CryptoTrading.Backtest.PersistedRuns
import CryptoTrading.Backtest.RiskAtStop
import CryptoTrading.Kit.Callee
import CryptoTrading.Strategies.EntryCalls
import CryptoTrading.Strategies.RetestEntries
import CryptoTrading.Strategies.TrendPullbackConfirmation
import CryptoTrading.Strategies.PullbackWindow
import CryptoTrading.Strategies.StrategyTurns
import CryptoTrading.Backtest.PurchaseLevels
import CryptoTrading.Strategies.DcaLadder
import CryptoTrading.Strategies.TrailingStop
import CryptoTrading.Strategies.HoldingPeriods
import CryptoTrading.Indicators.IndicatorBounds
import CryptoTrading.Indicators.Volatility
import CryptoTrading.Indicators.CurrentEma
import CryptoTrading.Reporting.EntryFunnel
import CryptoTrading.Reporting.FunnelConservation
import CryptoTrading.Reporting.CoverageGrid
import CryptoTrading.Reporting.MartReturns
import CryptoTrading.Kit.Losses
import CryptoTrading.Reporting.EquityReports
import CryptoTrading.Reporting.MartTelescoping
import CryptoTrading.Kit.ExclusiveSections
import CryptoTrading.Database.Migrations
import CryptoTrading.Database.MigrationRuns
import CryptoTrading.Database.SerialMigrations
import CryptoTrading.Runtime.ApplicationRuns
import CryptoTrading.Runtime.ApplicationShutdown
import CryptoTrading.Kit.FirstBest
import CryptoTrading.Reporting.CandlePaths
import CryptoTrading.Reporting.ExitPath
import CryptoTrading.Runtime.TradingGate
import CryptoTrading.Monitoring.SoakEvidence
import CryptoTrading.Runtime.SoakRuns
import CryptoTrading.Runtime.SoakOutcomes
import CryptoTrading.Runtime.SoakReports
import CryptoTrading.Reporting.Counterfactuals
import CryptoTrading.Reporting.CounterfactualAccounts
import CryptoTrading.Reporting.TriggeredTrades
import CryptoTrading.Reporting.AttributableTrades
import CryptoTrading.Reporting.AttributionCounts
