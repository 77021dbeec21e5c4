import Finiex.Lib.Run
import Finiex.Lib.Reach
import Finiex.Lib.Dict
import Finiex.Lib.Rounding
import Finiex.Lib.Labels
import Finiex.Lib.Lists
import Finiex.Types
import Finiex.Fees
import Finiex.Positions
import Finiex.Broker
import Finiex.Portfolio
import Finiex.PortfolioRefresh
import Finiex.PortfolioLedger
import Finiex.Orders
import Finiex.Executor
import Finiex.Excursions
import Finiex.ExecutorFills
import Finiex.AuditTrail
import Finiex.Simulator
import Finiex.SimulatorSpecs
import Finiex.SimulatorSteps
import Finiex.SimulatorConservation
import Finiex.SimulatorCloses
import Finiex.SimulatorLedger
import Finiex.SimulatorTriggers
import Finiex.SimulatorStopLimits
import Finiex.SimulatorProfits
import Finiex.Lib.Pipeline
import Finiex.LiveTypes
import Finiex.Kraken
import Finiex.Live
import Finiex.LiveBooks
import Finiex.LiveTrail
import Finiex.LiveSteps
import Finiex.LiveOperations
import Finiex.LiveOutcomes
import Finiex.LiveLoop
import Finiex.LiveCancels
import Finiex.Lib.Index
import Finiex.LiveReferences
import Finiex.Lib.Joins
import Finiex.Reconciler
import Finiex.Modifications
import Finiex.LiveQueries
import Finiex.Lib.Windows
import Finiex.PortfolioRuns
import Finiex.SwapAccrual
import Finiex.SpotDrawdown
import Finiex.SpotHoldings
import Finiex.Bars
import Finiex.BarHistory
import Finiex.Lib.Grouping
import Finiex.Lib.Selections
import Finiex.Preparation
import Finiex.PreparationIsolation
import Finiex.Coverage
import Finiex.GapValidation
import Finiex.LiveVolumes
import Finiex.MountLookups
import Finiex.LiveClock
import Finiex.SimClock
import Finiex.Lib.Memo
import Finiex.RendererAgreement
import Finiex.TickFiles
import Finiex.PreparedStream
import Finiex.BatchStreams
import Finiex.PrerenderedBars
import Finiex.BarCloses
import Finiex.Lib.Timelines
import Finiex.Signals
import Finiex.SignalImport
import Finiex.SignalRoundTrip
import Finiex.SignalLoading
import Finiex.DataIdentity
import Finiex.IdentitySoundness
import Finiex.SweepGrid
import Finiex.SweepRuns
import Finiex.Lib.Pointwise
import Finiex.SweepPhases
import Finiex.SweepReuse
import Finiex.SignalWindows
import Finiex.SignalRuns
import Finiex.DataOutages
import Finiex.SignalWorkers
import Finiex.SignalServing
import Finiex.Lib.Spans
import Finiex.Regions
import Finiex.Splitters
import Finiex.BlockCoverage
import Finiex.VolatilityBounds
import Finiex.SimulatorAnnouncements
import Finiex.TradingApi
import Finiex.EventLoop
import Finiex.SimulatorExposure
import Finiex.SimulatorOrders
import Finiex.PositionLevels
import Finiex.PriceGrid
import Finiex.TrailingStops
import Finiex.SinglePosition
import Finiex.TrendChannel
import Finiex.TrendChannelRuns
import Finiex.Lib.Thinning
import Finiex.TickBudget
import Finiex.Resets
import Finiex.ScenarioExecution
import Finiex.PortfolioRollup
import Finiex.LiveClipping
import Finiex.Lib.Overlay
import Finiex.ConfigMerge
import Finiex.PhaseMachine
import Finiex.PhaseTimeouts
import Finiex.FieldStudy
import Finiex.Lib.Catalogues
import Finiex.IndexManagers
import Finiex.DiscoveryCaches
import Finiex.Lib.Files
import Finiex.Lib.PythonJson
import Finiex.AlgoState
import Finiex.AlgoStateRuns
import Finiex.GapSplitting
import Finiex.SwapCountdown
import Finiex.OrderGuards
import Finiex.GuardedSessions
import Finiex.PortfolioCosts
import Finiex.CloseLots
import Finiex.SimulatorCancels
import Finiex.Lib.Repeats
import Finiex.SimulatorLatency
import Finiex.TradeStatistics
import Finiex.SignalTransport
import Finiex.ExtremeMoves
import Finiex.WindowMaterializer
import Finiex.Lib.IsoTime
import Finiex.WindowProfiles
import Finiex.Lib.Displacement
import Finiex.TickImports
import Finiex.MountReloads
import Finiex.SweepSelections
