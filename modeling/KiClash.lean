import KiClash.EngineSimulation
import KiClash.EngineSymmetry
import KiClash.RecordContracts
import KiClash.TurnApplication
import KiClash.PendingActions
import KiClash.MatchResults
import KiClash.SubmitRetries
import KiClash.TurnAnnouncements
import KiClash.TimerDefaults
import KiClash.Confirmations
import KiClash.GoMatchResults
import KiClash.GoTurnApplication
import KiClash.GoTimerDefaults
import KiClash.GoFinalActions
import KiClash.SharedFormat
import KiClash.SessionCodec
import KiClash.OptimisticTransactions
import KiClash.LinearizableStores
import KiClash.MatchDecomposition
import KiClash.ExploitabilityBound
import KiClash.ConfirmationOrder
import KiClash.Forfeits
import KiClash.GoForfeits
import KiClash.GameHandshake
import KiClash.GoHandshake
import KiClash.GoPauses
import KiClash.RoomGuards
import KiClash.RoomGames
import KiClash.Purchases
import KiClash.GameServiceRuns
import KiClash.Connections
import KiClash.GoUpdates
import KiClash.MatchHistory
import KiClash.HeuristicTiers
import KiClash.RegretMatching
import KiClash.GrandmasterPolicy
import KiClash.SubmitScript
import KiClash.GoTurnTotals
import KiClash.TurnPrompts
import KiClash.FirstPrompts
import KiClash.SimultaneousReveal
import KiClash.WebhookVerification
import KiClash.MatchSymmetry
import KiClash.Subscribers
import KiClash.SocketOwnership
import KiClash.QueueEntries
import KiClash.GameServiceSchedules
import KiClash.PvPClient
import KiClash.MatchOnScreen
import KiClash.StrategyOptimality
import KiClash.ServersAlike
import KiClash.AiMatchOnScreen
import KiClash.AccountOwners
