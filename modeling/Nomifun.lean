import Nomifun.Guarantees.DelegatedResults
import Nomifun.Guarantees.ExecutionSegments
import Nomifun.Guarantees.ProcessOutput
import Nomifun.Guarantees.RecentExchanges
import Nomifun.Guarantees.TailReconciliation
import Nomifun.Guarantees.StepProgress
import Nomifun.Guarantees.StepSelection
import Nomifun.Guarantees.ContentSharing
import Nomifun.Guarantees.InputConsumption
import Nomifun.Guarantees.SchedulerLeases
import Nomifun.Guarantees.UnifiedDiffs
import Nomifun.Guarantees.SseFrames
import Nomifun.Guarantees.BrokerAttempts
import Nomifun.Guarantees.AnthropicEvents
import Nomifun.Guarantees.ResponsesEvents
import Nomifun.Guarantees.GeminiCalls
import Nomifun.Guarantees.LineSelection
import Nomifun.Guarantees.TextPages
import Nomifun.Guarantees.Sentinels
import Nomifun.Guarantees.StageDirections
import Nomifun.Guarantees.LoopRounds
import Nomifun.Guarantees.CronOccurrences
import Nomifun.Guarantees.TerminalSummaries
import Nomifun.Guarantees.RateLimits
import Nomifun.Guarantees.CompactionSummaries
import Nomifun.Guarantees.OrderKeys
