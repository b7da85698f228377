import ClineProxy.TransitionSystem
import ClineProxy.OrderedMap
import ClineProxy.Positions
import ClineProxy.CallChain
import ClineProxy.FirstSeen
import ClineProxy.Clock
import ClineProxy.Text
import ClineProxy.JsonValue
import ClineProxy.JsonText
import ClineProxy.RateLimit
import ClineProxy.Redaction
import ClineProxy.PoolCore
import ClineProxy.PoolChecks
import ClineProxy.RuntimeState
import ClineProxy.FailoverCore
import ClineProxy.SingleFlight
import ClineProxy.StickyActive
import ClineProxy.FailoverChecks
import ClineProxy.ServiceCore
import ClineProxy.StateFileChecks
import ClineProxy.RestartChecks
import ClineProxy.DirtyChecks
import ClineProxy.Protocol
import ClineProxy.WebSearch
import ClineProxy.AnthropicRequest
import ClineProxy.RequestSettings
import ClineProxy.PromptPolicy
import ClineProxy.PromptCache
import ClineProxy.PassthroughChecks
import ClineProxy.PrefixChecks
import ClineProxy.ThinkingEpochs
import ClineProxy.ToolChain
import ClineProxy.SseDecoder
import ClineProxy.ResponseCore
import ClineProxy.StreamCore
import ClineProxy.StreamDriver
import ClineProxy.NonStreamLoop
import ClineProxy.SseLifecycle
import ClineProxy.SearchBudget
import ClineProxy.ChunkFacts
import ClineProxy.AggregateChecks
import ClineProxy.StreamFacts
import ClineProxy.TruncationChecks
import ClineProxy.ResponsesCore
import ClineProxy.ResponsesConverter
import ClineProxy.ResponsesPump
import ClineProxy.ResponsesMoves
import ClineProxy.ResponsesTrack
import ClineProxy.ResponsesFinish
import ClineProxy.ResponsesPumpFacts
import ClineProxy.ResponsesLifecycle
import ClineProxy.ResponsesIndexes
import ClineProxy.ResponsesAnnounce
import ClineProxy.ResponsesAnswers
import ClineProxy.ResponsesFraming
import ClineProxy.ResponsesBudget
import ClineProxy.ResponsesRequest
import ClineProxy.ResponsesOrder
import ClineProxy.ResponsesReplay
import ClineProxy.ReplayChecks
import ClineProxy.ResponsesDeliveries
import ClineProxy.UpstreamFailures
import ClineProxy.JsonOrder
import ClineProxy.JsonAlike
import ClineProxy.ReasoningShadow
import ClineProxy.MessagePath
import ClineProxy.TwoRuns
import ClineProxy.PromptVariants
import ClineProxy.PromptPrivacy
import ClineProxy.PrivacyChecks
import ClineProxy.GlmMessages
import ClineProxy.CountedMessages
import ClineProxy.CountedChecks
import ClineProxy.ModelCatalog
import ClineProxy.Fingerprints
import ClineProxy.LogSegments
import ClineProxy.LogAccounts
import ClineProxy.LogChecks
import ClineProxy.ShadowStore
import ClineProxy.ShadowFacts
import ClineProxy.ShadowChecks
import ClineProxy.ShadowPressure
import ClineProxy.ShadowOrder
import ClineProxy.ShadowIsolation
import ClineProxy.StreamExits
import ClineProxy.RequestSummaries
import ClineProxy.SummaryChecks
import ClineProxy.SelectionChecks
import ClineProxy.RetryAfter
import ClineProxy.GroundingChecks
import ClineProxy.TextScan
import ClineProxy.WrapperChecks
import ClineProxy.TextBytes
import ClineProxy.DurationScan
import ClineProxy.DurationChecks
import ClineProxy.HintChecks
import ClineProxy.SseReading
import ClineProxy.SseBounds
import ClineProxy.PumpBuffer
import ClineProxy.DeadlineCap
import ClineProxy.ShadowInputs
import ClineProxy.ShadowStreams
import ClineProxy.ShadowAnswers
import ClineProxy.ShadowSlots
import ClineProxy.ShadowAgreement
import ClineProxy.RoundTools
import ClineProxy.MessageChecks
import ClineProxy.JsonNumbers
import ClineProxy.JsonTokens
import ClineProxy.JsonTrees
import ClineProxy.JsonSorted
import ClineProxy.JsonCoding
import ClineProxy.JsonNormalForm
import ClineProxy.SerdeNumbers
import ClineProxy.CanonicalChecks
import ClineProxy.ArgumentChecks
import ClineProxy.PolicyChecks
import ClineProxy.RestoreChecks
import ClineProxy.ShadowRestores
import ClineProxy.ReasoningItems
import ClineProxy.EffortChecks
import ClineProxy.StreamWatch
import ClineProxy.StallChecks
import ClineProxy.Saturating
import ClineProxy.ContextGuard
import ClineProxy.LogCleanup
import ClineProxy.DigitOrder
import ClineProxy.LogOrder
import ClineProxy.LogOpening
import ClineProxy.ResponsesUsage
import ClineProxy.GatewayAuth
import ClineProxy.Framing
import ClineProxy.PrefixFraming
import ClineProxy.Occurrences
import ClineProxy.SecretChecks
import ClineProxy.LabelChecks
import ClineProxy.PythonDumps
import ClineProxy.TemplateJson
import ClineProxy.Configuration
import ClineProxy.DeadlineRange
import ClineProxy.ServedRounds
import ClineProxy.ReplayedTurns
import ClineProxy.KeptTurns
import ClineProxy.ChatTemplate
import ClineProxy.FallibleLoops
import ClineProxy.ConvertedTurns
import ClineProxy.ChatPrompts
import ClineProxy.OpenedBlocks
import ClineProxy.ClientMessages
import ClineProxy.StreamedBlocks
import ClineProxy.StreamedMessages
import ClineProxy.StreamAgreement
import ClineProxy.ContinuationBodies
import ClineProxy.LossyDecoding
import ClineProxy.EventWire
import ClineProxy.JsonBytes
import ClineProxy.GuardedDispatch
import ClineProxy.CountablePrompts
import ClineProxy.SentOutlines
import ClineProxy.UncountedPrompts
import ClineProxy.LoopTurns
import ClineProxy.RestoredLoops
import ClineProxy.LoopCommits
import ClineProxy.HiddenLoops
