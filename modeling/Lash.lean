import Lash.LeaseSafety
import Lash.CommitReplay
import Lash.SourceKeys
import Lash.GraphLoads
import Lash.EventDeltas
import Lash.StaleResponses
import Lash.ProseRetention
import Lash.FusedAssigns
import Lash.EffectReplay
import Lash.LoopScopes
import Lash.ProcessRecovery
import Lash.TriggerDeliveries
import Lash.ProgramCaches
import Lash.RlmOutcomes
import Lash.RegistryRoundTrips
import Lash.HistoryReferences
import Lash.StreamAgreement
import Lash.AppendedSessions
import Lash.ClaimPrefixes
import Lash.MessageTrees
import Lash.LiveReplayLaw
import Lash.RlmRestores
import Lash.TypeAssignability
import Lash.CommitHashes
import Lash.ProcessSurvival
import Lash.MessageSequences
import Lash.StreamedTexts
import Lash.ScriptRanges
import Lash.ValidatedValues
import Lash.FormatPaths
import Lash.ReadReplacements
import Lash.AddedProviders
import Lash.AgentFrames
import Lash.PatchedFiles
import Lash.SessionCopies
import Lash.HandleGrants
import Lash.LedgerDiffs
import Lash.ReturnedOutputs
import Lash.SseFrames
