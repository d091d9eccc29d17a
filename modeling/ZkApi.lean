import ZkApi.TaskDiscipline
import ZkApi.Pricing
import ZkApi.LeaseStore
import ZkApi.RetryAgreement
import ZkApi.SolvencyCharges
import ZkApi.LeaseIssuance
import ZkApi.LeaseSettlement
import ZkApi.LeaseUsage
import ZkApi.LeaseResumption
import ZkApi.ChallengeWatcher
import ZkApi.ClientRequestIds
import ZkApi.ReferenceProtocol
import ZkApi.TreeMirror
import ZkApi.NotePaths
import ZkApi.ClearanceGuard
import ZkApi.EscapePlans
import ZkApi.NoteSecrets
import ZkApi.DepositFunding
import ZkApi.LeaseRetirement
import ZkApi.CredentialConservation
import ZkApi.WriteAhead
import ZkApi.NoteConservation
import ZkApi.LeaseOwnership
import ZkApi.LeaseRecovery
import ZkApi.DepositPrompts
import ZkApi.ColumnValues
import ZkApi.ExpiryScans
import ZkApi.SharedLeaseCalls
import ZkApi.FinalizationClaims
import ZkApi.RecordRevisions
import ZkApi.RuntimeWrites
import ZkApi.LateRuns
import ZkApi.KeyExpiry
import ZkApi.Destinations
import ZkApi.LocalOrigins
import ZkApi.Redaction
import ZkApi.MirrorSnapshots
import ZkApi.NoteLives
import ZkApi.ChatRequests
import ZkApi.VaultCalls
import ZkApi.OllamaContents
import ZkApi.DepositOrder
import ZkApi.PromptKeys
import ZkApi.Numerals
import ZkApi.TokenAmounts
import ZkApi.AvoidingPaths
import ZkApi.JsonTexts
import ZkApi.ContractErrors
import ZkApi.JsonPrints
import ZkApi.RevertSelectors
import ZkApi.TimedRuns
import ZkApi.WalletRequests
import ZkApi.TransactionSending
import ZkApi.FinalizedChains
import ZkApi.FinalityChecks
import ZkApi.FinalityFacts
import ZkApi.FinalitySafety
import ZkApi.DepositRecovery
import ZkApi.PromiseCaches
import ZkApi.WorkerCaches
import ZkApi.VaultReceipts
import ZkApi.KeyReconciliation
import ZkApi.DaemonVaultReads
