import SyncPlus.ActionCalls
import SyncPlus.ActionOrder
import SyncPlus.Analysis
import SyncPlus.ArtifactNames
import SyncPlus.AuthorizationScope
import SyncPlus.BackupRotation
import SyncPlus.BackupSnapshot
import SyncPlus.Baseline
import SyncPlus.BaselineComparisons
import SyncPlus.BaselineContents
import SyncPlus.BaselineRace
import SyncPlus.CleanRestore
import SyncPlus.Columns
import SyncPlus.CompletedStatus
import SyncPlus.ConfigurationText
import SyncPlus.ConfigurationTransfer
import SyncPlus.Confirmation
import SyncPlus.ConflictReview
import SyncPlus.DatabaseBackup
import SyncPlus.DatabaseOpening
import SyncPlus.DeletionCandidates
import SyncPlus.DestinationNames
import SyncPlus.DestinationRoot
import SyncPlus.DirectoryWalk
import SyncPlus.DrainComplete
import SyncPlus.EndpointPairs
import SyncPlus.EqualityAgreement
import SyncPlus.Evidence
import SyncPlus.ExclusionAgreement
import SyncPlus.ExclusionHeredity
import SyncPlus.ExclusionLanguages
import SyncPlus.Exclusions
import SyncPlus.HostTrust
import SyncPlus.ItemFiles
import SyncPlus.ItemizedPaths
import SyncPlus.JournalAppend
import SyncPlus.JournalDecode
import SyncPlus.JournalExact
import SyncPlus.JournalHistory
import SyncPlus.JournalReplay
import SyncPlus.JournalRoundTrip
import SyncPlus.JournalRows
import SyncPlus.JournalStep
import SyncPlus.JournalWrite
import SyncPlus.Lib.Checks
import SyncPlus.Lib.Interruptions
import SyncPlus.Lib.KeyedReplay
import SyncPlus.Lib.Numerals
import SyncPlus.Lib.Offers
import SyncPlus.Lib.Overlay
import SyncPlus.Lib.Pairs
import SyncPlus.Lib.Preconditions
import SyncPlus.Lib.Procedures
import SyncPlus.Lib.Programs
import SyncPlus.Lib.Searches
import SyncPlus.Lib.Sha256
import SyncPlus.Lib.ShellWords
import SyncPlus.Lib.Streams
import SyncPlus.Lib.Tables
import SyncPlus.Lib.Texts
import SyncPlus.Lib.Totals
import SyncPlus.Lib.Traces
import SyncPlus.Lib.Wildcards
import SyncPlus.LocalArtifacts
import SyncPlus.LocalMount
import SyncPlus.LocalOperations
import SyncPlus.LocalRemoval
import SyncPlus.LocalWorkflow
import SyncPlus.Machine
import SyncPlus.MachineRules
import SyncPlus.Migrations
import SyncPlus.MirrorCoverage
import SyncPlus.MirrorDeletion
import SyncPlus.MirrorEquality
import SyncPlus.MissedSchedules
import SyncPlus.MountTable
import SyncPlus.NamesChecked
import SyncPlus.OpenActions
import SyncPlus.OutputComplete
import SyncPlus.Path
import SyncPlus.PathOrder
import SyncPlus.PeerPlaces
import SyncPlus.PeerScope
import SyncPlus.PendingDeletions
import SyncPlus.Plan
import SyncPlus.PlanConvergence
import SyncPlus.PlanTotals
import SyncPlus.PrecheckEntries
import SyncPlus.PreservedCopies
import SyncPlus.Profile
import SyncPlus.ProfileCalls
import SyncPlus.ProfileColumns
import SyncPlus.ProfileNames
import SyncPlus.ProfileStore
import SyncPlus.ProfilesListed
import SyncPlus.RealDirectories
import SyncPlus.Reconciliation
import SyncPlus.RecoveryPaths
import SyncPlus.RemoteHelper
import SyncPlus.RemovalProof
import SyncPlus.RemovedOnProof
import SyncPlus.Replacement
import SyncPlus.ReplacementAtomic
import SyncPlus.ReplacementEqual
import SyncPlus.RequiredSpace
import SyncPlus.ResolutionExecution
import SyncPlus.ResolutionJournal
import SyncPlus.ResolutionRuns
import SyncPlus.ResolutionsJournaled
import SyncPlus.Restore
import SyncPlus.RestoreAtomic
import SyncPlus.RestoredBackup
import SyncPlus.ResumeVolumes
import SyncPlus.ResumedRuns
import SyncPlus.Revalidation
import SyncPlus.ReviewCleared
import SyncPlus.ReviewDecisions
import SyncPlus.ReviewRows
import SyncPlus.RunIds
import SyncPlus.RunPaths
import SyncPlus.RunReport
import SyncPlus.RunSnapshot
import SyncPlus.RunTable
import SyncPlus.RunnableSchedules
import SyncPlus.RunsEnd
import SyncPlus.SafeDelete
import SyncPlus.SafeDeleteLossless
import SyncPlus.Schedule
import SyncPlus.ScheduleClaims
import SyncPlus.Schema
import SyncPlus.ScopeLock
import SyncPlus.SettledBaseline
import SyncPlus.Sidecar
import SyncPlus.SidecarKept
import SyncPlus.SnapshotFrozen
import SyncPlus.SnapshotRows
import SyncPlus.SpaceSufficient
import SyncPlus.SshRemoval
import SyncPlus.SshTransfer
import SyncPlus.SshWorkflow
import SyncPlus.StoreOutlines
import SyncPlus.StoredProfiles
import SyncPlus.StoredTable
import SyncPlus.TableTransactions
import SyncPlus.TraceGrowth
import SyncPlus.TransferOutput
import SyncPlus.TransferReset
import SyncPlus.TransferRoundTrip
import SyncPlus.TransferredBytes
import SyncPlus.TreeRun
import SyncPlus.WalkedInventory
