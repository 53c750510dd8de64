import ClrOci.Foundation.Numeral
import ClrOci.Foundation.Steps
import ClrOci.Foundation.Framing
import ClrOci.Foundation.Runs
import ClrOci.Foundation.Script
import ClrOci.Mount
import ClrOci.State
import ClrOci.StateRoundTrip
import ClrOci.MountRecord
import ClrOci.Semver
import ClrOci.SpecHandlers
import ClrOci.Process
import ClrOci.Container
import ClrOci.Command
import ClrOci.Growth
import ClrOci.Creation
import ClrOci.Hooks
import ClrOci.Launch
import ClrOci.Verdicts
import ClrOci.Removal
import ClrOci.Retry
import ClrOci.UnmountOrder
import ClrOci.Reload
import ClrOci.Rewrite
import ClrOci.Created
import ClrOci.RunEquivalence
import ClrOci.Network
import ClrOci.Qmp
import ClrOci.Reception
import ClrOci.StatusFile
import ClrOci.Marks
import ClrOci.Lifecycle
import ClrOci.Truthful
import ClrOci.Tracking
import ClrOci.Concurrent
import ClrOci.KillRace
import ClrOci.StartRace
import ClrOci.CleanupRace
import ClrOci.CreateRace
import ClrOci.Foundation.Lexicographic
import ClrOci.Version
import ClrOci.Precedence
import ClrOci.Metadata
import ClrOci.Narrowing
import ClrOci.Acceptance
import ClrOci.ConfigSafety
import ClrOci.Containment
import ClrOci.VersionFields
import ClrOci.Collection
import ClrOci.MountsSection
import ClrOci.HooksSection
import ClrOci.Required
import ClrOci.Isolation
import ClrOci.SectionParts
import ClrOci.LaterChecks
import ClrOci.Foundation.Shell
import ClrOci.ProcessVectors
import ClrOci.Workload
import ClrOci.Foundation.Substitution
import ClrOci.Foundation.Completion
import ClrOci.Expansion
import ClrOci.Deletion
import ClrOci.Truncation
import ClrOci.SignalArgument
import ClrOci.ProcessWatcher
import ClrOci.Attach
import ClrOci.Arguments
import ClrOci.DryRun
import ClrOci.Foundation.Printing
import ClrOci.Uuid
import ClrOci.Foundation.Occurrence
import ClrOci.Replacement
import ClrOci.ArgumentLines
import ClrOci.Bystander
import ClrOci.Foundation.Columns
import ClrOci.Foundation.Components
import ClrOci.Listing
import ClrOci.Foundation.Histories
import ClrOci.Contention
import ClrOci.Foundation.MainLoop
import ClrOci.HookLoop
import ClrOci.Orphans
import ClrOci.OnceStarted
import ClrOci.Foundation.Descriptors
import ClrOci.ChildDescriptors
import ClrOci.Events
import ClrOci.Foundation.Slots
import ClrOci.MemberOrder
import ClrOci.Foundation.Threads
import ClrOci.Logging
import ClrOci.AttachSession
import ClrOci.StateCommand
