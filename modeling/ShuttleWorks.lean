import ShuttleWorks.Brackets.AdvancedSides
import ShuttleWorks.Brackets.Formats.Meetings
import ShuttleWorks.Brackets.MonradRuns
import ShuttleWorks.Brackets.Closures
import ShuttleWorks.Brackets.PlanningRuns
import ShuttleWorks.Brackets.Rematches
import ShuttleWorks.Brackets.ResponseCache
import ShuttleWorks.Brackets.Scoring
import ShuttleWorks.Brackets.SessionSolves
import ShuttleWorks.Brackets.SingleRuns
import ShuttleWorks.Brackets.StandingOrder
import ShuttleWorks.Brackets.SwissRuns
import ShuttleWorks.Competition.RosterCodes
import ShuttleWorks.Console.ConstraintChecker
import ShuttleWorks.Console.PlanSurface
import ShuttleWorks.Console.Reconnect
import ShuttleWorks.Documents.Atomicity
import ShuttleWorks.Documents.Backups
import ShuttleWorks.Documents.Replans
import ShuttleWorks.Engine.CandidatePool
import ShuttleWorks.Engine.Greedy
import ShuttleWorks.Engine.Overruns
import ShuttleWorks.Entries.Fees
import ShuttleWorks.Entries.Importing
import ShuttleWorks.Entries.PersonCap
import ShuttleWorks.Entries.Places
import ShuttleWorks.Entries.Retention
import ShuttleWorks.Identity.Guarantees
import ShuttleWorks.Identity.Ownership
import ShuttleWorks.Identity.Revocation
import ShuttleWorks.Meet.Advisories
import ShuttleWorks.Meet.Regeneration
import ShuttleWorks.Meet.ScheduleImpact
import ShuttleWorks.Meet.ScheduleProposals
import ShuttleWorks.Operations.Courts
import ShuttleWorks.Operations.Deletion
import ShuttleWorks.SolveRail.Leases
import ShuttleWorks.Sync.Numbering
import ShuttleWorks.Sync.Recovery
import ShuttleWorks.Sync.Refold
