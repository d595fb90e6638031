import Snapd.Lib.Regex
import Snapd.Lib.ThreeWay
import Snapd.Lib.FilterLoop
import Snapd.Lib.GoPath
import Snapd.Lib.Run
import Snapd.Lib.Closure
import Snapd.Lib.Refinement
import Snapd.Lib.Search
import Snapd.Lib.Worklist
import Snapd.Lib.AssocList
import Snapd.Lib.GoTime
import Snapd.Lib.GoCompare
import Snapd.Patterns.Scan
import Snapd.Patterns.RenderTree
import Snapd.Patterns.Parse
import Snapd.Patterns.Render
import Snapd.Patterns.RenderSpec
import Snapd.Patterns.PathPattern
import Snapd.Patterns.Variant
import Snapd.Patterns.Compare
import Snapd.Patterns.Matching
import Snapd.Patterns.Escape
import Snapd.Prompting.Constraints
import Snapd.Requestrules.RuleDB
import Snapd.Requestrules.Operations
import Snapd.Requestrules.Precedence
import Snapd.Requestrules.Consistency
import Snapd.Osutil.Kcmdline
import Snapd.Naming.Validate
import Snapd.Naming.Tag
import Snapd.Interfaces.Content
import Snapd.Interfaces.Repository
import Snapd.Asserts.Backstore
import Snapd.Asserts.Database
import Snapd.Asserts.TrustChain
import Snapd.Asserts.Updates
import Snapd.Asserts.Headers
import Snapd.Asserts.HeadersRoundTrip
import Snapd.Asserts.Stream
import Snapd.Asserts.StreamRoundTrip
import Snapd.State.Change
import Snapd.State.Waiting
import Snapd.State.Abort
import Snapd.State.AbortClosure
import Snapd.State.TaskRunner
import Snapd.State.RunnerSafety
import Snapd.State.Dependencies
import Snapd.State.Prune
import Snapd.State.PruneRun
import Snapd.Boot.BootState20
import Snapd.Boot.TryBase
import Snapd.Snapstate.Gating
import Snapd.Cluster.AssembleState
import Snapd.Confdb.Databag
import Snapd.Confdb.DatabagLaws
import Snapd.Timeutil.Schedule
import Snapd.Timeutil.Next
import Snapd.Snap.Channel
import Snapd.Interfaces.MountSpec
import Snapd.Strutil.PathIter
import Snapd.Snap.Layout
import Snapd.Strutil.Version
import Snapd.Snapasserts.ValidationSets
import Snapd.Snapasserts.Presence
import Snapd.Snapasserts.AddOrder
import Snapd.Snapasserts.CheckInstalled
import Snapd.Snapasserts.OrderFree
import Snapd.Lib.SortSearch
import Snapd.Osutil.Env
import Snapd.Confdb.Path
import Snapd.Confdb.PathRoundTrip
import Snapd.Lib.Bitset
import Snapd.Cluster.IntSet
import Snapd.Cluster.Selector
import Snapd.Cluster.SelectorRuns
import Snapd.Lib.GoText
import Snapd.Timeutil.ScheduleParse
import Snapd.Timeutil.ScheduleRoundTrip
import Snapd.Timeutil.SplitSpans
import Snapd.Timeutil.WeekMatch
import Snapd.Quota.Resources
import Snapd.Quota.Group
import Snapd.Quota.Tree
import Snapd.Gadget.Volume
import Snapd.Gadget.StartOffset
import Snapd.Patterns.Grammar
import Snapd.Patterns.BraceExpansion
import Snapd.Osutil.MountEntry
import Snapd.Osutil.MountProfile
import Snapd.UpdateNs.Changes
import Snapd.UpdateNs.MountOrder
import Snapd.UpdateNs.NeededChanges
import Snapd.Lib.Kahn
import Snapd.Snap.Services
import Snapd.Bootloader.Ubootenv
import Snapd.Bootloader.UbootenvBlock
import Snapd.Bootloader.UbootenvRedundant
