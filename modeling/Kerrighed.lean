import Kerrighed.Common.Runs
import Kerrighed.Common.Chain
import Kerrighed.Krgcheckpoint.Children
import Kerrighed.Krgcheckpoint.Exclusions
import Kerrighed.Krgcb.Registry
import Kerrighed.Krgcb.Signals
import Kerrighed.Krgcb.Threads
import Kerrighed.Krgcb.WakeUps
import Kerrighed.Krgcheckpoint.Propagation
import Kerrighed.Tools.Checkpoint
import Kerrighed.Krgcheckpoint.Library
import Kerrighed.Krgcheckpoint.Listening
import Kerrighed.Krgcheckpoint.Retention
import Kerrighed.Krgcb.WorkerLife
import Kerrighed.Krgcb.Rounds
import Kerrighed.Krgcb.Requests
import Kerrighed.Common.Scan
import Kerrighed.Hotplug.NodeSet
import Kerrighed.Hotplug.Status
import Kerrighed.Krgadm.Remove
import Kerrighed.Krgadm.Add
import Kerrighed.Krgadm.Clients
import Kerrighed.Common.CNumbers
import Kerrighed.Common.Getopt
import Kerrighed.Krgcapset.Capabilities
import Kerrighed.Krgcapset.Main
import Kerrighed.Common.Text
import Kerrighed.Tools.Description
import Kerrighed.Tools.CheckpointMain
import Kerrighed.Tools.Migrate
import Kerrighed.Tools.Supervision
import Kerrighed.Krgadm.NodeList
import Kerrighed.Krgadm.Nodes
import Kerrighed.Tools.Numbers
import Kerrighed.Krgcheckpoint.Forks
import Kerrighed.Common.Numerals
import Kerrighed.Krgadm.NodeItems
import Kerrighed.Krgadm.NodeGrammar
import Kerrighed.Common.Buffers
import Kerrighed.Krgadm.Printing
import Kerrighed.Hotplug.NodeMask
import Kerrighed.Krgadm.RemoveCount
import Kerrighed.Krgadm.AddCount
import Kerrighed.Krgadm.AddList
import Kerrighed.Krgcheckpoint.FailedExclusions
import Kerrighed.Krgcb.FailedRegistrations
import Kerrighed.Krgcb.Passes
import Kerrighed.Krgcb.QueueRemoval
import Kerrighed.Krgcheckpoint.Verdicts
import Kerrighed.Common.NameSets
import Kerrighed.Krgcapset.Lists
import Kerrighed.Krgcapset.Options
import Kerrighed.Krgcapset.SavedVectors
import Kerrighed.Common.Regex
import Kerrighed.Tools.FdKeys
import Kerrighed.Tools.ExclusiveModes
import Kerrighed.Tools.Restart
import Kerrighed.Krgadm.Cluster
import Kerrighed.Common.Iterators
import Kerrighed.Python.NodeSet
import Kerrighed.Python.Iteration
import Kerrighed.Tools.AbiVersion
import Kerrighed.Common.Progress
import Kerrighed.Krgcb.Completion
import Kerrighed.Krgcb.Interleaving
import Kerrighed.Krgadm.Administrators
import Kerrighed.Krgadm.KernelRequests
import Kerrighed.Common.Words
import Kerrighed.Krgadm.Services
import Kerrighed.Boot.Krgboot
import Kerrighed.Boot.Host
import Kerrighed.Common.Files
import Kerrighed.Tools.CheckpointLeftovers
import Kerrighed.Tools.IpcObjects
import Kerrighed.Tools.RestartRequests
import Kerrighed.Krgcheckpoint.Teardown
import Kerrighed.Tools.KrgcrRun
import Kerrighed.Common.Shell
import Kerrighed.Tools.RbtScheduler
import Kerrighed.Krgcb.Deliveries
import Kerrighed.Tools.CheckpointHistory
