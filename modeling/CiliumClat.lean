import CiliumClat.Library.ByteList
import CiliumClat.Library.OnesComplement
import CiliumClat.Library.EarlyExit
import CiliumClat.Library.Reassembly
import CiliumClat.Library.KeyedTable
import CiliumClat.Library.EventMachine
import CiliumClat.Library.FileSystem
import CiliumClat.Kernel.Skb
import CiliumClat.Kernel.Reference
import CiliumClat.Datapath.Headers
import CiliumClat.Datapath.Common
import CiliumClat.Datapath.Egress
import CiliumClat.Datapath.Ingress
import CiliumClat.Translation.Edits
import CiliumClat.Translation.Egress
import CiliumClat.Translation.Ingress
import CiliumClat.Refinement.Helpers
import CiliumClat.Refinement.Egress
import CiliumClat.Refinement.Ingress
import CiliumClat.Plugin.Netlink
import CiliumClat.Plugin.Config
import CiliumClat.Plugin.Netns
import CiliumClat.Plugin.Attach
import CiliumClat.Plugin.Command
import CiliumClat.Plugin.Report
import CiliumClat.Plugin.Installer
import CiliumClat.Refinement.Netns
import CiliumClat.Refinement.Commands
import CiliumClat.Refinement.Check
import CiliumClat.Refinement.Runs
import CiliumClat.Properties.Fields
import CiliumClat.Properties.Classification
import CiliumClat.Properties.Headers
import CiliumClat.Properties.Checksums
import CiliumClat.Properties.RoundTrip
import CiliumClat.Properties.Answer
import CiliumClat.Properties.Quotes
import CiliumClat.Properties.Fragmentation
import CiliumClat.Properties.Counters
import CiliumClat.Properties.Protocols
import CiliumClat.Properties.ZeroChecksum
import CiliumClat.Properties.Options
import CiliumClat.Properties.FullChecksum
import CiliumClat.Properties.PartialChecksum
import CiliumClat.Properties.Embedded
import CiliumClat.Properties.Mtu
import CiliumClat.Properties.Discovery
import CiliumClat.Properties.Foreign
import CiliumClat.Properties.FailedSetup
import CiliumClat.Properties.CheckAgrees
import CiliumClat.Properties.CheckSound
import CiliumClat.Properties.LifeCycle
import CiliumClat.Properties.Recovery
import CiliumClat.Properties.Admission
import CiliumClat.Properties.Reconfiguration
import CiliumClat.Properties.Pod
import CiliumClat.Properties.FailClosed
import CiliumClat.Properties.Report
import CiliumClat.Properties.Installation
