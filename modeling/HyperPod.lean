import HyperPod.Lib.Outcome
import HyperPod.Lib.Run
import HyperPod.Lib.Bytes
import HyperPod.Lib.HostFile
import HyperPod.Storage.Backend
import HyperPod.Storage.Sector
import HyperPod.Storage.VhdContainment
import HyperPod.Lib.BlockStore
import HyperPod.Storage.SectorMap
import HyperPod.Storage.VhdPayload
import HyperPod.Storage.Detect
import HyperPod.Storage.FormatStability
import HyperPod.Storage.FormatPolicy
import HyperPod.Ram
import HyperPod.RamBytes
import HyperPod.Lib.WrapRing
import HyperPod.Device.Queue
import HyperPod.Device.AvailRing
import HyperPod.Device.RegisterFile
import HyperPod.Device.FeatureBank
import HyperPod.Device.QueueSize
import HyperPod.Device.Reset
import HyperPod.Device.ChainWalk
import HyperPod.Device.PopSeries
import HyperPod.Device.ThrottleBound
import HyperPod.Lib.Accrual
import HyperPod.Device.ThrottleWait
import HyperPod.Device.ThrottlePolling
import HyperPod.Device.ThrottleParams
import HyperPod.BootImage
import HyperPod.ElfTotal
import HyperPod.BootArtefacts
import HyperPod.ElfExact
import HyperPod.VcpuEntry
import HyperPod.PortIo
import HyperPod.Config
import HyperPod.Lib.CString
import HyperPod.BootCmdline
import HyperPod.KvmMemory
import HyperPod.Scaling.Sinks
import HyperPod.Scaling.Convergence
import HyperPod.Device.Concurrent
import HyperPod.Scaling.Thread
import HyperPod.Scaling.Discovery
import HyperPod.Lib.FloatGrid
import HyperPod.Lib.Binary64Round
import HyperPod.Lib.FloatText
import HyperPod.Scaling.Probes
import HyperPod.Scaling.Levels
import HyperPod.Scaling.Governor
import HyperPod.Lib.Decay
import HyperPod.Scaling.Settling
import HyperPod.VcpuRegisters
import HyperPod.GuestEntry
import HyperPod.RunLoops
import HyperPod.Device.ChainHandover
import HyperPod.Device.LiveQueues
import HyperPod.Device.ThrottleThreads
import HyperPod.Start
