import DeviceModel.Library.Runs
import DeviceModel.E82545.Regs
import DeviceModel.E82545.Interrupts
import DeviceModel.E82545.Transmit
import DeviceModel.E82545.TransmitRing
import DeviceModel.E82545.TransmitSchedule
import DeviceModel.E82545.Receive
import DeviceModel.E82545.System
import DeviceModel.E82545.DisableWaits
import DeviceModel.E82545.RxWakeup
import DeviceModel.Library.WaitQueue
import DeviceModel.Block.BlockIf
import DeviceModel.Block.Queue
import DeviceModel.Block.SeqDisk
import DeviceModel.Block.Transfer
import DeviceModel.Block.Refinement
import DeviceModel.Ahci.Defs
import DeviceModel.Ahci.Fis
import DeviceModel.Ahci.Requests
import DeviceModel.Ahci.Responses
import DeviceModel.Ahci.Commands
import DeviceModel.Ahci.Hba
import DeviceModel.Ahci.System
import DeviceModel.Ahci.Effects
import DeviceModel.Ahci.CommandEnds
import DeviceModel.Ahci.Issue
import DeviceModel.Ahci.Slots
import DeviceModel.Ahci.Tracking
import DeviceModel.Ahci.Serve
import DeviceModel.Ahci.TrackedRuns
import DeviceModel.Ahci.ClosedPorts
import DeviceModel.Ahci.Rules
import DeviceModel.Ahci.Interrupts
import DeviceModel.Ahci.HbaInterrupts
import DeviceModel.Ahci.Exec
import DeviceModel.Ahci.LostInterrupts
import DeviceModel.Ahci.PortLoop
import DeviceModel.Ahci.SmallStep
import DeviceModel.Ahci.SmallExec
import DeviceModel.Ahci.Locks
import DeviceModel.DmLoop
import DeviceModel.Library.OrderedTree
import DeviceModel.Mmio
import DeviceModel.Pci.Bars
import DeviceModel.Pci.Init
import DeviceModel.Pci.Effects
import DeviceModel.Pci.Line
import DeviceModel.Pci.Registry
import DeviceModel.Pci.Mirror
import DeviceModel.Pci.Startup
import DeviceModel.Pci.MirrorRuns
import DeviceModel.Pci.Dispatch
import DeviceModel.Pci.DispatchRuns
import DeviceModel.Ahci.Disks
import DeviceModel.E82545.HeaderAccess
import DeviceModel.E82545.RingBounds
import DeviceModel.E82545.Segments
import DeviceModel.Ahci.Buffers
import DeviceModel.Ahci.Chunks
import DeviceModel.Ahci.Decoding
import DeviceModel.Ahci.PortRuns
import DeviceModel.Ahci.PortStop
import DeviceModel.Ahci.UnopenedPorts
import DeviceModel.Ahci.HbaReset
import DeviceModel.Ahci.DiskBounds
import DeviceModel.Ahci.Continuations
import DeviceModel.Ahci.Completions
import DeviceModel.E82545.TsoHeaders
import DeviceModel.E82545.UdpSegments
import DeviceModel.E82545.Checksums
import DeviceModel.E82545.HeaderCopy
import DeviceModel.E82545.Backend
import DeviceModel.E82545.VlanInsert
import DeviceModel.E82545.SegmentFrames
import DeviceModel.E82545.RxPackets
import DeviceModel.E82545.RxFrames
import DeviceModel.E82545.RingDivisors
import DeviceModel.Library.CLayout
import DeviceModel.E82545.DescriptorStride
import DeviceModel.Library.ShiftRegister
import DeviceModel.E82545.Eeprom
import DeviceModel.E82545.RegAsserts
import DeviceModel.E82545.ReadBack
import DeviceModel.Library.LinkedList
import DeviceModel.Pci.Capabilities
import DeviceModel.Pci.MsiMirror
import DeviceModel.Library.BumpPool
import DeviceModel.Pci.BarPools
import DeviceModel.Pci.BarRegs
import DeviceModel.Pci.BarAgreement
import DeviceModel.Ahci.PrdtCopies
import DeviceModel.E82545.ChecksumSplit
import DeviceModel.Block.Geometry
import DeviceModel.Library.Moves
import DeviceModel.Ahci.DmaPlaces
import DeviceModel.Ahci.Dma
import DeviceModel.Ahci.DmaRuns
import DeviceModel.Ahci.DiskRefinement
import DeviceModel.Library.Footprint
import DeviceModel.Ahci.LentMemory
import DeviceModel.Ahci.Confinement
import DeviceModel.Library.MaskedRegs
import DeviceModel.Library.WordBytes
import DeviceModel.Pci.ConfigView
import DeviceModel.Pci.Conf1
import DeviceModel.Pci.Msix
import DeviceModel.Library.LeastLoaded
import DeviceModel.Pci.IntPins
import DeviceModel.E82545.TransmitFrames
import DeviceModel.Pci.MemoryMap
import DeviceModel.Library.RingQueue
import DeviceModel.E82545.RxQueue
import DeviceModel.Ahci.AnswerRuns
import DeviceModel.Ahci.Identify
