import PurleyFirmware.Foundation.Runs
import PurleyFirmware.Uefi.Status
import PurleyFirmware.PchSmi.SourceDesc
import PurleyFirmware.PchSmi.Hardware
import PurleyFirmware.PchSmi.Database
import PurleyFirmware.PchSmi.TcoDispatch
import PurleyFirmware.PchSmi.TcoWriteProtect
import PurleyFirmware.PchSmi.Espi
import PurleyFirmware.PchSmi.EspiBookkeeping
import PurleyFirmware.PchSmi.CoreDispatcher
import PurleyFirmware.Foundation.Tally
import PurleyFirmware.Smm.RendezvousInvariant
import PurleyFirmware.Smm.RendezvousAp
import PurleyFirmware.Smm.RendezvousBsp
import PurleyFirmware.Smm.Rendezvous
import PurleyFirmware.Foundation.Fold
import PurleyFirmware.Pci.BusNumberRanges
import PurleyFirmware.Pci.ScanBus
import PurleyFirmware.Pci.BusNumbering
import PurleyFirmware.Foundation.Loops
import PurleyFirmware.Ras.MemoryOnline
import PurleyFirmware.Ras.MemoryRequests
import PurleyFirmware.PchSmi.IoTrap
import PurleyFirmware.PchSmi.IoTrapDelivery
import PurleyFirmware.PchSmi.IoTrapRelease
import PurleyFirmware.Pch.CycleDecoding
import PurleyFirmware.Pch.DmiMirror
import PurleyFirmware.Ras.McBank
import PurleyFirmware.Ras.McBankErrorHandler
import PurleyFirmware.Ras.BankErrors
import PurleyFirmware.Ras.ErrorNotification
import PurleyFirmware.Ras.McBankContention
import PurleyFirmware.Ras.SeverityReport
import PurleyFirmware.Pch.GenIoRange
import PurleyFirmware.PchSmi.CoreRegister
import PurleyFirmware.PchSmi.EnableBits
import PurleyFirmware.PchSmi.EnableMirror
import PurleyFirmware.Foundation.Slots
import PurleyFirmware.PchSmi.PeriodicTimer
import PurleyFirmware.Foundation.LinkedTree
import PurleyFirmware.Smm.PageTable
import PurleyFirmware.Smm.PagePool
import PurleyFirmware.Smm.PageReclaim
import PurleyFirmware.Smm.PageAlloc
import PurleyFirmware.Smm.PageFaults
import PurleyFirmware.Ras.CoreBroadcast
import PurleyFirmware.Ras.CoreBroadcastInvariant
import PurleyFirmware.Ras.CoreBroadcastRun
import PurleyFirmware.PchSmi.SwSmiValues
import PurleyFirmware.Ras.MemRasHandler
import PurleyFirmware.Ras.MemRasProgress
import PurleyFirmware.Ras.MemRasReports
import PurleyFirmware.Smm.CpuHotPlug
import PurleyFirmware.Mtrr.SetAttribute
import PurleyFirmware.Ras.HotPlugFlow
import PurleyFirmware.Mtrr.ErrorReturns
import PurleyFirmware.Foundation.RoseTree
import PurleyFirmware.Pci.ResourceNode
import PurleyFirmware.Pci.ResourceMap
import PurleyFirmware.Foundation.FiberSum
import PurleyFirmware.Pci.PaddingAperture
import PurleyFirmware.Pci.HostBridge
import PurleyFirmware.Pci.Reallocation
import PurleyFirmware.Smm.PageShape
import PurleyFirmware.Smm.PageEssentials
import PurleyFirmware.Acpi.CapabilityWalk
import PurleyFirmware.Acpi.InterruptRemap
import PurleyFirmware.CpuMp.Microcode
import PurleyFirmware.CpuMp.MicrocodeBounds
import PurleyFirmware.CpuMp.ApicId
import PurleyFirmware.CpuMp.ApicNumbering
import PurleyFirmware.CpuMp.ApicMode
import PurleyFirmware.CpuMp.RegisterResume
import PurleyFirmware.CpuMp.MpService
import PurleyFirmware.CpuMp.MpStartup
import PurleyFirmware.CpuMp.MpRejected
import PurleyFirmware.CpuMp.MpDisabled
import PurleyFirmware.Mtrr.Precedence
import PurleyFirmware.Mtrr.AttributeMapped
import PurleyFirmware.CpuMp.Timeout
import PurleyFirmware.Foundation.AlignedBlocks
import PurleyFirmware.Pci.BusReservation
import PurleyFirmware.Mtrr.SplitRange
import PurleyFirmware.Mtrr.Programming
import PurleyFirmware.Mtrr.Decomposition
import PurleyFirmware.CpuMp.MicrocodeSelection
import PurleyFirmware.Pci.Degradation
import PurleyFirmware.Pci.ProgramResource
import PurleyFirmware.Foundation.MaskedWrite
import PurleyFirmware.Gpio.Registers
import PurleyFirmware.Gpio.PadConfig
import PurleyFirmware.Gpio.RoundTrip
import PurleyFirmware.Gpio.ConfigureSklPch
import PurleyFirmware.Pci.ResourceConsumer
import PurleyFirmware.PchSmi.IoTrapPool
import PurleyFirmware.Pci.RootBridgeEnumerator
import PurleyFirmware.Smm.SubEntries
import PurleyFirmware.Pci.ParseBar
import PurleyFirmware.Foundation.WordMemory
import PurleyFirmware.Smm.PaeTable
import PurleyFirmware.Smm.StackGuard
import PurleyFirmware.Smm.Cacheability
import PurleyFirmware.Smm.ProtectedRange
import PurleyFirmware.PchSmi.IoTrapControl
import PurleyFirmware.Foundation.LinkedList
import PurleyFirmware.Ras.HandlerLists
import PurleyFirmware.Ras.GenericError
import PurleyFirmware.Ras.ElogRecord
import PurleyFirmware.Ras.WheaLog
import PurleyFirmware.Ras.QuiesceProtocol
import PurleyFirmware.Ras.SystemMemoryMap
import PurleyFirmware.Ras.AcpiMemoryParams
import PurleyFirmware.Ras.ErrorThrottling
import PurleyFirmware.Foundation.StickyFlags
import PurleyFirmware.Ras.DdrtErrorLogs
import PurleyFirmware.Foundation.Resumable
import PurleyFirmware.Ras.AttnLatch
import PurleyFirmware.Foundation.CircularList
import PurleyFirmware.Uefi.ListEntry
import PurleyFirmware.Pci.ResourceList
import PurleyFirmware.Foundation.BoundedWalk
import PurleyFirmware.Ras.PcieCapabilities
import PurleyFirmware.Ras.PcieDeviceErrors
import PurleyFirmware.Foundation.CountedSearch
import PurleyFirmware.Ras.SubordinateErrors
import PurleyFirmware.Foundation.Footprint
import PurleyFirmware.Ras.PcieErrorHandlers
import PurleyFirmware.Foundation.UndoLog
import PurleyFirmware.Smm.AccessPolicy
import PurleyFirmware.Smm.SingleStep
import PurleyFirmware.Smm.InitPaging
import PurleyFirmware.Acpi.DmarUnits
import PurleyFirmware.Foundation.Painting
import PurleyFirmware.Mtrr.GcdSpaces
import PurleyFirmware.Mtrr.RefreshGcd
import PurleyFirmware.Foundation.FairRun
import PurleyFirmware.CpuMp.MpDispatch
import PurleyFirmware.CpuMp.MpDispatchOnce
import PurleyFirmware.CpuMp.MpThisAp
import PurleyFirmware.CpuMp.MpThisApFair
import PurleyFirmware.Foundation.NestedRanges
import PurleyFirmware.Pci.Placement
import PurleyFirmware.Mtrr.Combining
import PurleyFirmware.Mtrr.FixedTypes
import PurleyFirmware.Mtrr.ReadBack
import PurleyFirmware.Mtrr.Neighbours
import PurleyFirmware.Foundation.WriteBack
import PurleyFirmware.Mtrr.LiveAgrees
