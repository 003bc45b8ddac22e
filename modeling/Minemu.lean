import Minemu.Core.TranslationOrder
import Minemu.Core.ReferenceTimer
import Minemu.Core.TickJump
import Minemu.Core.Access
import Minemu.Core.BlockTransfer
import Minemu.Platform.WireRecords
import Minemu.Unicorn.CostLaw
import Minemu.Unicorn.BatchIndependence
import Minemu.Unicorn.IrqDelivery
import Minemu.Unicorn.DeviceFault
import Minemu.Unicorn.Cp15Abi
import Minemu.Unicorn.EntryOverflow
import Minemu.Runtime.ServicePersistence
import Minemu.Runtime.ScheduledInput
import Minemu.Runtime.InvisibleInspection
import Minemu.Runtime.Shutdown
import Minemu.Runtime.UartIngress
import Minemu.Runtime.BoundedResume
import Minemu.Runtime.Reset
import Minemu.Runtime.DualFlush
import Minemu.Image.BootMemory
import Minemu.Image.RoundTrip
import Minemu.Tui.CommandBar
import Minemu.Tui.ConsoleOutput
import Minemu.Tui.ConsoleReset
import Minemu.Tui.CursorVisible
import Minemu.Unicorn.TraceHistory
import Minemu.Core.MemoryMap
import Minemu.Core.RngRuns
import Minemu.Unicorn.MemorySearch
import Minemu.Unicorn.TranslatedRead
import Minemu.Runtime.InstructionCount
import Minemu.Tui.CountedMotion
import Minemu.Tui.OverlapSafety
import Minemu.Tui.HexInput
import Minemu.Headless.Verdict
import Minemu.Headless.PackagedStart
import Minemu.Tui.Inspections
import Minemu.Runtime.TranslationCache
import Minemu.Terminal.Lifecycle
