import NvmEmulator.Semantics.Threads
import NvmEmulator.Uncore.BoxRefinement
import NvmEmulator.Uncore.BoxWrites
import NvmEmulator.Uncore.Counter
import NvmEmulator.Emulate.Bandwidth
import NvmEmulator.Uncore.ImcFaults
import NvmEmulator.Uncore.Throttle
import NvmEmulator.Emulate.Prepare
import NvmEmulator.Emulate.GlobalPmu
import NvmEmulator.Emulate.Injected
import NvmEmulator.Emulate.WriteOrder
import NvmEmulator.Ioapic.Report
import NvmEmulator.CorePmu.Restart
import NvmEmulator.CorePmu.Sampling
import NvmEmulator.CorePmu.Writers
import NvmEmulator.Migrate.Timer
import NvmEmulator.Migrate.Descent
import NvmEmulator.Migrate.WalkingTime
import NvmEmulator.Migrate.LiveScan
import NvmEmulator.Discovery.Balance
import NvmEmulator.Discovery.Channels
import NvmEmulator.Discovery.Units
import NvmEmulator.Discovery.MsrBoxes
import NvmEmulator.Nehalem.Ticks
import NvmEmulator.Nehalem.Writes
import NvmEmulator.Nehalem.Unload
