import Imx6Bsp.Startup.Theorems.Ram
import Imx6Bsp.Startup.Theorems.Sysram
import Imx6Bsp.Startup.Theorems.Syspage
import Imx6Bsp.Startup.Theorems.Callouts
import Imx6Bsp.Startup.Theorems.Strings
import Imx6Bsp.Devnp.Theorems.Event
import Imx6Bsp.Devnp.Theorems.Receive
import Imx6Bsp.Devnp.Theorems.Transmit
import Imx6Bsp.Pci.Theorems.BusMap
import Imx6Bsp.Pci.Theorems.FailedAttach
import Imx6Bsp.Pci.Theorems.Locks
import Imx6Bsp.Pci.Theorems.Exclusive
import Imx6Bsp.Pci.Theorems.Rescan
import Imx6Bsp.Pci.Theorems.Config
import Imx6Bsp.Pci.Theorems.Capabilities
import Imx6Bsp.Pci.Theorems.Window
import Imx6Bsp.Pci.Theorems.Bridge
import Imx6Bsp.Devb.Theorems.Ident
import Imx6Bsp.Devb.Theorems.Lifecycle
import Imx6Bsp.Devb.Theorems.Partition
import Imx6Bsp.Devb.Theorems.SdClock
import Imx6Bsp.Devb.Theorems.Capacity
import Imx6Bsp.Devb.Theorems.Erase
import Imx6Bsp.Devc.Theorems.Receive
import Imx6Bsp.Devc.Theorems.Transmit
import Imx6Bsp.Flash.Theorems.Erase
import Imx6Bsp.Flash.Theorems.Poll
import Imx6Bsp.Flash.Theorems.AmdWordWrite
import Imx6Bsp.Flash.Theorems.IntelWrite
import Imx6Bsp.Spi.Theorems.Devlock
import Imx6Bsp.Devnp.Theorems.Ptp
import Imx6Bsp.Devnp.Theorems.Compensation
import Imx6Bsp.Deva.Theorems.RateLock
import Imx6Bsp.Deva.Theorems.CaptureEngine
import Imx6Bsp.Deva.Theorems.CaptureStream
import Imx6Bsp.Sdma.Theorems.Shared
import Imx6Bsp.Sdma.Theorems.NoTimeout
import Imx6Bsp.Boot.Theorems.HandOver
import Imx6Bsp.Startup.Theorems.RestoreAccept
import Imx6Bsp.Startup.Theorems.FindRam
import Imx6Bsp.Startup.Theorems.Bootargs
import Imx6Bsp.Sdma.Theorems.Ring
import Imx6Bsp.Sdma.Theorems.Reserve
import Imx6Bsp.Startup.Theorems.AsContaining
import Imx6Bsp.Startup.Theorems.ReserveRam
import Imx6Bsp.Startup.Theorems.PageWalk
import Imx6Bsp.Startup.Theorems.ArmMap
import Imx6Bsp.Startup.Theorems.Qtime
import Imx6Bsp.Startup.Theorems.Calendar
import Imx6Bsp.Boot.Theorems.Download
import Imx6Bsp.Boot.Theorems.FatGeometry
import Imx6Bsp.Boot.Theorems.FatFile
import Imx6Bsp.Boot.Theorems.ImageScan
import Imx6Bsp.Boot.Theorems.MemTest
import Imx6Bsp.Startup.Theorems.LoadElf
import Imx6Bsp.Devc.Theorems.Stty
import Imx6Bsp.I2c.Theorems.BusSpeed
import Imx6Bsp.Startup.Theorems.IfsOption
import Imx6Bsp.Startup.Theorems.Memfuncs
import Imx6Bsp.Startup.Theorems.Bootstraps
import Imx6Bsp.Boot.Theorems.SdRead
import Imx6Bsp.I2c.Theorems.Transfer
import Imx6Bsp.Flash.Theorems.CfiIdent
import Imx6Bsp.Spi.Theorems.Ecspi
import Imx6Bsp.Flash.Theorems.Norspi
import Imx6Bsp.Startup.Theorems.SmpHandOver
import Imx6Bsp.Boot.Divsi3
import Imx6Bsp.Pwm.Config
import Imx6Bsp.Pci.Theorems.Enumerate
import Imx6Bsp.Devb.Theorems.WriteProtect
import Imx6Bsp.Devb.Theorems.Coverage
import Imx6Bsp.Pci.Aperture
import Imx6Bsp.Pci.Ranges
import Imx6Bsp.Pci.Theorems.Placement
import Imx6Bsp.Startup.Theorems.ElfMap
