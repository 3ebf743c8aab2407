import Novo7.MallocRuns
import Novo7.BootAreaWrite
import Novo7.MassStorageMedium
import Novo7.UsbDevice
import Novo7.Replies
import Novo7.ZoneSwitch
import Novo7.AdbdEmu
import Novo7.BootAreaBlocks
import Novo7.BootCommands
import Novo7.SenseData
import Novo7.AdbdStreams
import Novo7.BootMenu
import Novo7.BootReadStatus
import Novo7.BootScript
import Novo7.DiskRange
import Novo7.MallocSearch
import Novo7.ReceivedData
import Novo7.ReplySizes
import Novo7.SectorCounts
import Novo7.SyncCache
import Novo7.TblReadBack
import Novo7.CheckCommand
import Novo7.UnitNumber
import Novo7.FastbootImage
import Novo7.EgonImage
import Novo7.DiskWrite
import Novo7.MemFill
import Novo7.VSprintf
import Novo7.CopyImage
import Novo7.BmpImage
import Novo7.MiscPart
import Novo7.ScriptScan
import Novo7.ScriptStores
import Novo7.FbPrint
import Novo7.Descriptors
import Novo7.SectorRange
import Novo7.PhysicalAddress
import Novo7.EraseStatus
import Novo7.PageMapStore
import Novo7.FormatNand
import Novo7.FreeBlks
import Novo7.CopybackBank
import Novo7.LogRoom
import Novo7.PageSearch
import Novo7.ReadStatus
import Novo7.DiskInvariants
