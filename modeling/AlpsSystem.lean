import AlpsSystem.Nvram.Locks
import AlpsSystem.Fmq.Layout
import AlpsSystem.Fmq.Synchronized
import AlpsSystem.Fmq.EventFlag
import AlpsSystem.Chre.Delivery
import AlpsSystem.UpdateEngine.TopologicalSort
import AlpsSystem.UpdateEngine.BreakCycles
import AlpsSystem.UpdateEngine.MetadataBounds
import AlpsSystem.UpdateEngine.Signing
import AlpsSystem.Nvram.Truncation
import AlpsSystem.Chre.ScanResults
import AlpsSystem.Chre.SessionRate
import AlpsSystem.Keymaster.UsageLimits
import AlpsSystem.Keymaster.SetSerialization
import AlpsSystem.Camera.Validity
import AlpsSystem.Nfc.NdefSafety
import AlpsSystem.LibUtils.SortedVector
import AlpsSystem.AudioUtils.FifoExact
import AlpsSystem.Unwind.ElfStep
import AlpsSystem.Unwind.Leb128
import AlpsSystem.Unwind.MemoryOffline
import AlpsSystem.LibUtils.Unicode
import AlpsSystem.LibUtils.Conversion
import AlpsSystem.LibUtils.VectorValues
import AlpsSystem.Nvram.Creation
import AlpsSystem.Vintf.Compatibility
import AlpsSystem.Sparse.Import
import AlpsSystem.Sparse.BackedBlock
import AlpsSystem.Chre.SensorMerge
import AlpsSystem.Chre.ArrayQueue
import AlpsSystem.Bluetooth.AvdtConfig
import AlpsSystem.Bluetooth.CreditBased
