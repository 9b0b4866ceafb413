import CfsEds.Lib.Crc
import CfsEds.Lib.Loop
import CfsEds.Edslib.ErrorControl
import CfsEds.Edslib.CrcLoop
import CfsEds.Edslib.Crc16
import CfsEds.Edslib.Crc16Exact
import CfsEds.Edslib.Crc8
import CfsEds.Lib.Memory
import CfsEds.Lib.LinkedList
import CfsEds.Lib.RefCount
import CfsEds.Es.GenericPool
import CfsEds.Es.PoolInv
import CfsEds.Es.PoolOps
import CfsEds.Es.PoolSafety
import CfsEds.Es.PoolRebuild
import CfsEds.Es.ResourceId
import CfsEds.Es.Cds
import CfsEds.Es.CdsInv
import CfsEds.Es.CdsRun
import CfsEds.Es.CdsData
import CfsEds.Sb.Bus
import CfsEds.Sb.BusInv
import CfsEds.Sb.BusSteps
import CfsEds.Sb.BusReceive
import CfsEds.Sb.BusRun
import CfsEds.Sb.Returned
import CfsEds.Lib.DoublyLinked
import CfsEds.Sb.DestList
import CfsEds.Sb.DestInv
import CfsEds.Lib.Interleave
import CfsEds.Lib.VersionedRing
import CfsEds.Time.Reference
import CfsEds.Time.Serial
import CfsEds.Time.Rollover
import CfsEds.Time.SystemRun
import CfsEds.Time.Tone
import CfsEds.Lib.Faults
import CfsEds.Tbl.Tables
import CfsEds.Tbl.Services
import CfsEds.Tbl.Effects
import CfsEds.Tbl.Isolation
import CfsEds.Lib.Ownership
import CfsEds.Tbl.Ownership
import CfsEds.Tbl.Moves
import CfsEds.Tbl.Validated
import CfsEds.Tbl.Bounds
import CfsEds.Tbl.Contents
import CfsEds.Tbl.Decoding
import CfsEds.Tbl.Agreement
import CfsEds.Osal.IdMap
import CfsEds.Osal.LockBalance
import CfsEds.Osal.Tasks
import CfsEds.Osal.Exclusion
import CfsEds.Osal.Names
import CfsEds.Es.ResourceAlloc
import CfsEds.Es.FlightCrc
import CfsEds.Psp.ExceptionLog
import CfsEds.Es.StartScript
import CfsEds.Fs.FileName
import CfsEds.Fs.FileDump
import CfsEds.Lib.Calendar
import CfsEds.Lib.Decimal
import CfsEds.Osal.Clock
import CfsEds.Time.Print
import CfsEds.Time.SetGet
import CfsEds.Edslib.Base64
import CfsEds.Edslib.PackStyle
import CfsEds.Edslib.BitPack
import CfsEds.Edslib.PackFrame
import CfsEds.Es.MemPool
import CfsEds.Es.TaskCleanup
import CfsEds.Lib.Probing
import CfsEds.Sb.RouteMap
import CfsEds.Evs.EventLog
import CfsEds.Psp.MemRange
