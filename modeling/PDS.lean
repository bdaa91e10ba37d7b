import PDS.Lab1.HeapRun
import PDS.Lab1.HeapPlace
import PDS.Lab1.HeapMove
import PDS.Kern.KmallocRun
import PDS.Kern.KmallocOom
import PDS.Kern.AddrspaceRun
import PDS.Kern.AddrspaceLoad
import PDS.Kern.UserMemInv
import PDS.Kern.LoadElfRun
import PDS.Kern.Syscall
import PDS.Kern.SyscallConv
import PDS.Kern.SyscallSep
import PDS.Kern.Ipi
import PDS.Kern.Migration
import PDS.Kern.Synch
import PDS.Kern.Thread
import PDS.Kern.ThreadRun
import PDS.Sfs.Disk
import PDS.Lib.Prog
import PDS.Sfs.Format
import PDS.Sfs.Fs
import PDS.Sfs.Mount
import PDS.Sfs.Inv
import PDS.Sfs.Change
import PDS.Sfs.Bmap
import PDS.Sfs.Io
import PDS.Sfs.Truncate
import PDS.Sfs.Life
import PDS.Lib.Slots
import PDS.Sfs.Dir
import PDS.Sfs.Ops
import PDS.Sfs.Persist
import PDS.Sfs.Run
import PDS.Sfs.DirMap
import PDS.Sfs.Contents
import PDS.Sfs.Vfs
import PDS.Sfs.VfsInv
import PDS.Sfs.VfsRun
import PDS.Dev.Lhd
import PDS.Kern.Spl
import PDS.Dev.ConInput
import PDS.Dev.Lser
import PDS.Lib.Ring
import PDS.Lib.Names
import PDS.Vfs.List
import PDS.Vfs.Path
import PDS.Vfs.Refs
import PDS.Lib.Balance
import PDS.Vfs.Biglock
import PDS.Sfsck.Check
import PDS.Sfsck.Frame
import PDS.Sfsck.Walk
import PDS.Sfsck.Names
import PDS.Sfsck.Unique
import PDS.Sfsck.Range
import PDS.Sfsck.Alarm
import PDS.Lib.Forest
import PDS.Lib.BitSet
import PDS.Kern.Bitmap
import PDS.Cpp.Elenco
import PDS.Cpp.ElencoRun
import PDS.Cpp.FGrep
import PDS.Cpp.BlockingQueue
import PDS.Kern.AddrspaceCopy
import PDS.Lib.Tags
import PDS.Libc.Malloc
import PDS.Libc.MallocInv
import PDS.Libc.MallocRun
import PDS.Lib.Objects
import PDS.Lab1.ClientAgree
import PDS.Lib.Table
import PDS.Kern.RunProgramRun
import PDS.Sfs.DiskRange
import PDS.Sfs.WriteFail
import PDS.Sfs.Leak
import PDS.Sfs.SyncHonest
import PDS.Sfs.TruncateExact
import PDS.Sfs.Discard
import PDS.Kern.Copyinout
import PDS.Kern.Uiomove
import PDS.Kern.MigrationBalance
import PDS.Vfs.Getdevice
import PDS.Sfsck.Bitmap
import PDS.Libc.MallocFree
import PDS.Libc.DoubleFree
import PDS.Libc.MallocSize
import PDS.Kern.Copystr
import PDS.Kern.PtrArray
import PDS.Libc.Printf
import PDS.Libc.Snprintf
import PDS.Lib.Numeral
import PDS.Libc.Number
import PDS.Libc.PrintfAtoi
import PDS.Lib.Bytes
import PDS.Kern.Bswap
import PDS.Libc.Memmove
import PDS.Lib.CString
import PDS.Lib.Runs
import PDS.Kern.Menu
import PDS.Kern.Kgets
import PDS.Cpp.Persona
import PDS.Cpp.Assign
import PDS.Lib.Doubly
import PDS.Kern.Threadlist
import PDS.Kern.ThreadlistRun
import PDS.Cpp.Libro
import PDS.Cpp.LibroRun
import PDS.Cpp.SearchPool
import PDS.Cpp.SearchPoolRun
import PDS.Cpp.SearchPoolCalls
import PDS.Cpp.LibroWalk
import PDS.Lib.LongDivision
import PDS.Millicode.QdivremRun
import PDS.Millicode.LongLongRun
import PDS.Lib.Simulation
import PDS.Sfs.Tree
import PDS.Sfs.Kept
import PDS.Sfs.TreeRun
import PDS.Kern.Idle
import PDS.Kern.PrivateMemoryRun
import PDS.Kern.TrapRun
import PDS.Cpp.GrepEnds
