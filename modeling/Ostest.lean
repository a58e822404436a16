import Ostest.CopyOnWrite
import Ostest.Dispatch
import Ostest.Lib.Calls
import Ostest.Lib.Cuts
import Ostest.Lib.Decimal
import Ostest.Lib.Echo
import Ostest.Lib.Getopt
import Ostest.Lib.GetoptLong
import Ostest.Lib.Getopts
import Ostest.Lib.Grep
import Ostest.Lib.Ledger
import Ostest.Lib.Loop
import Ostest.Lib.Machine
import Ostest.Lib.Memory
import Ostest.Lib.Pages
import Ostest.Lib.Pipes
import Ostest.Lib.Ranges
import Ostest.Lib.Remap
import Ostest.Lib.Runs
import Ostest.Lib.Shell
import Ostest.Lib.Signed
import Ostest.Lib.Stdio
import Ostest.Lib.Strtoll
import Ostest.Lib.Threads
import Ostest.Lib.WaitStatus
import Ostest.Lib.WordMask
import Ostest.Lib.Words
import Ostest.Lib.Xargs
import Ostest.PerfEvent
import Ostest.Socket
import Ostest.TestDrv.DeviceNodes
import Ostest.TestDrv.MmapDev2
import Ostest.TestDrv.Procfs
import Ostest.TestDrv.Setup
import Ostest.TestDrv.VmaFault
import Ostest.TestMck.ArgVector
import Ostest.TestMck.CpuProcLimits
import Ostest.TestMck.CpuThreadLimits
import Ostest.TestMck.Execve
import Ostest.TestMck.Futex.Program
import Ostest.TestMck.Futex.Runs
import Ostest.TestMck.GetMempolicy
import Ostest.TestMck.Getrusage
import Ostest.TestMck.Gettid
import Ostest.TestMck.Gettimeofday
import Ostest.TestMck.Kill
import Ostest.TestMck.Main
import Ostest.TestMck.Mbind
import Ostest.TestMck.MemStackLimits
import Ostest.TestMck.MigrateTarget
import Ostest.TestMck.MmapDev
import Ostest.TestMck.Mremap.Suite
import Ostest.TestMck.Mremap.Tests
import Ostest.TestMck.Mremap.Verdicts
import Ostest.TestMck.MremapArgument
import Ostest.TestMck.MremapMmapAnon
import Ostest.TestMck.Numa
import Ostest.TestMck.Pagemap
import Ostest.TestMck.PipeSync
import Ostest.TestMck.ProcessVmReadv
import Ostest.TestMck.Ptrace
import Ostest.TestMck.PtraceFork
import Ostest.TestMck.Regsets
import Ostest.TestMck.RemapFilePages
import Ostest.TestMck.SchedSetaffinity.Program
import Ostest.TestMck.SchedSetaffinity.Runs
import Ostest.TestMck.SchedYield.Program
import Ostest.TestMck.SchedYield.Runs
import Ostest.TestMck.Sigaltstack
import Ostest.TestMck.TempFile
import Ostest.TestMck.TimeSharing.Agreement
import Ostest.TestMck.TimeSharing.Program
import Ostest.TestMck.TimeSharing.Runs
import Ostest.TestMck.Tls.Program
import Ostest.TestMck.Tls.Runs
import Ostest.TestMck.Waitid
import Ostest.Util.Decision
import Ostest.Util.GenAutotestScripts
import Ostest.Util.GetRusage
import Ostest.Util.GetrusageCheck.Runs
import Ostest.Util.GetrusageCheck.Scripts
import Ostest.Util.InitMemory
import Ostest.Util.ResultIsOk
import Ostest.Util.Run
import Ostest.Util.RunMck
import Ostest.Util.SignalCheck
import Ostest.Util.Summary
import Ostest.Util.TimeSharingCheck
