import NtxKernel.Foundations.Run
import NtxKernel.Foundations.Count
import NtxKernel.Foundations.Search
import NtxKernel.Foundations.Queue
import NtxKernel.Basic
import NtxKernel.Foundations.Overlap
import NtxKernel.Rtl.Memory
import NtxKernel.Hal.Keyboard
import NtxKernel.Hal.Console
import NtxKernel.Ob.Objects
import NtxKernel.Ob.Lifetime
import NtxKernel.Ob.Names
import NtxKernel.Ps.RunQueue
import NtxKernel.Ps.Scheduler
import NtxKernel.Ps.Cpu
import NtxKernel.Ps.Executing
import NtxKernel.Nk.Port
import NtxKernel.Lpc.Ports
import NtxKernel.Lpc.Waiters
import NtxKernel.Foundations.Bits
import NtxKernel.Foundations.Cyclic
import NtxKernel.Mm.BootReserve
import NtxKernel.Hal.Phase0
import NtxKernel.Boot.Handoff
import NtxKernel.Boot.Loader
import NtxKernel.Foundations.Radix
import NtxKernel.Ke.Syscall
import NtxKernel.Lpc.Delivery
import NtxKernel.Mm.Layout
import NtxKernel.Mm.Mappings
import NtxKernel.Mm.Plan
import NtxKernel.Mm.Views
import NtxKernel.Ps.Integrity
import NtxKernel.Boot.Image
import NtxKernel.Kpe.TwoLoaders
import NtxKernel.Mm.Footprint
import NtxKernel.Mm.Isolation
import NtxKernel.Mm.Ownership
import NtxKernel.Kpe.Relocation
import NtxKernel.Tools.PackedImage
import NtxKernel.Mm.Freeing
import NtxKernel.Mm.FaultTrace
import NtxKernel.Ke.Messages
import NtxKernel.Mm.Disturbance
import NtxKernel.Mm.Lazy
import NtxKernel.Io.Files
import NtxKernel.Io.Reading
import NtxKernel.Io.Spawn
import NtxKernel.Ke.CallerMemory
import NtxKernel.Ke.Unambiguous
import NtxKernel.Ps.Slots
import NtxKernel.Ps.UserThread
import NtxKernel.Mm.NextFit
import NtxKernel.Mm.Demand
import NtxKernel.Mm.LazyWired
import NtxKernel.Mm.Atomic
import NtxKernel.Mm.Rights
import NtxKernel.Ps.RoundRobin
import NtxKernel.Mm.SectionSize
import NtxKernel.Mm.SectionWrites
import NtxKernel.Mm.Physmap
import NtxKernel.Mm.PageMap
import NtxKernel.Io.FileSpawn
import NtxKernel.Ke.SlotPools
import NtxKernel.Ke.PingPong
import NtxKernel.User.Init
import NtxKernel.User.DumpVa
import NtxKernel.Arch.Context
import NtxKernel.Hal.Interrupts
