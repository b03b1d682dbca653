import ThreeSippEs.Bus.AxiLite
import ThreeSippEs.Bus.AxiMemory
import ThreeSippEs.Bus.AxiProtocol
import ThreeSippEs.Common.CounterWrites
import ThreeSippEs.Common.Csr
import ThreeSippEs.Common.Datapath
import ThreeSippEs.Common.Decode
import ThreeSippEs.Common.Formats
import ThreeSippEs.Common.Muldiv
import ThreeSippEs.Common.MuldivCorrect
import ThreeSippEs.Common.Pkg
import ThreeSippEs.Common.Pmp
import ThreeSippEs.Common.Rvc
import ThreeSippEs.Core.BitManip
import ThreeSippEs.Core.Clock
import ThreeSippEs.Core.Core
import ThreeSippEs.Core.Execute
import ThreeSippEs.Core.Fetch
import ThreeSippEs.Core.Hosted
import ThreeSippEs.Core.Rvfi
import ThreeSippEs.Core.System
import ThreeSippEs.Core.Writeback
import ThreeSippEs.Debug.Commands
import ThreeSippEs.Debug.DebugModule
import ThreeSippEs.Debug.Dtm
import ThreeSippEs.Debug.Engine
import ThreeSippEs.Debug.HaltResume
import ThreeSippEs.Debug.Hart
import ThreeSippEs.Debug.RegisterAccess
import ThreeSippEs.Debug.SingleStep
import ThreeSippEs.Debug.Transport
import ThreeSippEs.Fpga.ArtyA7
import ThreeSippEs.Fpga.Fpga
import ThreeSippEs.Fpga.Programs
import ThreeSippEs.Fpga.ResetSync
import ThreeSippEs.Golden.Agreement
import ThreeSippEs.Golden.BaseIsa
import ThreeSippEs.Golden.Cosim
import ThreeSippEs.Golden.Golden
import ThreeSippEs.Golden.Memory
import ThreeSippEs.Golden.Operands
import ThreeSippEs.Golden.Programs
import ThreeSippEs.Isa.Accepted
import ThreeSippEs.Isa.Backwards
import ThreeSippEs.Isa.Compressed
import ThreeSippEs.Isa.CompressedSteps
import ThreeSippEs.Isa.Control
import ThreeSippEs.Isa.Expander
import ThreeSippEs.Isa.Halfwords
import ThreeSippEs.Isa.Illegal
import ThreeSippEs.Lib.AlignedBlock
import ThreeSippEs.Lib.Clocked
import ThreeSippEs.Lib.LittleEndian
import ThreeSippEs.Lib.RingStack
import ThreeSippEs.Lib.Sessions
import ThreeSippEs.Lib.ShiftSubtract
import ThreeSippEs.Pipeline.Alignment
import ThreeSippEs.Pipeline.Backend
import ThreeSippEs.Pipeline.Built
import ThreeSippEs.Pipeline.Frontend
import ThreeSippEs.Pipeline.Hosted
import ThreeSippEs.Pipeline.Instret
import ThreeSippEs.Pipeline.Interrupted
import ThreeSippEs.Pipeline.Misaligned
import ThreeSippEs.Pipeline.MulDivHazard
import ThreeSippEs.Pipeline.Prediction
import ThreeSippEs.Pipeline.Programs
import ThreeSippEs.Pipeline.Quiet
import ThreeSippEs.Pipeline.Refinement
import ThreeSippEs.Pipeline.Reservation
import ThreeSippEs.Pipeline.Returns
import ThreeSippEs.Pipeline.RvfiTrace
import ThreeSippEs.Pipeline.Sequential
import ThreeSippEs.Pipeline.Simulation
import ThreeSippEs.Pipeline.XView
import ThreeSippEs.Security.DataIsolation
import ThreeSippEs.Security.DataPrivilege
import ThreeSippEs.Security.Episode
import ThreeSippEs.Security.FetchIsolation
import ThreeSippEs.Security.Lockdown
import ThreeSippEs.Security.LockedRules
import ThreeSippEs.Security.PmpConfig
import ThreeSippEs.Security.PmpReference
import ThreeSippEs.Security.PmpRules
import ThreeSippEs.Security.Privilege
import ThreeSippEs.Soc.BlockTransfer
import ThreeSippEs.Soc.ByteEnables
import ThreeSippEs.Soc.Chip
import ThreeSippEs.Soc.Clint
import ThreeSippEs.Soc.Programs
import ThreeSippEs.Soc.Ticks
import ThreeSippEs.Soc.WordMemory
import ThreeSippEs.Traps.Breakpoint
import ThreeSippEs.Traps.Cause
import ThreeSippEs.Traps.DebugTrigger
import ThreeSippEs.Traps.Delivery
import ThreeSippEs.Traps.EbreakDebug
import ThreeSippEs.Traps.Interrupt
import ThreeSippEs.Traps.Precise
import ThreeSippEs.Traps.Starvation
import ThreeSippEs.Traps.UserFrame
import ThreeSippEs.Uart.Loopback
import ThreeSippEs.Uart.Receive
import ThreeSippEs.Uart.Uart
