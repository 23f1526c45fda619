import Klyx.Lib.RingBuffer
import Klyx.Lib.HaltingRun
import Klyx.Lib.GhostHistory
import Klyx.Lib.CyclicScan
import Klyx.Kernel.Machine
import Klyx.Kernel.SignalQueue
import Klyx.Kernel.GiveUp
import Klyx.Kernel.UserMemory
import Klyx.Kernel.ContextSwitch
import Klyx.Kernel.KillSyscall
import Klyx.Kernel.FaultTrap
import Klyx.Kernel.Privilege
import Klyx.Kernel.RoundRobin
import Klyx.Kernel.KilledTask
import Klyx.Kernel.SignalLatency
import Klyx.Kernel.Supervision
import Klyx.Kernel.Login
import Klyx.Lib.ForwardCopy
import Klyx.Lib.ScrollingPage
import Klyx.Kernel.KeyboardInput
import Klyx.Kernel.ConsoleBounds
import Klyx.Kernel.ConsoleDisplay
import Klyx.Kernel.ConsolePage
import Klyx.Kernel.Clock
import Klyx.Kernel.InterruptFrame
import Klyx.Kernel.AsyncSyscall
import Klyx.Kernel.InterruptReturn
import Klyx.Kernel.Mutex
import Klyx.Kernel.Descriptors
import Klyx.Kernel.Emulator
import Klyx.Kernel.ConsoleMirror
import Klyx.Kernel.ConsoleControls
import Klyx.Kernel.ConsoleGlyphs
import Klyx.Kernel.LineEcho
import Klyx.Kernel.EndOfInput
import Klyx.Kernel.FaultFrame
import Klyx.Kernel.OperandForms
import Klyx.Kernel.DescriptorCoding
import Klyx.Kernel.EncCommand
import Klyx.Kernel.Debugger
import Klyx.Kernel.OverlappingCopy
import Klyx.Kernel.PrintfBuffer
import Klyx.Kernel.PrintfConsole
import Klyx.Kernel.PrintfField
import Klyx.Kernel.PrintfReport
import Klyx.Kernel.BoundedWaiting
import Klyx.Kernel.EmulatedProgram
import Klyx.Kernel.ShellCredentials
import Klyx.Lib.InterruptController
import Klyx.Kernel.Interrupts
import Klyx.Kernel.JobControl
import Klyx.Kernel.Restart
import Klyx.Kernel.ProcessStates
