import Sski.Lib.Runs
import Sski.Lib.Latest
import Sski.Mem.KernelController
import Sski.Mem.Tables
import Sski.Mem.Frames
import Sski.Mem.Resident
import Sski.Mem.SwapFile
import Sski.Mem.SwapRoom
import Sski.Mem.Faults
import Sski.Mem.Bits
import Sski.Mem.Locality
import Sski.Mem.Validation
import Sski.Mem.Termination
import Sski.Mem.SecondChance
import Sski.Mem.Sparing
import Sski.Mem.PageFault
import Sski.Mem.Hands
import Sski.Mem.RoundTrip
import Sski.Mem.Retrieval
import Sski.Mem.Suspension
import Sski.Mem.Exhaustion
import Sski.Mem.Eviction
import Sski.Cpu.Interpreter
import Sski.Cpu.Termination
import Sski.Cpu.Mmu
import Sski.Cpu.Interruptions
import Sski.Cpu.Lru
import Sski.Cpu.Fifo
import Sski.Cpu.Stay
import Sski.System.World
import Sski.System.Coherence
import Sski.System.Isolation
import Sski.System.Transparency
import Sski.System.Addressing
import Sski.System.Connection
import Sski.System.Residency
import Sski.Scheduling.Threads
import Sski.Scheduling.Tokens
import Sski.Scheduling.OnePlace
import Sski.Scheduling.Multiprogramming
import Sski.Scheduling.IoRequests
import Sski.Scheduling.Episodes
import Sski.Scheduling.SevenStates
import Sski.Scheduling.Policy
import Sski.Scheduling.Estimates
import Sski.Scheduling.Dispatch
import Sski.Scheduling.Sessions
import Sski.Scheduling.Pids
import Sski.System.Preemption
import Sski.Wire.Packages
import Sski.Wire.Truncation
import Sski.Wire.Decoding
import Sski.Console.OnRun
