import Timeshare.Capacity
import Timeshare.Clock
import Timeshare.Console
import Timeshare.Display
import Timeshare.Fault
import Timeshare.Journal.Event
import Timeshare.Journal.Level
import Timeshare.Kernel.Basic
import Timeshare.Kernel.Call
import Timeshare.Kernel.Drive
import Timeshare.Kernel.Lifecycle
import Timeshare.Kernel.Operator
import Timeshare.Kernel.Panel
import Timeshare.Kernel.Service
import Timeshare.Kernel.Trap
import Timeshare.Machine.Descriptor
import Timeshare.Machine.InterruptController
import Timeshare.Machine.IntervalTimer
import Timeshare.Machine.Keyboard
import Timeshare.Machine.Memory
import Timeshare.Machine.Pc
import Timeshare.Machine.Ports
import Timeshare.Machine.Screen
import Timeshare.Machine.SerialPort
import Timeshare.Machine.Simulated
import Timeshare.Machine.Transcript
import Timeshare.Mailbox
import Timeshare.Message
import Timeshare.Mutex
import Timeshare.Platform
import Timeshare.Process.Basic
import Timeshare.Process.Frame
import Timeshare.Process.Name
import Timeshare.Process.Pid
import Timeshare.Process.Register
import Timeshare.Process.Table
import Timeshare.Refusal
import Timeshare.Ring
import Timeshare.Run
import Timeshare.Scheduler
import Timeshare.Tasks
import Timeshare.Text.Blank
import Timeshare.Text.Hex
import Timeshare.Text.Layout
import Timeshare.Text.LittleEndian
import Timeshare.Text.Quoted
import Timeshare.Text.Shapeless
import Timeshare.Text.Utf8
import Timeshare.User.Calls
import Timeshare.User.Gate
import Timeshare.User.Hosted
import Timeshare.User.Interruption
import Timeshare.User.Message
import Timeshare.User.Programs
import Timeshare.User.Scripted
import Timeshare.User.WordRecord
import Timeshare.Word
import Timeshare.Proofs.Ring
import Timeshare.Proofs.Message
import Timeshare.Proofs.Ring.Registers
import Timeshare.Proofs.Scheduler.Queue
import Timeshare.Proofs.Scheduler.Removal
import Timeshare.Proofs.Process.Table
import Timeshare.Proofs.Tasks.Rewrite
import Timeshare.Proofs.Tasks.Pass
import Timeshare.Proofs.Tasks.Sound
import Timeshare.Proofs.Mutex
import Timeshare.Proofs.Mailbox
import Timeshare.Proofs.Kernel.Leads
import Timeshare.Proofs.Kernel.Served
import Timeshare.Proofs.Kernel.Trapped
import Timeshare.Proofs.Kernel.Booted
import Timeshare.Proofs.Kernel.Coherent
import Timeshare.Proofs.Kernel.Phases
import Timeshare.Proofs.Kernel.History
import Timeshare.Proofs.Kernel.Replay
import Timeshare.Proofs.Kernel.Whereabouts
import Timeshare.Proofs.Tasks.Evolves
import Timeshare.Proofs.Tasks.Order
import Timeshare.Proofs.Kernel.Evolution
import Timeshare.Proofs.Tickets
import Timeshare.Proofs.Kernel.Exclusion
import Timeshare.Proofs.Tasks.Faultless
import Timeshare.Proofs.Kernel.Faultless
import Timeshare.Proofs.Machine.Simulated
import Timeshare.Proofs.Kernel.Kept
import Timeshare.Proofs.Kernel.Ready
import Timeshare.Proofs.Kernel.Orderly
import Timeshare.Proofs.Machine.Memory
import Timeshare.Proofs.Kernel.Transfer
import Timeshare.Proofs.Dealings
import Timeshare.Proofs.TicketPool
import Timeshare.Proofs.Traffic
import Timeshare.Proofs.Kernel.Course
import Timeshare.Proofs.Kernel.Stages
import Timeshare.Proofs.Kernel.Keeps
import Timeshare.Proofs.Kernel.Undone
import Timeshare.Proofs.Stepwise.Basic
import Timeshare.Proofs.Stepwise.Tasks
import Timeshare.Proofs.Stepwise.Mutex
import Timeshare.Proofs.Stepwise.Mailbox
import Timeshare.Proofs.Stepwise.Service
import Timeshare.Proofs.Kernel.Creations
import Timeshare.Proofs.Kernel.Resumes
import Timeshare.Proofs.Kernel.Others
import Timeshare.Proofs.Kernel.Waits
import Timeshare.Proofs.Kernel.Woken
import Timeshare.Proofs.Kernel.Dangling
import Timeshare.Proofs.Kernel.Exchange
import Timeshare.Proofs.Kernel.Ledger
import Timeshare.Proofs.Kernel.Delivery
import Timeshare.Proofs.Kernel.Turns
import Timeshare.Proofs.Kernel.Deadlines
import Timeshare.Proofs.Kernel.Contexts
import Timeshare.Proofs.Tasks.Accounts
import Timeshare.Proofs.Tasks.Places
import Timeshare.Proofs.Stepwise.Dealings
import Timeshare.Proofs.Tasks.Prescribed
import Timeshare.Proofs.Kernel.CpuTime
import Timeshare.Proofs.Kernel.Idle
import Timeshare.Proofs.Kernel.Slices
import Timeshare.Proofs.Kernel.Silent
import Timeshare.Proofs.Kernel.Asked
import Timeshare.Proofs.Machine.Written
import Timeshare.Proofs.Kernel.Confined
import Timeshare.Proofs.Text.Utf8
import Timeshare.Proofs.Tasks.Names
import Timeshare.Proofs.Kernel.Texts
import Timeshare.Proofs.Kernel.Lasting
import Timeshare.Proofs.Kernel.Names
import Timeshare.Proofs.User.WordRecord
import Timeshare.Proofs.Machine.Screen
import Timeshare.Proofs.Machine.Ports
import Timeshare.Proofs.Machine.Lines
import Timeshare.Proofs.Kernel.Panel
import Timeshare.Proofs.User.Sending
import Timeshare.Proofs.User.LockRounds
