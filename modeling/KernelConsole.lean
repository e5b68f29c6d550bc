import KernelConsole.Console.Command
import KernelConsole.Kernel.World
import KernelConsole.Machine.Bench
import KernelConsole.Machine.Snapshot
import KernelConsole.Machine.Watchdog
import KernelConsole.Proofs.Queue
import KernelConsole.Proofs.BoundedQueue
import KernelConsole.Proofs.Drivers
import KernelConsole.Proofs.Returns
import KernelConsole.Proofs.TwoRuns
import KernelConsole.Proofs.Traces
import KernelConsole.Proofs.Waiting
import KernelConsole.Proofs.Settings
import KernelConsole.Proofs.Keyboard.History
import KernelConsole.Proofs.Screen.Tape
import KernelConsole.Proofs.Screen.Line
import KernelConsole.Proofs.Screen.Refinement
import KernelConsole.Proofs.Screen.Cursor
import KernelConsole.Proofs.Console.Steps
import KernelConsole.Proofs.Console.Arrivals
import KernelConsole.Proofs.Console.InputStream
import KernelConsole.Proofs.Console.Transmission
import KernelConsole.Proofs.Console.Using
import KernelConsole.Proofs.Console.Showing
import KernelConsole.Proofs.Console.FanOut
import KernelConsole.Proofs.Console.Draining
import KernelConsole.Proofs.Console.Startup
import KernelConsole.Proofs.Console.Halves
import KernelConsole.Proofs.Console.Editing
import KernelConsole.Proofs.Kernel.Journal
import KernelConsole.Proofs.Kernel.Ledger
import KernelConsole.Proofs.Kernel.Shapes
import KernelConsole.Proofs.Kernel.Nesting
import KernelConsole.Proofs.Kernel.Holding
import KernelConsole.Proofs.Kernel.Units
import KernelConsole.Proofs.Kernel.Accounts
import KernelConsole.Proofs.Kernel.LogCalls
import KernelConsole.Proofs.Kernel.Turns
import KernelConsole.Proofs.Kernel.WrittenOut
import KernelConsole.Proofs.Kernel.Accepted
import KernelConsole.Proofs.Kernel.Deliveries
import KernelConsole.Proofs.Kernel.Sequential
import KernelConsole.Proofs.Kernel.Undisturbed
import KernelConsole.Proofs.Kernel.Tallies
import KernelConsole.Proofs.Kernel.Interrupts
import KernelConsole.Proofs.Kernel.Refusals
import KernelConsole.Proofs.Keyboard.Reset
import KernelConsole.Proofs.Keyboard.Locks
import KernelConsole.Proofs.Uart.Programming
import KernelConsole.Proofs.Uart.Divisor
import KernelConsole.Proofs.Console.Termination
import KernelConsole.Proofs.Console.TypedLine
import KernelConsole.Proofs.Halting
import KernelConsole.Proofs.Kernel.Deadlock
import KernelConsole.Proofs.Console.Driving
import KernelConsole.Proofs.Kernel.SingleConsole
import KernelConsole.Proofs.Deferring
import KernelConsole.Proofs.Bench
import KernelConsole.Proofs.Console.Intake
import KernelConsole.Proofs.Screen.Adoption
import KernelConsole.Proofs.Screen.Text
import KernelConsole.Proofs.Console.Printed
import KernelConsole.Proofs.Console.Portless
import KernelConsole.Proofs.Console.Boot
