import Rtes.RateMonotonic.Demand
import Rtes.RateMonotonic.ResponseTime
import Rtes.RateMonotonic.LiuLayland
import Rtes.RateMonotonic.Hybrid
import Rtes.RateMonotonic.Speed
import Rtes.RateMonotonic.Schedule
import Rtes.Slots.Shift
import Rtes.Slots.Exchange
import Rtes.Slots.Ring
import Rtes.Transition.Reach
import Rtes.Transition.History
import Rtes.Transition.Simulation
import Rtes.Word.Wrap
import Rtes.Word.Binary32
import Rtes.Text.Decimal
import Rtes.Text.Scan
import Rtes.Text.Fields
import Rtes.Choice.First
import Rtes.Tokens.Custody
import Rtes.Reservation.Core
import Rtes.Reservation.TryBind
import Rtes.Reservation.Placement
import Rtes.Sysclock.Core
import Rtes.Reservation.Syscall
import Rtes.Reservation.Timer
import Rtes.Reservation.Test
import Rtes.Reservation.Binding
import Rtes.Reservation.Admission
import Rtes.Reservation.Policy
import Rtes.Reservation.Overflow
import Rtes.Reservation.Table
import Rtes.Reservation.Frame
import Rtes.Reservation.Invariant
import Rtes.Reservation.Runs
import Rtes.Reservation.Deadlines
import Rtes.Reservation.Effect
import Rtes.Reservation.Hotplug
import Rtes.Reservation.Gating
import Rtes.Reservation.Own
import Rtes.Reservation.Timing
import Rtes.Reservation.Wakeup
import Rtes.Reservation.Handshake
import Rtes.Reservation.Sections
import Rtes.Reservation.Interleaving
import Rtes.Reservation.Atomicity
import Rtes.Reservation.Budget
import Rtes.Reservation.Slack
import Rtes.Reservation.Conversion
import Rtes.Reservation.Ring
import Rtes.Reservation.Monitor
import Rtes.Reservation.Print
import Rtes.Reservation.Page
import Rtes.Reservation.Lifecycle
import Rtes.Reservation.Exit
import Rtes.Reservation.Accounting
import Rtes.Reservation.Energy
import Rtes.Reservation.Ownership
import Rtes.Taskmon.Core
import Rtes.Taskmon.Ledger
import Rtes.Taskmon.Totals
import Rtes.Taskmon.Clock
import Rtes.Taskmon.Report
import Rtes.Taskmon.Reserves
import Rtes.Taskmon.Writes
import Rtes.Taskmon.Rows
import Rtes.Sysclock.Search
import Rtes.Sysclock.Frequency
import Rtes.Sysclock.Margin
import Rtes.Sysclock.Overflow
import Rtes.Sysclock.Workload
import Rtes.Reservation.Undo
import Rtes.Sysclock.Capacity
import Rtes.Sysclock.Governor
import Rtes.Apps.Request
import Rtes.Apps.Energymon
import Rtes.Calc.Core
import Rtes.Calc.Normalize
import Rtes.Calc.Align
import Rtes.Calc.Product
import Rtes.Calc.Quotient
import Rtes.Calc.Termination
import Rtes.Calc.Symmetry
import Rtes.Calc.Rounding
import Rtes.Calc.Sum
import Rtes.Calc.Flagged
import Rtes.Calc.FlaggedSum
import Rtes.Calc.ErrorCode
import Rtes.Psdev.Core
import Rtes.Psdev.Pieces
import Rtes.Psdev.Monitor
import Rtes.Psdev.Threads
import Rtes.Cleanup.Core
