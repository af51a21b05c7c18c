import Rtes.Reservation.Page
import Rtes.Reservation.Runs
import Rtes.Text.Fields

/-!
# The file of reservations

The file `reserves` has a line for each process with a reservation.  The processes are
found by walking the list of processes, while reservations are admitted by the lists of
the CPUs.
-/

namespace Rtes.Taskmon

open Rtes.Reservation Rtes.Text Rtes.Transition

variable (identity : Tid → Identity) (s : Kernel)

variable {identity s}

end Rtes.Taskmon
