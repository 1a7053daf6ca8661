import DueTasks.Proofs.Evaluation.HelperDates
import DueTasks.Proofs.Files.Directories
import DueTasks.Proofs.Files.HelperPaths
import DueTasks.Proofs.Files.ListedTasks
import DueTasks.Proofs.Helper.Deadlines
import DueTasks.Proofs.Program.Registries
import DueTasks.Proofs.Registry.Worlds
import DueTasks.Proofs.Report.PlainLines

/-! Timeouts that crash the program.
How long a helper may run is not limited by what the clock of the machine can tell. A request crashes
exactly if a helper starts on its way that would have to end after the last second of the clock, and
then nothing is reported at all.
-/

namespace DueTasks

open Asking

namespace Request

variable {request : Request} {machine : Machine} {today : Date} {settings : Settings} {jail : Jail}
  {r : Registry Machine}

-----------------------------------------------------------------------------------------
-- The machine behind a batch
-----------------------------------------------------------------------------------------

end Request

-----------------------------------------------------------------------------------------
-- Tasks of a date and of a helper
-----------------------------------------------------------------------------------------

namespace Registry

variable {σ : Type} {r : Registry σ} {index : Fin r.size} {t : Trigger} {token : Span}
  {suffix : Suffix} {session : Session σ}

end Registry

-----------------------------------------------------------------------------------------
-- The longest timeout
-----------------------------------------------------------------------------------------

namespace Request

/-- A request with the longest timeout that can be chosen. -/
def longest : Request where
  directory := ⟨"/"⟩
  settings := { timeoutSeconds := some 18446744073709551615 }

section

open Trigger Text Parsed Reply

end

end Request

end DueTasks
