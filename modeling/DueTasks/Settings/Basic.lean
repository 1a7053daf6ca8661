import DueTasks.Files.Path
import DueTasks.Helper.Duration

/-! What can be configured: the jail, the directory of the helper programs, and how long a helper
may run.
-/

namespace DueTasks

structure Settings where
  /-- The root of the jail, if it is not the directory of the tasks. -/
  jailRoot : Option Path := none
  /-- The directory of the helpers, if it is not `.bin` in the root of the jail. -/
  helpers : Option Path := none
  /-- How many seconds a helper may run. -/
  timeoutSeconds : UInt64 := 10
deriving DecidableEq, Inhabited

namespace Settings

variable (settings : Settings)

/-- How long a helper may run. -/
def timeout : Duration :=
  .ofSeconds settings.timeoutSeconds.toNat

/-- The root of the jail for the tasks of a directory. -/
def jailRootFor (tasks : Path) : Path :=
  settings.jailRoot.getD tasks

/-- The directory of the helpers for a jail. -/
def helpersFor (jailRoot : Path) : Path :=
  settings.helpers.getD (jailRoot.join ".bin")

end Settings

/-- What a command line says about settings: a file to read them from, and values that come before
those of the file.
-/
structure SettingsChoice where
  file : Option Path := none
  jailRoot : Option Path := none
  helpers : Option Path := none
  timeoutSeconds : Option UInt64 := none
deriving DecidableEq, Inhabited

/-- The settings with the chosen values in the place of others. -/
def SettingsChoice.override (choice : SettingsChoice) (settings : Settings) : Settings where
  jailRoot := choice.jailRoot <|> settings.jailRoot
  helpers := choice.helpers <|> settings.helpers
  timeoutSeconds := choice.timeoutSeconds.getD settings.timeoutSeconds

end DueTasks
