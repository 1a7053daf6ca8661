import DueTasks.Files.FileSystem
import DueTasks.Settings.Basic
import DueTasks.Text.Numeral
import DueTasks.Yaml.Document

/-! Settings in files.
A settings file is a YAML mapping with at most the keys `jail_root`, `bin_dir` and `timeout_secs`,
each at most once.
-/

namespace DueTasks

namespace Yaml.Scalar

/-- Whether a scalar has the tag of no value. -/
def isNullTagged (s : Scalar) : Bool :=
  s.tag == some "!null".toList || s.tag == some "<tag:yaml.org,2002:null>".toList

/-- Whether the text of a scalar is a spelling of no value. -/
def spellsNull (s : Scalar) : Bool :=
  ["~", "null", "Null", "NULL"].contains (String.ofList s.text)

/-- The path that a scalar holds, which may be none. Text under the tag of no value must spell no
value.
-/
def path? (s : Scalar) : Option (Option Path) :=
  let path : Path := ⟨String.ofList s.text⟩
  if !s.isPlain then some path
  else if s.isNullTagged then if s.spellsNull then some none else none
  else if s.tag.isSome then some path
  else if s.text.isEmpty || s.spellsNull then some none
  else some path

/-- The number that a text spells behind its sign. A `0` with a letter behind it tells the base. A
decimal number of several digits does not begin with zero.
-/
def unsigned? : List Char → Option Nat
  | '0' :: 'x' :: digits => Text.numeral? 16 digits
  | '0' :: 'o' :: digits => Text.numeral? 8 digits
  | '0' :: 'b' :: digits => Text.numeral? 2 digits
  | ['0'] => some 0
  | '0' :: _ => none
  | digits => Text.numeral? 10 digits

/-- The number that a plain scalar spells, with an optional plus sign, if it fits into a word. -/
def word? (s : Scalar) : Option UInt64 := do
  let number ← match s.text with
    | '+' :: rest => unsigned? rest
    | text => unsigned? text
  if s.isPlain && number < UInt64.size then some (.ofNat number) else none

end Yaml.Scalar

namespace Settings

/-- The settings with one entry of a file read into them. -/
def set? (settings : Settings) (entry : List Char × Yaml.Scalar) : Option Settings :=
  match String.ofList entry.1 with
  | "jail_root" => entry.2.path?.map fun path => { settings with jailRoot := path }
  | "bin_dir" => entry.2.path?.map fun path => { settings with helpers := path }
  | "timeout_secs" => entry.2.word?.map fun seconds => { settings with timeoutSeconds := seconds }
  | _ => none

/-- The settings that a text holds. A text of white space holds the defaults. -/
def ofText? (text : String) : Option Settings :=
  if Text.allBlank text.toList then some {}
  else do
    let mapping ← Yaml.Mapping.read? text
    if (mapping.map (·.1)).Nodup then mapping.foldlM set? {} else none

end Settings

/-- Why settings cannot be had from a file. -/
inductive SettingsError where
  | unreadable (path : Path) (cause : SystemError)
  | invalid (path : Path)
deriving DecidableEq

namespace SettingsError

def message : SettingsError → String
  | unreadable path _ => "failed to read config file " ++ path.text
  | invalid path => "invalid config file " ++ path.text

/-- What lies behind the error, in words. -/
def cause : SettingsError → String
  | unreadable _ cause => cause.message
  | invalid _ => "expected a mapping with the keys jail_root, bin_dir and timeout_secs"

end SettingsError

def Settings.load (fs : FileSystem) (path : Path) : Except SettingsError Settings := do
  let text ← (fs.text path).mapError (.unreadable path)
  match Settings.ofText? text with
  | some settings => .ok settings
  | none => .error (.invalid path)

/-- The settings that a choice leads to. -/
def SettingsChoice.settings (choice : SettingsChoice) (fs : FileSystem)
    : Except SettingsError Settings := do
  let settings ← match choice.file with
    | some path => Settings.load fs path
    | none => .ok {}
  return choice.override settings

end DueTasks
