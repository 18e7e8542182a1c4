import AbiLayout.Files.Disk
import AbiLayout.Settings.Reading
import AbiLayout.Yaml.Reader

/-!
# Loading settings

From the text of a configuration, or from a file that holds one, to settings.
-/

namespace AbiLayout

open Document (Fault)
open Files (Disk FileError)

/-- Why no settings can be loaded. -/
inductive SettingsError where
  | unreadable (path : String) (cause : FileError)
  | invalid (fault : Fault)
deriving DecidableEq, Repr

def SettingsError.message : SettingsError → String
  | unreadable path cause => "failed to read config " ++ path ++ ": " ++ cause.message
  | invalid fault => "invalid generator config: " ++ fault.message

/-- The failure and what lies behind it, the outermost first. -/
def SettingsError.causes : SettingsError → List String
  | unreadable path cause => [(unreadable path cause).message, cause.message]
  | invalid fault => [(invalid fault).message, fault.message]

def Settings.ofText (text : String) : Except SettingsError Settings :=
  (Settings.ofDocument Yaml.format (Yaml.readDocument text)).mapError .invalid

def Settings.load (disk : Disk) (path : String) : Except SettingsError Settings := do
  Settings.ofText (← (disk.readText path).mapError (.unreadable path))

end AbiLayout
