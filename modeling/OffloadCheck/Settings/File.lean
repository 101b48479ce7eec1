import OffloadCheck.Settings.Document
import OffloadCheck.Storage.Disk
import OffloadCheck.Text.Utf8

/-!
The settings file on disk. A missing file stands for the defaults, a file that cannot be read or
accepted is an error, and the commented defaults are written only where nothing is.
-/
namespace OffloadCheck.Settings

def readText (p : Path) (d : Disk) : Except IoFailure String := do
  match Text.decode? (← d.contents p) with
  | some s => .ok s
  | none => .error .notText

def load (p : Path) (d : Disk) : Except Failure Settings :=
  match readText p d with
  | .error f =>
    .error (.configuration ("Failed to read config file '" ++ p.text ++ "': " ++ f.message))
  | .ok text => parse text

/-- The settings in a file, or the defaults when there is none. -/
def loadOrDefault (p : Path) (d : Disk) : Except Failure Settings :=
  if d.isPresent p then load p d else .ok default

def writeText (p : Path) (text : String) : Action Disk Failure Unit :=
  (Disk.putFile p (Text.encode text)).mapError fun f => .storage (.io f)

/-- Writes the commented defaults unless something is there. -/
def writeDefaultIfMissing (p : Path) : Action Disk Failure Unit := do
  if (← Action.world).isPresent p then pure () else writeText p defaultText

def save (s : Settings) (p : Path) : Action Disk Failure Unit :=
  match s.render? with
  | none => Action.fail (.configuration "Failed to serialize config")
  | some text => writeText p text

end OffloadCheck.Settings
