import LuaLint.Files.Disk
import LuaLint.Settings.Basic
import LuaLint.Toml.Reader

/-!
# The file of settings

Settings are in a file `moonlint.toml`. The search goes up from a directory: the first directory on the
way in which that name is a file has the settings, and no other file is looked at. Without one the
settings are the default ones.

A file that cannot be read or is no TOML document leaves the default settings too, with a warning. A
file whose bytes are not UTF-8 is an error of its own, which ends the run, and so is a value in it that the
interpreter refuses to read or to write.
-/

namespace LuaLint.Settings

/-- The name of the file. -/
def fileName : String := "moonlint.toml"

/-- Why no settings come of a file. -/
inductive LoadError
  /-- Its bytes are not UTF-8. -/
  | encoding (path : Path)
  /-- The interpreter refuses to read or to write a value in it. -/
  | refused (refusal : Toml.Refusal)
deriving Repr, DecidableEq

/-- The wording of the error. -/
def LoadError.message : LoadError → String
  | encoding path => s!"{path.text} is not encoded as UTF-8"
  | refused refusal => refusal.message

/-- The nearest file of settings on the way up from a directory. -/
def find? (d : Disk) (start : Path) : Option Path :=
  (start.upward.map (·.below [fileName])).find? d.isFile

section reading

variable (limits : Toml.Limits) (recorded : Bool)

/-- Reads settings from a file. -/
def readFrom (d : Disk) (path : Path) : Noted LoadError Settings :=
  match d.read path with
  | .error e => ⟨[.settingsUnreadable path.text (e.message path)], .ok {}⟩
  | .ok bytes => match Toml.read limits bytes with
    | .error .encoding => ⟨[], .error (.encoding path)⟩
    | .error (.stopped (.refusal refusal)) => ⟨[], .error (.refused refusal)⟩
    | .error (.stopped (.flaw flaw)) => ⟨[.settingsUnreadable path.text flaw.message], .ok {}⟩
    | .ok data =>
      let ⟨log, outcome⟩ := ofTable limits recorded data
      ⟨.settingsLoaded path.text :: log, outcome.mapError .refused⟩

/-- The settings that hold in a directory, and what is noted while they are read. -/
def load (d : Disk) (start : Path) : Noted LoadError Settings :=
  match find? d start with
  | none => ⟨[], .ok {}⟩
  | some path => readFrom limits recorded d path

end reading

end LuaLint.Settings
