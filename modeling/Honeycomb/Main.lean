import Honeycomb.CommandLine.Run

/-!
# The program

Connects the command line to the files, the settings and the streams of the system.
-/

set_option autoImplicit false

namespace Honeycomb

/-- Files of the system. -/
def systemFiles : FileAccess IO where
  read path := do
    try return some (← IO.FS.readFile path)
    catch _ => return none
  write path text := do
    try
      IO.FS.writeFile path text
      return true
    catch _ => return false

/-- The path of the settings file: in the directory of the user for settings. -/
def settingsPath : IO String := do
  let inside (directory : String) : String :=
    Path.join (Path.join directory CommandLine.programName) "settings.json"
  match (← IO.getEnv "XDG_CONFIG_HOME").filter (·.startsWith "/") with
  | some directory => return inside directory
  | none =>
    match (← IO.getEnv "HOME").filter (!·.isEmpty) with
    | some home => return inside (Path.join home ".config")
    | none => return "settings.json"

/-- A warning about settings that cannot be used. -/
def settingsNotices (path : String) (text : Option String) : List CommandLine.Notice :=
  match text.map Settings.read with
  | some (.error e) => [⟨.warning, "ignoring the settings in " ++ path ++ ": " ++ e.message⟩]
  | _ => []

end Honeycomb

open Honeycomb in
/-- Carries out the command line. -/
def main (words : List String) : IO UInt32 := do
  let path ← settingsPath
  let text ← systemFiles.read path
  let result ← CommandLine.execute systemFiles text words
  for notice in settingsNotices path text ++ result.notices do
    IO.eprint notice.shown
  IO.print result.printed
  return UInt32.ofNat result.code
