import LspClient.Cli.Check

/-! The command line on real files. The stand-in server answers in place of an installed one, in the same
process, so that the command can be tried on any machine. -/
open LspClient

def readOctets (name : String) : IO (Except Refusal Utf8.Octets) := do
  try
    let content ← IO.FS.readBinFile name
    return .ok content.toList
  catch
    | .noFileOrDirectory .. => return .error .noSuchFile
    | .permissionDenied .. => return .error .permissionDenied
    | .inappropriateType .. => return .error .isDirectory
    | _ => return .error .noSuchFile

def entriesOf (current : List String) (name : String) (content : Except Refusal Utf8.Octets) :
    List (List String × Entry) :=
  let place := (Machine.segments name).filter fun s => s ≠ "" ∧ s ≠ "."
  let place := if Machine.isAbsolute name then place else current ++ place
  let directories := (List.range place.length).map fun n => (place.take n, Entry.directory)
  match content with
  | .ok octets => (place, .data octets) :: directories
  | .error .isDirectory => (place, .directory) :: directories
  | .error _ => []

def settingsPath : IO String := do
  match ← IO.getEnv "XDG_CONFIG_HOME", ← IO.getEnv "HOME" with
  | some directory, _ => return directory ++ "/lustre-client/settings.json"
  | none, some home => return home ++ "/.config/lustre-client/settings.json"
  | none, none => return "./lustre-client/settings.json"

def installedAt (current : List String) (a : Cli.Arguments) : IO (List (List String × Entry)) := do
  let platform := Platform.ofName (a.platform.getD "linux")
  let root := a.extensionPath.getD (toString (← IO.appDir))
  let program := Utf8.toStringLossy (platform.serverPath (Utf8.ofString root))
  let content ← if a.extensionPath.isNone then pure (.ok []) else readOctets program
  return (entriesOf current program content).map fun e =>
    (e.1, if e.2 = .directory then e.2 else .program "stand-in")

def main (words : List String) : IO UInt32 := do
  let current := (Machine.segments (toString (← IO.currentDir))).filter (· ≠ "")
  let arguments := (Cli.Arguments.parse? words).getD .empty
  let mut entries ← installedAt current arguments
  for name in arguments.files do
    entries := entries ++ entriesOf current name (← readOctets name)
  let path ← settingsPath
  let printed := Cli.run
    { machine := ⟨entries, current⟩
      settingsPath := path
      settingsFile := ← readOctets path
      programDirectory := toString (← IO.appDir)
      platform := "linux"
      peer := .standIn (.fresh false) } words
  for line in printed.output do
    IO.println line
  for line in printed.errors do
    IO.eprintln line
  return printed.exitCode.toUInt32
