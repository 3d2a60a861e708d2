import LspClient.Cli.Arguments
import LspClient.Extension.Context
import LspClient.Extension.Settings
import LspClient.Peer.Dialogue

/-! The command: activates a client the way an editor would, opens the given files, prints the diagnostics
that the server reports for them, and stops the client again. -/
namespace LspClient.Cli
open Utf8 (Octets)

structure Surroundings where
  machine : Machine
  settingsPath : String
  settingsFile : Except Refusal Octets
  programDirectory : String
  platform : String
  peer : Peer

abbrev Causes := List String

def indented (first rest : String) (text : String) : String :=
  match text.splitOn "\n" with
  | [] => first
  | line :: lines => "\n".intercalate ((first ++ line) :: lines.map (rest ++ ·))

def showCauses : Causes → String
  | [] => ""
  | [error] => error
  | [error, cause] => error ++ "\n\nCaused by:\n" ++ indented "    " "    " cause
  | error :: causes =>
    let numbered := causes.zipIdx.map fun (cause, i) =>
      let number := toString i
      let gap := String.ofList (List.replicate (5 - number.length) ' ')
      indented (gap ++ number ++ ": ") "       " cause
    error ++ "\n\nCaused by:\n" ++ "\n".intercalate numbered

def failureCauses (f : Failure) : Causes :=
  match f with
  | .spawn _ cause | .io cause => [f.message, cause.message]
  | _ => [f.message]

def settingsCauses (path : String) (u : Settings.Unusable) : Causes :=
  match u with
  | .unreadable cause => [u.context path, cause.message]
  | .malformed (.data cause) => [u.context path, cause]
  | .malformed _ => [u.context path]

structure Printed where
  exitCode : Nat
  output : List String
  errors : List String
  deriving DecidableEq, Repr

def diagnosticLine (file : String) (d : Diagnostic) : String :=
  let severity := (d.severity.map Severity.label).getD "diagnostic"
  file ++ ":" ++ toString (d.range.start.line.toNat + 1) ++ ":" ++
    toString (d.range.start.character.toNat + 1) ++ ": " ++ severity ++ ": " ++ d.message

def diagnosticLines (file : String) (ds : List Diagnostic) : List String :=
  if ds.isEmpty then [file ++ ": no diagnostics"] else ds.map (diagnosticLine file)

def featuresLine (name : String) (c : Capabilities) : String :=
  if c.features.isEmpty then name ++ ": no optional features announced"
  else name ++ ": " ++ ", ".intercalate c.features

abbrev Opened := String × String

def readText (m : Machine) (file : String) : Except Refusal String := do
  match Utf8.decode (← m.readFile file) with
  | .ok cs => .ok (String.ofList cs)
  | .error _ => .error .notText

def openFiles (m : Machine) (d : Dialogue) (opened : List Opened) :
    List String → Dialogue × Except Causes (List Opened)
  | [] => (d, .ok opened)
  | file :: rest =>
    match readText m file with
    | .error cause => (d, .error ["reading " ++ file, cause.message])
    | .ok text =>
      let path := Utf8.ofString (m.canonical file)
      match TextDocument.ofPath? path text with
      | none => openFiles m d opened rest
      | some document =>
        match d.act (.host (.didOpen document)) with
        | (d, .flag true) => openFiles m d (opened ++ [(file, document.uri)]) rest
        | (d, .failed f) => (d, .error (failureCauses f))
        | (d, _) => openFiles m d opened rest

def pullOne (d : Dialogue) (name uri : String) : Dialogue × Except Causes (List Diagnostic) :=
  let d := d.step (.host (.pull name uri))
  match d.outcome? (.pull name) with
  | some (.items list) => (d, .ok list)
  | some (.failed f) => (d, .error (failureCauses f))
  | _ => (d, .error ["connection closed while pulling diagnostics"])

def report (pulls : Bool) (d : Dialogue) (lines : List String) :
    List Opened → Dialogue × List String × Option Causes
  | [] => (d, lines, none)
  | (file, uri) :: rest =>
    if pulls then
      match pullOne d (toString rest.length) uri with
      | (d, .ok list) => report pulls d (lines ++ diagnosticLines file list) rest
      | (d, .error causes) => (d, lines, some causes)
    else report pulls d (lines ++ diagnosticLines file (d.client.diagnostics uri)) rest

def work (m : Machine) (files : List String) (d : Dialogue) :
    Dialogue × List String × List String × Option Causes :=
  match openFiles m d [] files with
  | (d, .error causes) => (d, [], [], some causes)
  | (d, .ok opened) =>
    let capabilities := d.client.capabilities
    let (d, lines, causes) := report capabilities.diagnosticProvider d [] opened
    (d, lines, [featuresLine d.client.config.name capabilities], causes)

def startContext : String := "starting the Lustre language server"

def started (d : Dialogue) : Except Causes Unit :=
  match d.outcome? .start with
  | some .done => .ok ()
  | some (.failed f) => .error (startContext :: failureCauses f)
  | _ => .error [startContext, "language client start was abandoned"]

def printError (causes : Causes) : String := "Error: " ++ showCauses causes

def converse (s : Surroundings) (context : Context) (files : List String) :
    Dialogue × List String × List String × Option Causes :=
  let config := context.config
  let e := config.executable
  let refused := s.machine.refused e.command e.arguments config.workspace
  let d := (Dialogue.begin (.new config 1) s.peer).step (.host (.start refused))
  let (d, output, errors, causes) := match started d with
    | .ok () => work s.machine files d
    | .error causes => (d, [], [], some causes)
  (d.step (.host .stop), output, errors, causes)

def runClient (s : Surroundings) (context : Context) (files : List String) : Printed :=
  let (d, output, errors, causes) := converse s context files
  let channel := d.client.lines.map fun line => "[" ++ context.config.channel ++ "] " ++ line
  ⟨if causes.isSome then 1 else 0, output, errors ++ channel ++ causes.toList.map printError⟩

def contextOf (s : Surroundings) (a : Arguments) (settings : Settings) : Context where
  root := Utf8.ofString (a.extensionPath.getD s.programDirectory)
  platform := .ofName (a.platform.getD s.platform)
  development := a.debug
  workspace := some (Machine.placeName s.machine.current)
  trace := a.trace.getD settings.trace

def run (s : Surroundings) (words : List String) : Printed :=
  match Arguments.parse? words with
  | none => ⟨2, [], []⟩
  | some a =>
    match Settings.load s.settingsFile with
    | .error u => ⟨1, [], [printError (settingsCauses s.settingsPath u)]⟩
    | .ok settings => runClient s (contextOf s a settings) a.files

end LspClient.Cli
