import LspClient.Child.Script
import LspClient.Client.Basic

/-! A child process with framed messages on its two streams. The child echoes what it is sent, or runs a
script that prints and exits. -/
namespace LspClient
open Utf8 (Octets)

inductive Ending where
  | code (n : Nat)
  | killed
  deriving DecidableEq, Repr

structure Child where
  inputOpen : Bool
  echoes : Bool
  codeAtEnd : Nat
  ending : Option Ending
  waiting : List String
  outstanding : Nat
  deriving DecidableEq, Repr

namespace Child

def ofEffect (e : Script.Effect) : Child where
  inputOpen := true
  echoes := e.echoes
  codeAtEnd := e.code
  ending := if e.echoes then none else some (.code e.code)
  waiting := (Frame.bodies e.printed).1
  outstanding := 0

def ofProgram (label : String) (arguments : List String) : Child :=
  ofEffect (match label, arguments with
    | "sh", "-c" :: text :: _ => Script.effect text
    | "true", _ | "false", _ => Script.effect label
    | _, _ => Script.effect "cat")

def spawn (m : Machine) (command : String) (arguments : List String) (directory : Option String) :
    Except Failure Child :=
  match m.launch command arguments directory with
  | .ok label => .ok (ofProgram label arguments)
  | .error cause => .error (.spawn command cause)

def send (m : Message) (p : Child) : Child × Option Failure :=
  if !p.inputOpen then (p, some .transportClosed)
  else if p.ending.isSome then (p, some (.io .brokenPipe))
  else ({p with waiting := p.waiting ++ [m.body], outstanding := p.outstanding + 1}, none)

def closeInput (p : Child) : Child :=
  {p with inputOpen := false, ending := p.ending.or (some (.code p.codeAtEnd))}

def wait (p : Child) : Child × Ending :=
  let p := p.closeInput
  (p, p.ending.getD (.code p.codeAtEnd))

def kill (p : Child) : Child := {p with inputOpen := false, ending := p.ending.or (some .killed)}

def isRunning (p : Child) : Bool := p.ending.isNone

def mayBlock (p : Child) : Bool := p.outstanding == 0 && p.inputOpen

def receive (p : Child) : Child × Option String :=
  match p.waiting with
  | [] => (p, none)
  | body :: rest => ({p with waiting := rest, outstanding := p.outstanding - 1}, some body)

end Child
end LspClient
