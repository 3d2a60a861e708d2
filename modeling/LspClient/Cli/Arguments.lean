import LspClient.Trace
import LspClient.Decimal.Natural

/-! The command line: options with one value each, a switch, and file names. An option stands at most
once. A value may be attached by `=`, or directly after a short option; a separate value does not start
with a hyphen unless it is one. After `--` all is file names. -/
namespace LspClient.Cli

structure Arguments where
  extensionPath : Option String
  platform : Option String
  debug : Bool
  trace : Option Trace
  waitMs : Option Nat
  files : List String
  deriving DecidableEq, Repr, Inhabited

namespace Arguments

def empty : Arguments := ⟨none, none, false, none, none, []⟩

inductive Key where
  | extensionPath
  | platform
  | trace
  | waitMs
  deriving DecidableEq, Repr

def Key.ofLong? (name : String) : Option Key :=
  if name = "--extension-path" then some .extensionPath
  else if name = "--platform" then some .platform
  else if name = "--trace" then some .trace
  else if name = "--wait-ms" then some .waitMs
  else none

def set? (a : Arguments) (key : Key) (value : String) : Option Arguments :=
  match key with
  | .extensionPath =>
    if a.extensionPath.isNone ∧ value ≠ "" then some {a with extensionPath := some value} else none
  | .platform => if a.platform.isNone then some {a with platform := some value} else none
  | .trace =>
    match a.trace, Trace.read value with
    | none, .ok t => some {a with trace := some t}
    | _, _ => none
  | .waitMs =>
    match a.waitMs, Decimal.nat64? value.toList with
    | none, some n => some {a with waitMs := some n}
    | _, _ => none

def addFile? (a : Arguments) (name : String) : Option Arguments :=
  if name = "" then none else some {a with files := a.files ++ [name]}

def addFiles? (a : Arguments) (names : List String) : Option Arguments := names.foldlM addFile? a

inductive Word where
  | option (key : Key) (value : Option String)
  | debug
  | escape
  | file (name : String)
  | unknown
  deriving DecidableEq, Repr

def attached : List Char → Option String
  | [] => none
  | '=' :: value => some (String.ofList value)
  | value => some (String.ofList value)

def Word.ofLong (word : List Char) : Word :=
  match word.span (· != '=') with
  | (name, []) =>
    if name = "--debug".toList then .debug
    else match Key.ofLong? (String.ofList name) with
      | some key => .option key none
      | none => .unknown
  | (name, _ :: value) =>
    match Key.ofLong? (String.ofList name) with
    | some key => .option key (some (String.ofList value))
    | none => .unknown

def Word.ofString (word : String) : Word :=
  match word.toList with
  | ['-', '-'] => .escape
  | '-' :: '-' :: _ => .ofLong word.toList
  | ['-'] => .file word
  | '-' :: 'e' :: value => .option .extensionPath (attached value)
  | '-' :: _ => .unknown
  | _ => .file word

def read (a : Arguments) (wanting : Option Key) : List String → Option Arguments
  | [] => if wanting.isNone then some a else none
  | word :: rest =>
    match Word.ofString word, wanting with
    | .file name, some key => do (← a.set? key name).read none rest
    | _, some _ => none
    | .file name, none => do (← a.addFile? name).read none rest
    | .option key none, none => a.read (some key) rest
    | .option key (some value), none => do (← a.set? key value).read none rest
    | .debug, none => if a.debug then none else ({a with debug := true} : Arguments).read none rest
    | .escape, none => a.addFiles? rest
    | .unknown, none => none

def parse? (words : List String) : Option Arguments := empty.read none words

end Arguments
end LspClient.Cli
