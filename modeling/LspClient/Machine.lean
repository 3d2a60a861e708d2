import LspClient.Text.Utf8

/-! A machine as a launch and a file read see it: absolute names, what stands under them, and the
reasons for a refusal. A name is walked component by component, so what refuses it is the first
component that is missing or is no directory. -/
namespace LspClient
open Utf8 (Octets)

inductive Refusal where
  | noSuchFile
  | permissionDenied
  | notDirectory
  | isDirectory
  | brokenPipe
  | nameTooLong
  | nulInName
  | notText
  deriving DecidableEq, Repr, Inhabited

def Refusal.message : Refusal → String
  | .noSuchFile => "No such file or directory (os error 2)"
  | .permissionDenied => "Permission denied (os error 13)"
  | .notDirectory => "Not a directory (os error 20)"
  | .isDirectory => "Is a directory (os error 21)"
  | .brokenPipe => "Broken pipe (os error 32)"
  | .nameTooLong => "File name too long (os error 36)"
  | .nulInName => "nul byte found in provided data"
  | .notText => "stream did not contain valid UTF-8"

inductive Entry where
  | directory
  | program (label : String)
  | data (content : Octets)
  deriving DecidableEq, Repr, Inhabited

structure Machine where
  entries : List (List String × Entry)
  current : List String
  deriving DecidableEq, Repr, Inhabited

namespace Machine

def segments (name : String) : List String :=
  (name.toList.splitOn '/').map String.ofList

def isAbsolute (name : String) : Bool := name.toList.head? == some '/'

def find? (m : Machine) (place : List String) : Option Entry :=
  match m.entries.lookup place with
  | some entry => some entry
  | none =>
    if place.isEmpty || m.entries.any fun e => place.isPrefixOf e.1 then some .directory else none

def componentLimit : Nat := 255

def nameLimit : Nat := 4095

def step (m : Machine) (place : List String) (segment : String) : Except Refusal (List String) :=
  match m.find? place with
  | none => .error .noSuchFile
  | some .directory =>
    if segment = "" ∨ segment = "." then .ok place
    else if segment = ".." then .ok place.dropLast
    else if componentLimit < segment.utf8ByteSize then .error .nameTooLong
    else if (m.find? (place ++ [segment])).isSome then .ok (place ++ [segment])
    else .error .noSuchFile
  | some _ => .error .notDirectory

def resolve (m : Machine) (origin : List String) (name : String) : Except Refusal (List String) :=
  if name.isEmpty then .error .noSuchFile
  else if name.toList.contains '\x00' then .error .nulInName
  else if nameLimit < name.utf8ByteSize then .error .nameTooLong
  else (segments name).foldlM m.step (if isAbsolute name then [] else origin)

def readFile (m : Machine) (name : String) : Except Refusal Octets := do
  match m.find? (← m.resolve m.current name) with
  | some (.data content) => .ok content
  | some (.program _) => .error .notText
  | some .directory => .error .isDirectory
  | none => .error .noSuchFile

def placeName (place : List String) : String := "/" ++ "/".intercalate place

def canonical (m : Machine) (name : String) : String :=
  match m.resolve m.current name with
  | .ok place => placeName place
  | .error _ => name

def enter (m : Machine) : Option String → Except Refusal (List String)
  | none => .ok m.current
  | some directory => do
    let place ← m.resolve m.current directory
    match m.find? place with
    | some .directory => .ok place
    | some _ => .error .notDirectory
    | none => .error .noSuchFile

def searched : List (List String) := [["usr", "bin"], ["bin"]]

def programAt (m : Machine) (place : List String) : Except Refusal String :=
  match m.find? place with
  | some (.program label) => .ok label
  | some _ => .error .permissionDenied
  | none => .error .noSuchFile

/-- Looks for a program under a name in one directory after the other. Where the name leads to something
else the search goes on, but what was found decides the refusal. -/
def search (m : Machine) (name : String) (denied : Bool) : List (List String) → Except Refusal String
  | [] => .error (if denied then .permissionDenied else .noSuchFile)
  | directory :: rest =>
    match m.resolve directory name >>= m.programAt with
    | .ok label => .ok label
    | .error .permissionDenied => m.search name true rest
    | .error .noSuchFile | .error .notDirectory => m.search name denied rest
    | .error cause => .error cause

/-- The program that a launch starts. The working directory is entered first, but a NUL in any
name refuses the launch before that. -/
def launch (m : Machine) (command : String) (arguments : List String) (directory : Option String) :
    Except Refusal String := do
  if (command :: arguments ++ directory.toList).any fun s => s.toList.contains '\x00' then
    throw .nulInName
  let place ← m.enter directory
  if command.toList.contains '/' then m.programAt (← m.resolve place command)
  else m.search command false searched

def refused (m : Machine) (command : String) (arguments : List String) (directory : Option String) :
    Option Refusal :=
  match m.launch command arguments directory with
  | .ok _ => none
  | .error cause => some cause

def commonDirectories : List (List String) :=
  [["boot"], ["home"], ["lib"], ["lib64"], ["media"], ["mnt"], ["opt"], ["proc", "self"], ["root"], ["run"],
    ["sbin"], ["srv"], ["sys"], ["tmp"], ["usr", "include"], ["usr", "lib"], ["usr", "local", "bin"],
    ["usr", "local", "lib"], ["usr", "sbin"], ["usr", "share"], ["usr", "src"], ["var", "cache"],
    ["var", "lib"], ["var", "log"], ["var", "tmp"]]

def commonFiles : List (List String) :=
  [["dev", "full"], ["dev", "null"], ["dev", "random"], ["dev", "tty"], ["dev", "urandom"],
    ["dev", "zero"], ["etc", "group"], ["etc", "hostname"], ["etc", "hosts"], ["etc", "passwd"],
    ["etc", "resolv.conf"], ["etc", "shadow"], ["proc", "cpuinfo"], ["proc", "version"]]

def commonPrograms : List String := ["cat", "false", "sh", "true"]

def common : Machine where
  entries :=
    (commonPrograms.map fun name => (["bin", name], Entry.program name)) ++
    (commonPrograms.map fun name => (["usr", "bin", name], Entry.program name)) ++
    (commonFiles.map fun place => (place, Entry.data [])) ++
    commonDirectories.map fun place => (place, Entry.directory)
  current := ["opt"]

end Machine
end LspClient
