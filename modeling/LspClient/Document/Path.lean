import LspClient.Text.Utf8

/-! Paths as octets, with `/` between components. Repeated and trailing slashes and `.` after the
first component do not count as components. -/
namespace LspClient.Path
open Utf8 (Octets)

def slash : UInt8 := 0x2F

def dot : UInt8 := 0x2E

def components (path : Octets) : List Octets :=
  match path.splitOn slash with
  | [] => []
  | first :: rest =>
    (if first.isEmpty then [] else [first]) ++ rest.filter fun c => !c.isEmpty && c != [dot]

def fileName? (path : Octets) : Option Octets :=
  match (components path).getLast? with
  | some name => if name = [dot] ∨ name = [dot, dot] then none else some name
  | none => none

def extension? (path : Octets) : Option Octets := do
  let name ← fileName? path
  let after := (name.reverse.takeWhile (· != dot)).reverse
  if after.length + 1 < name.length then some after else none

def join (directory path : Octets) : Octets :=
  if path.head? = some slash then path
  else match directory.getLast? with
    | none => path
    | some last => if last = slash then directory ++ path else directory ++ slash :: path

end LspClient.Path
