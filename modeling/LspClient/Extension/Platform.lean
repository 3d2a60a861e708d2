import LspClient.Document.Path

/-! Where the bundled server stands under the root of an installed extension. -/
namespace LspClient
open Utf8 (Octets)

inductive Platform where
  | windows
  | mac
  | other
  deriving DecidableEq, Repr, Inhabited

namespace Platform

def ofName (name : String) : Platform :=
  if name = "win32" ∨ name = "windows" then .windows
  else if name = "darwin" ∨ name = "macos" then .mac
  else .other

def name : Platform → String
  | .windows => "windows"
  | .mac => "macos"
  | .other => "other"

def serverBase : String := "lustrels"

def serverName : Platform → String
  | .windows => serverBase ++ ".exe"
  | .mac => serverBase ++ ".darwin"
  | .other => serverBase

def serverDirectory : String := "server"

def serverPath (root : Octets) (p : Platform) : Octets :=
  Path.join root (Path.join (Utf8.ofString serverDirectory) (Utf8.ofString p.serverName))

end Platform
end LspClient
