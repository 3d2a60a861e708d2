import LspClient.Extension.Platform
import LspClient.Client.Run

/-! What an installed extension makes of its host's facts: the client that it activates. -/
namespace LspClient
open Utf8 (Octets)

structure Context where
  root : Octets
  platform : Platform
  development : Bool
  workspace : Option String
  trace : Trace
  deriving DecidableEq, Repr, Inhabited

namespace Context

def clientId : String := "lustreLsp"

def clientName : String := "Lustre Language Server"

def launch (c : Context) : Launch :=
  .single ⟨Utf8.toStringLossy (c.platform.serverPath c.root), []⟩

def config (c : Context) : Config where
  id := clientId
  name := clientName
  channel := clientName
  launch := c.launch
  debugging := c.development
  selector := [.lustreFiles]
  workspace := c.workspace
  trace := c.trace

end Context
end LspClient
