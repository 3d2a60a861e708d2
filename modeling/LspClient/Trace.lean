import LspClient.Text.Blank

/-! How much of the traffic with a server is shown. -/
namespace LspClient

inductive Trace where
  | off
  | messages
  | verbose
  deriving DecidableEq, Repr, Inhabited

namespace Trace

def name : Trace → String
  | .off => "off"
  | .messages => "messages"
  | .verbose => "verbose"

def ofName? (s : String) : Option Trace :=
  if s = "off" then some .off
  else if s = "messages" then some .messages
  else if s = "verbose" then some .verbose
  else none

theorem ofNameName (t : Trace) : ofName? t.name = some t := by cases t <;> rfl

def read (s : String) : Except String Trace :=
  let lowered := String.ofList (Text.lower s.toList)
  match ofName? lowered with
  | some t => .ok t
  | none =>
    .error ("unknown trace level '" ++ lowered ++ "' (expected off, messages or verbose)")

end Trace
end LspClient
