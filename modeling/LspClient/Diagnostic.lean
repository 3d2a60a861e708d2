import LspClient.Json.Value

/-! Diagnostics as a server reports them, pushed or pulled. Malformed entries are passed over;
a number is narrowed to 32 bits by dropping its higher bits. -/
namespace LspClient

structure Position where
  line : UInt32
  character : UInt32
  deriving DecidableEq, Repr, Inhabited

structure Span where
  start : Position
  stop : Position
  deriving DecidableEq, Repr, Inhabited

inductive Severity where
  | error
  | warning
  | information
  | hint
  deriving DecidableEq, Repr

namespace Severity

def ofNumber? (n : UInt32) : Option Severity :=
  if n = 1 then some .error
  else if n = 2 then some .warning
  else if n = 3 then some .information
  else if n = 4 then some .hint
  else none

def label : Severity → String
  | .error => "error"
  | .warning => "warning"
  | .information => "info"
  | .hint => "hint"

end Severity

structure Diagnostic where
  range : Span
  severity : Option Severity
  code : Option String
  source : Option String
  message : String
  deriving DecidableEq, Repr, Inhabited

def Position.ofJson? (value : Json) : Option Position := do
  let line ← (← value.field? "line").nat64?
  let character ← (← value.field? "character").nat64?
  some ⟨UInt32.ofNat line, UInt32.ofNat character⟩

def Span.ofJson? (value : Json) : Option Span := do
  let start ← Position.ofJson? (← value.field? "start")
  let stop ← Position.ofJson? (← value.field? "end")
  some ⟨start, stop⟩

def Severity.ofJson? (value : Json) : Option Severity := do
  ofNumber? (UInt32.ofNat (← value.nat64?))

namespace Diagnostic

def code? (value : Json) : Option String :=
  match value.string? with
  | some s => some s
  | none => value.int64?.map toString

def ofJson? (value : Json) : Option Diagnostic := do
  let range ← Span.ofJson? (← value.field? "range")
  let message ← (← value.field? "message").string?
  some ⟨range, (value.field? "severity").bind Severity.ofJson?, (value.field? "code").bind code?,
    (value.field? "source").bind Json.string?, message⟩

def listOfJson (value : Json) : List Diagnostic :=
  (value.items?.getD []).filterMap ofJson?

def listUnder (name : String) (value : Json) : List Diagnostic :=
  ((value.field? name).map listOfJson).getD []

def published (params : Json) : String × List Diagnostic :=
  (((params.field? "uri").bind Json.string?).getD "", listUnder "diagnostics" params)

def report? (result : Json) : Option (List Diagnostic) :=
  if (result.field? "kind").bind Json.string? = some "unchanged" then none
  else some (listUnder "items" result)

end Diagnostic
end LspClient
