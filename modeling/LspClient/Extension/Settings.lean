import LspClient.Json.Parser
import LspClient.Json.Printer
import LspClient.Text.Printable
import LspClient.Trace
import LspClient.Machine

/-! User settings: a JSON object, or the array of its fields in order. Names that are not known are
passed over together with their values, which need not be more than well-formed. The first fault in
reading order is the one reported. -/
namespace LspClient
open Utf8 (Octets)

structure Settings where
  trace : Trace
  deriving DecidableEq, Repr, Inhabited

namespace Settings

def default : Settings := ⟨.off⟩

def toJson (s : Settings) : Json := .ofFields [("trace", .string s.trace.name)]

inductive Fault where
  | ended
  | unexpected
  | data (cause : String)
  deriving DecidableEq, Repr

abbrev Read := Except Fault

def lift : Json.Read α → Read α
  | .ok a => .ok a
  | .error .ended => .error .ended
  | .error .unexpected => .error .unexpected

inductive Bracket where
  | list
  | map
  deriving DecidableEq, Repr

inductive Expected where
  | value
  | inside (b : Bracket)
  | name
  | next
  deriving DecidableEq, Repr

def skipDigits (cs : List Char) : Read (List Char) :=
  match cs.span Char.isDigit with
  | ([], _) => .error .unexpected
  | (_, rest) => .ok rest

def skipPower : List Char → Read (List Char)
  | c :: cs =>
    if c = 'e' ∨ c = 'E' then
      match cs with
      | '+' :: cs | '-' :: cs => skipDigits cs
      | cs => skipDigits cs
    else .ok (c :: cs)
  | [] => .ok []

def skipNumber (cs : List Char) : Read (List Char) := do
  let cs := match cs with
    | '-' :: cs => cs
    | cs => cs
  match cs with
  | '0' :: d :: _ => if d.isDigit then throw .unexpected
  | _ => pure ()
  let cs ← skipDigits cs
  let cs ← match cs with
    | '.' :: cs => skipDigits cs
    | cs => .ok cs
  skipPower cs

def skipString (cs : List Char) : Read (List Char) :=
  (lift (Json.scanString false .plain [] cs)).map (·.2)

def skipSimple (c : Char) (cs : List Char) : Read (List Char) :=
  if c = 'n' then lift (Json.word ['u', 'l', 'l'] cs)
  else if c = 't' then lift (Json.word ['r', 'u', 'e'] cs)
  else if c = 'f' then lift (Json.word ['a', 'l', 's', 'e'] cs)
  else if c = '"' then skipString cs
  else if Json.startsNumber c then skipNumber (c :: cs)
  else .error .unexpected

def closes : Bracket → Char → Bool
  | .list, c => c == ']'
  | .map, c => c == '\x7d'

def colon (cs : List Char) : Read (List Char) :=
  match Json.skipBlank cs with
  | ':' :: cs => .ok cs
  | [] => .error .ended
  | _ => .error .unexpected

/-- Passes over one value with any depth of brackets, the open ones on a stack. Every two steps take at
least one character, so twice the length of the text bounds their number. -/
def skip : (bound : Nat) → Expected → List Bracket → List Char → Read (List Char)
  | 0, _, _, _ => .error .unexpected
  | bound + 1, expected, stack, cs =>
    match expected, stack with
    | .next, [] => .ok cs
    | expected, stack =>
      match Json.skipBlank cs with
      | [] => .error .ended
      | c :: rest =>
        match expected, stack with
        | .value, stack =>
          if c = '[' then skip bound (.inside .list) stack rest
          else if c = '\x7b' then skip bound (.inside .map) stack rest
          else do
            let rest ← skipSimple c rest
            skip bound .next stack rest
        | .inside b, stack =>
          if closes b c then skip bound .next stack rest
          else match b with
            | .list => skip bound .value (.list :: stack) (c :: rest)
            | .map => skip bound .name (.map :: stack) (c :: rest)
        | .name, stack =>
          if c = '"' then do
            let rest ← colon (← skipString rest)
            skip bound .value stack rest
          else .error .unexpected
        | .next, [] => .ok cs
        | .next, b :: below =>
          if closes b c then skip bound .next below rest
          else if c = ',' then
            match b with
            | .list => skip bound .value (.list :: below) rest
            | .map => skip bound .name (.map :: below) rest
          else .error .unexpected

def skipValue (cs : List Char) : Read (List Char) := skip (2 * cs.length + 2) .value [] cs

def invalidType (found expected : String) : Fault :=
  .data ("invalid type: " ++ found ++ ", expected " ++ expected)

def numberName : Json → String
  | .real x => "floating point `" ++ String.ofList x.chars ++ "`"
  | j => "integer `" ++ j.compact ++ "`"

def complaint (expected : String) (read : Read α) (found : α → String) : Fault :=
  match read with
  | .ok a => invalidType (found a) expected
  | .error fault => fault

def wrongKind (expected : String) : List Char → Fault
  | [] => .ended
  | c :: cs =>
    if c = 'n' then complaint expected (lift (Json.word ['u', 'l', 'l'] cs)) fun _ => "null"
    else if c = 't' then complaint expected (lift (Json.word ['r', 'u', 'e'] cs)) fun _ => "boolean `true`"
    else if c = 'f' then complaint expected (lift (Json.word ['a', 'l', 's', 'e'] cs)) fun _ => "boolean `false`"
    else if c = '"' then complaint expected (lift (Json.text cs)) fun r => "string " ++ Text.quote r.1
    else if Json.startsNumber c then complaint expected (lift (Json.number (c :: cs))) fun r => numberName r.1
    else if c = '[' then invalidType "sequence" expected
    else if c = '\x7b' then invalidType "map" expected
    else .unexpected

def traceNamed (name : String) : Read Trace :=
  match Trace.ofName? name with
  | some t => .ok t
  | none =>
    .error (.data ("unknown variant `" ++ name ++ "`, expected one of `off`, `messages`, `verbose`"))

def traceObject (cs : List Char) : Read (Trace × List Char) :=
  match Json.skipBlank cs with
  | '"' :: cs => do
    let (name, cs) ← lift (Json.text cs)
    let t ← traceNamed name
    let cs ← colon cs
    let cs ← match Json.skipBlank cs with
      | 'n' :: cs => lift (Json.word ['u', 'l', 'l'] cs)
      | cs => .error (wrongKind "unit" cs)
    match Json.skipBlank cs with
    | '\x7d' :: cs => .ok (t, cs)
    | [] => .error .ended
    | _ => .error .unexpected
  | [] => .error .ended
  | _ => .error .unexpected

def traceValue (cs : List Char) : Read (Trace × List Char) :=
  match Json.skipBlank cs with
  | [] => .error .ended
  | c :: cs =>
    if c = '"' then do
      let (name, cs) ← lift (Json.text cs)
      .ok (← traceNamed name, cs)
    else if c = '\x7b' then traceObject cs
    else .error .unexpected

def list (cs : List Char) : Read (Settings × List Char) :=
  match Json.skipBlank cs with
  | [] => .error .ended
  | ']' :: cs => .ok (default, cs)
  | cs => do
    let (t, cs) ← traceValue cs
    match Json.skipBlank cs with
    | ']' :: cs => .ok (⟨t⟩, cs)
    | [] => .error .ended
    | _ => .error .unexpected

def field (known : Option Trace) (cs : List Char) : Read (Option Trace × List Char) := do
  let (name, cs) ← lift (Json.text cs)
  if name = "trace" then
    if known.isSome then throw (.data "duplicate field `trace`")
    let (t, cs) ← traceValue (← colon cs)
    .ok (some t, cs)
  else
    let cs ← skipValue (← colon cs)
    .ok (known, cs)

def fields : (bound : Nat) → (first : Bool) → Option Trace → List Char → Read (Settings × List Char)
  | 0, _, _, _ => .error .unexpected
  | bound + 1, first, known, cs =>
    match Json.skipBlank cs with
    | [] => .error .ended
    | c :: cs =>
      if c = '\x7d' then .ok (⟨known.getD .off⟩, cs)
      else if first then
        if c = '"' then do
          let (known, cs) ← field known cs
          fields bound false known cs
        else .error .unexpected
      else if c = ',' then
        match Json.skipBlank cs with
        | '"' :: cs => do
          let (known, cs) ← field known cs
          fields bound false known cs
        | [] => .error .ended
        | _ => .error .unexpected
      else .error .unexpected

def read (cs : List Char) : Read Settings := do
  let (s, rest) ← match Json.skipBlank cs with
    | '[' :: cs => list cs
    | '\x7b' :: cs => fields (cs.length + 1) true none cs
    | cs => .error (wrongKind "struct Settings" cs)
  match Json.skipBlank rest with
  | [] => .ok s
  | _ => .error .unexpected

inductive Unusable where
  | unreadable (cause : Refusal)
  | malformed (fault : Fault)
  deriving DecidableEq, Repr

def Unusable.context (path : String) : Unusable → String
  | .unreadable _ => "reading settings from " ++ path
  | .malformed _ => "parsing settings in " ++ path

def load : Except Refusal Octets → Except Unusable Settings
  | .error .noSuchFile | .error .notDirectory => .ok default
  | .error cause => .error (.unreadable cause)
  | .ok octets =>
    match Utf8.decode octets with
    | .error _ => .error (.unreadable .notText)
    | .ok cs =>
      match read cs with
      | .ok s => .ok s
      | .error fault => .error (.malformed fault)

end Settings
end LspClient
