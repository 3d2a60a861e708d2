import LspClient.Request

/-! A small server that stands in for a real one: every line that contains `error` has a diagnostic,
pushed after each change and answered to each pull. -/
namespace LspClient
open Utf8 (Octets)

structure StandIn where
  documents : List (String × String)
  rejects : Bool
  shutdownAsked : Bool
  exitCode : Option Nat
  deriving DecidableEq, Repr, Inhabited

namespace StandIn

def fresh (rejects : Bool) : StandIn := ⟨[], rejects, false, none⟩

def name : String := "lustrels-stub"

def needle : List Char := ['e', 'r', 'r', 'o', 'r']

def column? (part : List Char) : List Char → Option Nat
  | [] => if part.isEmpty then some 0 else none
  | c :: cs =>
    if part.isPrefixOf (c :: cs) then some 0 else (column? part cs).map (c.utf8Size + ·)

def findings (text : String) : List (Nat × Nat) :=
  (Text.lines text.toList).zipIdx.filterMap fun (line, i) => (column? needle line).map fun c => (i, c)

def positionJson (line character : Nat) : Json :=
  .ofFields [("line", .integer line), ("character", .integer character)]

def diagnosticJson (finding : Nat × Nat) : Json :=
  .ofFields [
    ("range", .ofFields [
      ("start", positionJson finding.1 finding.2),
      ("end", positionJson finding.1 (finding.2 + needle.length))]),
    ("severity", .integer 1),
    ("source", .string name),
    ("message", .string "found `error`")]

def diagnosticsJson (text : String) : Json := .array ((findings text).map diagnosticJson)

def textOf (s : StandIn) (uri : String) : String := (s.documents.lookup uri).getD ""

def setText (s : StandIn) (uri text : String) : StandIn :=
  {s with documents := (uri, text) :: s.documents.filter fun d => d.1 != uri}

def forget (s : StandIn) (uri : String) : StandIn :=
  {s with documents := s.documents.filter fun d => d.1 != uri}

def publish (s : StandIn) (uri : String) : Message :=
  .notification "textDocument/publishDiagnostics" (some (.ofFields [
    ("uri", .string uri), ("diagnostics", diagnosticsJson (s.textOf uri))]))

def greeting : Json :=
  .ofFields [
    ("capabilities", .ofFields [
      ("textDocumentSync", .integer 1),
      ("diagnosticProvider", .ofFields [
        ("interFileDependencies", .bool false), ("workspaceDiagnostics", .bool false)])]),
    ("serverInfo", .ofFields [
      ("name", .string name), ("version", .string Request.clientVersion)])]

def documentUri? (params : Json) : Option String := do
  (← (← params.field? "textDocument").field? "uri").string?

def answer (s : StandIn) (id : Int) (method : String) (params : Json) : StandIn × Message :=
  let reply (result : Json) : Message := .response id (some result) none
  if method = "initialize" then
    (s, if s.rejects then .response id none (some ⟨-32603, "initialization rejected", none⟩)
        else reply greeting)
  else if method = "shutdown" then ({s with shutdownAsked := true}, reply .null)
  else if method = "textDocument/diagnostic" then
    let text := ((documentUri? params).map s.textOf).getD ""
    (s, reply (.ofFields [("kind", .string "full"), ("items", diagnosticsJson text)]))
  else (s, .response id none (some (.methodNotFound method)))

def changedText? (params : Json) : Option String := do
  match (← params.field? "contentChanges") with
  | .array (change :: _) => (← change.field? "text").string?
  | _ => none

def openedText? (params : Json) : Option String := do
  (← (← params.field? "textDocument").field? "text").string?

def afterInitialized : List Message := [
  .notification "window/logMessage" (some (.ofFields [
    ("type", .integer 3), ("message", .string "Lustre Server Initialized!")])),
  .request 1 "workspace/configuration" (some (.ofFields [
    ("items", .array [.ofFields [("section", .string "lustreLsp")]])]))]

def notice (s : StandIn) (method : String) (params : Json) : StandIn × List Message :=
  let uri := (documentUri? params).getD ""
  if method = "initialized" then (s, afterInitialized)
  else if method = "textDocument/didOpen" then
    let s := s.setText uri ((openedText? params).getD "")
    (s, [s.publish uri])
  else if method = "textDocument/didChange" then
    let s := match changedText? params with
      | some text => s.setText uri text
      | none => s
    (s, [s.publish uri])
  else if method = "textDocument/didClose" then
    let s := s.forget uri
    (s, [s.publish uri])
  else if method = "exit" then ({s with exitCode := some (if s.shutdownAsked then 0 else 1)}, [])
  else (s, [])

def handle (s : StandIn) : Message → StandIn × List Message
  | .request id method params =>
    let (s, reply) := s.answer id method (params.getD .null)
    (s, [reply])
  | .notification method params => s.notice method (params.getD .null)
  | .response .. => (s, [])

def hear (s : StandIn) (body : String) : StandIn × List Message :=
  match Message.parse? body with
  | some m => s.handle m
  | none => (s, [])

structure Transcript where
  exitCode : Nat
  written : List Message
  errors : List String
  deriving DecidableEq, Repr

def serve (s : StandIn) (written : List Message) : List String → StandIn × List Message
  | [] => (s, written)
  | body :: rest =>
    let (s, replies) := s.hear body
    let written := written ++ replies
    if s.exitCode.isSome then (s, written) else serve s written rest

def run (rejects : Bool) (processId : String) (input : Octets) : Transcript :=
  let (bodies, fault) := Frame.bodies input
  let (s, written) := (fresh rejects).serve [] bodies
  let started := name ++ ": started (pid " ++ processId ++ ")"
  match s.exitCode, fault with
  | some code, _ => ⟨code, written, [started, name ++ ": exiting with " ++ toString code]⟩
  | none, some f => ⟨1, written, [started, "Error: " ++ f.message]⟩
  | none, none => ⟨1, written, [started]⟩

structure Options where
  exitsAtOnce : Bool
  rejects : Bool
  deriving DecidableEq, Repr

def Options.read (o : Options) : List String → Option Options
  | [] => some o
  | a :: rest =>
    if a = "--exit-immediately" ∧ !o.exitsAtOnce then ({o with exitsAtOnce := true} : Options).read rest
    else if a = "--reject-initialize" ∧ !o.rejects then ({o with rejects := true} : Options).read rest
    else if a = "--" ∧ rest.isEmpty then some o
    else none

def command (arguments : List String) (processId : String) (input : Octets) : Transcript :=
  match (⟨false, false⟩ : Options).read arguments with
  | none => ⟨2, [], []⟩
  | some o => if o.exitsAtOnce then ⟨3, [], []⟩ else run o.rejects processId input

end StandIn
end LspClient
