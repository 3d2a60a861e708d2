import LspClient.Message

/-! A server that answers from a fixed script: one answer to the first request, messages after it is told
that the client is ready and after each opened document, and one answer to every pull. -/
namespace LspClient

structure Scripted where
  introduction : Json
  afterInitialized : List Json
  afterOpen : List Json
  beforeDiagnostic : List Json
  diagnostic : Json
  exited : Bool
  deriving DecidableEq, Repr, Inhabited

namespace Scripted

def placeholder : List Char := ['$', 'U', 'R', 'I']

def fillChars (uri : List Char) : Nat → List Char → List Char
  | 0, cs => cs
  | _ + 1, [] => []
  | bound + 1, c :: cs =>
    if placeholder.isPrefixOf (c :: cs) then
      uri ++ fillChars uri bound (cs.drop (placeholder.length - 1))
    else c :: fillChars uri bound cs

def fillText (uri text : String) : String :=
  String.ofList (fillChars uri.toList (text.length + 1) text.toList)

mutual
def fill (uri : String) : Json → Json
  | .string s => .string (fillText uri s)
  | .array items => .array (fillItems uri items)
  | .object fields => .object (fillFields uri fields)
  | j => j

def fillItems (uri : String) : List Json → List Json
  | [] => []
  | j :: rest => fill uri j :: fillItems uri rest

def fillFields (uri : String) : List (String × Json) → List (String × Json)
  | [] => []
  | (name, j) :: rest => (name, fill uri j) :: fillFields uri rest
end

def respond (id : Int) (answer : Json) : Json :=
  .ofFields ((answer.fields?.getD []) ++ [("jsonrpc", .string "2.0"), ("id", .integer id)])

def documentUri (params : Option Json) : String :=
  ((do (← (← (← params).field? "textDocument").field? "uri").string?) : Option String).getD ""

def hear (s : Scripted) (body : String) : Scripted × List Json :=
  match Message.parse? body with
  | some (.request id "initialize" _) => (s, [respond id s.introduction])
  | some (.request id "textDocument/diagnostic" params) =>
    let uri := documentUri params
    (s, (s.beforeDiagnostic ++ [respond id s.diagnostic]).map (fill uri))
  | some (.request id "shutdown" _) => (s, [respond id (.ofFields [("result", .null)])])
  | some (.notification "initialized" _) => (s, s.afterInitialized)
  | some (.notification "textDocument/didOpen" params) =>
    (s, s.afterOpen.map (fill (documentUri params)))
  | some (.notification "exit" _) => ({s with exited := true}, [])
  | _ => (s, [])

end Scripted
end LspClient
