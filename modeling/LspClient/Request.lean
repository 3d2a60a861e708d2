import LspClient.Message
import LspClient.Document.Basic

/-! The messages that a client sends of its own accord. -/
namespace LspClient.Request

def lastSegment (uri : String) : String :=
  let body := uri.toList.reverse.dropWhile (· == '/')
  String.ofList (body.takeWhile (· != '/')).reverse

def clientCapabilities (hasRoot : Bool) : Json :=
  .ofFields [
    ("textDocument", .ofFields [
      ("synchronization", .ofFields [
        ("dynamicRegistration", .bool false), ("didSave", .bool false),
        ("willSave", .bool false), ("willSaveWaitUntil", .bool false)]),
      ("publishDiagnostics", .ofFields [
        ("relatedInformation", .bool true), ("versionSupport", .bool true)]),
      ("diagnostic", .ofFields [
        ("dynamicRegistration", .bool false), ("relatedDocumentSupport", .bool false)])]),
    ("window", .ofFields [("workDoneProgress", .bool true)]),
    ("workspace", .ofFields [
      ("configuration", .bool true), ("workspaceFolders", .bool hasRoot)])]

def clientVersion : String := "0.1.0"

def introduce (id : Int) (root : Option String) (clientName : String) (processId : Nat) : Message :=
  let folders := root.toList.map fun uri => ("workspaceFolders",
    Json.array [.ofFields [("uri", .string uri), ("name", .string (lastSegment uri))]])
  .request id "initialize" (some (.ofFields ([
    ("processId", .integer processId),
    ("clientInfo", .ofFields [("name", .string clientName), ("version", .string clientVersion)]),
    ("rootUri", Json.ofOption .string root),
    ("capabilities", clientCapabilities root.isSome),
    ("trace", .string "off")] ++ folders)))

def initialized : Message := .notification "initialized" (some (.ofFields []))

def shutdown (id : Int) : Message := .request id "shutdown" none

def exit : Message := .notification "exit" none

def didOpen (d : TextDocument) : Message :=
  .notification "textDocument/didOpen" (some (.ofFields [
    ("textDocument", .ofFields [
      ("uri", .string d.uri), ("languageId", .string d.language),
      ("version", .integer d.version.toInt), ("text", .string d.text)])]))

def didChange (uri : String) (version : Int32) (text : String) : Message :=
  .notification "textDocument/didChange" (some (.ofFields [
    ("textDocument", .ofFields [("uri", .string uri), ("version", .integer version.toInt)]),
    ("contentChanges", .array [.ofFields [("text", .string text)]])]))

def didClose (uri : String) : Message :=
  .notification "textDocument/didClose" (some (.ofFields [
    ("textDocument", .ofFields [("uri", .string uri)])]))

def diagnostic (id : Int) (uri : String) : Message :=
  .request id "textDocument/diagnostic" (some (.ofFields [
    ("textDocument", .ofFields [("uri", .string uri)])]))

end LspClient.Request
