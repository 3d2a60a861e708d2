import LspClient.Frame
import LspClient.Json.Parser
import LspClient.Json.Printer

/-! JSON-RPC messages. A message is read from the members `id`, `method`, `params`, `result` and
`error` of an object; everything else in it is ignored. `normal` is what one trip through text
leaves of a message. -/
namespace LspClient

structure ResponseError where
  code : Int
  message : String
  data : Option Json
  deriving DecidableEq, Repr, Inhabited

inductive Message where
  | request (id : Int) (method : String) (params : Option Json)
  | response (id : Int) (result : Option Json) (error : Option ResponseError)
  | notification (method : String) (params : Option Json)
  deriving DecidableEq, Repr, Inhabited

namespace ResponseError

def methodNotFound (method : String) : ResponseError :=
  ⟨-32601, "Method not found: " ++ method, none⟩

def toJson (e : ResponseError) : Json :=
  .ofFields ([("code", .integer e.code), ("message", .string e.message)] ++
    e.data.toList.map fun d => ("data", d))

def data? : Json → Option Json
  | .null => none
  | d => some d

def ofJson? : Json → Option ResponseError
  | .object fields => do
    let code ← (← fields.lookup "code").int32?
    let message ← (← fields.lookup "message").string?
    some ⟨code, message, (fields.lookup "data").bind data?⟩
  | .array [code, message, data] => do
    some ⟨← code.int32?, ← message.string?, data? data⟩
  | _ => none

end ResponseError

namespace Message

def method? : Message → Option String
  | .request _ method _ => some method
  | .response .. => none
  | .notification method _ => some method

def optional (name : String) (value : Option Json) : List (String × Json) :=
  value.toList.map fun v => (name, v)

def toJson : Message → Json
  | .request id method params =>
    .ofFields ([("jsonrpc", .string "2.0"), ("id", .integer id), ("method", .string method)] ++
      optional "params" params)
  | .response id _ (some error) =>
    .ofFields [("jsonrpc", .string "2.0"), ("id", .integer id), ("error", error.toJson)]
  | .response id result none =>
    .ofFields [("jsonrpc", .string "2.0"), ("id", .integer id), ("result", result.getD .null)]
  | .notification method params =>
    .ofFields ([("jsonrpc", .string "2.0"), ("method", .string method)] ++ optional "params" params)

def body (m : Message) : String := m.toJson.compact

def encode (m : Message) : String := Frame.write m.body

def octets (m : Message) : Utf8.Octets := Utf8.ofString m.encode

/-- With an integer `id` of 64 bits an object is a request if it has a `method`, which then must be
a string, and a response otherwise. Without one it is a notification if its `method` is a string. -/
def ofJson? (value : Json) : Option Message := do
  let fields ← value.fields?
  let params := fields.lookup "params"
  match (fields.lookup "id").bind Json.int64? with
  | some id =>
    match fields.lookup "method" with
    | some method => do
      let method ← method.string?
      some (.request id method params)
    | none =>
      some (.response id (fields.lookup "result") ((fields.lookup "error").bind ResponseError.ofJson?))
  | none => do
    let method ← (← fields.lookup "method").string?
    some (.notification method params)

def parse? (body : String) : Option Message := (Json.parse? body).bind ofJson?

def normal : Message → Message
  | .response id _ (some error) =>
    .response id none (some ⟨error.code, error.message, error.data.bind ResponseError.data?⟩)
  | .response id result none => .response id (some (result.getD .null)) none
  | m => m

theorem normalIdempotent (m : Message) : m.normal.normal = m.normal := by
  cases m with
  | request => rfl
  | notification => rfl
  | response id result error =>
    cases error with
    | none => rfl
    | some e =>
      simp only [normal, Message.response.injEq, Option.some.injEq, ResponseError.mk.injEq, true_and]
      cases e.data with
      | none => rfl
      | some d => cases d <;> rfl

end Message
end LspClient
