import LspClient.Json.Value

/-! What a server announces about itself, as far as a client makes use of it. -/
namespace LspClient

structure Capabilities where
  sync : UInt8
  formatting : Bool
  documentHighlight : Bool
  diagnosticProvider : Bool
  semanticTokens : Bool
  inlayHints : Bool
  deriving DecidableEq, Repr, Inhabited

namespace Capabilities

def none : Capabilities := ⟨0, false, false, false, false, false⟩

def announces (caps : Json) (name : String) : Bool :=
  match caps.field? name with
  | Option.none | some .null | some (.bool false) => false
  | some _ => true

/-- The kind of synchronisation, given alone or as the member `change` of its options. Only its low
eight bits count. -/
def syncOf (caps : Json) : UInt8 :=
  let kind : Option Nat :=
    match caps.field? "textDocumentSync" with
    | some (.object options) => (options.lookup "change").bind Json.nat64?
    | some value => value.nat64?
    | Option.none => Option.none
  UInt8.ofNat (kind.getD 0)

def ofResult (result : Json) : Capabilities :=
  let caps := (result.field? "capabilities").getD result
  { sync := syncOf caps
    formatting := announces caps "documentFormattingProvider"
    documentHighlight := announces caps "documentHighlightProvider"
    diagnosticProvider := announces caps "diagnosticProvider"
    semanticTokens := announces caps "semanticTokensProvider"
    inlayHints := announces caps "inlayHintProvider" }

def features (c : Capabilities) : List String :=
  let named := [(c.sync == 1, "full sync"), (c.sync == 2, "incremental sync"),
    (c.diagnosticProvider, "pull diagnostics"), (c.formatting, "formatting"),
    (c.documentHighlight, "document highlight"), (c.semanticTokens, "semantic tokens"),
    (c.inlayHints, "inlay hints")]
  named.filterMap fun f => if f.1 then some f.2 else Option.none

end Capabilities
end LspClient
