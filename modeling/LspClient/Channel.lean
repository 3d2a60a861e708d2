/-! A named list of lines, shown by the host and filled by a client. -/
namespace LspClient

structure Channel where
  name : String
  lines : List String
  deriving DecidableEq, Repr, Inhabited

namespace Channel

def named (name : String) : Channel := ⟨name, []⟩

def append (c : Channel) (line : String) : Channel := {c with lines := c.lines ++ [line]}

def clear (c : Channel) : Channel := {c with lines := []}

def occurs (part : List Char) : List Char → Bool
  | [] => part.isEmpty
  | c :: cs => part.isPrefixOf (c :: cs) || occurs part cs

def contains (c : Channel) (part : String) : Bool :=
  c.lines.any fun line => occurs part.toList line.toList

end Channel
end LspClient
