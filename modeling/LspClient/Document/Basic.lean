import LspClient.Document.Path
import LspClient.Text.Blank

/-! Editor documents: their names, their languages, and the selectors that pick them. -/
namespace LspClient
open Utf8 (Octets)

/-- Versions have 32 bits: the one after the greatest is the least. -/
instance versionOfInt : Coe Int Int32 := ⟨Int32.ofInt⟩

instance intOfVersion : Coe Int32 Int := ⟨Int32.toInt⟩

structure TextDocument where
  uri : String
  language : String
  version : Int32
  text : String
  deriving DecidableEq, Repr, Inhabited

namespace Uri

def ofPath (path : Octets) : String :=
  let chars := (Utf8.lossy path).map fun c => if c = '\\' then '/' else c
  String.ofList ((if chars.head? = some '/' then "file://" else "file:///").toList ++ chars)

def isSchemeChar (c : Char) : Bool := c.isAlphanum || c == '+' || c == '-' || c == '.'

def scheme? (uri : String) : Option String :=
  match uri.toList.span (· != ':') with
  | (scheme, _ :: _) =>
    if scheme ≠ [] ∧ scheme.all isSchemeChar then some (String.ofList scheme) else none
  | (_, []) => none

end Uri

namespace Language

def lustre : String := "lustre"

def ofPath? (path : Octets) : Option String := do
  let extension ← (Utf8.decode (← Path.extension? path)).toOption
  if Text.lower extension = ['l', 'u', 's'] then some lustre else none

end Language

namespace TextDocument

def ofPath? (path : Octets) (text : String) : Option TextDocument := do
  some ⟨Uri.ofPath path, ← Language.ofPath? path, 1, text⟩

end TextDocument

structure DocumentFilter where
  scheme : Option String
  language : Option String
  deriving DecidableEq, Repr, Inhabited

namespace DocumentFilter

def accepts (f : DocumentFilter) (d : TextDocument) : Bool :=
  (f.scheme.isNone || Uri.scheme? d.uri == f.scheme) &&
  (f.language.isNone || some d.language == f.language)

def lustreFiles : DocumentFilter := ⟨some "file", some Language.lustre⟩

end DocumentFilter

abbrev Selector := List DocumentFilter

def Selector.accepts (s : Selector) (d : TextDocument) : Bool := s.any (·.accepts d)

end LspClient
