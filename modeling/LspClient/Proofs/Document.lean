import LspClient.Document.Basic
import LspClient.Proofs.Text.Utf8

/-! Documents that are named by rooted paths. -/
namespace LspClient

namespace Uri
variable {path other : String}

def slashed (path : String) : String := String.ofList (path.toList.map fun c => if c = '\\' then '/' else c)

theorem slashedPlain (plain : '\\' ∉ path.toList) : slashed path = path := by
  have same : (path.toList.map fun c => if c = '\\' then '/' else c) = path.toList := by
    refine (List.map_congr_left fun c (member : c ∈ path.toList) => ?_).trans (List.map_id _)
    have away : c ≠ '\\' := fun own => plain (own ▸ member)
    exact if_neg away
  rw [slashed, same, String.ofList_toList]

theorem ofSlashed (rooted : path.toList.head? = some '/') :
    ofPath (Utf8.ofString path) = "file://" ++ slashed path := by
  have head : (path.toList.map fun c => if c = '\\' then '/' else c).head? = some '/' := by
    rw [List.head?_map, rooted]
    rfl
  rw [ofPath, Utf8.ofString, Utf8.lossyEncode, if_pos head, String.ofList_append, String.ofList_toList, slashed]

theorem ofRooted (rooted : path.toList.head? = some '/') (plain : '\\' ∉ path.toList) :
    ofPath (Utf8.ofString path) = "file://" ++ path := by
  rw [ofSlashed rooted, slashedPlain plain]

theorem schemeFile (path : String) : scheme? ("file://" ++ path) = some "file" := by
  have span : ("file://" ++ path).toList.span (· != ':') = ("file".toList, ':' :: ("//".toList ++ path.toList)) := by
    rw [String.toList_append]
    rfl
  have valid : "file".toList ≠ [] ∧ "file".toList.all isSchemeChar = true := by decide
  rw [scheme?, span]
  dsimp only
  rw [if_pos valid, String.ofList_toList]

end Uri

namespace Path

def Lustre (path : Utf8.Octets) : Prop :=
  ∃ extension, extension? path = some (Utf8.encode extension) ∧ Text.lower extension = ['l', 'u', 's']

end Path

namespace TextDocument
variable {path : Utf8.Octets}

theorem languageLustre {language : String} :
    Language.ofPath? path = some language ↔ Path.Lustre path ∧ language = Language.lustre := by
  simp only [Language.ofPath?, Option.bind_eq_bind, Option.bind_eq_some_iff, Option.ite_none_right_eq_some,
    Option.some.injEq]
  constructor
  · rintro ⟨octets, found, extension, decoded, lower, rfl⟩
    cases text : Utf8.decode octets with
    | error => rw [text] at decoded; cases decoded
    | ok cs =>
      rw [text] at decoded
      cases decoded
      exact ⟨⟨extension, (Utf8.decodeText _ _).mp text ▸ found, lower⟩, rfl⟩
  · rintro ⟨⟨extension, found, lower⟩, rfl⟩
    exact ⟨_, found, extension, by rw [Utf8.decodeEncode]; rfl, lower, rfl⟩

theorem ofLustre (lustre : Path.Lustre path) (text : String) :
    ofPath? path text = some ⟨Uri.ofPath path, Language.lustre, 1, text⟩ := by
  rw [ofPath?, languageLustre.mpr ⟨lustre, rfl⟩]
  rfl

theorem lustreAccepted (path : String) (version : Int) (text : String) :
    Selector.accepts [.lustreFiles] ⟨"file://" ++ path, Language.lustre, version, text⟩ = true := by
  simp [Selector.accepts, DocumentFilter.accepts, DocumentFilter.lustreFiles, Uri.schemeFile]

theorem ofOther (other : ¬ Path.Lustre path) (text : String) : ofPath? path text = none := by
  have none : Language.ofPath? path = none :=
    Option.eq_none_iff_forall_ne_some.mpr fun language own => other (languageLustre.mp own).1
  rw [ofPath?, none]
  rfl

end TextDocument
end LspClient
