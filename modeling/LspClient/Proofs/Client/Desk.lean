import LspClient.Proofs.Client.Reached

/-! The host's desk: the documents it holds open, read off its calls and the answers to them alone. A
document lies on the desk with the language it was opened with, a version that counts the accepted
changes, and the last text that was accepted. No name lies there twice. -/
namespace LspClient

namespace TextDocument

def look (uri : String) (ds : List TextDocument) : Option TextDocument := ds.find? (·.uri == uri)

def revise (uri text : String) (version : TextDocument → Int32) (ds : List TextDocument) :
    List TextDocument :=
  ds.map fun d => if d.uri = uri then {d with version := version d, text := text} else d

def names (ds : List TextDocument) : List String := ds.map (·.uri)

theorem lookAppend (uri : String) (ds : List TextDocument) (d : TextDocument) :
    look uri (ds ++ [d]) = (look uri ds).or (if d.uri = uri then some d else none) := by
  rw [look, List.find?_append]
  congr 1
  by_cases same : d.uri = uri <;> simp [same]

theorem lookName {uri : String} {ds : List TextDocument} {d : TextDocument}
    (found : look uri ds = some d) : d ∈ ds ∧ d.uri = uri := by
  have member := List.mem_of_find?_eq_some found
  have same := List.find?_some found
  exact ⟨member, by simpa using same⟩

theorem lookNone {uri : String} {ds : List TextDocument} :
    look uri ds = none ↔ uri ∉ names ds := by
  simp only [look, List.find?_eq_none, names, List.mem_map, not_exists, not_and]
  exact ⟨fun absent d member => by simpa using absent d member,
    fun absent d member => by simpa using absent d member⟩

theorem lookMember {ds : List TextDocument} {d : TextDocument} (unique : (names ds).Nodup) (member : d ∈ ds) :
    look d.uri ds = some d := by
  induction ds with
  | nil => cases member
  | cons first rest ih =>
    obtain ⟨absent, unique⟩ := List.nodup_cons.mp unique
    rcases List.mem_cons.mp member with rfl | later
    · simp [look]
    · have other : first.uri ≠ d.uri := fun same => absent (List.mem_map.mpr ⟨d, later, same.symm⟩)
      simpa [look, other] using ih unique later

theorem lookErase (uri other : String) (ds : List TextDocument) :
    look other (ds.filter fun d => d.uri != uri) = if other = uri then none else look other ds := by
  rw [look, List.find?_filter]
  by_cases same : other = uri
  · simp [same, List.find?_eq_none]
  · rw [if_neg same, look]
    congr 1
    funext d
    by_cases own : d.uri = other <;> simp [own, same]

theorem lookRevise (uri other text : String) (version : TextDocument → Int32) (ds : List TextDocument) :
    look other (revise uri text version ds) = if other = uri
      then (look uri ds).map fun d => {d with version := version d, text := text}
      else look other ds := by
  let change (d : TextDocument) := if d.uri = uri then {d with version := version d, text := text} else d
  have kept : ((fun d : TextDocument => d.uri == other) ∘ change) = fun d => d.uri == other := by
    funext d
    by_cases own : d.uri = uri <;> simp [change, own]
  have found : look other (revise uri text version ds) = (look other ds).map change := by
    rw [look, revise, List.find?_map, kept]
    rfl
  rw [found]
  by_cases same : other = uri
  · rw [if_pos same, same]
    cases h : look uri ds with
    | none => rfl
    | some d => simp [change, (lookName h).2]
  · rw [if_neg same]
    cases h : look other ds with
    | none => rfl
    | some d => simp [change, (lookName h).2, same]

theorem namesRevise (uri text : String) (version : TextDocument → Int32) (ds : List TextDocument) :
    names (revise uri text version ds) = names ds := by
  simp only [names, revise, List.map_map]
  apply List.map_congr_left
  intro d _
  by_cases own : d.uri = uri <;> simp [own]

theorem reviseAlike {uri text : String} {f g : TextDocument → Int32} {ds : List TextDocument}
    (unique : (names ds).Nodup) (alike : ∀ d, look uri ds = some d → f d = g d) :
    revise uri text f ds = revise uri text g ds := by
  induction ds with
  | nil => rfl
  | cons d rest ih =>
    obtain ⟨absent, unique⟩ := List.nodup_cons.mp unique
    simp only [revise, List.map_cons] at ih ⊢
    by_cases own : d.uri = uri
    · have here : f d = g d := alike d (by simp [look, own])
      have away : ∀ e ∈ rest, e.uri ≠ uri := fun e member same =>
        absent (List.mem_map.mpr ⟨e, member, same.trans own.symm⟩)
      rw [here]
      congr 1
      exact List.map_congr_left fun e member => by simp [away e member]
    · rw [ih unique fun e found => alike e (by simpa [look, own] using found)]
      simp [own]

theorem reviseAbsent {uri text : String} {version : TextDocument → Int32} {ds : List TextDocument}
    (absent : uri ∉ names ds) : revise uri text version ds = ds := by
  have away : ∀ d ∈ ds, d.uri ≠ uri := fun d member same =>
    absent (List.mem_map.mpr ⟨d, member, same⟩)
  calc revise uri text version ds
      = ds.map id := List.map_congr_left fun d member => by simp [away d member]
    _ = ds := List.map_id ds

theorem foldChangeRevise (uri : String) (version : Int32) (text : String) {ds : List TextDocument}
    (unique : (names ds).Nodup) :
    Client.foldChange uri version text ds = revise uri text (fun _ => version) ds := by
  induction ds with
  | nil => rfl
  | cons d rest ih =>
    obtain ⟨absent, unique⟩ := List.nodup_cons.mp unique
    by_cases own : d.uri = uri
    · have same : revise uri text (fun _ => version) rest = rest := reviseAbsent (own ▸ absent)
      rw [revise] at same ⊢
      simp [Client.foldChange, own, same]
    · rw [Client.foldChange, if_neg own, ih unique]
      simp [revise, own]

end TextDocument

namespace Client
open TextDocument

def place (d : TextDocument) (ds : List TextDocument) : List TextDocument :=
  if (look d.uri ds).isSome then ds else ds ++ [d]

def amend (uri text : String) (ds : List TextDocument) : List TextDocument :=
  revise uri text (fun d => d.version + 1) ds

def clear (uri : String) (ds : List TextDocument) : List TextDocument :=
  ds.filter fun d => d.uri != uri

def deskStep (ds : List TextDocument) : Event → List TextDocument
  | .called (.didOpen d) (.flag true) => place d ds
  | .called (.didChange uri text) (.flag true) => amend uri text ds
  | .called (.didClose uri) (.flag true) => clear uri ds
  | _ => ds

def desk (log : List Event) : List TextDocument := log.foldl deskStep []

theorem placeKeeps {uri : String} {d placed : TextDocument} {ds : List TextDocument} (found : look uri ds = some placed) :
    look uri (place d ds) = some placed := by
  rw [place]
  split
  · exact found
  · rw [lookAppend, found, Option.some_or]

theorem placeHolds (d : TextDocument) (ds : List TextDocument) :
    look d.uri (place d ds) = some ((look d.uri ds).getD d) := by
  rw [place]
  split
  · rename_i known
    obtain ⟨placed, found⟩ := Option.isSome_iff_exists.mp known
    rw [found, Option.getD_some]
  · rename_i unknown
    rw [lookAppend, Option.not_isSome_iff_eq_none.mp unknown, if_pos rfl]
    rfl

theorem placeUnique {d : TextDocument} {ds : List TextDocument} (unique : (names ds).Nodup) :
    (names (place d ds)).Nodup := by
  rw [place]
  split
  · exact unique
  · rename_i absent
    have new : d.uri ∉ names ds := lookNone.mp (by simpa using absent)
    rw [names, List.map_append, List.nodup_append]
    refine ⟨unique, by simp, ?_⟩
    intro name member other last
    rw [List.mem_singleton.mp last]
    intro same
    exact new (by rwa [same] at member)

theorem deskStepUnique (e : Event) {ds : List TextDocument} (unique : (names ds).Nodup) :
    (names (deskStep ds e)).Nodup := by
  unfold deskStep
  split
  · exact placeUnique unique
  · rw [amend, namesRevise]
    exact unique
  · exact unique.sublist (List.filter_sublist.map _)
  · exact unique

theorem deskAppend (log : List Event) (e : Event) : desk (log ++ [e]) = deskStep (desk log) e := by
  rw [desk, List.foldl_append]
  rfl

theorem deskUnique (log : List Event) : (names (desk log)).Nodup := by
  suffices all : ∀ ds, (names ds).Nodup → (names (log.foldl deskStep ds)).Nodup from
    all [] List.nodup_nil
  induction log with
  | nil => exact fun ds unique => unique
  | cons e rest ih => exact fun ds unique => ih _ (deskStepUnique e unique)

variable {uri : String} {d : TextDocument}

def edit (d : TextDocument) : Event → TextDocument
  | .called (.didChange uri text) (.flag true) =>
    if uri = d.uri then {d with version := d.version + 1, text := text} else d
  | _ => d

def edited (d : TextDocument) (es : List Event) : TextDocument := es.foldl edit d

theorem lookStep {ds : List TextDocument} {e : Event} (found : look uri ds = some d)
    (kept : e ≠ .called (.didClose uri) (.flag true)) : look uri (deskStep ds e) = some (edit d e) := by
  have named := (lookName found).2
  unfold deskStep
  split
  · exact placeKeeps found
  · rename_i name text
    rw [amend, lookRevise]
    by_cases own : uri = name
    · subst own
      simp [edit, found, named]
    · simp [edit, own, found, named, Ne.symm own]
  · rename_i name
    have away : uri ≠ name := fun own => kept (by rw [own])
    rw [clear, lookErase, if_neg away, found]
    rfl
  · rename_i unchanged _
    unfold edit
    split
    · exact absurd rfl (unchanged _ _)
    · exact found

theorem lookSteps {log es : List Event} (found : look uri (desk log) = some d)
    (kept : .called (.didClose uri) (.flag true) ∉ es) : look uri (desk (log ++ es)) = some (edited d es) := by
  induction es generalizing log d with
  | nil => rwa [List.append_nil]
  | cons e rest ih =>
    rw [List.mem_cons, not_or] at kept
    obtain ⟨other, kept⟩ := kept
    have step : look uri (desk (log ++ [e])) = some (edit d e) := by
      rw [deskAppend]
      exact lookStep found (Ne.symm other)
    have later := ih step kept
    rwa [List.append_assoc] at later

end Client
end LspClient
