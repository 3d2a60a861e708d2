import Mathlib.Data.List.Basic
import LspClient.Machine

/-! Places under one name. Two files that can be read and have the same canonical name stand in the same place, so
they have the same content. -/
namespace LspClient.Machine
open Utf8 (Octets)

variable {m : Machine} {origin place place' next : List String} {name other segment : String}
  {content content' : Octets}

def Proper (place : List String) : Prop := ∀ segment ∈ place, segment ≠ "" ∧ '/' ∉ segment.toList

theorem piecesApart (c : Char) (cs : List Char) : ∀ piece ∈ cs.splitOn c, c ∉ piece := by
  induction cs with
  | nil => simp
  | cons d cs ih =>
    rw [List.splitOn, List.splitOnP_cons_eq_if_modifyHead]
    rw [List.splitOn] at ih
    split
    · exact List.forall_mem_cons.mpr ⟨List.not_mem_nil, ih⟩
    · rename_i other
      cases pieces : cs.splitOnP (· == c) with
      | nil => exact absurd pieces (List.splitOnP_ne_nil _ cs)
      | cons first others =>
        rw [pieces, List.forall_mem_cons] at ih
        have away : c ≠ d := fun same => other (by simp [same])
        rw [List.modifyHead_cons]
        exact List.forall_mem_cons.mpr ⟨List.not_mem_cons_of_ne_of_not_mem away ih.1, ih.2⟩

theorem segmentsApart (member : segment ∈ segments name) : '/' ∉ segment.toList := by
  obtain ⟨piece, own, rfl⟩ := List.mem_map.mp member
  rw [String.toList_ofList]
  exact piecesApart '/' name.toList piece own

theorem stepProper (proper : Proper place) (apart : '/' ∉ segment.toList)
    (stepped : m.step place segment = .ok next) : Proper next := by
  unfold step at stepped
  split at stepped
  · cases stepped
  · repeat' split at stepped
    · cases stepped
      exact proper
    · cases stepped
      exact fun segment member => proper segment (List.dropLast_subset place member)
    · cases stepped
    · rename_i named _ _ _
      cases stepped
      exact List.forall_mem_append.mpr ⟨proper, List.forall_mem_singleton.mpr ⟨fun empty => named (.inl empty), apart⟩⟩
    · cases stepped
  · cases stepped

theorem walkProper {walked : List String} (apart : ∀ segment ∈ walked, '/' ∉ segment.toList) (proper : Proper origin)
    (resolved : walked.foldlM m.step origin = .ok place) : Proper place := by
  induction walked generalizing origin with
  | nil =>
    cases resolved
    exact proper
  | cons segment walked ih =>
    obtain ⟨first, others⟩ := List.forall_mem_cons.mp apart
    rw [List.foldlM_cons] at resolved
    cases stepped : m.step origin segment with
    | error => rw [stepped] at resolved; cases resolved
    | ok next =>
      rw [stepped] at resolved
      exact ih others (stepProper proper first stepped) resolved

theorem resolveProper (proper : Proper origin) (resolved : m.resolve origin name = .ok place) : Proper place := by
  unfold resolve at resolved
  repeat' split at resolved
  · cases resolved
  · cases resolved
  · cases resolved
  · exact walkProper (fun _ => segmentsApart) (List.forall_mem_nil _) resolved
  · exact walkProper (fun _ => segmentsApart) proper resolved

theorem placeNameChars (place : List String) :
    (placeName place).toList = '/' :: ['/'].intercalate (place.map String.toList) := by
  rw [placeName, String.toList_append, String.toList_intercalate]
  rfl

theorem placeNameInjective (proper : Proper place) (proper' : Proper place')
    (same : placeName place = placeName place') : place = place' := by
  have chars := congrArg String.toList same
  rw [placeNameChars, placeNameChars] at chars
  have parts {place : List String} (proper : Proper place) :
      ((['/'].intercalate (place.map String.toList)).splitOn '/').filter (! ·.isEmpty) = place.map String.toList := by
    by_cases empty : place = []
    · -- what follows the slash of the root is one empty piece
      rw [empty]
      rfl
    · rw [List.splitOn_intercalate '/' (List.forall_mem_map.mpr fun segment member => (proper segment member).2)
        (by simpa using empty)]
      refine List.filter_eq_self.mpr (List.forall_mem_map.mpr fun segment member => ?_)
      simpa using (proper segment member).1
  have whole : place.map String.toList = place'.map String.toList := by
    rw [← parts proper, (List.cons.inj chars).2, parts proper']
  exact List.map_injective_iff.mpr (fun _ _ => String.toList_inj.mp) whole

theorem readFileFound : m.readFile name = .ok content ↔
    ∃ place, m.resolve m.current name = .ok place ∧ m.find? place = some (.data content) := by
  unfold readFile
  cases resolved : m.resolve m.current name with
  | error => simp [Bind.bind, Except.bind]
  | ok place =>
    simp only [Bind.bind, Except.bind, Except.ok.injEq, exists_eq_left']
    split <;> simp_all

theorem canonicalRooted (read : m.readFile name = .ok content) : (m.canonical name).toList.head? = some '/' := by
  obtain ⟨place, resolved, _⟩ := readFileFound.mp read
  rw [canonical, resolved]
  dsimp only
  rw [placeNameChars, List.head?_cons]

theorem canonicalReads (proper : Proper m.current) (same : m.canonical name = m.canonical other)
    (read : m.readFile name = .ok content) (read' : m.readFile other = .ok content') : content = content' := by
  obtain ⟨place, resolved, found⟩ := readFileFound.mp read
  obtain ⟨place', resolved', found'⟩ := readFileFound.mp read'
  simp only [canonical, resolved, resolved'] at same
  obtain rfl := placeNameInjective (resolveProper proper resolved) (resolveProper proper resolved') same
  cases found.symm.trans found'
  rfl

end LspClient.Machine
