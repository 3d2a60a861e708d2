import Mathlib.Data.List.Flatten
import LspClient.Diagnostic
import LspClient.Peer.StandIn
import LspClient.Proofs.Message

/-! What the stand-in finds in a text: the first place of its word in each line, and the diagnostics that a
client reads from the JSON of these places. -/
namespace LspClient

namespace Utf8

theorem sizeCons (c : Char) (cs : List Char) : size (c :: cs) = c.utf8Size + size cs := by
  rw [← encodeLength, ← encodeLength, encodeCons, List.length_append, String.length_utf8EncodeChar]

theorem sizeAppend (cs ds : List Char) : size (cs ++ ds) = size cs + size ds := by
  rw [← encodeLength, ← encodeLength, ← encodeLength, encodeAppend, List.length_append]

theorem sizePart {part cs : List Char} (sub : part.Sublist cs) : size part ≤ size cs := by
  rw [← encodeLength, ← encodeLength]
  exact (sub.flatMap String.utf8EncodeChar).length_le

theorem sizeLength (cs : List Char) : cs.length ≤ size cs := by
  induction cs with
  | nil => exact Nat.zero_le _
  | cons c cs ih =>
    have one := Char.utf8Size_pos c
    rw [sizeCons, List.length_cons]
    omega

end Utf8

namespace Text
variable {cs line : List Char}

theorem splitPieces (c : Char) (cs : List Char) :
    (cs.splitOn c).length ≤ cs.length + 1 ∧ ∀ piece ∈ cs.splitOn c, piece.Sublist cs := by
  induction cs with
  | nil => simp
  | cons d cs ih =>
    obtain ⟨short, parts⟩ := ih
    rw [List.splitOn, List.splitOnP_cons_eq_if_modifyHead]
    split
    · refine ⟨by simpa [List.splitOn] using short, List.forall_mem_cons.mpr ⟨List.nil_sublist _, ?_⟩⟩
      exact fun piece member => (parts piece member).cons d
    · cases pieces : cs.splitOn c with
      | nil => exact absurd pieces (List.splitOn_ne_nil c cs)
      | cons first others =>
        rw [pieces, List.forall_mem_cons] at parts
        rw [pieces] at short
        rw [List.splitOn] at pieces
        rw [pieces, List.modifyHead_cons]
        refine ⟨by simpa using Nat.le_succ_of_le short, List.forall_mem_cons.mpr ⟨parts.1.cons_cons d, ?_⟩⟩
        exact fun piece member => (parts.2 piece member).cons d

theorem linesLength (cs : List Char) : (lines cs).length ≤ cs.length + 1 := by
  have few := (splitPieces '\n' cs).1
  have some := List.length_pos_iff.mpr (List.splitOn_ne_nil '\n' cs)
  simp only [lines]
  split <;> simp only [List.length_append, List.length_map, List.length_dropLast, List.length_singleton] <;> omega

theorem linesPart (member : line ∈ lines cs) : line.Sublist cs := by
  have parts := (splitPieces '\n' cs).2
  have ended : line ∈ ((cs.splitOn '\n').dropLast.map fun line =>
      if line.getLast? = some '\r' then line.dropLast else line) → line.Sublist cs := by
    intro member
    obtain ⟨piece, own, same⟩ := List.mem_map.mp member
    have whole := parts piece (List.dropLast_subset _ own)
    rw [← same]
    split
    · exact (List.dropLast_sublist piece).trans whole
    · exact whole
  simp only [lines] at member
  split at member
  · rename_i last
    rcases List.mem_append.mp member with early | late
    · exact ended early
    · rw [List.mem_singleton.mp late]
      exact parts _ (List.mem_of_getLast? last)
  · exact ended member

end Text

namespace StandIn

def First (part before line : List Char) : Prop :=
  ∃ after, line = before ++ part ++ after ∧
    ∀ earlier rest, line = earlier ++ part ++ rest → before.length ≤ earlier.length

theorem firstStart {part before line : List Char} (starts : part <+: line) :
    First part before line ↔ before = [] := by
  obtain ⟨after, rfl⟩ := starts
  constructor
  · rintro ⟨_, _, least⟩
    exact List.eq_nil_of_length_eq_zero (Nat.le_zero.mp (least [] after rfl))
  · rintro rfl
    exact ⟨after, rfl, fun _ _ _ => Nat.zero_le _⟩

theorem firstLater {part before line : List Char} {c : Char} (away : ¬ part <+: c :: line) :
    First part before (c :: line) ↔ ∃ rest, before = c :: rest ∧ First part rest line := by
  have later {before after : List Char} (whole : c :: line = before ++ part ++ after) :
      ∃ rest, before = c :: rest ∧ line = rest ++ part ++ after := by
    cases before with
    | nil => exact absurd ⟨after, whole.symm⟩ away
    | cons d rest =>
      obtain ⟨rfl, tail⟩ := List.cons.inj whole
      exact ⟨rest, rfl, tail⟩
  constructor
  · rintro ⟨after, whole, least⟩
    obtain ⟨rest, rfl, inner⟩ := later whole
    refine ⟨rest, rfl, after, inner, fun earlier last other => ?_⟩
    exact Nat.le_of_succ_le_succ (least (c :: earlier) last (by rw [other]; rfl))
  · rintro ⟨rest, rfl, after, whole, least⟩
    refine ⟨after, by rw [whole]; rfl, fun earlier last other => ?_⟩
    obtain ⟨tail, rfl, inner⟩ := later other
    exact Nat.succ_le_succ (least tail last inner)

theorem firstNowhere {part before : List Char} (word : part ≠ []) : ¬ First part before [] := by
  rintro ⟨after, whole, _⟩
  rw [List.append_assoc] at whole
  exact word (List.append_eq_nil_iff.mp (List.append_eq_nil_iff.mp whole.symm).2).1

theorem firstExists {part line : List Char} (within : part <:+: line) : ∃ before, First part before line := by
  induction line with
  | nil => exact ⟨[], (firstStart (List.infix_nil.mp within ▸ List.nil_prefix)).mpr rfl⟩
  | cons c line ih =>
    by_cases starts : part <+: c :: line
    · exact ⟨[], (firstStart starts).mpr rfl⟩
    · obtain ⟨rest, first⟩ := ih ((List.infix_cons_iff.mp within).resolve_left starts)
      exact ⟨c :: rest, (firstLater starts).mpr ⟨rest, rfl, first⟩⟩

theorem firstWithin {part before line : List Char} (first : First part before line) : part <:+: line := by
  obtain ⟨after, whole, _⟩ := first
  exact ⟨before, after, whole.symm⟩

theorem columnFirst {part line : List Char} {n : Nat} :
    column? part line = some n ↔ ∃ before, First part before line ∧ Utf8.size before = n := by
  induction line generalizing n with
  | nil =>
    rw [column?]
    cases part with
    | nil => simp [firstStart List.nil_prefix, Utf8.size]
    | cons c cs => simp [firstNowhere (List.cons_ne_nil c cs)]
  | cons c cs ih =>
    rw [column?]
    split
    · rename_i starts
      simp [firstStart (List.isPrefixOf_iff_prefix.mp starts), Utf8.size]
    · rename_i away
      simp only [firstLater (mt List.isPrefixOf_iff_prefix.mpr away), Option.map_eq_some_iff, ih]
      constructor
      · rintro ⟨_, ⟨rest, first, rfl⟩, rfl⟩
        exact ⟨c :: rest, ⟨rest, rfl, first⟩, Utf8.sizeCons c rest⟩
      · rintro ⟨_, ⟨rest, rfl, first⟩, rfl⟩
        exact ⟨_, ⟨rest, first, rfl⟩, (Utf8.sizeCons c rest).symm⟩

theorem memFindings {text : String} {row column : Nat} : (row, column) ∈ findings text ↔
    ∃ line, (Text.lines text.toList)[row]? = some line ∧ column? needle line = some column := by
  rw [findings, List.mem_filterMap]
  constructor
  · rintro ⟨⟨line, i⟩, member, found⟩
    obtain ⟨c, here, same⟩ := Option.map_eq_some_iff.mp found
    obtain ⟨rfl, rfl⟩ := Prod.mk.inj same
    exact ⟨line, List.mem_zipIdx_iff_getElem?.mp member, here⟩
  · rintro ⟨line, member, found⟩
    exact ⟨(line, row), List.mem_zipIdx_iff_getElem?.mpr member, by simp [found]⟩

theorem findingsIncreasing (text : String) : ((findings text).map Prod.fst).Pairwise (· < ·) := by
  have rows : ((Text.lines text.toList).zipIdx.map Prod.snd).Pairwise (· < ·) := by
    rw [List.zipIdx_map_snd]
    exact List.pairwise_lt_range'
  rw [List.pairwise_map] at rows ⊢
  refine rows.filterMap _ fun a b less c found d found' => ?_
  obtain ⟨_, _, rfl⟩ := Option.map_eq_some_iff.mp found
  obtain ⟨_, _, rfl⟩ := Option.map_eq_some_iff.mp found'
  exact less

def Narrow (text : String) : Prop :=
  ∀ finding ∈ findings text, finding.1 < Nat.pow 2 32 ∧ finding.2 + needle.length < Nat.pow 2 32

theorem smallNarrow {text : String} (small : (Utf8.ofString text).length ≤ Frame.limit) : Narrow text := by
  intro ⟨row, column⟩ member
  obtain ⟨line, here, found⟩ := memFindings.mp member
  obtain ⟨before, ⟨after, whole, _⟩, rfl⟩ := columnFirst.mp found
  have few := Text.linesLength text.toList
  have short := Utf8.sizePart (Text.linesPart (List.mem_of_getElem? here))
  have long := Utf8.sizeLength text.toList
  have below := (List.getElem?_eq_some_iff.mp here).1
  rw [whole, Utf8.sizeAppend, Utf8.sizeAppend] at short
  rw [Utf8.ofString, Utf8.encodeLength] at small
  have word : Utf8.size needle = needle.length := by decide
  have limit : Frame.limit + 2 < Nat.pow 2 32 := by decide
  constructor <;> dsimp only <;> omega

def note (finding : Nat × Nat) : Diagnostic where
  range := ⟨⟨.ofNat finding.1, .ofNat finding.2⟩, ⟨.ofNat finding.1, .ofNat (finding.2 + needle.length)⟩⟩
  severity := some .error
  code := none
  source := some name
  message := "found `error`"

def noted (text : String) : List Diagnostic := (findings text).map note

structure Marks (d : Diagnostic) (row column : Nat) : Prop where
  start : d.range.start.line.toNat = row ∧ d.range.start.character.toNat = column
  stop : d.range.stop.line.toNat = row ∧ d.range.stop.character.toNat = column + needle.length
  severity : d.severity = some .error
  code : d.code = none
  source : d.source = some name
  message : d.message = "found `error`"

structure Reports (text : String) (items : List Diagnostic) : Prop where
  increasing : (items.map fun d => d.range.start.line.toNat).Pairwise (· < ·)
  sound : ∀ d ∈ items, ∃ row line before, (Text.lines text.toList)[row]? = some line ∧
    First needle before line ∧ Marks d row (Utf8.size before)
  complete : ∀ (row : Nat) line before, (Text.lines text.toList)[row]? = some line →
    First needle before line → ∃ d ∈ items, Marks d row (Utf8.size before)

theorem noteMarks {row column : Nat} (small : row < Nat.pow 2 32)
    (small' : column + needle.length < Nat.pow 2 32) : Marks (note (row, column)) row column where
  start := ⟨UInt32.toNat_ofNat_of_lt' small, UInt32.toNat_ofNat_of_lt' (by
    have less : column < Nat.pow 2 32 := by omega
    exact less)⟩
  stop := ⟨UInt32.toNat_ofNat_of_lt' small, UInt32.toNat_ofNat_of_lt' small'⟩
  severity := rfl
  code := rfl
  source := rfl
  message := rfl

theorem notedReports {text : String} (narrow : Narrow text) : Reports text (noted text) where
  increasing := by
    have rows : (noted text).map (fun d => d.range.start.line.toNat) = (findings text).map Prod.fst := by
      rw [noted, List.map_map]
      exact List.map_congr_left fun finding member =>
        (noteMarks (narrow finding member).1 (narrow finding member).2).start.1
    exact rows ▸ findingsIncreasing text
  sound d member := by
    obtain ⟨⟨row, column⟩, found, rfl⟩ := List.mem_map.mp member
    obtain ⟨line, here, place⟩ := memFindings.mp found
    obtain ⟨before, first, rfl⟩ := columnFirst.mp place
    exact ⟨row, line, before, here, first, noteMarks (narrow _ found).1 (narrow _ found).2⟩
  complete row line before here first := by
    have found := memFindings.mpr ⟨line, here, columnFirst.mpr ⟨before, first, rfl⟩⟩
    exact ⟨_, List.mem_map_of_mem found, noteMarks (narrow _ found).1 (narrow _ found).2⟩

theorem notedEmpty : noted "" = [] := rfl

theorem numberRead {n : Nat} (small : n < Nat.pow 2 32) : Json.nat64? (.integer n) = some n := by
  have range : (0 : Int) ≤ n ∧ (n : Int) < Int.pow 2 64 := by
    have pow : Nat.pow 2 32 = 4294967296 := rfl
    have pow' : Int.pow 2 64 = 18446744073709551616 := rfl
    omega
  rw [Json.nat64?, if_pos range, Int.toNat_natCast]

theorem positionFields {value line character : Json} {row column : Nat} (first : value.field? "line" = some line)
    (second : value.field? "character" = some character) (rows : line.nat64? = some row)
    (columns : character.nat64? = some column) :
    Position.ofJson? value = some ⟨.ofNat row, .ofNat column⟩ := by
  simp [Position.ofJson?, first, second, rows, columns]

theorem positionRead {row column : Nat} (small : row < Nat.pow 2 32) (small' : column < Nat.pow 2 32) :
    Position.ofJson? (positionJson row column) = some ⟨.ofNat row, .ofNat column⟩ := by
  refine positionFields ?_ ?_ (numberRead small) (numberRead small')
  · simp [positionJson, Json.ofFields, Json.field?, Json.lookupOrder, Json.lookupCons]
  · simp [positionJson, Json.ofFields, Json.field?, Json.lookupOrder]

theorem spanFields {value start stop : Json} {first last : Position} (starts : value.field? "start" = some start)
    (stops : value.field? "end" = some stop) (opening : Position.ofJson? start = some first)
    (ending : Position.ofJson? stop = some last) : Span.ofJson? value = some ⟨first, last⟩ := by
  simp [Span.ofJson?, starts, stops, opening, ending]

theorem diagnosticFields {value range severity : Json} {span : Span} {level : Severity} {source message : String}
    (ranged : value.field? "range" = some range) (spans : Span.ofJson? range = some span)
    (severe : value.field? "severity" = some severity) (levels : Severity.ofJson? severity = some level)
    (uncoded : value.field? "code" = none) (sourced : value.field? "source" = some (.string source))
    (told : value.field? "message" = some (.string message)) :
    Diagnostic.ofJson? value = some ⟨span, some level, none, some source, message⟩ := by
  simp [Diagnostic.ofJson?, ranged, spans, severe, levels, uncoded, sourced, told, Json.string?]

theorem diagnosticRead {finding : Nat × Nat} (small : finding.1 < Nat.pow 2 32)
    (small' : finding.2 + needle.length < Nat.pow 2 32) :
    Diagnostic.ofJson? (diagnosticJson finding) = some (note finding) := by
  have short : finding.2 < Nat.pow 2 32 := Nat.lt_of_le_of_lt (Nat.le_add_right _ _) small'
  have start := positionRead small short
  have stop := positionRead small small'
  have severity : Severity.ofJson? (.integer 1) = some .error := by decide
  unfold diagnosticJson
  generalize positionJson finding.1 finding.2 = first at start
  generalize positionJson finding.1 (finding.2 + needle.length) = last at stop
  have span : Span.ofJson? (.ofFields [("start", first), ("end", last)]) = some (note finding).range := by
    refine spanFields ?_ ?_ start stop <;> simp [Json.ofFields, Json.field?, Json.lookupOrder, Json.lookupCons]
  refine diagnosticFields ?_ span ?_ severity ?_ ?_ ?_ <;>
    simp [Json.ofFields, Json.field?, Json.lookupOrder, Json.lookupCons]

theorem diagnosticsRead {text : String} (narrow : Narrow text) :
    Diagnostic.listOfJson (diagnosticsJson text) = noted text := by
  have each : ∀ finding ∈ findings text, Diagnostic.ofJson? (diagnosticJson finding) = some (note finding) :=
    fun finding member => diagnosticRead (narrow finding member).1 (narrow finding member).2
  rw [Diagnostic.listOfJson, diagnosticsJson, Json.items?, Option.getD_some, noted]
  generalize findings text = found at each
  induction found with
  | nil => rfl
  | cons finding found ih =>
    rw [List.forall_mem_cons] at each
    rw [List.map_cons, List.filterMap_cons_some each.1, ih each.2, List.map_cons]

end StandIn
end LspClient
