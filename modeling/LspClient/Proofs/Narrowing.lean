import LspClient.Capabilities
import LspClient.Diagnostic
import LspClient.Proofs.Json.Scalars

/-! The numbers of a server, as diagnostics and capabilities show them. An entry is kept whatever the size of its
numbers: of each the low 32 bits are shown, and of the kind of synchronisation the low eight. Only numbers that
fit are shown as they are. -/
namespace LspClient

def low32 (n : Nat) : Nat := n % Nat.pow 2 32

def low8 (n : Nat) : Nat := n % Nat.pow 2 8

def Severity.number : Severity → Nat
  | .error => 1
  | .warning => 2
  | .information => 3
  | .hint => 4

theorem Severity.numbered {n : UInt32} {level : Severity} : ofNumber? n = some level ↔ n.toNat = level.number := by
  have one : n = 1 ↔ n.toNat = 1 := UInt32.toNat_inj.symm
  have two : n = 2 ↔ n.toNat = 2 := UInt32.toNat_inj.symm
  have three : n = 3 ↔ n.toNat = 3 := UInt32.toNat_inj.symm
  have four : n = 4 ↔ n.toNat = 4 := UInt32.toNat_inj.symm
  simp only [ofNumber?, one, two, three, four]
  cases level <;> simp only [number] <;> grind

theorem Severity.numberSmall (level : Severity) : level.number < Nat.pow 2 32 := by
  cases level <;> decide

namespace Diagnostic

variable {narrow : Nat → Nat} {value entry : Json} {entries : List Json} {d : Diagnostic} {ds : List Diagnostic}

structure Place where
  line : Nat
  character : Nat

structure Placed (value : Json) (place : Place) : Prop where
  line : value.Counts "line" place.line
  character : value.Counts "character" place.character

inductive Ranges (entry : Json) : Place → Place → Prop where
  | between {range start stop : Json} {first last : Place} (ranged : entry.field? "range" = some range)
      (started : range.field? "start" = some start) (stopped : range.field? "end" = some stop)
      (begins : Placed start first) (ends : Placed stop last) : Ranges entry first last

inductive Coded (entry : Json) : String → Prop where
  | text {code} (held : entry.field? "code" = some (.string code)) : Coded entry code
  | whole {n : Int} (held : entry.field? "code" = some (.integer n)) (ranged : -Int.pow 2 63 ≤ n ∧ n < Int.pow 2 63) :
      Coded entry (toString n)

structure WellFormed (entry : Json) : Prop where
  ranged : ∃ first last, Ranges entry first last
  told : ∃ text, entry.field? "message" = some (.string text)

structure ShowsPlace (narrow : Nat → Nat) (place : Place) (p : Position) : Prop where
  line : p.line.toNat = narrow place.line
  character : p.character.toNat = narrow place.character

structure Shows (narrow : Nat → Nat) (entry : Json) (d : Diagnostic) : Prop where
  range : ∃ first last, Ranges entry first last ∧ ShowsPlace narrow first d.range.start ∧
    ShowsPlace narrow last d.range.stop
  message : entry.field? "message" = some (.string d.message)
  severity : ∀ level, d.severity = some level ↔ ∃ n, entry.Counts "severity" n ∧ narrow n = level.number
  code : ∀ code, d.code = some code ↔ Coded entry code
  source : ∀ source, d.source = some source ↔ entry.field? "source" = some (.string source)

inductive Listed (narrow : Nat → Nat) : List Json → List Diagnostic → Prop where
  | nil : Listed narrow [] []
  | kept {entry : Json} {d : Diagnostic} {entries : List Json} {ds : List Diagnostic} (shows : Shows narrow entry d)
      (rest : Listed narrow entries ds) : Listed narrow (entry :: entries) (d :: ds)
  | skipped {entry : Json} {entries : List Json} {ds : List Diagnostic} (malformed : ∀ d, ¬ Shows narrow entry d)
      (rest : Listed narrow entries ds) : Listed narrow (entry :: entries) ds

structure Fits (entry : Json) : Prop where
  places : ∀ first last, Ranges entry first last → (first.line < Nat.pow 2 32 ∧ first.character < Nat.pow 2 32) ∧
    last.line < Nat.pow 2 32 ∧ last.character < Nat.pow 2 32
  severity : ∀ n level, entry.Counts "severity" n → low32 n = Severity.number level → n < Nat.pow 2 32

theorem positionRead {p : Position} : Position.ofJson? value = some p ↔
    ∃ place, Placed value place ∧ p = ⟨.ofNat place.line, .ofNat place.character⟩ := by
  simp only [Position.ofJson?, Option.bind_eq_bind, Option.bind_eq_some_iff, Json.countRead, Option.some.injEq]
  constructor
  · rintro ⟨_, line, n, ⟨rfl, small⟩, _, character, m, ⟨rfl, small'⟩, rfl⟩
    exact ⟨⟨n, m⟩, ⟨⟨line, small⟩, ⟨character, small'⟩⟩, rfl⟩
  · rintro ⟨place, ⟨⟨line, small⟩, ⟨character, small'⟩⟩, rfl⟩
    exact ⟨_, line, _, ⟨rfl, small⟩, _, character, _, ⟨rfl, small'⟩, rfl⟩

theorem positionShows (place : Place) : ShowsPlace low32 place ⟨.ofNat place.line, .ofNat place.character⟩ :=
  ⟨UInt32.toNat_ofNat', UInt32.toNat_ofNat'⟩

theorem rangeRead {span : Span} : (entry.field? "range").bind Span.ofJson? = some span ↔
    ∃ first last, Ranges entry first last ∧
      span = ⟨⟨.ofNat first.line, .ofNat first.character⟩, ⟨.ofNat last.line, .ofNat last.character⟩⟩ := by
  simp only [Span.ofJson?, Option.bind_eq_bind, Option.bind_eq_some_iff, positionRead, Option.some.injEq]
  constructor
  · rintro ⟨_, ranged, _, started, _, ⟨first, begins, rfl⟩, _, stopped, _, ⟨last, ends, rfl⟩, rfl⟩
    exact ⟨first, last, .between ranged started stopped begins ends, rfl⟩
  · rintro ⟨first, last, ⟨ranged, started, stopped, begins, ends⟩, rfl⟩
    exact ⟨_, ranged, _, started, _, ⟨first, begins, rfl⟩, _, stopped, _, ⟨last, ends, rfl⟩, rfl⟩

theorem severityRead {level : Severity} : (entry.field? "severity").bind Severity.ofJson? = some level ↔
    ∃ n, entry.Counts "severity" n ∧ low32 n = level.number := by
  have counted : (entry.field? "severity").bind Severity.ofJson? =
      ((entry.field? "severity").bind Json.nat64?).bind fun n => Severity.ofNumber? (.ofNat n) := by
    rw [Option.bind_assoc]
    rfl
  simp only [counted, Option.bind_eq_some_iff (x := (entry.field? "severity").bind Json.nat64?), Json.countMember,
    Severity.numbered, UInt32.toNat_ofNat']
  rfl

theorem codeRead {code : String} : (entry.field? "code").bind code? = some code ↔ Coded entry code := by
  rw [Option.bind_eq_some_iff]
  constructor
  · rintro ⟨value, held, read⟩
    unfold code? at read
    split at read
    · rename_i own text
      cases read
      exact .text (held.trans (congrArg some (Json.textRead text)))
    · obtain ⟨n, whole, rfl⟩ := Option.map_eq_some_iff.mp read
      obtain ⟨rfl, ranged⟩ := Json.wholeRead.mp whole
      exact .whole held ranged
  · rintro (held | ⟨held, ranged⟩)
    · exact ⟨_, held, rfl⟩
    · exact ⟨_, held, congrArg (Option.map toString) (Json.wholeRead.mpr ⟨rfl, ranged⟩)⟩

theorem readShows (read : ofJson? entry = some d) : Shows low32 entry d := by
  simp only [ofJson?, Option.bind_eq_bind, Option.bind_eq_some_iff, Option.some.injEq] at read
  obtain ⟨value, ranged, span, spanned, _, told, text, asText, rfl⟩ := read
  obtain ⟨first, last, ranges, rfl⟩ := rangeRead.mp (Option.bind_eq_some_iff.mpr ⟨value, ranged, spanned⟩)
  exact {
    range := ⟨first, last, ranges, positionShows first, positionShows last⟩
    message := told.trans (congrArg some (Json.textRead asText))
    severity := fun _ => severityRead
    code := fun _ => codeRead
    source := fun _ => Json.textMember }

theorem formedRead (formed : WellFormed entry) : ∃ d, ofJson? entry = some d := by
  obtain ⟨⟨first, last, ranges⟩, text, told⟩ := formed
  obtain ⟨range, ranged, spanned⟩ := Option.bind_eq_some_iff.mp (rangeRead.mpr ⟨first, last, ranges, rfl⟩)
  simp [ofJson?, ranged, spanned, told, Json.string?]

theorem showsFormed (shows : Shows narrow entry d) : WellFormed entry :=
  let ⟨first, last, ranges, _⟩ := shows.range
  ⟨⟨first, last, ranges⟩, _, shows.message⟩

theorem placedOnce {place place' : Place} (placed : Placed value place) (placed' : Placed value place') :
    place = place' := by
  cases place; cases place'
  rw [Place.mk.injEq]
  exact ⟨Json.countsOnce placed.line placed'.line, Json.countsOnce placed.character placed'.character⟩

theorem rangesOnce {first last first' last' : Place} (ranges : Ranges entry first last)
    (ranges' : Ranges entry first' last') : first = first' ∧ last = last' := by
  obtain ⟨ranged, started, stopped, begins, ends⟩ := ranges
  obtain ⟨ranged', started', stopped', begins', ends'⟩ := ranges'
  cases ranged.symm.trans ranged'
  cases started.symm.trans started'
  cases stopped.symm.trans stopped'
  exact ⟨placedOnce begins begins', placedOnce ends ends'⟩

theorem showsPlaceOnce {place : Place} {p q : Position} (shows : ShowsPlace narrow place p)
    (shows' : ShowsPlace narrow place q) : p = q := by
  cases p; cases q
  rw [Position.mk.injEq]
  exact ⟨UInt32.toNat_inj.mp (shows.line.trans shows'.line.symm),
    UInt32.toNat_inj.mp (shows.character.trans shows'.character.symm)⟩

theorem showsOnce {d' : Diagnostic} (shows : Shows narrow entry d) (shows' : Shows narrow entry d') : d = d' := by
  obtain ⟨first, last, ranges, begins, ends⟩ := shows.range
  obtain ⟨first', last', ranges', begins', ends'⟩ := shows'.range
  obtain ⟨rfl, rfl⟩ := rangesOnce ranges ranges'
  have start := showsPlaceOnce begins begins'
  have stop := showsPlaceOnce ends ends'
  have message := shows.message.symm.trans shows'.message
  have severity : d.severity = d'.severity :=
    Option.ext fun level => (shows.severity level).trans (shows'.severity level).symm
  have code : d.code = d'.code := Option.ext fun code => (shows.code code).trans (shows'.code code).symm
  have source : d.source = d'.source :=
    Option.ext fun source => (shows.source source).trans (shows'.source source).symm
  obtain ⟨⟨_, _⟩, _, _, _, _⟩ := d
  obtain ⟨⟨_, _⟩, _, _, _, _⟩ := d'
  simp_all

theorem entryRead : ofJson? entry = some d ↔ Shows low32 entry d := by
  refine ⟨readShows, fun shows => ?_⟩
  obtain ⟨d', read⟩ := formedRead (showsFormed shows)
  rwa [showsOnce shows (readShows read)]

theorem listRead (entries : List Json) : Listed low32 entries (entries.filterMap ofJson?) := by
  induction entries with
  | nil => exact .nil
  | cons entry entries ih =>
    cases read : ofJson? entry with
    | some d =>
      rw [List.filterMap_cons_some read]
      exact .kept (entryRead.mp read) ih
    | none =>
      rw [List.filterMap_cons_none read]
      exact .skipped (fun d shows => nomatch read.symm.trans (entryRead.mpr shows)) ih

theorem placeFits {place : Place} {p : Position} (shows : ShowsPlace id place p) :
    place.line < Nat.pow 2 32 ∧ place.character < Nat.pow 2 32 :=
  ⟨(show _ = place.line from shows.line) ▸ p.line.toNat_lt,
    (show _ = place.character from shows.character) ▸ p.character.toNat_lt⟩

theorem fitsPlace {place : Place} {p : Position} (fits : place.line < Nat.pow 2 32 ∧ place.character < Nat.pow 2 32)
    (narrowed : ShowsPlace low32 place p) : ShowsPlace id place p :=
  ⟨narrowed.line.trans (Nat.mod_eq_of_lt fits.1), narrowed.character.trans (Nat.mod_eq_of_lt fits.2)⟩

theorem showsFits (shows : Shows id entry d) (narrowed : Shows low32 entry d) : Fits entry where
  places first last ranges := by
    obtain ⟨first', last', ranges', begins, ends⟩ := shows.range
    obtain ⟨rfl, rfl⟩ := rangesOnce ranges ranges'
    exact ⟨placeFits begins, placeFits ends⟩
  severity n level counts narrows := by
    obtain ⟨m, counts', (exact : m = _)⟩ :=
      (shows.severity level).mp ((narrowed.severity level).mpr ⟨n, counts, narrows⟩)
    rw [Json.countsOnce counts counts', exact]
    exact level.numberSmall

theorem fitsShows (fits : Fits entry) (narrowed : Shows low32 entry d) : Shows id entry d where
  range := by
    obtain ⟨first, last, ranges, begins, ends⟩ := narrowed.range
    have places := fits.places first last ranges
    exact ⟨first, last, ranges, fitsPlace places.1 begins, fitsPlace places.2 ends⟩
  message := narrowed.message
  severity level := by
    rw [narrowed.severity]
    constructor
    · rintro ⟨n, counts, narrows⟩
      exact ⟨n, counts, (Nat.mod_eq_of_lt (fits.severity n level counts narrows)).symm.trans narrows⟩
    · rintro ⟨n, counts, rfl : n = _⟩
      exact ⟨_, counts, Nat.mod_eq_of_lt level.numberSmall⟩
  code := narrowed.code
  source := narrowed.source

theorem formedShows (formed : WellFormed entry) : ∃ d, Shows low32 entry d :=
  let ⟨d, read⟩ := formedRead formed
  ⟨d, readShows read⟩

theorem fitsListed (narrowed : Listed low32 entries ds) (fits : ∀ entry ∈ entries, WellFormed entry → Fits entry) :
    Listed id entries ds := by
  induction narrowed with
  | nil => exact .nil
  | kept shows rest ih =>
    rw [List.forall_mem_cons] at fits
    exact .kept (fitsShows (fits.1 (showsFormed shows)) shows) (ih fits.2)
  | skipped malformed rest ih =>
    rw [List.forall_mem_cons] at fits
    refine .skipped (fun d shows => ?_) (ih fits.2)
    obtain ⟨d', narrowed⟩ := formedShows (showsFormed shows)
    exact malformed d' narrowed

theorem exactShorter {ds' : List Diagnostic} (exact : Listed id entries ds) (narrowed : Listed low32 entries ds') :
    ds.length ≤ ds'.length := by
  induction exact generalizing ds' with
  | nil => exact Nat.zero_le _
  | kept shows rest ih =>
    cases narrowed with
    | kept _ others => exact Nat.succ_le_succ (ih others)
    | skipped malformed _ =>
      obtain ⟨d', narrowed⟩ := formedShows (showsFormed shows)
      exact absurd narrowed (malformed d')
  | skipped _ rest ih =>
    cases narrowed with
    | kept _ others => exact Nat.le_succ_of_le (ih others)
    | skipped _ others => exact ih others

theorem listedFits (narrowed : Listed low32 entries ds) (exact : Listed id entries ds) :
    ∀ entry ∈ entries, WellFormed entry → Fits entry := by
  induction narrowed with
  | nil => exact fun _ member => nomatch member
  | kept shows rest ih =>
    cases exact with
    | kept same others => exact List.forall_mem_cons.mpr ⟨fun _ => showsFits same shows, ih others⟩
    | skipped _ others => exact absurd (exactShorter others rest) (Nat.not_succ_le_self _)
  | skipped malformed rest ih =>
    cases exact with
    | kept same _ =>
      obtain ⟨d', narrowed⟩ := formedShows (showsFormed same)
      exact absurd narrowed (malformed d')
    | skipped _ others =>
      refine List.forall_mem_cons.mpr ⟨fun formed => ?_, ih others⟩
      obtain ⟨d', narrowed⟩ := formedShows formed
      exact absurd narrowed (malformed d')

end Diagnostic

namespace Capabilities

variable {result caps : Json} {n : Nat}

inductive Told (result : Json) : Json → Prop where
  | under {caps : Json} (held : result.field? "capabilities" = some caps) : Told result caps
  | directly (bare : result.field? "capabilities" = Option.none) : Told result result

inductive Announced (result : Json) (n : Nat) : Prop where
  | alone {caps : Json} (told : Told result caps) (counts : caps.Counts "textDocumentSync" n) : Announced result n
  | change {caps : Json} {options : List (String × Json)} (told : Told result caps)
      (held : caps.field? "textDocumentSync" = some (.object options))
      (counts : (Json.object options).Counts "change" n) : Announced result n

theorem toldOf : Told result ((result.field? "capabilities").getD result) := by
  cases held : result.field? "capabilities" with
  | some caps => exact .under held
  | none => exact .directly held

theorem toldOnce (told : Told result caps) : (result.field? "capabilities").getD result = caps := by
  cases told with
  | under held => simp [held]
  | directly bare => simp [bare]

theorem announcedSync (announced : Announced result n) : (ofResult result).sync.toNat = low8 n := by
  cases announced with
  | alone told counts =>
    simp [ofResult, toldOnce told, syncOf, counts.1, Json.countRead.mpr ⟨rfl, counts.2⟩, low8]
  | change told held counts =>
    have read : (((Json.object _).field? "change").bind Json.nat64?) = some n := Json.countMember.mpr counts
    rw [Json.field?] at read
    simp [ofResult, toldOnce told, syncOf, held, read, low8]

theorem silentSync (silent : ∀ n, ¬ Announced result n) : (ofResult result).sync = 0 := by
  change syncOf ((result.field? "capabilities").getD result) = 0
  generalize kept : (result.field? "capabilities").getD result = caps
  have told : Told result caps := kept ▸ toldOf
  dsimp only [syncOf]
  split
  · rename_i options held
    have none : (options.lookup "change").bind Json.nat64? = Option.none :=
      Option.eq_none_iff_forall_ne_some.mpr fun n read =>
        silent n (.change told held (Json.countMember.mp read))
    rw [none]
    rfl
  · rename_i value _ held
    have none : value.nat64? = Option.none := Option.eq_none_iff_forall_ne_some.mpr fun n read => by
      obtain ⟨rfl, small⟩ := Json.countRead.mp read
      exact silent n (.alone told ⟨held, small⟩)
    rw [none]
    rfl
  · rfl

end Capabilities

namespace Diagnostic

structure Understood (list : Option Json) (ds : List Diagnostic) : Prop where
  lists : ∀ entries, list = some (.array entries) → Listed low32 entries ds
  exactly : ∀ entries, list = some (.array entries) →
    (Listed id entries ds ↔ ∀ entry ∈ entries, WellFormed entry → Fits entry)
  nothing : (∀ entries, list ≠ some (.array entries)) → ds = []

theorem listUnderstood (value : Json) : Understood (some value) (listOfJson value) where
  lists := by
    rintro entries ⟨⟩
    exact listRead entries
  exactly := by
    rintro entries ⟨⟩
    exact ⟨listedFits (listRead entries), fitsListed (listRead entries)⟩
  nothing other := by
    cases value with
    | array entries => exact absurd rfl (other entries)
    | null | bool | integer | real | string | object => rfl

theorem underUnderstood (name : String) (value : Json) : Understood (value.field? name) (listUnder name value) := by
  unfold listUnder
  cases value.field? name with
  | some list => exact listUnderstood list
  | none => exact ⟨nofun, nofun, fun _ => rfl⟩

/-- A value, taken for a list of diagnostics, for what a server publishes or reports, and for the result of an
introduction. -/
structure Narrowed (value : Json) : Prop where
  kept : (∃ d, Shows low32 value d) ↔ WellFormed value
  list : Understood (some value) (listOfJson value)
  published : Understood (value.field? "diagnostics") (published value).2
  reported : ∀ ds, report? value = some ds → Understood (value.field? "items") ds
  announced : ∀ n, Capabilities.Announced value n → (Capabilities.ofResult value).sync.toNat = low8 n
  silent : (∀ n, ¬ Capabilities.Announced value n) → (Capabilities.ofResult value).sync = 0

theorem narrowed (value : Json) : Narrowed value where
  kept := ⟨fun ⟨_, shows⟩ => showsFormed shows, formedShows⟩
  list := listUnderstood value
  published := underUnderstood "diagnostics" value
  reported ds read := by
    unfold report? at read
    split at read
    · cases read
    · cases read
      exact underUnderstood "items" value
  announced _ := Capabilities.announcedSync
  silent := Capabilities.silentSync

def placeJson (line character : Int) : Json :=
  .object [("character", .integer character), ("line", .integer line)]

def farEntry : Json :=
  .object [("message", .string "m"),
    ("range", .object [("end", placeJson 0 0), ("start", placeJson 4294967296 0)]),
    ("severity", .integer 4294967297)]

theorem farWrapped :
    listOfJson (.array [farEntry]) = [⟨⟨⟨0, 0⟩, ⟨0, 0⟩⟩, some .error, none, none, "m"⟩] ∧
    ¬ Listed id [farEntry] (listOfJson (.array [farEntry])) ∧
    (Capabilities.ofResult (.object [("textDocumentSync", .integer 257)])).sync = 1 := by
  refine ⟨by decide, fun exact => ?_, by decide⟩
  have start : Placed (placeJson 4294967296 0) ⟨4294967296, 0⟩ := ⟨⟨rfl, by decide⟩, ⟨rfl, by decide⟩⟩
  have stop : Placed (placeJson 0 0) ⟨0, 0⟩ := ⟨⟨rfl, by decide⟩, ⟨rfl, by decide⟩⟩
  have ranges : Ranges farEntry ⟨4294967296, 0⟩ ⟨0, 0⟩ := .between rfl rfl rfl start stop
  have fits := listedFits (listRead [farEntry]) exact farEntry (List.mem_singleton_self _)
    ⟨⟨_, _, ranges⟩, "m", rfl⟩
  exact absurd (fits.places _ _ ranges).1.1 (Nat.lt_irrefl _)

end Diagnostic
end LspClient
