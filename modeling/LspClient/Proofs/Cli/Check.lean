import LspClient.Proofs.Cli.Opening
import LspClient.Proofs.Decimal

/-! What the command prints. Of each file that is for the client it says what the stand-in finds in the file's own text,
in the order of the arguments, unless one of the files cannot be read. -/
namespace LspClient

namespace Cli
open Dialogue (Brief Calm Fit Onwards)
open TextDocument (look)
open StandIn (First Narrow findings note noted)

variable {m : Machine} {config : Config} {d : Dialogue} {file text uri : String} {files lines : List String}
  {opened : List Opened}

def errorLine (file : String) (row column : Nat) : String :=
  file ++ ":" ++ toString (row + 1) ++ ":" ++ toString (column + 1) ++ ": error: found `error`"

inductive Tells (file text : String) : List String → Prop where
  | clean (clean : ∀ line ∈ Text.lines text.toList, ¬ "error".toList <:+: line) :
      Tells file text [file ++ ": no diagnostics"]
  | found (places : List (Nat × Nat)) (some : ∃ line ∈ Text.lines text.toList, "error".toList <:+: line)
      (rows : (places.map Prod.fst).Pairwise (· < ·))
      (whole : ∀ row column, (row, column) ∈ places ↔ ∃ line before, (Text.lines text.toList)[row]? = .some line ∧
        First "error".toList before line ∧ Utf8.size before = column) :
      Tells file text (places.map fun place => errorLine file place.1 place.2)

theorem noteLine (file : String) {finding : Nat × Nat} (small : finding.1 < Nat.pow 2 32)
    (small' : finding.2 + StandIn.needle.length < Nat.pow 2 32) :
    diagnosticLine file (note finding) = errorLine file finding.1 finding.2 := by
  have marks := StandIn.noteMarks small small'
  simp only [diagnosticLine, marks.start.1, marks.start.2, marks.severity, marks.message, errorLine,
    String.append_assoc]
  rfl

theorem findingsFirst {row column : Nat} : (row, column) ∈ findings text ↔ ∃ line before,
    (Text.lines text.toList)[row]? = some line ∧ First "error".toList before line ∧ Utf8.size before = column := by
  rw [StandIn.memFindings]
  simp only [StandIn.columnFirst]
  constructor
  · rintro ⟨line, here, before, first⟩
    exact ⟨line, before, here, first⟩
  · rintro ⟨line, before, here, first⟩
    exact ⟨line, here, before, first⟩

theorem linesTell (file : String) (narrow : Narrow text) : Tells file text (diagnosticLines file (noted text)) := by
  by_cases found : ∃ line ∈ Text.lines text.toList, "error".toList <:+: line
  · have printed : diagnosticLines file (noted text) =
        (findings text).map fun place => errorLine file place.1 place.2 := by
      obtain ⟨line, member, within⟩ := found
      obtain ⟨row, here⟩ := List.getElem?_of_mem member
      obtain ⟨before, first⟩ := StandIn.firstExists within
      have place : (row, Utf8.size before) ∈ findings text := findingsFirst.mpr ⟨line, before, here, first, rfl⟩
      have some : (noted text).isEmpty = false := by
        rw [noted, List.isEmpty_map]
        exact List.isEmpty_eq_false_iff.mpr (List.ne_nil_of_mem place)
      rw [diagnosticLines, some, if_neg Bool.false_ne_true, noted, List.map_map]
      exact List.map_congr_left fun finding member => noteLine file (narrow finding member).1 (narrow finding member).2
    rw [printed]
    exact .found _ found (StandIn.findingsIncreasing text) fun _ _ => findingsFirst
  · have clean : ∀ line ∈ Text.lines text.toList, ¬ "error".toList <:+: line := by simpa using found
    have none : findings text = [] := by
      refine List.eq_nil_iff_forall_not_mem.mpr fun finding place => ?_
      obtain ⟨line, before, here, first, _⟩ := findingsFirst.mp place
      exact clean line (List.mem_of_getElem? here) (StandIn.firstWithin first)
    rw [noted, none]
    exact .clean clean

inductive Told (m : Machine) : List Opened → List String → Prop where
  | nil : Told m [] []
  | cons {file uri text : String} {opened : List Opened} {lines more : List String} (reads : Reads m file text)
      (tells : Tells file text lines) (rest : Told m opened more) : Told m ((file, uri) :: opened) (lines ++ more)

theorem reportNext (d : Dialogue) (lines : List String) (file uri : String) (opened : List Opened) :
    let pulled := d.step (.host (.pull (toString opened.length) uri))
    (report true d lines ((file, uri) :: opened)).1 = pulled ∨
      ∃ more, (report true d lines ((file, uri) :: opened)).1 = (report true pulled more opened).1 := by
  rw [report, if_pos rfl, pullOne]
  dsimp only
  cases (d.step (.host (.pull (toString opened.length) uri))).outcome? (.pull (toString opened.length)) with
  | none => exact .inl rfl
  | some outcome =>
    cases outcome with
    | items list => exact .inr ⟨_, rfl⟩
    | done | failed | abandoned => exact .inl rfl

theorem reportOnwards (pulls : Bool) (d : Dialogue) (lines : List String) (opened : List Opened) :
    Onwards d (report pulls d lines opened).1 := by
  induction opened generalizing d lines with
  | nil => exact Dialogue.onwardsSame d
  | cons o opened ih =>
    cases pulls with
    | false => exact ih d _
    | true =>
      have first := Dialogue.stepOnwards (.pull (toString opened.length) o.2) d
      rcases reportNext d lines o.1 o.2 opened with same | ⟨more, same⟩
      · exact same ▸ first
      · exact same ▸ Dialogue.onwardsThen first (ih _ more)

theorem reportPulls (d : Dialogue) (lines : List String) (file uri : String) (opened : List Opened) :
    Onwards (d.step (.host (.pull (toString opened.length) uri))) (report true d lines ((file, uri) :: opened)).1 := by
  rcases reportNext d lines file uri opened with same | ⟨more, same⟩ <;> rw [same]
  · exact Dialogue.onwardsSame _
  · exact reportOnwards true _ more opened

theorem reportTold {attended : List Message} (calm : Calm config 1 d attended)
    (shown : ∀ o ∈ opened,
      ∃ document, look o.2 (Client.desk d.client.deeds) = some document ∧ Reads m o.1 document.text)
    (fresh : ∀ k < opened.length, d.client.deeds.countP (Client.issues (.pull (toString k))) = 0)
    (allows : ∀ {e attended o name}, o ∈ opened → Calm config 1 e attended →
      Client.desk e.client.deeds = Client.desk d.client.deeds →
      (∃ k < opened.length, e.client.nextId = d.client.nextId + k) →
      Onwards (e.step (.host (.pull name o.2))) (report true d lines opened).1 →
        Dialogue.Allows e (.pull name o.2) attended) :
    ∃ later more, report true d lines opened = (later, lines ++ more, none) ∧ Told m opened more ∧
      (∃ attended, Calm config 1 later attended) ∧
      later.client.nextId = d.client.nextId + opened.length := by
  induction opened generalizing d lines attended with
  | nil => exact ⟨d, [], by rw [report, List.append_nil], .nil, ⟨attended, calm⟩, (Int.add_zero _).symm⟩
  | cons o opened ih =>
    obtain ⟨file, uri⟩ := o
    obtain ⟨⟨document, found, reads⟩, others⟩ := List.forall_mem_cons.mp shown
    have last := Nat.lt_succ_self opened.length
    have allowed : Dialogue.Allows d (.pull (toString opened.length) uri) attended :=
      allows List.mem_cons_self calm rfl ⟨0, Nat.succ_pos _, (Int.add_zero _).symm⟩
        (reportPulls d lines file uri opened)
    obtain ⟨⟨_, calm'⟩, pulls⟩ := Dialogue.stepPulls calm (toString opened.length) uri allowed (fresh _ last)
    have narrow := (Dialogue.heardFindings calm.live.reached (Dialogue.calmHeard calm) uri).2
    have outcome := pulls.outcome
    have text : StandIn.shownText (Client.desk d.client.deeds) uri = document.text := by
      rw [StandIn.shownText, found]
      rfl
    rw [text] at narrow outcome
    have next : report true d lines ((file, uri) :: opened) =
        report true (d.step (.host (.pull (toString opened.length) uri)))
          (lines ++ diagnosticLines file (noted document.text)) opened := by
      rw [report, if_pos rfl, pullOne, outcome]
    rw [next] at allows ⊢
    -- a pull is named for the number of files that are left, so no later one has its name
    have unpulled (k : Nat) (less : k < opened.length) :
        (d.step (.host (.pull (toString opened.length) uri))).client.deeds.countP
          (Client.issues (.pull (toString k))) = 0 := by
      have other : Ticket.pull (toString k) ≠ .pull (toString opened.length) := fun same =>
        Nat.ne_of_lt less (Decimal.printedInjective (Ticket.pull.inj same))
      rw [pulls.issued, if_neg other, fresh k (Nat.lt_succ_of_lt less)]
    obtain ⟨later, more, same, told, rest, count⟩ := ih calm' (pulls.desk ▸ others) unpulled
      fun member calm desk number => by
        obtain ⟨k, less, number⟩ := number
        refine allows (List.mem_cons_of_mem _ member) calm (desk.trans pulls.desk)
          ⟨k + 1, Nat.succ_lt_succ less, ?_⟩
        rw [number, pulls.nextId]
        push_cast
        omega
    refine ⟨later, _, ?_, .cons reads (linesTell file narrow) told, rest, ?_⟩
    · rw [same, List.append_assoc]
    · rw [count, pulls.nextId, List.length_cons]
      push_cast
      omega

inductive Output (m : Machine) : List String → List String → Prop where
  | done : Output m [] []
  | other {file : String} {files lines : List String} (other : ¬ Lustre m file) (rest : Output m files lines) :
      Output m (file :: files) lines
  | lustre {file text : String} {files lines more : List String} (lustre : Lustre m file) (reads : Reads m file text)
      (tells : Tells file text lines) (rest : Output m files more) : Output m (file :: files) (lines ++ more)

theorem toldOutput (listed : Listed m files opened) (told : Told m opened lines) : Output m files lines := by
  induction listed generalizing lines with
  | nil =>
    cases told
    exact .done
  | other other _ ih => exact .other other (ih told)
  | lustre lustre _ ih =>
    cases told with
    | cons reads tells rest => exact .lustre lustre reads tells (ih rest)

inductive Works (m : Machine) (config : Config) (files : List String) :
    Dialogue × List String × List String × Option Causes → Prop where
  | all {d : Dialogue} {lines errors : List String} (readable : ∀ file ∈ files, ∃ text, Reads m file text)
      (output : Output m files lines) (calm : ∃ attended, Calm config 1 d attended) :
      Works m config files (d, lines, errors, none)
  | broken {d : Dialogue} {file : String} {errors : List String} {causes : Causes} (member : file ∈ files)
      (unreadable : ∀ text, ¬ Reads m file text) (calm : ∃ attended, Calm config 1 d attended) :
      Works m config files (d, [], errors, some causes)

theorem greetingPulls : (Capabilities.ofResult StandIn.greeting).diagnosticProvider = true := by decide

theorem workWorks (proper : Machine.Proper m.current) (selector : config.selector = [.lustreFiles])
    (plain : ∀ file ∈ files, '\\' ∉ (m.canonical file).toList) (stands : Stands m config d [])
    (fit : Fit (work m files d).1) : Works m config files (work m files d) := by
  obtain ⟨attended, calm⟩ := stands.calm
  have onwards := openFilesOnwards m d [] files
  have reached := Dialogue.onwardsReached calm.live.reached onwards
  have ends (fit : Fit (openFiles m d [] files).1) := openFilesOpens proper selector plain stands
    fun _ _ calm onwards => Dialogue.fitAllows calm (Dialogue.stepFit calm.live.reached onwards fit)
  rw [work] at fit ⊢
  generalize openFiles m d [] files = result at onwards reached ends fit ⊢
  obtain ⟨later, causes | opened⟩ := result
  · cases ends fit with
    | broken member unreadable stands => exact .broken member unreadable stands.calm
  · have before := Dialogue.onwardsFit reached (reportOnwards _ later [] opened) fit
    cases ends before with
    | all readable listed stands =>
      obtain ⟨attended, calm⟩ := stands.calm
      dsimp only at fit ⊢
      rw [stands.capabilities, greetingPulls] at fit ⊢
      obtain ⟨last, lines, same, told, rest, _⟩ := reportTold calm stands.shown (fun k _ => stands.unpulled _)
        fun _ calm _ _ onwards => Dialogue.fitAllows calm (Dialogue.stepFit calm.live.reached onwards fit)
      rw [same]
      exact .all readable (toldOutput listed told) rest

structure Installed (s : Surroundings) (context : Context) : Prop where
  peer : s.peer = .standIn (.fresh false)
  launches : s.machine.refused context.config.executable.command context.config.executable.arguments
    context.config.workspace = none

theorem startedStands (m : Machine) (config : Config) (brief : Brief [] [Client.introduction config 1]) :
    Stands m config ((Dialogue.opening config 1).step (.host (.start none))) [] ∧
      started ((Dialogue.opening config 1).step (.host (.start none))) = .ok () := by
  obtain ⟨calm, starts⟩ := Dialogue.stepStarts brief
  refine ⟨⟨⟨_, calm⟩, starts.capabilities, starts.nextId, starts.unpulled, ?_, List.forall_mem_nil _⟩,
    by rw [started, starts.outcome]⟩
  rw [starts.desk]
  exact List.forall_mem_nil _

theorem workOnwards (m : Machine) (files : List String) (d : Dialogue) : Onwards d (work m files d).1 := by
  have onwards := openFilesOnwards m d [] files
  rw [work]
  generalize openFiles m d [] files = result at onwards ⊢
  obtain ⟨later, causes | opened⟩ := result
  · exact onwards
  · exact Dialogue.onwardsThen onwards (reportOnwards _ later [] _)

def working (s : Surroundings) (files : List String) (d : Dialogue) :
    Dialogue × List String × List String × Option Causes :=
  match started d with
  | .ok () => work s.machine files d
  | .error causes => (d, [], [], some causes)

theorem workingOnwards (s : Surroundings) (files : List String) (d : Dialogue) :
    Onwards d (working s files d).1 := by
  unfold working
  split
  · exact workOnwards s.machine files d
  · exact Dialogue.onwardsSame d

theorem converseWorking {s : Surroundings} {context : Context} (installed : Installed s context) (files : List String) :
    let d := (Dialogue.opening context.config 1).step (.host (.start none))
    converse s context files = ((working s files d).1.step (.host .stop), (working s files d).2) := by
  obtain ⟨peer, launches⟩ := installed
  have launched : Dialogue.opening context.config 1 = .begin (.new context.config 1) s.peer := by rw [peer]; rfl
  rw [launched]
  cases begun : started ((Dialogue.begin (.new context.config 1) s.peer).step (.host (.start none))) <;>
    simp only [converse, launches, working, begun]

theorem converseStarts {s : Surroundings} {context : Context} (installed : Installed s context) (files : List String)
    (fit : Fit (converse s context files).1) :
    let d := (Dialogue.opening context.config 1).step (.host (.start none))
    Stands s.machine context.config d [] ∧ converse s context files =
      ((work s.machine files d).1.step (.host .stop), (work s.machine files d).2) := by
  have same := converseWorking installed files
  have reached := Dialogue.onwardsReached .new (Dialogue.stepOnwards (.start none) (Dialogue.opening context.config 1))
  have start := fun fit => startedStands s.machine context.config (Dialogue.startBrief fit)
  generalize (Dialogue.opening context.config 1).step (.host (.start none)) = d at reached same start ⊢
  dsimp only at same ⊢
  rw [same] at fit ⊢
  have onwards := Dialogue.onwardsThen (workingOnwards s files d) (Dialogue.stepOnwards .stop _)
  obtain ⟨stands, ok⟩ := start (Dialogue.onwardsFit reached onwards fit)
  refine ⟨stands, ?_⟩
  rw [working, ok]

/-- Each file that is for the client is reported in its place, unless one cannot be read. -/
structure Checks (m : Machine) (files : List String) (printed : Printed) : Prop where
  readable : (∀ file ∈ files, ∃ text, Reads m file text) →
    printed.exitCode = 0 ∧ Output m files printed.output
  unreadable : ∀ file ∈ files, (∀ text, ¬ Reads m file text) → printed.exitCode = 1 ∧ printed.output = []

theorem worksChecks {output errors : List String} {causes : Option Causes}
    (works : Works m config files (d, output, errors, causes)) (shown : List String) :
    Checks m files ⟨if causes.isSome then 1 else 0, output, shown⟩ := by
  cases works with
  | all readable output _ =>
    refine ⟨fun _ => ⟨rfl, output⟩, fun file member unreadable => ?_⟩
    obtain ⟨text, reads⟩ := readable file member
    exact absurd reads (unreadable text)
  | broken member unreadable _ =>
    refine ⟨fun readable => ?_, fun _ _ _ => ⟨rfl, rfl⟩⟩
    obtain ⟨text, reads⟩ := readable _ member
    exact absurd reads (unreadable text)

theorem worksConcludes {output errors : List String} {causes : Option Causes}
    (works : Works m config files (d, output, errors, causes)) (fit : Fit (d.step (.host .stop))) :
    Dialogue.Concluded (d.step (.host .stop)) := by
  obtain ⟨attended, calm⟩ : ∃ attended, Calm config 1 d attended := by cases works <;> assumption
  exact (Dialogue.stepStops calm (Dialogue.stopBrief calm fit)).1

theorem checks (s : Surroundings) (words : List String) (a : Arguments) (settings : Settings)
    (parsed : Arguments.parse? words = some a) (loaded : Settings.load s.settingsFile = .ok settings)
    (installed : Installed s (contextOf s a settings)) (proper : Machine.Proper s.machine.current)
    (plain : ∀ file ∈ a.files, '\\' ∉ (s.machine.canonical file).toList)
    (fit : Fit (converse s (contextOf s a settings) a.files).1) :
    Checks s.machine a.files (run s words) ∧
      Dialogue.Concluded (converse s (contextOf s a settings) a.files).1 := by
  have ran : run s words = runClient s (contextOf s a settings) a.files := by simp only [run, parsed, loaded]
  obtain ⟨stands, same⟩ := converseStarts installed a.files fit
  rw [ran, runClient]
  generalize (Dialogue.opening (contextOf s a settings).config 1).step (.host (.start none)) = d at stands same
  rw [same] at fit ⊢
  obtain ⟨_, calm⟩ := stands.calm
  have reached := Dialogue.onwardsReached calm.live.reached (workOnwards s.machine a.files d)
  have works := workWorks proper rfl plain stands (Dialogue.onwardsFit reached (Dialogue.stepOnwards .stop _) fit)
  generalize work s.machine a.files d = worked at works fit ⊢
  obtain ⟨last, output, errors, causes⟩ := worked
  exact ⟨worksChecks works _, worksConcludes works fit⟩

section
variable {s : Surroundings} {context : Context}

structure Short (m : Machine) (config : Config) (files : List String) : Prop where
  introduced : (Utf8.ofString (Client.introduction config 1).body).length ≤ Frame.limit
  opened : ∀ file ∈ files, ∀ text, Reads m file text →
    ∀ x ∈ [Request.didOpen (documentOf m file text), StandIn.publishing (uriOf m file) text],
      (Utf8.ofString x.body).length ≤ Frame.limit
  pulled : ∀ file ∈ files, ∀ text, Reads m file text → ∀ k < files.length,
    ∀ x ∈ [Request.diagnostic (2 + k) (uriOf m file), StandIn.reporting (2 + k) text],
      (Utf8.ofString x.body).length ≤ Frame.limit
  parted : ∀ k ≤ files.length, ∀ x ∈ [Request.shutdown (2 + k), StandIn.farewell (2 + k)],
    (Utf8.ofString x.body).length ≤ Frame.limit
  numbers : 2 + files.length < 2 ^ 63

theorem listedFew (listed : Listed m files opened) : opened.length ≤ files.length := by
  induction listed with
  | nil => exact Nat.le_refl _
  | other _ _ ih => exact Nat.le_succ_of_le ih
  | lustre _ _ ih => exact Nat.succ_le_succ ih

theorem listedFile (listed : Listed m files opened) : ∀ o ∈ opened, o.1 ∈ files ∧ o.2 = uriOf m o.1 := by
  induction listed with
  | nil => exact List.forall_mem_nil _
  | other _ _ ih => exact fun o member => (ih o member).imp_left (List.mem_cons_of_mem _)
  | lustre _ _ ih =>
    exact List.forall_mem_cons.mpr ⟨⟨List.mem_cons_self, rfl⟩,
      fun o member => (ih o member).imp_left (List.mem_cons_of_mem _)⟩

theorem shortNumber (short : Short m config files) {k : Nat} (few : k ≤ files.length) : Message.IsId (2 + k) := by
  have bound := short.numbers
  have power : Int.pow 2 63 = 2 ^ 63 := rfl
  exact ⟨by omega, by omega⟩

theorem shortWorks (proper : Machine.Proper m.current) (selector : config.selector = [.lustreFiles])
    (plain : ∀ file ∈ files, '\\' ∉ (m.canonical file).toList) (short : Short m config files)
    (stands : Stands m config d []) : (∃ attended, Calm config 1 (work m files d).1 attended) ∧
      ∃ k ≤ files.length, (work m files d).1.client.nextId = 2 + k := by
  have ends := openFilesOpens proper selector plain stands fun member reads calm _ =>
    Dialogue.openAllows calm (selector ▸ documentAccepted m _ _) (short.opened _ member _ reads)
  rw [work]
  generalize openFiles m d [] files = result at ends ⊢
  cases ends with
  | broken _ _ stands => exact ⟨stands.calm, 0, Nat.zero_le _, stands.next.trans (Int.add_zero _).symm⟩
  | @all _ fresh _ listed stands =>
    obtain ⟨attended, calm⟩ := stands.calm
    dsimp only
    rw [stands.capabilities, greetingPulls]
    obtain ⟨last, lines, same, _, rest, count⟩ := @reportTold _ _ _ [] _ _ calm stands.shown
      (fun k _ => stands.unpulled _) fun {e attended o name} member calm desk ⟨k, less, number⟩ _ => by
        obtain ⟨document, found, reads⟩ := stands.shown o member
        obtain ⟨own, named⟩ := listedFile listed o member
        have few := Nat.lt_of_lt_of_le less (listedFew listed)
        have shown : StandIn.shownText (Client.desk e.client.deeds) o.2 = document.text := by
          rw [desk, StandIn.shownText, found]
          rfl
        rw [stands.next] at number
        refine Dialogue.pullAllows calm name o.2 (number ▸ shortNumber short (Nat.le_of_lt few)) ?_
        rw [number, shown, named]
        exact short.pulled o.1 own document.text reads k few
    rw [same]
    exact ⟨rest, fresh.length, listedFew listed, stands.next ▸ count⟩

theorem shortFit (installed : Installed s context) (proper : Machine.Proper s.machine.current)
    (plain : ∀ file ∈ files, '\\' ∉ (s.machine.canonical file).toList)
    (short : Short s.machine context.config files) : Fit (converse s context files).1 := by
  have brief : Brief [] [Client.introduction context.config 1] := by
    refine ⟨List.forall_mem_singleton.mpr (?_ : Message.IsId 1), List.forall_mem_singleton.mpr short.introduced, ?_⟩
    · decide
    · exact List.forall_mem_singleton.mpr (Dialogue.welcomeSmall _ List.mem_cons_self)
  obtain ⟨stands, ok⟩ := startedStands s.machine context.config brief
  rw [converseWorking installed]
  generalize (Dialogue.opening context.config 1).step (.host (.start none)) = d at stands ok ⊢
  rw [working, ok]
  obtain ⟨⟨attended, calm⟩, k, few, number⟩ := shortWorks proper rfl plain short stands
  dsimp only
  refine Dialogue.stopsFit calm ?_
  rw [number]
  obtain ⟨asked, answered⟩ := List.forall_mem_cons.mp (short.parted k few)
  refine ⟨List.forall_mem_singleton.mpr (shortNumber short few), List.forall_mem_singleton.mpr asked, ?_⟩
  rw [Dialogue.shutdownSaid]
  exact answered

end

-- a file with an error, named twice, and a note

def sample : Surroundings where
  machine := ⟨[(["w", "a.lus"], .data (Utf8.ofString "an error")), (["w", "note.txt"], .data (Utf8.ofString "a note")),
    (["s", "server", "lustrels"], .program "lustrels")], ["w"]⟩
  settingsPath := "/s.json"
  settingsFile := .error .noSuchFile
  programDirectory := "/s"
  platform := "linux"
  peer := .standIn (.fresh false)

def sampleArguments : Arguments := {Arguments.empty with files := ["a.lus", "note.txt", "a.lus"]}

theorem sampleReads : ∀ file ∈ sampleArguments.files, ∀ text, Reads sample.machine file text →
    (file, text) ∈ [("a.lus", "an error"), ("note.txt", "a note")] := by
  intro file member text reads
  obtain rfl | rfl : file = "a.lus" ∨ file = "note.txt" := by
    simpa [sampleArguments, or_comm, or_left_comm] using member
  · have content : Reads sample.machine "a.lus" "an error" := rfl
    simp [readsText content reads]
  · have content : Reads sample.machine "note.txt" "a note" := rfl
    simp [readsText content reads]

theorem sampleShort : Short sample.machine (contextOf sample sampleArguments default).config sampleArguments.files := by
  have small {m : Message} (size : Utf8.size (Json.chars m.toJson) ≤ Frame.limit) :
      (Utf8.ofString m.body).length ≤ Frame.limit := Message.bodySize m ▸ size
  have opened : ∀ o ∈ [("a.lus", "an error"), ("note.txt", "a note")],
      ∀ x ∈ [Request.didOpen (documentOf sample.machine o.1 o.2), StandIn.publishing (uriOf sample.machine o.1) o.2],
        Utf8.size (Json.chars x.toJson) ≤ Frame.limit := by decide +kernel
  have pulled : ∀ o ∈ [("a.lus", "an error"), ("note.txt", "a note")], ∀ k < sampleArguments.files.length,
      ∀ x ∈ [Request.diagnostic (2 + k) (uriOf sample.machine o.1), StandIn.reporting (2 + k) o.2],
        Utf8.size (Json.chars x.toJson) ≤ Frame.limit := by decide +kernel
  have parted : ∀ k ≤ sampleArguments.files.length, ∀ x ∈ [Request.shutdown (2 + k), StandIn.farewell (2 + k)],
      Utf8.size (Json.chars x.toJson) ≤ Frame.limit := by decide +kernel
  exact {
    introduced := small (by decide +kernel)
    opened := fun file member text reads x one => small (opened _ (sampleReads file member text reads) x one)
    pulled := fun file member text reads k less x one =>
      small (pulled _ (sampleReads file member text reads) k less x one)
    parted := fun k few x one => small (parted k few x one)
    numbers := by decide }

theorem sampleChecks : Arguments.parse? ["a.lus", "note.txt", "a.lus"] = some sampleArguments ∧
    Settings.load sample.settingsFile = .ok default ∧ Installed sample (contextOf sample sampleArguments default) ∧
    Machine.Proper sample.machine.current ∧
    (∀ file ∈ sampleArguments.files, '\\' ∉ (sample.machine.canonical file).toList) ∧
    Fit (converse sample (contextOf sample sampleArguments default) sampleArguments.files).1 ∧
    Checks sample.machine sampleArguments.files (run sample ["a.lus", "note.txt", "a.lus"]) ∧
    Dialogue.Concluded (converse sample (contextOf sample sampleArguments default) sampleArguments.files).1 := by
  have parsed : Arguments.parse? ["a.lus", "note.txt", "a.lus"] = some sampleArguments := by decide
  have installed : Installed sample (contextOf sample sampleArguments default) := ⟨rfl, by decide +kernel⟩
  have proper : Machine.Proper sample.machine.current := List.forall_mem_singleton.mpr (by decide)
  have plain : ∀ file ∈ sampleArguments.files, '\\' ∉ (sample.machine.canonical file).toList := by decide +kernel
  have fit : Fit (converse sample (contextOf sample sampleArguments default) sampleArguments.files).1 :=
    shortFit installed proper plain sampleShort
  exact ⟨parsed, rfl, installed, proper, plain, fit,
    checks sample ["a.lus", "note.txt", "a.lus"] sampleArguments default parsed rfl installed proper plain fit⟩

end Cli
end LspClient
