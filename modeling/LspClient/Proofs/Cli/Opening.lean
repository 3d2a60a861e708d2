import LspClient.Cli.Check
import LspClient.Proofs.Document
import LspClient.Proofs.Machine
import LspClient.Proofs.Peer.Departure

/-! Opening files one after the other. All that can be read and are for the client get onto its desk with their own
texts, and the first that cannot be read ends it. -/
namespace LspClient

namespace Dialogue

variable {config : Config} {nextId : Int} {d after later : Dialogue}

def Onwards (d after : Dialogue) : Prop := ∃ moves, after = d.play moves

theorem onwardsSame (d : Dialogue) : Onwards d d := ⟨[], rfl⟩

theorem onwardsThen (first : Onwards d after) (second : Onwards after later) : Onwards d later := by
  obtain ⟨moves, rfl⟩ := first
  obtain ⟨more, rfl⟩ := second
  exact ⟨moves ++ more, (playAppend d moves more).symm⟩

theorem stepOnwards (call : Client.Call) (d : Dialogue) : Onwards d (d.step (.host call)) := by
  obtain ⟨moves, _, same⟩ := goesThen (restGoes (d.perform (.client (.host call)))) (settleGoes 8 _)
  exact ⟨.client (.host call) :: moves, same⟩

theorem onwardsReached (reached : Client.Reached config nextId d.client.quiet) (onwards : Onwards d after) :
    Client.Reached config nextId after.client.quiet := by
  obtain ⟨moves, rfl⟩ := onwards
  exact playReached reached moves

theorem onwardsFit (reached : Client.Reached config nextId d.client.quiet) (onwards : Onwards d after)
    (fit : Fit after) : Fit d := by
  obtain ⟨moves, rfl⟩ := onwards
  have whole : Fit (d.play ([] ++ moves)) := fit
  exact fitEarlier reached whole

theorem stepFit {call : Client.Call} (reached : Client.Reached config nextId d.client.quiet)
    (onwards : Onwards (d.step (.host call)) after) (fit : Fit after) : Fit (d.step (.host call)) :=
  onwardsFit (onwardsReached reached (stepOnwards call d)) onwards fit

end Dialogue

namespace Cli
open Dialogue (Calm Onwards Fit)
open TextDocument (look)

variable {m : Machine} {config : Config} {d : Dialogue} {file other text uri : String} {files : List String}
  {opened fresh : List Opened}

def Reads (m : Machine) (file text : String) : Prop := m.readFile file = .ok (Utf8.ofString text)

def Lustre (m : Machine) (file : String) : Prop := Path.Lustre (Utf8.ofString (m.canonical file))

theorem readTextReads : readText m file = .ok text ↔ Reads m file text := by
  rw [Reads, readText]
  cases content : m.readFile file with
  | error => simp [Bind.bind, Except.bind]
  | ok octets =>
    simp only [Bind.bind, Except.bind, Except.ok.injEq]
    cases decoded : Utf8.decode octets with
    | error fault =>
      have bad : octets ≠ Utf8.ofString text := fun same => by
        rw [same, Utf8.ofString, Utf8.decodeEncode] at decoded
        cases decoded
      simp [bad]
    | ok cs =>
      rw [(Utf8.decodeText _ _).mp decoded, Utf8.ofString]
      constructor
      · rintro ⟨⟩
        rw [String.toList_ofList]
      · intro same
        rw [Utf8.encodeInjective same]
        exact congrArg Except.ok String.ofList_toList

theorem readTextFails (unreadable : ∀ text, ¬ Reads m file text) : ∃ cause, readText m file = .error cause := by
  cases read : readText m file with
  | error cause => exact ⟨cause, rfl⟩
  | ok text => exact absurd (readTextReads.mp read) (unreadable text)

theorem readsText {text' : String} (reads : Reads m file text) (reads' : Reads m file text') : text' = text := by
  have octets := Except.ok.inj ((show m.readFile file = _ from reads').symm.trans reads)
  exact String.toList_inj.mp (Utf8.encodeInjective octets)

theorem readsSame {text' : String} (proper : Machine.Proper m.current) (same : m.canonical file = m.canonical other)
    (reads : Reads m file text) (reads' : Reads m other text') : text = text' := by
  have octets := Machine.canonicalReads proper same reads reads'
  exact String.toList_inj.mp (Utf8.encodeInjective octets)

def uriOf (m : Machine) (file : String) : String := "file://" ++ m.canonical file

def documentOf (m : Machine) (file text : String) : TextDocument := ⟨uriOf m file, Language.lustre, 1, text⟩

theorem uriCanonical (same : uriOf m file = uriOf m other) : m.canonical file = m.canonical other := by
  simpa [uriOf] using same

theorem documentMade (plain : '\\' ∉ (m.canonical file).toList) (lustre : Lustre m file) (reads : Reads m file text) :
    TextDocument.ofPath? (Utf8.ofString (m.canonical file)) text = some (documentOf m file text) := by
  rw [TextDocument.ofLustre lustre, Uri.ofRooted (Machine.canonicalRooted reads) plain]
  rfl

theorem documentAccepted (m : Machine) (file text : String) :
    Selector.accepts [.lustreFiles] (documentOf m file text) = true :=
  TextDocument.lustreAccepted (m.canonical file) 1 text

inductive Listed (m : Machine) : List String → List Opened → Prop where
  | nil : Listed m [] []
  | other {file : String} {files : List String} {opened : List Opened} (other : ¬ Lustre m file)
      (rest : Listed m files opened) : Listed m (file :: files) opened
  | lustre {file : String} {files : List String} {opened : List Opened} (lustre : Lustre m file)
      (rest : Listed m files opened) :
      Listed m (file :: files) ((file, uriOf m file) :: opened)

structure Stands (m : Machine) (config : Config) (d : Dialogue) (opened : List Opened) : Prop where
  calm : ∃ attended, Calm config 1 d attended
  capabilities : d.client.capabilities = .ofResult StandIn.greeting
  next : d.client.nextId = 2
  unpulled : ∀ name, d.client.deeds.countP (Client.issues (.pull name)) = 0
  desk : ∀ document ∈ Client.desk d.client.deeds, ∃ file, Reads m file document.text ∧ document.uri = uriOf m file
  shown : ∀ o ∈ opened, ∃ document, look o.2 (Client.desk d.client.deeds) = some document ∧ Reads m o.1 document.text

theorem standsOpens (proper : Machine.Proper m.current) (stands : Stands m config d opened)
    (selector : config.selector = [.lustreFiles]) (reads : Reads m file text)
    (allows : ∀ {attended}, Calm config 1 d attended →
      Dialogue.Allows d (.didOpen (documentOf m file text)) attended) :
    (d.act (.host (.didOpen (documentOf m file text)))).2 = .flag true ∧
      Stands m config (d.step (.host (.didOpen (documentOf m file text)))) (opened ++ [(file, uriOf m file)]) := by
  obtain ⟨⟨attended, calm⟩, capabilities, next, unpulled, desk, shown⟩ := stands
  obtain ⟨answer, ⟨more, calm'⟩, opens⟩ := Dialogue.stepOpens calm (selector ▸ documentAccepted m file text)
    (allows calm)
  generalize d.step (.host (.didOpen (documentOf m file text))) = later at calm' opens ⊢
  refine ⟨answer, ⟨_, calm'⟩, opens.capabilities.trans capabilities, opens.nextId.trans next,
    fun name => (opens.issued _).trans (unpulled name), ?_, ?_⟩
  · rw [opens.desk, Client.place]
    split
    · exact desk
    · exact List.forall_mem_append.mpr ⟨desk, List.forall_mem_singleton.mpr ⟨file, reads, rfl⟩⟩
  · rw [opens.desk]
    refine List.forall_mem_append.mpr ⟨fun o member => ?_, List.forall_mem_singleton.mpr ?_⟩
    · obtain ⟨document, found, own⟩ := shown o member
      exact ⟨document, Client.placeKeeps found, own⟩
    · refine ⟨_, Client.placeHolds (documentOf m file text) _, ?_⟩
      cases found : look (documentOf m file text).uri (Client.desk d.client.deeds) with
      | none => exact reads
      | some document =>
        -- the file of the earlier document stands in the same place, so it has the same text
        obtain ⟨member, named⟩ := TextDocument.lookName found
        obtain ⟨first, reads', own⟩ := desk document member
        rw [Option.getD_some, readsSame proper (uriCanonical (own.symm.trans named)) reads' reads]
        exact reads

theorem openFilesOnwards (m : Machine) (d : Dialogue) (opened : List Opened) (files : List String) :
    Onwards d (openFiles m d opened files).1 := by
  induction files generalizing d opened with
  | nil => exact Dialogue.onwardsSame d
  | cons file files ih =>
    unfold openFiles
    split
    · exact Dialogue.onwardsSame d
    · dsimp only
      split
      · exact ih d opened
      · rename_i document _
        have first : Onwards d (d.act (.host (.didOpen document))).1 := Dialogue.stepOnwards _ d
        split <;> rename_i asked <;> rw [asked] at first
        · exact Dialogue.onwardsThen first (ih _ _)
        · exact first
        · exact Dialogue.onwardsThen first (ih _ _)

theorem openFilesNext (plain : '\\' ∉ (m.canonical file).toList) (lustre : Lustre m file) (reads : Reads m file text)
    (answer : (d.act (.host (.didOpen (documentOf m file text)))).2 = .flag true) (opened : List Opened)
    (files : List String) : openFiles m d opened (file :: files) =
      openFiles m (d.step (.host (.didOpen (documentOf m file text)))) (opened ++ [(file, uriOf m file)]) files := by
  have asked : d.act (.host (.didOpen (documentOf m file text))) =
      (d.step (.host (.didOpen (documentOf m file text))), .flag true) := Prod.ext rfl answer
  rw [openFiles, readTextReads.mpr reads]
  dsimp only
  rw [documentMade plain lustre reads]
  dsimp only
  rw [asked]
  rfl

theorem openFilesOther (other : ¬ Lustre m file) (reads : Reads m file text) (opened : List Opened)
    (files : List String) : openFiles m d opened (file :: files) = openFiles m d opened files := by
  rw [openFiles, readTextReads.mpr reads]
  dsimp only
  rw [TextDocument.ofOther other]

inductive Opens (m : Machine) (config : Config) (opened : List Opened) (files : List String) :
    Dialogue × Except Causes (List Opened) → Prop where
  | all {d : Dialogue} {fresh : List Opened} (readable : ∀ file ∈ files, ∃ text, Reads m file text)
      (listed : Listed m files fresh) (stands : Stands m config d (opened ++ fresh)) :
      Opens m config opened files (d, .ok (opened ++ fresh))
  | broken {d : Dialogue} {file : String} {more : List Opened} {causes : Causes} (member : file ∈ files)
      (unreadable : ∀ text, ¬ Reads m file text) (stands : Stands m config d more) :
      Opens m config opened files (d, .error causes)

theorem opensLater (before : List Opened) {result : Dialogue × Except Causes (List Opened)}
    (readable : ∃ text, Reads m file text)
    (list : ∀ {fresh : List Opened}, Listed m files fresh → Listed m (file :: files) (before ++ fresh))
    (rest : Opens m config (opened ++ before) files result) : Opens m config opened (file :: files) result := by
  cases rest with
  | all others listed stands =>
    rw [List.append_assoc] at stands ⊢
    exact .all (List.forall_mem_cons.mpr ⟨readable, others⟩) (list listed) stands
  | broken member unreadable stands => exact .broken (List.mem_cons_of_mem _ member) unreadable stands

theorem openFilesOpens (proper : Machine.Proper m.current) (selector : config.selector = [.lustreFiles])
    (plain : ∀ file ∈ files, '\\' ∉ (m.canonical file).toList) (stands : Stands m config d opened)
    (allows : ∀ {e attended file text}, file ∈ files → Reads m file text → Calm config 1 e attended →
      Onwards (e.step (.host (.didOpen (documentOf m file text)))) (openFiles m d opened files).1 →
        Dialogue.Allows e (.didOpen (documentOf m file text)) attended) :
    Opens m config opened files (openFiles m d opened files) := by
  induction files generalizing d opened with
  | nil =>
    have listed : Stands m config d (opened ++ []) := by rwa [List.append_nil]
    have all := Opens.all (List.forall_mem_nil _) .nil listed
    rwa [List.append_nil] at all
  | cons file files ih =>
    obtain ⟨first, others⟩ := List.forall_mem_cons.mp plain
    by_cases readable : ∃ text, Reads m file text
    · obtain ⟨text, reads⟩ := readable
      by_cases lustre : Lustre m file
      · obtain ⟨attended, calm⟩ := stands.calm
        have answer := (Dialogue.openAsks calm (selector ▸ documentAccepted m file text)).1
        rw [openFilesNext first lustre reads answer opened files] at allows ⊢
        obtain ⟨_, stands'⟩ := standsOpens proper stands selector reads fun calm =>
          allows List.mem_cons_self reads calm (openFilesOnwards m _ _ files)
        exact opensLater [(file, uriOf m file)] ⟨text, reads⟩ (.lustre lustre)
          (ih others stands' fun member => allows (List.mem_cons_of_mem _ member))
      · rw [openFilesOther lustre reads] at allows ⊢
        refine opensLater [] ⟨text, reads⟩ (.other lustre) ?_
        rw [List.append_nil]
        exact ih others stands fun member => allows (List.mem_cons_of_mem _ member)
    · have unreadable : ∀ text, ¬ Reads m file text := not_exists.mp readable
      obtain ⟨cause, failed⟩ := readTextFails unreadable
      rw [openFiles, failed]
      exact .broken List.mem_cons_self unreadable stands

end Cli
end LspClient
