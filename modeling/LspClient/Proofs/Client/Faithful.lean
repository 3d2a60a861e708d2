import LspClient.Proofs.Client.Conversation

/-! Document synchronisation of a whole run. The desk is what the host was told, the replica what the server
was told; while the client runs and nothing was lost they are the same, and the client tracks just
these documents. -/
namespace LspClient

theorem Selector.acceptsAlike {s : Selector} {d e : TextDocument} (uri : d.uri = e.uri)
    (language : d.language = e.language) : s.accepts d = s.accepts e := by
  simp only [Selector.accepts, DocumentFilter.accepts, uri, language]

namespace Client
open TextDocument

variable {config : Config} {nextId : Int} {c after : Client}

def Accepting (selector : Selector) (log : List Event) : Prop :=
  ∀ d, .called (.didOpen d) (.flag true) ∈ log → selector.accepts d = true

theorem acceptingSteady {selector : Selector} {log es : List Event} (accepting : Accepting selector log)
    (steady : Steady es) : Accepting selector (log ++ es) := by
  intro d member
  rcases List.mem_append.mp member with old | new
  · exact accepting d old
  · exact absurd rfl (steady _ new (.didOpen d))

theorem acceptingCalled {selector : Selector} {log es : List Event} {call : Call}
    (accepting : Accepting selector log) (steady : Steady es)
    (own : ∀ d, call = .didOpen d → selector.accepts d = true) :
    Accepting selector (log ++ (es ++ [.called call (.flag true)])) := by
  intro d member
  rw [← List.append_assoc, List.mem_append, List.mem_singleton] at member
  rcases member with old | new
  · exact acceptingSteady accepting steady d old
  · injection new with same
    exact own d same.symm

theorem editOwn {call queued documents} (edit : Edit c call queued documents) {d : TextDocument}
    (opens : call = .didOpen d) : c.config.selector.accepts d = true := by
  cases edit <;> cases opens <;> assumption

theorem tellAccepting {m es documents} {log : List Event}
    (accepting : Accepting c.config.selector log) (tell : Tell c m es documents) :
    Accepting c.config.selector (log ++ .wrote m :: es) := by
  have steady (m : Message) : Steady [.wrote m] := by simp [Steady]
  cases tell with
  | opened own =>
    exact acceptingCalled accepting (steady _) fun d same => by cases same; exact own
  | changed | closed => exact acceptingCalled accepting (steady _) fun d same => by cases same
  | @pulled a =>
    refine acceptingSteady accepting (steadyCons.mpr ⟨by simp, steadyAppend.mpr ⟨?_, by simp [Steady]⟩⟩)
    exact muteSteady (muteNews a)

theorem saidAccepting (accepting : Accepting c.config.selector c.log) (said : Said c after) :
    Accepting c.config.selector after.log := by
  cases said with
  | nothing log mute => exact log ▸ acceptingSteady accepting (muteSteady mute)
  | stuck log mute => exact log ▸ acceptingSteady accepting (lostSteady _ mute)
  | edited edit log =>
    have steady : Steady [] := by simp [Steady]
    exact log ▸ acceptingCalled accepting steady fun d same => editOwn edit same
  | told running pipe tell log => exact log ▸ tellAccepting accepting tell
  | ready starting awaited pipe log =>
    exact log ▸ acceptingSteady accepting (heardSteady (by simp [Steady]))
  | readyLost starting awaited clear split log =>
    exact log ▸ acceptingSteady accepting (heardSteady (by simp [Steady]))
  | replied pipe log | introduced unopened starting log | shutdown registered stopping pipe log
    | exit waiting answered pipe log => exact log ▸ acceptingSteady accepting (by simp [Steady])

theorem reachedAccepting (reached : Reached config nextId c) : Accepting config.selector c.log := by
  induction reached with
  | new => exact nofun
  | @turn c after before turn ih =>
    have same := reachedConfig before
    exact same ▸ saidAccepting (same ▸ ih) (reachedSaid before turn)

theorem deskStepAccepted {selector : Selector} {ds : List TextDocument} {e : Event}
    (accepted : ∀ d ∈ ds, selector.accepts d = true)
    (own : ∀ d, e = .called (.didOpen d) (.flag true) → selector.accepts d = true) :
    ∀ d ∈ deskStep ds e, selector.accepts d = true := by
  intro d member
  unfold deskStep at member
  split at member
  · rename_i opened
    rw [place] at member
    split at member
    · exact accepted d member
    · rcases List.mem_append.mp member with old | new
      · exact accepted d old
      · exact List.mem_singleton.mp new ▸ own opened rfl
  · obtain ⟨e, held, same⟩ := List.mem_map.mp member
    rw [← accepted e held]
    split at same <;> exact Selector.acceptsAlike (by rw [← same]) (by rw [← same])
  · exact accepted d (List.mem_filter.mp member).1
  · exact accepted d member

theorem deskAccepted {selector : Selector} {log : List Event} (accepting : Accepting selector log) :
    ∀ d ∈ desk log, selector.accepts d = true := by
  suffices all : ∀ ds, (∀ d ∈ ds, selector.accepts d = true) →
      ∀ d ∈ log.foldl deskStep ds, selector.accepts d = true from all [] nofun
  induction log with
  | nil => exact fun ds accepted => accepted
  | cons e rest ih =>
    intro ds accepted
    refine ih (fun d member => accepting d (List.mem_cons_of_mem e member)) _ ?_
    exact deskStepAccepted accepted fun d same => accepting d (same ▸ List.mem_cons_self)

theorem openedInjective {d e : TextDocument} (same : Request.didOpen d = Request.didOpen e) : d = e := by
  have read := congrArg Notice.read? same
  rw [Notice.readOpened, Notice.readOpened] at read
  injection read with read
  injection read

theorem spokenOpened {log : List Event} {ms : List Message} (spoken : Spoken log ms) {d : TextDocument}
    (member : Request.didOpen d ∈ ms) : .called (.didOpen d) (.flag true) ∈ log := by
  induction spoken with
  | nothing => cases member
  | other _ ih => exact List.mem_append_left _ (ih member)
  | reply _ reply ih =>
    rcases List.mem_append.mp member with old | new
    · exact ih old
    · exact nomatch List.mem_singleton.mp new ▸ reply
  | call _ speaks ih =>
    rcases List.mem_append.mp member with old | new
    · exact List.mem_append_left _ (ih old)
    · refine List.mem_append_right _ (List.mem_singleton.mpr ?_)
      have same := List.mem_singleton.mp new
      cases speaks with
      | opened => rw [openedInjective same]
      | changed => simp [Request.didOpen, Request.didChange] at same
      | closed => simp [Request.didOpen, Request.didClose] at same
      | pulled => simp [Request.didOpen, Request.diagnostic] at same

theorem repliesUnopened {ms : List Message} (replies : Replies ms) {d : TextDocument} :
    Request.didOpen d ∉ ms := fun member => nomatch replies _ member

theorem unlikeOpened {m : Message} {d : TextDocument} (silent : Notice.read? m = none) :
    Request.didOpen d ≠ m := by
  intro same
  rw [← same, Notice.readOpened] at silent
  cases silent

theorem wireOpened {v : Conversation} {d : TextDocument} (member : Request.didOpen d ∈ v.wire config) :
    d ∈ v.opened ∨ .called (.didOpen d) (.flag true) ∈ v.calls := by
  rw [Conversation.wire, List.mem_append, List.mem_append, List.mem_singleton] at member
  rcases member with (before | after) | exit
  · rw [Conversation.upToShutdown, List.cons_append, List.cons_append, List.mem_cons,
      List.append_assoc, List.mem_append] at before
    rcases before with introduced | greeting | opened
    · exact absurd introduced (unlikeOpened rfl)
    · exact absurd greeting (repliesUnopened v.greeted)
    · rw [List.cons_append, List.mem_cons, List.mem_append, List.mem_map] at opened
      rcases opened with ready | ⟨e, own, same⟩ | traffic
      · exact absurd ready (unlikeOpened rfl)
      · exact .inl (openedInjective same ▸ own)
      · exact .inr (spokenOpened v.spoken traffic)
  · rcases List.mem_cons.mp after with shutdown | farewell
    · exact absurd shutdown (unlikeOpened rfl)
    · exact absurd farewell (repliesUnopened v.parting)
  · exact absurd exit (unlikeOpened rfl)

theorem openedReady {v : Conversation} {sent : List Message} {d : TextDocument}
    (part : sent <+: v.wire config) (opened : Request.didOpen d ∈ sent) : Request.initialized ∈ sent := by
  refine Decidable.byContradiction fun unready => ?_
  have wire : v.wire config = (introduction config v.number :: v.greetings) ++ Request.initialized ::
      (v.opened.map Request.didOpen ++ v.traffic ++ Request.shutdown v.lastNumber :: v.farewells ++
        [Request.exit]) := by
    simp [Conversation.wire, Conversation.upToShutdown]
  have member := (splitPrefix (wire ▸ part) unready).subset opened
  rcases List.mem_cons.mp member with introduced | greeting
  · exact unlikeOpened rfl introduced
  · exact repliesUnopened v.greeted greeting

theorem reachedAnnounced (reached : Reached config nextId c) {before rest : List Event}
    (split : c.log = before ++ .wrote Request.initialized :: rest) {d : TextDocument}
    (sent : Request.didOpen d ∈ written c.log) :
    d ∈ desk before ∨ .called (.didOpen d) (.flag true) ∈ rest := by
  obtain ⟨v, part, fits⟩ := spokeConversation (reachedConversing reached).spoke
  obtain ⟨opened, calls⟩ := fits before rest split
  rw [← opened, ← calls]
  exact wireOpened (part.subset sent)

theorem reachedReady (reached : Reached config nextId c) {d : TextDocument}
    (sent : Request.didOpen d ∈ written c.log) : .wrote Request.initialized ∈ c.log := by
  obtain ⟨v, part, _⟩ := spokeConversation (reachedConversing reached).spoke
  exact memWritten.mpr (openedReady part sent)

theorem reachedOwn (reached : Reached config nextId c) {d : TextDocument}
    (sent : Request.didOpen d ∈ written c.log) : config.selector.accepts d = true := by
  obtain ⟨before, rest, split⟩ := List.append_of_mem (reachedReady reached sent)
  have accepting := reachedAccepting reached
  rw [split] at accepting
  rcases reachedAnnounced reached split sent with early | late
  · exact deskAccepted (fun d member => accepting d (List.mem_append_left _ member)) d early
  · exact accepting d (by simp [late])

structure Faithful (config : Config) (c : Client) : Prop where
  -- the server can follow all it is told, as far as the versions of 32 bits go and from there again
  followed : ∃ replica, replay c.sent = some replica
  same : c.phase = .running → Lossless c.deeds →
    replay c.sent = some (desk c.deeds) ∧ Tracked c.documents (desk c.deeds)
  own : ∀ d, Request.didOpen d ∈ c.sent → config.selector.accepts d = true
  ready : ∀ d, Request.didOpen d ∈ c.sent → .wrote Request.initialized ∈ c.deeds
  -- nothing is announced that no longer lay on the desk at the handshake's end, unless it was opened later
  announced : ∀ before rest, c.deeds = before ++ .wrote Request.initialized :: rest →
    ∀ d, Request.didOpen d ∈ c.sent → d ∈ desk before ∨ .called (.didOpen d) (.flag true) ∈ rest
  again : ∀ d, c.documents.get? d.uri ≠ none → (c.didOpen d).1 = c
  foreign : ∀ d, config.selector.accepts d = false → c.didOpen d = (c, .ok false)

theorem openAgain {d : TextDocument} (known : c.documents.get? d.uri ≠ none) : (c.didOpen d).1 = c := by
  have present := Option.isSome_iff_ne_none.mpr known
  simp only [didOpen, present, if_true]
  split
  · rfl
  · split <;> rfl

theorem openForeign {d : TextDocument} (foreign : c.config.selector.accepts d = false) :
    c.didOpen d = (c, .ok false) := by
  simp [didOpen, foreign]

theorem faithful (config : Config) (nextId : Int) (moves : List Move) :
    Faithful config ((new config nextId).play moves) := by
  have reached := playReached config nextId moves
  generalize (new config nextId).play moves = c at reached
  have synced := reachedSynced reached
  have sent : written c.quiet.log = c.sent := sentQuiet c
  have own : c.config = config := reachedConfig (c := c.quiet) reached
  exact {
    followed := sent ▸ synced.replayed
    same := fun running lossless => sent ▸ synced.running running lossless
    own := fun d told => reachedOwn reached (sent ▸ told)
    ready := fun d told => reachedReady reached (sent ▸ told)
    announced := fun before rest split d told => reachedAnnounced reached split (sent ▸ told)
    again := fun d known => openAgain known
    foreign := fun d foreign => openForeign (own ▸ foreign) }

def overrun : List Move := [.host (.start none), .spawn, .introduce,
  .server (.writes (Message.response 1 (some .null) none).octets), .take,
  .host (.didOpen {sampleDocument with version := Int32.maxValue}),
  .host (.didChange sampleDocument.uri "y")]

/-- Its change takes a version below that of the opening, although nothing was lost. -/
theorem overrunFalls : ((new sampleConfig 1).play overrun).phase = .running ∧
    Lossless ((new sampleConfig 1).play overrun).deeds ∧
    ((new sampleConfig 1).play overrun).sent.filterMap Notice.read? =
      [.opened {sampleDocument with version := Int32.maxValue},
        .changed sampleDocument.uri Int32.minValue "y"] ∧
    Int32.minValue.toInt < Int32.maxValue.toInt := by
  refine ⟨by decide +kernel, ?_, by decide +kernel, by decide⟩
  have none : ((new sampleConfig 1).play overrun).deeds.all
      (fun | .lost _ => false | _ => true) = true := by decide +kernel
  exact fun m member => nomatch List.all_eq_true.mp none _ member

end Client
end LspClient
