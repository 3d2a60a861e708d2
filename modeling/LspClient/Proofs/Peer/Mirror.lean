import LspClient.Proofs.Client.Calling
import LspClient.Proofs.Client.Rejected
import LspClient.Proofs.Peer.Latest
import LspClient.Proofs.Peer.Settling

/-! While a client runs, its diagnostics mirror the texts on the host's desk: once both sides rest, each document
there has the findings in its text, and no other name has any. -/
namespace LspClient
open TextDocument

namespace Client
open StandIn (noted Narrow)

variable {config : Config} {nextId : Int} {c : Client} {log : List Event} {uri : String}

def Fetched (before log : List Event) (name uri : String) (items : List Diagnostic) : Prop :=
  ∃ id result early between last, log = before ++ .awaits id (.pull name uri) :: (early ++
    .wrote (Request.diagnostic id uri) :: .called (.pull name uri) .nothing :: between) ++
      .heard (.response id result none) :: .resolved (.pull name) (.items items) :: last ∧
    Unheard id early ∧ Unheard id between

theorem latestNow {before : List Event} {e : Event} {entry entry' : Option (List Diagnostic)}
    (increasing : (numbers before).Pairwise (· < ·)) (puts : Puts before uri e entry)
    (latest : Latest (before ++ [e]) uri entry') : entry' = entry := by
  rcases latest with ⟨untouched, _⟩ | ⟨start, e', rest, split, puts', untouched⟩
  · exact absurd puts (untouched before e [] entry rfl)
  · rcases splitLast split with ⟨_, rfl, rfl⟩ | ⟨short, same, early⟩
    · exact (putsAlone increasing puts' puts).2
    · rw [early] at puts
      refine absurd ?_ (untouched short e [] entry same)
      simpa using puts

theorem hearingsFirst {x : Message} {more : List Message} (heard : hearings log = x :: more) :
    ∃ between last, log = between ++ .heard x :: last ∧ hearings between = [] := by
  obtain ⟨between, e, last, rfl, silent, own, _⟩ := List.filterMap_eq_cons_iff.mp heard
  refine ⟨between, last, ?_, List.filterMap_eq_nil_iff.mpr silent⟩
  cases e with
  | heard m => cases own; rfl
  | _ => cases own

theorem fetched {past : Client} {before early es between last back : List Event} {id : Int} {name : String}
    {result : Option Json} (reached : Reached config nextId c) (parts : c.log = past.log ++ back)
    (deaf : hearings back = []) (open' : .ended ∉ past.log) (prompt : Prompt past) (returned : past.asking = none)
    (log : c.log = before ++ .awaits id (.pull name uri) :: (early ++ .wrote (Request.diagnostic id uri) :: es))
    (answer : es = between ++ .heard (.response id result none) :: last) (unheard : Unheard id early)
    (unheard' : Unheard id between) :
    ∃ entry earlier, Fetched before c.log name uri (entry.getD []) ∧ Asking earlier id name uri ∧
      Latest (earlier ++ [.heard (.response id result none)]) uri entry ∧ (numbers earlier).Pairwise (· < ·) := by
  have increasing := (reachedNumbered reached).increasing
  have heard : c.log = (before ++ .awaits id (.pull name uri) :: (early ++
      .wrote (Request.diagnostic id uri) :: between)) ++ .heard (.response id result none) :: last := by
    simp [log, answer]
  obtain ⟨rest, ending, own⟩ : ∃ rest, last = rest ++ back ∧ past.log = (before ++ .awaits id (.pull name uri) ::
      (early ++ .wrote (Request.diagnostic id uri) :: between)) ++ .heard (.response id result none) :: rest := by
    rcases splitAppend (parts.symm.trans heard) with ⟨short, rest, own⟩ | ⟨first, _, late⟩
    · exact ⟨short, rest, own⟩
    · have member : .response id result none ∈ hearings back :=
        List.mem_filterMap.mpr ⟨_, splitMember late, rfl⟩
      rw [deaf] at member
      cases member
  have unended : .ended ∉ before ++ .awaits id (.pull name uri) :: (early ++
      .wrote (Request.diagnostic id uri) :: between) := fun ended => open' (own ▸ List.mem_append_left _ ended)
  obtain ⟨more, returns⟩ := (writtenReturns reached log).2 (fun ended => unended (by simp at ended ⊢; tauto)) unheard
  cases between with
  | nil => cases answer.symm.trans returns
  | cons e between =>
    obtain ⟨rfl, _⟩ := List.cons.inj (answer.symm.trans returns)
    have asking := writtenAsks reached heard unended unheard unheard'
    obtain ⟨outcome, later, rfl, yields⟩ := answerTold reached parts prompt returned own (by simp) asking
    cases yields with
    | @items entry latest =>
      refine ⟨entry, _, ⟨id, result, early, between, later ++ back, ?_, unheard, ?_⟩, asking, latest,
        increasingPart increasing heard⟩
      · rw [heard, ending]
        rfl
      · exact fun result error member => unheard' result error (List.mem_cons_of_mem _ member)

theorem pullQuiet (reached : Reached config nextId c.quiet) (running : c.phase = .running)
    (open' : c.link ≠ .closed) (name uri : String) : (c.pull name uri).quiet = {c.quiet with
      nextId := c.nextId + 1, asking := some ⟨c.nextId, name, uri, none⟩
      router := {c.router with pending := c.router.pending ++ [(c.nextId, .pull name uri)]}
      log := c.quiet.log ++ [.awaits c.nextId (.pull name uri)]} := by
  have listening : c.router.closed = false :=
    Bool.eq_false_iff.mpr (mt (reachedCoherent reached).closed.mp open')
  rw [pull, if_pos running, quietNote rfl, Router.registerOpen listening (unknownNext (quietFresh reached))]
  rfl

theorem pullAsks (reached : Reached config nextId c.quiet) (running : c.phase = .running) (held : c.held = true)
    (free : c.asking = none) (open' : c.link ≠ .closed) (name uri : String) :
    let asking := (c.hostCall (.pull name uri)).1
    asking.deeds = c.deeds ++ [.awaits c.nextId (.pull name uri)] ∧ asking.phase = .running ∧ asking.held = true := by
  have opened := pullQuiet reached running open' name uri
  rw [hostPulls held free running]
  exact ⟨congrArg Client.log opened, (congrArg Client.phase opened).trans running,
    (congrArg Client.held opened).trans held⟩

end Client

namespace Dialogue
open Client (hearings written desk answers Fetched)
open StandIn (echo hearing attend Reports noted)

variable {config : Config} {nextId : Int} {d : Dialogue} {attended waiting coming : List Message}

structure Heard (config : Config) (d : Dialogue) : Prop where
  runs : Runs d
  lodged : d.client.Lodged
  fair : StandIn.Fair config (written d.client.deeds)
  whole : hearings d.client.deeds = echo (written d.client.deeds)
  heeds : Client.Heeds d.client.deeds

theorem restHeard (reached : Client.Reached config nextId d.client.quiet)
    (joined : Joined d attended waiting coming) (resting : Resting d) (running : d.client.phase = .running)
    (fit : Fit d) : Heard config d := by
  have runs := joinedRuns reached joined running
  have fair := joinedFair reached joined (.inl (runsGoing runs)) fit
  obtain ⟨rfl, rfl, _⟩ := restJoined reached joined resting running fit
  have wrote : written d.client.deeds = attended := joined.written.trans (List.append_nil _)
  have heard : echo attended = hearings d.client.deeds := joined.heard.trans (List.append_nil _)
  rw [List.append_nil] at fair
  exact ⟨runs, joined.lodged, wrote ▸ fair, wrote ▸ heard.symm, joined.heeds⟩

theorem heardClear (reached : Client.Reached config nextId d.client.quiet) (heard : Heard config d) :
    d.client.refusal = none :=
  Client.lodgedClear (c := d.client.quiet) heard.lodged (Client.reachedHoused reached)
    ((Client.reachedCoherent reached).running heard.runs.phase).2.2

theorem heardText (reached : Client.Reached config nextId d.client.quiet) (heard : Heard config d) (uri : String) :
    d.client.diagnostics uri = noted ((hearing (written d.client.deeds)).textOf uri) := by
  have running : d.client.phase = .running := heard.runs.phase
  have unstopped : d.client.quiet.phase ≠ .stopped := by
    intro stopped
    exact nomatch running.symm.trans stopped
  have lossless := (Client.reachedPiped reached).clear (heardClear reached heard)
  exact Client.latestText heard.fair heard.whole (Client.reachedNumbered reached).increasing
    (Client.pullAwaited reached) heard.heeds (Client.reachedClosings reached (runsGoing heard.runs) lossless)
    (Client.reachedLatest reached unstopped uri)

theorem heardDesk (reached : Client.Reached config nextId d.client.quiet) (heard : Heard config d) :
    replay (written d.client.deeds) = some (desk d.client.deeds) ∧
      Client.Tracked d.client.documents (desk d.client.deeds) :=
  (Client.reachedSynced reached).running heard.runs.phase
    ((Client.reachedPiped reached).clear (heardClear reached heard))

theorem heardFindings (reached : Client.Reached config nextId d.client.quiet) (heard : Heard config d)
    (uri : String) :
    d.client.diagnostics uri = noted (StandIn.shownText (desk d.client.deeds) uri) ∧
      StandIn.Narrow (StandIn.shownText (desk d.client.deeds) uri) := by
  have texts := StandIn.hearingReplica (fun m member => (heard.fair m member).1) (heardDesk reached heard).1 uri
  rw [← texts]
  exact ⟨heardText reached heard uri, StandIn.hearingNarrow heard.fair uri⟩

section
variable (reached : Client.Reached config nextId d.client.quiet) (heard : Heard config d)
  (held : d.client.held = true) (free : d.client.asking = none) (name uri : String)
include reached heard held free

theorem heardAsks : let asking := d.perform (.client (.host (.pull name uri)))
    asking.client.deeds = d.client.deeds ++ [.awaits d.client.nextId (.pull name uri)] ∧
      asking.client.phase = .running ∧ asking.client.held = true := by
  have open' : d.client.link ≠ .closed := by
    rw [heard.runs.link]
    nofun
  exact Client.pullAsks reached heard.runs.phase held free open' name uri

theorem heardFetched {later : Dialogue} (reached' : Client.Reached config nextId later.client.quiet)
    (heard' : Heard config later) (returned : later.client.asking = none) {es : List Event}
    (log : later.client.deeds = (d.perform (.client (.host (.pull name uri)))).client.deeds ++ es) :
    Fetched d.client.deeds later.client.deeds name uri (d.client.diagnostics uri) := by
  rw [(heardAsks reached heard held free name uri).1, List.append_assoc] at log
  have lossless := (Client.reachedPiped reached').clear (heardClear reached' heard')
  have wrote := Client.returnedWrote reached' returned lossless log
  obtain ⟨early, rest, rfl⟩ := List.append_of_mem wrote
  obtain ⟨replies, _⟩ := Client.writtenReturns reached' log
  have quiet : attend (hearing (written d.client.deeds)) (written early) = (hearing (written d.client.deeds), []) :=
    StandIn.attendReplies _ fun m member => replies m ((Client.attemptedWritten early).subset member)
  -- nothing is under way when the call begins, and replies bring nothing
  have silent : hearings early = [] := by
    have part : d.client.deeds ++ .awaits d.client.nextId (.pull name uri) :: early <+: later.client.deeds :=
      ⟨.wrote (Request.diagnostic d.client.nextId uri) :: rest, by simp [log]⟩
    obtain ⟨more, told⟩ := heard'.heeds _ part
    have all : hearings d.client.deeds ++ (hearings early ++ more) = hearings d.client.deeds ++ [] := by
      rw [Client.hearingsAppend, Client.writtenAppend, StandIn.echoAppend, ← heard.whole, List.append_assoc] at told
      exact told.trans (congrArg (hearings d.client.deeds ++ ·) (congrArg Prod.snd quiet))
    exact (List.append_eq_nil_iff.mp (List.append_cancel_left all)).1
  have first : hearings rest = StandIn.reporting d.client.nextId ((hearing (written d.client.deeds)).textOf uri) ::
      (attend (hearing (written d.client.deeds)) (written rest)).2 := by
    have whole := heard'.whole
    have wire : written later.client.deeds = written d.client.deeds ++ (written early ++
        Request.diagnostic d.client.nextId uri :: written rest) := by
      rw [log, Client.writtenAppend]
      exact congrArg (written d.client.deeds ++ ·) (Client.writtenAppend early _)
    have last : hearings later.client.deeds = hearings d.client.deeds ++ hearings rest := by
      rw [log, Client.hearingsAppend]
      refine congrArg (hearings d.client.deeds ++ ·) ((Client.hearingsAppend early _).trans ?_)
      rw [silent]
      rfl
    rw [wire, last, StandIn.echoAppend, ← heard.whole, StandIn.attendAppend, quiet, attend,
      StandIn.handlePulled] at whole
    exact List.append_cancel_left whole
  obtain ⟨between, last, answer, deaf⟩ := Client.hearingsFirst first
  have open' := Client.pumpingUnended reached' heard'.runs.link
  have unstopped : later.client.quiet.phase ≠ .stopped := by
    intro stopped
    cases heard'.runs.phase.symm.trans stopped
  obtain ⟨entry, earlier, fetched, asking, latest, increasing⟩ := Client.fetched reached'
    (List.append_nil _).symm rfl open' (Client.reachedPrompt reached' unstopped) returned log answer
    (Client.deafUnheard silent _) (Client.deafUnheard deaf _)
  have puts : Client.Puts earlier uri (.heard (StandIn.reporting d.client.nextId _)) (some _) :=
    .answered asking (StandIn.reportingRead (StandIn.hearingNarrow heard.fair uri))
  rw [heardText reached heard uri, ← Option.getD_some (a := noted _), ← Client.latestNow increasing puts latest]
  exact fetched

end

structure Mirrors (d : Dialogue) : Prop where
  tracked : ∀ uri, d.client.documents.get? uri ≠ none → ∃ document,
    look uri (desk d.client.deeds) = some document ∧ Reports document.text (d.client.diagnostics uri)
  untracked : ∀ uri, d.client.documents.get? uri = none → d.client.diagnostics uri = []
  pulled : d.client.held = true → ∀ name uri more,
    let later := (d.perform (.client (.host (.pull name uri)))).play more
    Fit later → later.client.phase = .running → Resting later →
      Fetched d.client.deeds later.client.deeds name uri (d.client.diagnostics uri)
  -- left to themselves both sides come to rest again
  settles : d.client.held = true → ∀ name uri, ∃ more, (∀ move ∈ more, Move.own move = true) ∧
    let later := (d.perform (.client (.host (.pull name uri)))).play more
    Fit later → later.client.phase = .running ∧ Resting later

theorem mirrored (config : Config) (nextId : Int) (moves : List Move)
    (fit : Fit ((opening config nextId).play moves))
    (running : ((opening config nextId).play moves).client.phase = .running)
    (resting : Resting ((opening config nextId).play moves)) : Mirrors ((opening config nextId).play moves) := by
  have reached : Client.Reached config nextId ((opening config nextId).play moves).client.quiet :=
    playReached .new moves
  obtain ⟨attended, waiting, coming, joined⟩ := openingPlayed config nextId (Client.runningGoing running) fit
  generalize (opening config nextId).play moves = d at reached joined fit running resting
  have heard := restHeard reached joined resting running fit
  obtain ⟨rfl, rfl, _⟩ := restJoined reached joined resting running fit
  obtain ⟨_, tracked⟩ := heardDesk reached heard
  have findings := heardFindings reached heard
  have free := (Client.restingStill.mp (clientResting resting)).free
  exact {
    tracked := fun uri known => by
      obtain ⟨document, found⟩ := Option.ne_none_iff_exists'.mp (Client.trackedPresent tracked known)
      have shown : StandIn.shownText (desk d.client.deeds) uri = document.text := by
        rw [StandIn.shownText, found]
        rfl
      obtain ⟨same, narrow⟩ := findings uri
      rw [shown] at same narrow
      exact ⟨document, found, same ▸ StandIn.notedReports narrow⟩
    untracked := fun uri unknown => by
      rw [(findings uri).1, StandIn.shownText, Client.trackedAbsent tracked unknown]
      rfl
    pulled := fun held name uri more fit' running' resting' => by
      have returned := (Client.restingStill.mp (clientResting resting')).free
      have reached' := playReached reached (.client (.host (.pull name uri)) :: more)
      obtain ⟨es, log⟩ := playGrows (performReached reached (.client (.host (.pull name uri)))) more
      have going' : ¬ (d.play (.client (.host (.pull name uri)) :: more)).client.Over :=
        Client.runningGoing running'
      obtain ⟨_, _, _, joined'⟩ := playJoined reached ⟨_, _, _, joined⟩ going' fit'
      have heard' := restHeard reached' joined' resting' running' fit'
      exact heardFetched reached heard held free name uri reached' heard' returned log
    settles := fun held name uri => by
      obtain ⟨_, running', held'⟩ := heardAsks reached heard held free name uri
      have gentle : (Client.Move.host (.pull name uri)).isGentle = true := rfl
      obtain ⟨more, joined'⟩ := hushedStep reached joined gentle rfl (Client.runningGoing running')
      have reached' := performReached reached (.client (.host (.pull name uri)))
      -- the call returns, and then both sides settle
      obtain ⟨phase, _, holds, _⟩ := Client.askStays (d.perform (.client (.host (.pull name uri)))).client
      have gentle' : Client.Move.ask.isGentle = true := rfl
      obtain ⟨more', asked⟩ := hushedStep reached' joined' gentle' rfl (Client.runningGoing (phase.trans running'))
      have reached'' := performReached reached' (.client .ask)
      refine ⟨.client .ask :: settling attended (more ++ more') [],
        List.forall_mem_cons.mpr ⟨rfl, settlingOwn⟩, fun fit' => ?_⟩
      obtain ⟨runs, resting'⟩ := settles reached'' asked (joinedRuns reached'' asked (phase.trans running'))
        (holds.trans held') (Client.askFree _) fit'
      exact ⟨runs.phase, resting'⟩ }

def otherDocument : TextDocument := ⟨"file:///b.lus", "lustre", 1, "an error"⟩

def introducing : List Move := [.client (.host (.didOpen Client.sampleDocument)),
  .client (.host (.didOpen {Client.sampleDocument with text := "error"})),
  .client (.host (.didOpen otherDocument)), .client (.host (.start none)), .client .spawn, .client .introduce]

def introduced : Dialogue := (opening Client.sampleConfig 1).play introducing

def introduction : Message := Client.introduction Client.sampleConfig 1

def greeting : Message := .response 1 (some StandIn.greeting) none

def openings : List Message :=
  [Request.initialized, Request.didOpen Client.sampleDocument, Request.didOpen otherDocument]

def exchanging : List Move :=
  [.hear, .pass ((echo [introduction]).flatMap Message.octets).length, .client .take]

def reopening : List Move := introducing ++ (exchanging ++ settling [introduction] openings [])

def reopened : Dialogue := (opening Client.sampleConfig 1).play reopening

theorem introducedFacts : introduced.client.link = .handshake 1 ∧ introduced.client.server = some .fresh ∧
    written introduced.client.deeds = [introduction] ∧ hearings introduced.client.deeds = [] ∧
    (introduced.client.hear greeting).phase = .running ∧ (introduced.client.hear greeting).link = .pumping ∧
    (introduced.client.hear greeting).held = true ∧ (introduced.client.hear greeting).asking = none ∧
    written (introduced.client.hear greeting).deeds = introduction :: openings := by decide +kernel

theorem introducedJoined : Joined introduced [] [introduction] [] := by
  obtain ⟨link, fresh, wrote, silent, _⟩ := introducedFacts
  have open' : introduced.client.link ≠ .closed := by
    rw [link]
    nofun
  have unread : introduced.client.unread = [] := by rw [Client.unread, fresh]; rfl
  exact {
    link := open'
    lodged := fun s server => by
      cases fresh.symm.trans server
      exact ⟨rfl, rfl, rfl⟩
    written := wrote
    read := rfl
    peer := rfl
    said := rfl
    heard := by rw [silent]; rfl
    pipe := by rw [unread]; rfl
    passed := Nat.le_refl _
    heeds := fun before part => by
      have none : hearings before <+: [] := silent ▸ part.filterMap _
      rw [List.prefix_nil.mp none]
      exact List.nil_prefix }

theorem introducedReached : Client.Reached Client.sampleConfig 1 introduced.client.quiet :=
  playReached .new introducing

theorem reopenedSmall : ∀ m ∈ introduction :: openings ++ greeting :: saying [introduction] openings [],
    (Utf8.ofString m.body).length ≤ Frame.limit := by
  have sizes : ∀ m ∈ introduction :: openings ++ greeting :: saying [introduction] openings [],
      Utf8.size (Json.chars m.toJson) ≤ Frame.limit := by decide +kernel
  exact fun m member => Message.bodySize m ▸ sizes m member

theorem openingsFair : StandIn.Fair Client.sampleConfig (introduction :: openings) := by
  have ranged : introduction.Ranged := by
    change Message.IsId 1
    decide
  have ranged : ∀ m ∈ introduction :: openings, Client.Voiced Client.sampleConfig m ∧ m.Ranged := by
    simp only [openings, List.forall_mem_cons, List.not_mem_nil, false_imp_iff, implies_true, and_true]
    exact ⟨⟨.introduced, ranged⟩, ⟨.ready, trivial⟩,
      ⟨.opened, trivial⟩, .opened, trivial⟩
  intro m member
  exact ⟨(ranged m member).1, (ranged m member).2, reopenedSmall m (List.mem_append_left _ member)⟩

theorem openingsSendable : ∀ m ∈ introduction :: openings, Message.Sendable m := by
  intro m member
  obtain ⟨voiced, ranged, small⟩ := openingsFair m member
  have originals : ∀ m ∈ introduction :: openings, m.isReply = false := by decide
  exact ⟨ranged, Client.voicedPlain voiced ranged (originals m member), small⟩

theorem openingsEcho : echo (introduction :: openings) = greeting :: saying [introduction] openings [] := by
  have first : echo [introduction] = [greeting] := rfl
  rw [← List.singleton_append, StandIn.echoAppend, first]
  rfl

theorem echoSendable : ∀ x ∈ greeting :: saying [introduction] openings [],
    StandIn.Carried x ∧ Message.Sendable x := by
  intro x member
  have carried := StandIn.echoCarried openingsFair x (openingsEcho ▸ member)
  exact ⟨carried, carried.ranged, carried.plain, reopenedSmall x (List.mem_append_right _ member)⟩

def greeted : Dialogue := introduced.play exchanging

theorem greetedJoined : Joined greeted [introduction] openings [] ∧
    greeted.client = introduced.client.hear greeting := by
  obtain ⟨link, fresh, _, _, running, _, _, _, wrote⟩ := introducedFacts
  have listening : introduced.client.listening = true := by rw [Client.listening, link]
  exact exchange introducedReached introducedJoined fresh listening
    (openingsSendable introduction List.mem_cons_self) rfl (echoSendable greeting List.mem_cons_self).2 rfl
    running wrote

def replies : List Message := (saying [introduction] openings []).flatMap answers

theorem reopenedSettled : Joined reopened (introduction :: openings ++ replies) [] [] ∧ Runs reopened ∧
    Resting reopened := by
  obtain ⟨joined, client⟩ := greetedJoined
  obtain ⟨_, _, _, _, phase, link, held, free, _⟩ := introducedFacts
  rw [← client] at phase link held free
  have reached : Client.Reached Client.sampleConfig 1 greeted.client.quiet :=
    playReached introducedReached exchanging
  have last : reopened = greeted.play (settling [introduction] openings []) := by
    rw [reopened, reopening, playAppend, playAppend, ← introduced, ← greeted]
  rw [last]
  exact settled reached joined ⟨phase, link⟩ held free (fun m member => (openingsFair m member).1)
    (fun m member => openingsSendable m (List.mem_cons_of_mem _ member))
    fun x member => echoSendable x (List.mem_cons_of_mem _ member)

theorem reopenedFit : Fit reopened := by
  obtain ⟨joined, _⟩ := reopenedSettled
  have wrote : reopened.client.sent = introduction :: openings ++ replies := by
    rw [sentWritten, joined.written, List.append_nil]
  have own : ∀ m ∈ replies, m = settings :=
    carriedAnswers fun x member => (echoSendable x (List.mem_cons_of_mem _ member)).1
  have each : ∀ m ∈ introduction :: openings ++ replies,
      m.Ranged ∧ (Utf8.ofString m.body).length ≤ Frame.limit := by
    refine List.forall_mem_append.mpr ⟨fun m member => (openingsFair m member).2, fun m member => ?_⟩
    rw [own m member]
    exact ⟨settingsSendable.ranged, settingsSendable.small⟩
  have said : reopened.said = (greeting :: saying [introduction] openings []).map Message.toJson := by
    rw [joined.said, StandIn.echoAppend, settingsSilent _ own, List.append_nil, openingsEcho]
  refine ⟨fun m member => (each m (wrote ▸ member)).1, fun m member => (each m (wrote ▸ member)).2, ?_⟩
  rw [said]
  exact List.forall_mem_map.mpr fun x member => (echoSendable x member).2.small

theorem reopenedHeard : Heard Client.sampleConfig reopened := by
  obtain ⟨joined, runs, resting⟩ := reopenedSettled
  exact restHeard (playReached .new reopening) joined resting runs.phase reopenedFit

theorem reopenedMirrors : Fit reopened ∧ reopened.client.phase = .running ∧ Resting reopened ∧
    Mirrors reopened := by
  obtain ⟨_, runs, resting⟩ := reopenedSettled
  have mirrors := mirrored Client.sampleConfig 1 reopening
  rw [← reopened] at mirrors
  exact ⟨reopenedFit, runs.phase, resting, mirrors reopenedFit runs.phase resting⟩

def given (uri : String) (moves : List Move) : Option String :=
  (moves.filterMap fun
    | .client (.host (.didOpen d)) => if d.uri = uri then some d.text else none
    | .client (.host (.didChange other text)) => if other = uri then some text else none
    | _ => none).getLast?

/-- To open a tracked document again is ignored, also with another text. -/
theorem reopenedStale : Fit reopened ∧ reopened.client.phase = .running ∧ Resting reopened ∧
    given "file:///a.lus" reopening = some "error" ∧
    reopened.client.documents.get? "file:///a.lus" = some 1 ∧
    reopened.client.diagnostics "file:///a.lus" = [] ∧ ¬ Reports "error" [] := by
  obtain ⟨joined, runs, resting⟩ := reopenedSettled
  have reached : Client.Reached Client.sampleConfig 1 reopened.client.quiet := playReached .new reopening
  have wrote : written reopened.client.deeds = introduction :: openings ++ replies :=
    joined.written.trans (List.append_nil _)
  obtain ⟨followed, tracked⟩ := heardDesk reached reopenedHeard
  have lying : replay (introduction :: openings ++ replies) = some [Client.sampleDocument, otherDocument] := by
    decide +kernel
  rw [wrote, lying] at followed
  rw [← Option.some.inj followed] at tracked
  refine ⟨reopenedFit, runs.phase, resting, by decide +kernel, (tracked _).trans (by decide +kernel), ?_, ?_⟩
  · rw [(heardFindings reached reopenedHeard _).1, ← Option.some.inj followed]
    decide +kernel
  · intro reports
    obtain ⟨d, member, _⟩ := reports.complete 0 StandIn.needle [] (by decide +kernel)
      ⟨[], by decide, fun _ _ _ => Nat.zero_le _⟩
    cases member

end Dialogue
end LspClient
