import LspClient.Proofs.Client.Desk

/-! What a turn says to the server. Most turns say nothing; the others try one message, or at the end of the
handshake several. A message that is lost shuts the pipe for good. -/
namespace LspClient

def Event.isMute : Event → Bool
  | .wrote _ | .lost _ | .called _ (.flag true) => false
  | _ => true

namespace Client

variable {config : Config} {nextId : Int} {c after : Client}

def Mute (es : List Event) : Prop := ∀ e ∈ es, e.isMute = true

def Unopened (c : Client) : Prop :=
  c.link = .idle ∨ (∃ refused, c.link = .launching refused) ∨ c.link = .launched

def requestIds (ms : List Message) : List Int :=
  ms.filterMap fun
    | .request id _ _ => some id
    | _ => none

inductive Topic where
  | none
  | greeting
  | documents
  | leaving
  deriving DecidableEq

def topic (c : Client) : Topic :=
  match c.phase, c.teardown with
  | .starting, _ => .greeting
  | .running, _ | .stopping, .registered _ => .documents
  | .stopping, _ => .leaving
  | .created, _ | .stopped, _ => .none

theorem topicSame (phase : after.phase = c.phase) (teardown : after.teardown = c.teardown) :
    after.topic = c.topic := by
  simp only [topic, phase, teardown]

inductive Edit (c : Client) : Call → List TextDocument → Table Int32 → Prop where
  | again {d} (own : c.config.selector.accepts d = true) (known : c.documents.get? d.uri ≠ none) :
      Edit c (.didOpen d) c.queued c.documents
  | opened {d} (own : c.config.selector.accepts d = true) (early : c.Early)
      (unknown : c.documents.get? d.uri = none) :
      Edit c (.didOpen d) (c.queued ++ [d]) (c.documents.put d.uri d.version)
  | changed {uri text version} (early : c.Early) (known : c.documents.get? uri = some version) :
      Edit c (.didChange uri text) (foldChange uri (version + 1) text c.queued)
        (c.documents.put uri (version + 1))
  | closed {uri} (idle : c.phase ≠ .running) (known : c.documents.get? uri ≠ none) :
      Edit c (.didClose uri) (c.queued.filter fun d => d.uri != uri) (c.documents.erase uri)

inductive Tell (c : Client) : Message → List Event → Table Int32 → Prop where
  | opened {d} (own : c.config.selector.accepts d = true)
      (unknown : c.documents.get? d.uri = none) :
      Tell c (Request.didOpen d) [.called (.didOpen d) (.flag true)] (c.documents.put d.uri d.version)
  | changed {uri text version} (known : c.documents.get? uri = some version) :
      Tell c (Request.didChange uri (version + 1) text) [.called (.didChange uri text) (.flag true)]
        (c.documents.put uri (version + 1))
  | closed {uri} (known : c.documents.get? uri ≠ none) :
      Tell c (Request.didClose uri) [.called (.didClose uri) (.flag true)] (c.documents.erase uri)
  | pulled {a} (asking : c.asking = some a) :
      Tell c (Request.diagnostic a.id a.uri) (a.news ++ [.called (.pull a.name a.uri) .nothing])
        c.documents

inductive Said (c after : Client) : Prop where
  | nothing {es} (log : after.log = c.log ++ es) (mute : Mute es)
      (clear : after.refusal = none → c.refusal = none ∧ after.topic = c.topic)
      (unopened : after.Unopened → c.Unopened)
      (course : after.Over ∨ (after.phase = c.phase ∨ c.phase = .created ∧ after.phase = .starting) ∧
        after.queued = c.queued ∧ after.documents = c.documents)
  | stuck {first m last} (log : after.log = c.log ++ (first ++ .lost m :: last))
      (mute : Mute (first ++ last)) (shut : after.refusal ≠ none) (opened : ¬ after.Unopened)
      (early : after.Early →
        after.phase = c.phase ∧ after.queued = c.queued ∧ after.documents = c.documents)
  | edited {call} (edit : Edit c call after.queued after.documents)
      (log : after.log = c.log ++ [.called call (.flag true)]) (clear : after.refusal = c.refusal)
      (link : after.link = c.link) (phase : after.phase = c.phase) (topic : after.topic = c.topic)
  | told {m es} (running : c.phase = .running) (pipe : c.refusal = none)
      (tell : Tell c m es after.documents) (log : after.log = c.log ++ .wrote m :: es)
      (opened : ¬ after.Unopened) (phase : after.phase = .running)
  | replied {id method params} (pipe : c.refusal = none)
      (log : after.log = c.log ++
        [.heard (.request id method params), .wrote (Router.replyTo id method params)])
      (opened : ¬ after.Unopened) (phase : after.phase = c.phase) (topic : after.topic = c.topic)
      (queued : after.queued = c.queued) (documents : after.documents = c.documents)
  | introduced (unopened : c.Unopened) (starting : c.phase = .starting)
      (log : after.log = c.log ++
        [.wrote (Request.introduce c.nextId c.config.rootUri introducedAs 0)])
      (opened : ¬ after.Unopened) (phase : after.phase = .starting) (queued : after.queued = c.queued)
      (documents : after.documents = c.documents) (link : after.link = .handshake c.nextId)
  | ready {id result} (starting : c.phase = .starting) (awaited : c.link = .handshake id)
      (pipe : c.refusal = none)
      (log : after.log = c.log ++ (.heard (.response id result none) ::
        (Request.initialized :: c.queued.map Request.didOpen).map .wrote ++ [.resolved .start .done]))
      (opened : ¬ after.Unopened) (phase : after.phase = .running)
      (documents : after.documents = c.documents)
  | readyLost {id result first m rest failure} (starting : c.phase = .starting)
      (awaited : c.link = .handshake id) (clear : first ≠ [] → c.refusal = none)
      (split : Request.initialized :: c.queued.map Request.didOpen = first ++ m :: rest)
      (log : after.log = c.log ++ (.heard (.response id result none) :: first.map .wrote ++ [.lost m]))
      (shut : after.refusal ≠ none) (opened : ¬ after.Unopened) (phase : after.phase = .starting)
      (link : after.link = .failing failure) (queued : first = [] → after.queued = c.queued)
      (documents : after.documents = c.documents)
  | shutdown {id} (registered : c.teardown = .registered id) (stopping : c.phase = .stopping)
      (pipe : c.refusal = none) (log : after.log = c.log ++ [.wrote (Request.shutdown id)])
      (opened : ¬ after.Unopened) (phase : after.phase = .stopping) (topic : after.topic = .leaving)
  | exit {id} (waiting : c.teardown = .awaitingReply id)
      (answered : c.router.owner? id = none) (pipe : c.refusal = none)
      (log : after.log = c.log ++ [.wrote Request.exit])
      (opened : ¬ after.Unopened) (phase : after.phase = .stopping) (shut : after.refusal ≠ none)

theorem refusalClear : c.refusal = none ↔ c.attached = true ∧ c.writable = true := by
  cases attached : c.attached <;> cases writable : c.writable <;> simp [refusal, attached, writable]

theorem detached (loose : c.attached = false) : c.refusal ≠ none := by
  simp [refusal, loose]

theorem runningOpened (coherent : Coherent c) (running : c.phase = .running) : ¬ c.Unopened := by
  obtain ⟨_, link, _⟩ := coherent.running running
  unfold Unopened
  rcases link with link | link <;> simp [link]

theorem stoppingOpened (coherent : Coherent c) (stopping : c.phase = .stopping) : ¬ c.Unopened := by
  obtain ⟨link, _⟩ := coherent.stopping stopping
  unfold Unopened
  rcases link with link | link <;> simp [link]

theorem unopenedDetached (coherent : Coherent c) (unopened : c.Unopened) : c.attached = false := by
  cases phase : c.phase with
  | created => exact (coherent.created phase).2.2
  | starting =>
    rcases (coherent.starting phase).2 with ⟨_, detached⟩ | ⟨⟨id, link⟩, _⟩ | ⟨failure, link⟩
    · exact detached
    · simp [Unopened, link] at unopened
    · simp [Unopened, link] at unopened
  | running => exact absurd unopened (runningOpened coherent phase)
  | stopping => exact absurd unopened (stoppingOpened coherent phase)
  | stopped => exact (coherent.stopped phase).1

theorem servedClear {s s' : Server} (server : c.server = some s)
    (less : s'.reads = true → s.reads = true)
    (clear : ({c with server := some s'} : Client).refusal = none) : c.refusal = none := by
  rw [refusalClear] at clear ⊢
  refine ⟨clear.1, ?_⟩
  rw [writable, server]
  exact less clear.2

theorem muteNone : Mute [] := by simp [Mute]

theorem muteOne {e : Event} (mute : e.isMute = true) : Mute [e] := by simpa [Mute] using mute

theorem muteAppend {first last : List Event} (before : Mute first) (after : Mute last) :
    Mute (first ++ last) := by
  exact List.forall_mem_append.mpr ⟨before, after⟩

theorem everyForsaken {kind : Event → Bool} {own : Bool}
    (abandoned : ∀ name, kind (.resolved (.pull name) .abandoned) = own) (c : Client) :
    ∀ e ∈ c.forsaken, kind e = own := by
  intro e member
  obtain ⟨name, rfl⟩ := forsakenPull member
  exact abandoned name

theorem everyDeathNote {kind : Event → Bool} {own : Bool} (killed : kind .killed = own) (c : Client) :
    ∀ e ∈ c.deathNote, kind e = own := by
  cases h : c.attached <;> simp [deathNote, h, killed]

theorem everyNews {kind : Event → Bool} {own : Bool}
    (told : ∀ name outcome, kind (.resolved (.pull name) outcome) = own) (a : Pull) :
    ∀ e ∈ a.news, kind e = own := by
  intro e member
  obtain ⟨outcome, _, rfl⟩ := List.mem_map.mp member
  exact told a.name outcome

theorem muteForsaken (c : Client) : Mute c.forsaken := everyForsaken (fun _ => rfl) c

theorem muteDeathNote (c : Client) : Mute c.deathNote := everyDeathNote rfl c

def failureNotes (failure : Failure) (c : Client) : List Event :=
  c.forsaken ++ (c.deathNote ++ [.resolved .start (.failed failure)])

theorem failureLog (failure : Failure) (c : Client) :
    (c.startFailed failure).log = c.log ++ c.failureNotes failure := by
  simp [startFailed, failureNotes]

theorem failureMute (failure : Failure) (c : Client) : Mute (c.failureNotes failure) :=
  muteAppend (muteForsaken c) (muteAppend (muteDeathNote c) (muteOne rfl))

theorem nextLater (c : Client) : c.nextId ≤ c.nextId + 1 := Int.le_of_lt (Int.lt_succ _)

theorem muteNews (a : Pull) : Mute a.news := everyNews (fun _ _ => rfl) a

theorem quietSaid {es : List Event} (log : after.log = c.log ++ es) (mute : Mute es)
    (clear : after.refusal = none → c.refusal = none) (unopened : after.Unopened → c.Unopened)
    (phase : after.phase = c.phase) (teardown : after.teardown = c.teardown)
    (queued : after.queued = c.queued) (documents : after.documents = c.documents) : Said c after :=
  .nothing log mute (fun pipe => ⟨clear pipe, topicSame phase teardown⟩) unopened
    (.inr ⟨.inl phase, queued, documents⟩)

theorem ceasedSaid {es : List Event} (log : after.log = c.log ++ es) (mute : Mute es)
    (stopped : after.phase = .stopped) (loose : after.attached = false)
    (unopened : after.Unopened → c.Unopened) : Said c after :=
  .nothing log mute (fun clear => absurd clear (detached loose)) unopened (.inl (.inr stopped))

theorem runningLate (running : c.phase = .running) : ¬ c.Early := by
  simp [Early, running]

theorem goingOn (going : c.Early ∨ c.phase = .running) : ¬ c.Over := by
  rintro (past | past) <;> simp [Early, past] at going

theorem muteHeard (m : Message) : Mute [.heard m] := muteOne rfl

theorem refusalReadOn {s : Server} (rest : Utf8.Octets) (server : c.server = some s) :
    (c.readOn s rest).refusal = c.refusal := by
  have same : (c.readOn s rest).writable = c.writable := by
    simp only [writable, readOn, server, Server.reads]
  rw [refusal, same]
  rfl

theorem listeningOpened (listening : c.listening = true) : ¬ c.Unopened := by
  unfold Unopened
  cases h : c.link <;> simp_all [Client.listening]

theorem stuckSaid {m} {last : List Event} (log : after.log = c.log ++ .lost m :: last) (mute : Mute last)
    (shut : after.refusal ≠ none) (opened : ¬ after.Unopened) (late : ¬ after.Early) : Said c after :=
  @Said.stuck c after [] m last log mute shut opened fun early => absurd early late

theorem heardLog (s : Server) (rest : Utf8.Octets) (m : Message) (c : Client) :
    ((c.readOn s rest).note (.heard m)).log = c.log ++ [.heard m] := rfl

theorem openedLog (s : Server) (rest : Utf8.Octets) (m : Message) (c : Client) (es last : List Event) :
    ((c.readOn s rest).note (.heard m)).log ++ es ++ last = c.log ++ (.heard m :: es ++ last) := by
  simp [note, readOn]

theorem calledSaid {call answer} (coherent : Coherent c) (done : Called c call answer after) :
    Said c (after.note (.called call answer)) := by
  have opened := runningOpened coherent
  cases done with
  | start fresh =>
    have loose := detached (coherent.created fresh).2.2
    exact .nothing rfl (muteOne rfl) (fun clear => absurd clear loose)
      (fun _ => .inl (coherent.created fresh).1) (.inr ⟨.inr ⟨fresh, rfl⟩, rfl, rfl⟩)
  | startAgain | openForeign | openOver | changeUnknown | closeUnknown =>
    exact quietSaid rfl (muteOne rfl) id id rfl rfl rfl rfl
  | stop active =>
    have topic : (({c with held := false, teardown := .requested} : Client).note
        (.called .stop .nothing)).topic = c.topic := by
      rcases active with phase | phase <;> simp [topic, note, phase]
    exact .nothing rfl (muteOne rfl) (fun clear => ⟨clear, topic⟩) id (.inr ⟨.inl rfl, rfl, rfl⟩)
  | stopUnstarted fresh =>
    exact ceasedSaid (List.append_assoc _ _ _) (muteAppend (muteOne rfl) (muteOne rfl)) rfl
      (coherent.created fresh).2.2 id
  | stopOver | pullIdle =>
    exact quietSaid (List.append_assoc _ _ _) (muteAppend (muteOne rfl) (muteOne rfl)) id id rfl rfl rfl rfl
  | drop => exact ceasedSaid (List.append_assoc _ _ _) (muteAppend (muteDeathNote c) (muteOne rfl)) rfl rfl id
  | changeOver past known => exact .nothing rfl (muteOne rfl) (fun clear => ⟨clear, rfl⟩) id (.inl past)
  | openAgain own known => exact .edited (.again own known) rfl rfl rfl rfl rfl
  | openQueued own early unknown => exact .edited (.opened own early unknown) rfl rfl rfl rfl rfl
  | changeQueued early known => exact .edited (.changed early known) rfl rfl rfl rfl rfl
  | closeUnsent idle known => exact .edited (.closed idle known) rfl rfl rfl rfl rfl
  | openSent own running unknown clear =>
    exact .told running clear (.opened own unknown) (List.append_assoc _ _ _) (opened running) running
  | changeSent running known clear =>
    exact .told running clear (.changed known) (List.append_assoc _ _ _) (opened running) running
  | closeSent running known clear =>
    exact .told running clear (.closed known) (List.append_assoc _ _ _) (opened running) running
  | openLost running unknown stuck | changeLost running known stuck | closeLost running known stuck =>
    have shut : c.refusal ≠ none := by simp [stuck]
    exact stuckSaid (List.append_assoc _ _ _) (muteOne rfl) shut (opened running) (runningLate running)

theorem replyResponse (id : Int) (method : String) (params : Option Json) :
    ∃ result error, Router.replyTo id method params = .response id result error := by
  unfold Router.replyTo
  split
  · exact ⟨_, _, rfl⟩
  · split <;> exact ⟨_, _, rfl⟩

theorem takenSaid {m} {s : Server} {rest} (listening : c.listening = true) (server : c.server = some s)
    (taken : Taken ((c.readOn s rest).note (.heard m)) m after) : Said c after := by
  have opened : ¬ c.Unopened := listeningOpened listening
  have pipe : (c.readOn s rest).refusal = c.refusal := refusalReadOn rest server
  cases taken with
  | @request id method params =>
    rcases triedCases (Router.replyTo id method params)
      ((c.readOn s rest).note (.heard (.request id method params))) with ⟨clear, same⟩ | ⟨shut, same⟩
    · rw [same]
      exact .replied (pipe.symm.trans clear) (List.append_assoc _ _ _) opened rfl rfl rfl rfl
    · rw [same]
      exact .stuck (List.append_assoc _ [_] [_]) (muteOne rfl) shut opened fun _ => ⟨rfl, rfl, rfl⟩
  | published | other | unasked | pullForestalled | shutdownAnswered =>
    exact quietSaid (heardLog s rest _ c) (muteHeard _) pipe.symm.trans id rfl rfl rfl rfl
  | pullAnswered =>
    exact quietSaid (List.append_assoc _ _ _) (muteAppend (muteOne rfl) (muteOne rfl)) pipe.symm.trans id
      rfl rfl rfl rfl
  | rejected | tooLate =>
    exact quietSaid (heardLog s rest _ c) (muteHeard _) pipe.symm.trans (by simp [Unopened]) rfl rfl rfl rfl
  | @readyLost id result failure first m rest' awaited starting clear split stuck =>
    have shut : ((c.readOn s rest).told first).refusal ≠ none := by
      intro open'
      exact nomatch stuck.symm.trans open'
    exact .readyLost starting awaited (fun some => pipe.symm.trans (clear some)) split
      (openedLog s rest _ c _ _) shut (by simp [Unopened]) starting rfl
      (fun none => by simp [none, note, readOn]) rfl
  | @ready id result awaited starting clear =>
    exact .ready starting awaited (pipe.symm.trans clear) (openedLog s rest _ c _ _) (by simp [Unopened])
      rfl rfl

theorem turnSaid (coherent : Coherent c) (turn : Turn c after) : Said c after := by
  have opened := runningOpened coherent
  cases turn with
  | idle | elsewhere => exact quietSaid (List.append_nil _).symm muteNone id id rfl rfl rfl rfl
  | host held free done => exact calledSaid coherent done
  | pullOpened | pullShut => exact quietSaid rfl (muteOne rfl) id id rfl rfl rfl rfl
  | pullSent asking clear =>
    have running := (coherent.asking (by simp [asking])).1
    exact .told running clear (.pulled asking) rfl (opened running) running
  | pullLost asking stuck =>
    have running := (coherent.asking (by simp [asking])).1
    have shut : c.refusal ≠ none := by simp [stuck]
    exact stuckSaid rfl (muteAppend (muteOne rfl) (muteOne rfl)) shut (opened running) (runningLate running)
  | spawnRefused waiting =>
    exact quietSaid (List.append_nil _).symm muteNone id (by simp [Unopened]) rfl rfl rfl rfl
  | spawned waiting =>
    have loose : c.attached = false := unopenedDetached coherent (.inr (.inl ⟨_, waiting⟩))
    exact quietSaid rfl (muteOne rfl) (fun clear => absurd clear (detached loose))
      (fun _ => .inr (.inl ⟨_, waiting⟩)) rfl rfl rfl rfl
  | orphaned waiting gone =>
    exact quietSaid rfl (muteDeathNote _) (fun clear => absurd clear (detached rfl)) (by simp [Unopened])
      rfl rfl rfl rfl
  | introduced waiting starting clear =>
    exact .introduced (.inr (.inr waiting)) starting rfl (by simp [Unopened]) starting rfl rfl rfl
  | @introduceLost failure waiting starting stuck =>
    have shut : ({c with attached := true} : Client).refusal ≠ none := by simp [stuck]
    exact @Said.stuck c _ [] _ [] rfl muteNone shut (by simp [Unopened]) fun _ => ⟨rfl, rfl, rfl⟩
  | gaveUp failing =>
    exact ceasedSaid (failureLog _ c) (failureMute _ c) rfl rfl (by simp [Unopened, startFailed])
  | skipped listening server =>
    exact quietSaid (List.append_nil _).symm muteNone (refusalReadOn _ server).symm.trans id rfl rfl rfl rfl
  | taken listening server hearing => exact takenSaid listening server hearing
  | lost awaiting => exact quietSaid rfl (muteOne rfl) id (by simp [Unopened]) rfl rfl rfl rfl
  | parted pumping =>
    exact quietSaid (List.append_assoc _ _ _) (muteAppend (muteOne rfl) (muteForsaken _)) id
      (by simp [Unopened]) rfl rfl rfl rfl
  | stopVoid requested settled idle =>
    have topic : ({c with teardown := .none, log := c.log ++ [.resolved .stop .done]} : Client).topic =
        c.topic := by
      simp only [topic, requested]
      cases c.phase <;> rfl
    exact .nothing rfl (muteOne rfl) (fun clear => ⟨clear, topic⟩) id (.inr ⟨.inl rfl, rfl, rfl⟩)
  | shutdownOpened requested running | shutdownShut requested running =>
    refine .nothing rfl (muteOne rfl) (fun clear => ⟨clear, ?_⟩) id (.inl (.inl rfl))
    simp [topic, running]
  | shutdownSent registered clear =>
    have stopping := teardownStopping coherent (.inl ⟨_, registered⟩)
    have opened := stoppingOpened coherent stopping
    exact .shutdown registered stopping clear rfl opened stopping (by simp [topic, told, stopping])
  | shutdownLost registered stuck =>
    have stopping := teardownStopping coherent (.inl ⟨_, registered⟩)
    have opened := stoppingOpened coherent stopping
    have shut : c.refusal ≠ none := by simp [stuck]
    exact stuckSaid rfl muteNone shut opened (by simp [Early, stopping])
  | @exitTold id waiting answered attached =>
    have stopping := teardownStopping coherent (.inr (.inl ⟨_, waiting⟩))
    have opened := stoppingOpened coherent stopping
    rcases triedCases Request.exit c with ⟨clear, same⟩ | ⟨shut, same⟩
    · rw [same]
      exact .exit waiting answered clear rfl opened stopping (detached rfl)
    · rw [same]
      exact stuckSaid rfl muteNone (detached rfl) opened (by simp [Early, note, stopping])
  | exitUntold waiting answered loose =>
    exact .nothing (List.append_nil _).symm muteNone (fun clear => absurd clear (detached loose)) id
      (.inr ⟨.inl rfl, rfl, rfl⟩)
  | finished waiting exited =>
    have stopping := teardownStopping coherent (.inr (.inr waiting))
    have loose := (coherent.stopping stopping).2.resolve_left fun awaiting => by
      simp [waiting] at awaiting
    exact ceasedSaid rfl (muteOne rfl) rfl loose.2 id
  | served server alive less =>
    exact quietSaid (List.append_nil _).symm muteNone (servedClear server less.1) id rfl rfl rfl rfl

-- what is lost

def Lossless (log : List Event) : Prop := ∀ m, Event.lost m ∉ log

theorem losslessAppend {log es : List Event} : Lossless (log ++ es) ↔ Lossless log ∧ Lossless es := by
  simp only [Lossless, List.mem_append, not_or, forall_and]

theorem muteLossless {es : List Event} (mute : Mute es) : Lossless es := by
  intro m member
  have silent := mute _ member
  simp [Event.isMute] at silent

def written (log : List Event) : List Message :=
  log.filterMap fun
    | .wrote m => some m
    | _ => none

theorem writtenAppend (log es : List Event) : written (log ++ es) = written log ++ written es :=
  List.filterMap_append

theorem muteWritten {es : List Event} (mute : Mute es) : written es = [] := by
  rw [written, List.filterMap_eq_nil_iff]
  intro e member
  have silent := mute e member
  cases e <;> simp_all [Event.isMute]

theorem writtenMap (ms : List Message) : written (ms.map .wrote) = ms := by
  induction ms with
  | nil => rfl
  | cons m rest ih => exact congrArg (m :: ·) ih

def Steady (es : List Event) : Prop := ∀ e ∈ es, ∀ call, e ≠ .called call (.flag true)

theorem steadyDesk {es : List Event} (steady : Steady es) (log : List Event) :
    desk (log ++ es) = desk log := by
  induction es generalizing log with
  | nil => rw [List.append_nil]
  | cons e rest ih =>
    obtain ⟨still, steady⟩ := List.forall_mem_cons.mp steady
    have same : deskStep (desk log) e = desk log := by
      unfold deskStep
      split <;> simp_all
    rw [← List.singleton_append, ← List.append_assoc, ih steady, deskAppend, same]

theorem muteSteady {es : List Event} (mute : Mute es) : Steady es := by
  intro e member call same
  have silent := mute e member
  simp [same, Event.isMute] at silent

theorem steadyAppend {first last : List Event} :
    Steady (first ++ last) ↔ Steady first ∧ Steady last := List.forall_mem_append

theorem steadyCons {e : Event} {rest : List Event} :
    Steady (e :: rest) ↔ (∀ call, e ≠ .called call (.flag true)) ∧ Steady rest := List.forall_mem_cons

theorem steadyWrote (ms : List Message) : Steady (ms.map .wrote) := by
  simp [Steady]

theorem heardSteady {m : Message} {ms : List Message} {last : List Event} (steady : Steady last) :
    Steady (.heard m :: ms.map .wrote ++ last) :=
  steadyCons.mpr ⟨by simp, steadyAppend.mpr ⟨steadyWrote ms, steady⟩⟩

theorem lostSteady {first last : List Event} (m : Message) (mute : Mute (first ++ last)) :
    Steady (first ++ .lost m :: last) := by
  obtain ⟨before, after⟩ := steadyAppend.mp (muteSteady mute)
  exact steadyAppend.mpr ⟨before, steadyCons.mpr ⟨by simp, after⟩⟩

theorem lostWritten {first last : List Event} (m : Message) (mute : Mute (first ++ last)) :
    written (first ++ .lost m :: last) = [] :=
  calc written (first ++ .lost m :: last)
      = written first ++ written last := writtenAppend _ _
    _ = written (first ++ last) := (writtenAppend _ _).symm
    _ = [] := muteWritten mute

theorem heardWritten {m : Message} {ms : List Message} {last : List Event} (silent : written last = []) :
    written (.heard m :: ms.map .wrote ++ last) = ms := by
  rw [List.cons_append, ← List.singleton_append, writtenAppend, writtenAppend, writtenMap, silent]
  simp [written]

structure Piped (c : Client) : Prop where
  unopened : c.Unopened → Lossless c.log ∧ written c.log = []
  clear : c.refusal = none → Lossless c.log

theorem stillPiped {es : List Event} (piped : Piped c) (log : after.log = c.log ++ es)
    (lossless : Lossless es) (pipe : after.refusal = none → c.refusal = none ∨ c.Unopened)
    (closed : after.Unopened → c.Unopened ∧ written es = []) : Piped after := by
  obtain ⟨unopened, clear⟩ := piped
  constructor
  · intro before
    obtain ⟨before, silent⟩ := closed before
    obtain ⟨kept, nothing⟩ := unopened before
    rw [log, losslessAppend, writtenAppend, nothing, silent]
    exact ⟨⟨kept, lossless⟩, rfl⟩
  · intro open'
    rw [log, losslessAppend]
    exact ⟨(pipe open').elim clear fun before => (unopened before).1, lossless⟩

theorem shutPiped (shut : after.refusal ≠ none) (opened : ¬ after.Unopened) : Piped after :=
  ⟨fun before => absurd before opened, fun pipe => absurd pipe shut⟩

theorem tellLossless {m es documents} (tell : Tell c m es documents) : Lossless (.wrote m :: es) := by
  cases tell with
  | @pulled a asking =>
    have silent := muteLossless (muteNews a)
    simp_all [Lossless]
  | _ => simp [Lossless]

theorem newPiped (config : Config) (nextId : Int) : Piped (new config nextId) where
  unopened _ := ⟨by simp [Lossless, new], rfl⟩
  clear _ := by simp [Lossless, new]

theorem saidPiped (piped : Piped c) (said : Said c after) : Piped after := by
  cases said with
  | nothing log mute still closed course =>
    exact stillPiped piped log (muteLossless mute) (fun pipe => .inl (still pipe).1)
      fun before => ⟨closed before, muteWritten mute⟩
  | stuck log mute shut opened => exact shutPiped shut opened
  | readyLost starting opening clear split log shut opened => exact shutPiped shut opened
  | exit waiting answered pipe log opened phase shut => exact shutPiped shut opened
  | edited edit log same link =>
    refine stillPiped piped log (by simp [Lossless]) (fun pipe => .inl (same ▸ pipe)) ?_
    unfold Unopened
    exact fun before => ⟨link ▸ before, rfl⟩
  | told running pipe tell log opened =>
    exact stillPiped piped log (tellLossless tell) (fun _ => .inl pipe) fun before => absurd before opened
  | replied pipe log opened | ready starting awaited pipe log opened
    | shutdown registered stopping pipe log opened =>
    exact stillPiped piped log (by simp [Lossless]) (fun _ => .inl pipe)
      fun before => absurd before opened
  | introduced unopened starting log opened =>
    exact stillPiped piped log (by simp [Lossless]) (fun _ => .inr unopened)
      fun before => absurd before opened

theorem saidPipe (said : Said c after) (pipe : after.refusal = none) :
    c.refusal = none ∨ c.Unopened := by
  cases said with
  | nothing log mute clear => exact .inl (clear pipe).1
  | stuck log mute shut => exact absurd pipe shut
  | readyLost starting opening clear split log shut => exact absurd pipe shut
  | exit waiting answered clear log opened phase shut => exact absurd pipe shut
  | edited edit log same => exact .inl (same ▸ pipe)
  | introduced unopened => exact .inr unopened
  | told running clear | replied clear | ready starting awaited clear
    | shutdown registered stopping clear => exact .inl clear

theorem reachedSaid (reached : Reached config nextId c) (turn : Turn c after) : Said c after :=
  turnSaid (reachedCoherent reached) turn

theorem reachedPiped (reached : Reached config nextId c) : Piped c := by
  induction reached with
  | new => exact newPiped config nextId
  | turn before turn ih => exact saidPiped ih (reachedSaid before turn)

end Client
end LspClient
