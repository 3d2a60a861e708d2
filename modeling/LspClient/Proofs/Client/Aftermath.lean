import LspClient.Proofs.Client.Attended
import LspClient.Proofs.Client.Intake
import LspClient.Proofs.Client.Rejected
import LspClient.Proofs.Client.Shelf

/-! What a start that failed leaves behind. Process, callbacks and queue are let go of, as a stop does. The
documents and their diagnostics are not: they stay until the host closes them. -/
namespace LspClient.Client
open TextDocument

variable {config : Config} {nextId : Int} {c after : Client}

theorem lookPlace (uri : String) (d : TextDocument) (ds : List TextDocument) :
    look uri (place d ds) = none ↔ look uri ds = none ∧ uri ≠ d.uri := by
  unfold place
  split
  · rename_i present
    refine ⟨fun none => ⟨none, fun same => ?_⟩, And.left⟩
    rw [same] at none
    simp [none] at present
  · rw [lookAppend]
    by_cases same : d.uri = uri
    · simp [same]
    · simp [same, Ne.symm same]

theorem lookAmend (uri other text : String) (ds : List TextDocument) :
    look other (amend uri text ds) = none ↔ look other ds = none := by
  rw [lookNone, lookNone, amend, namesRevise]

def Listed (c : Client) : Prop := ∀ uri, c.documents.get? uri = none ↔ look uri (desk c.log) = none

theorem listedSame {es : List Event} (listed : Listed c) (log : after.log = c.log ++ es) (steady : Steady es)
    (documents : after.documents = c.documents) : Listed after := by
  intro uri
  rw [documents, log, steadyDesk steady]
  exact listed uri

theorem calledListed {call answer} (idle : c.phase ≠ .running) (listed : Listed c)
    (done : Called c call answer after) : Listed (after.note (.called call answer)) := by
  have putKnown {uri : String} (version : Int32) (known : c.documents.get? uri ≠ none) (other : String) :
      (c.documents.put uri version).get? other = none ↔ c.documents.get? other = none := by
    rw [Table.getPut]
    by_cases same : other = uri <;> simp [same, known]
  have steady {call answer} (other : answer ≠ .flag true) : Steady [.called call answer] := by
    simp [Steady, other]
  cases done with
  | openSent _ running | openLost running | changeSent running | changeLost running | closeSent running
    | closeLost running =>
    exact absurd running idle
  | @openAgain d own known =>
    intro uri
    simp only [note, deskAppend, deskStep, lookPlace, listed uri]
    refine ⟨fun none => ⟨none, fun same => known ((listed d.uri).mpr (same ▸ none))⟩, And.left⟩
  | @openQueued d own early unknown =>
    intro uri
    simp only [note, deskAppend, deskStep, lookPlace, Table.getPut, ← listed uri]
    by_cases same : uri = d.uri <;> simp [same]
  | @changeQueued uri text version early known =>
    intro other
    simp only [note, deskAppend, deskStep, lookAmend, ← listed other]
    exact putKnown _ (by simp [known]) other
  | @changeOver uri text version past known =>
    have late : Steady [.called (.didChange uri text) (.failed (.invalidState c.phase))] := steady (by simp)
    intro other
    simp only [note, steadyDesk late, ← listed other]
    exact putKnown (version + 1) (by simp [known]) other
  | @closeUnsent uri _ known =>
    intro other
    simp only [note, deskAppend, deskStep, clear, lookErase, Table.getErase]
    by_cases same : other = uri
    · simp [same]
    · rw [if_neg same, if_neg same]
      exact listed other
  | start | startAgain | stop | openForeign | openOver | changeUnknown | closeUnknown =>
    exact listedSame listed rfl (steady (by simp)) rfl
  | stopUnstarted | stopOver | pullIdle =>
    exact listedSame listed (List.append_assoc _ _ _) (by simp [Steady]) rfl
  | drop =>
    exact listedSame listed (List.append_assoc _ _ _)
      (steadyAppend.mpr ⟨muteSteady (muteDeathNote c), steady (by simp)⟩) rfl

theorem takenListed {m} {s : Server} {rest} (listed : Listed c)
    (taken : Taken ((c.readOn s rest).note (.heard m)) m after) : Listed after := by
  cases taken with
  | @request id method params =>
    rcases triedCases (Router.replyTo id method params)
      ((c.readOn s rest).note (.heard (.request id method params))) with ⟨_, same⟩ | ⟨_, same⟩ <;>
      rw [same] <;> exact listedSame listed (List.append_assoc _ [_] [_]) (by simp [Steady]) rfl
  | published | other | unasked | pullForestalled | shutdownAnswered | rejected | tooLate =>
    exact listedSame listed (heardLog s rest _ c) (by simp [Steady]) rfl
  | pullAnswered => exact listedSame listed (List.append_assoc _ _ _) (by simp [Steady]) rfl
  | readyLost | ready => exact listedSame listed (openedLog s rest _ c _ _) (heardSteady (by simp [Steady])) rfl

structure Unrun (c : Client) : Prop where
  phase : c.phase ≠ .running ∧ c.phase ≠ .stopping
  listed : Listed c
  latest : ∀ uri, Latest c.log uri (c.store.get? uri)
  capabilities : c.capabilities = .none ∨ ∃ id result m, .heard (.response id result none) ∈ c.log ∧
    .lost m ∈ c.log ∧ c.capabilities = .ofResult (result.getD .null)

theorem unrunPhase (unrun : c.phase ≠ .running ∧ c.phase ≠ .stopping) (course : Course c after)
    (undone : .resolved .start .done ∉ after.log) : after.phase ≠ .running ∧ after.phase ≠ .stopping := by
  cases course with
  | level log between level => rwa [level.phase]
  | begun log fresh held phase => simp [phase]
  | spawned log waiting link phase => rwa [phase]
  | failed log between opening phase | ceased log between phase => simp [phase]
  | ready log => exact absurd (by simp [log]) undone
  | leaving log running => exact absurd running unrun.1
  | farewell log asks registered stopping => exact absurd stopping unrun.2

theorem turnListed (unrun : c.phase ≠ .running ∧ c.phase ≠ .stopping) (coherent : Coherent c)
    (listed : Listed c) (turn : Turn c after) : Listed after := by
  cases turn with
  | host held free done => exact calledListed unrun.1 listed done
  | taken listening server hearing => exact takenListed listed hearing
  | idle | skipped | spawnRefused | exitUntold | served | elsewhere =>
    exact listedSame listed (List.append_nil _).symm (by simp [Steady]) rfl
  | spawned | introduced | introduceLost | lost | stopVoid =>
    exact listedSame listed rfl (by simp [Steady]) rfl
  | pullOpened held free running | pullShut held free running => exact absurd running unrun.1
  | pullSent asking | pullLost asking =>
    exact absurd (coherent.asking (by simp [asking])).1 unrun.1
  | shutdownOpened requested running | shutdownShut requested running => exact absurd running unrun.1
  | shutdownSent registered | shutdownLost registered =>
    exact absurd (teardownStopping coherent (.inl ⟨_, registered⟩)) unrun.2
  | finished waiting => exact absurd (teardownStopping coherent (.inr (.inr waiting))) unrun.2
  | orphaned => exact listedSame listed rfl (muteSteady (muteDeathNote _)) rfl
  | @gaveUp failure =>
    exact listedSame listed (failureLog failure c) (muteSteady (failureMute failure c)) rfl
  | parted =>
    exact listedSame listed (List.append_assoc _ _ _)
      (steadyAppend.mpr ⟨by simp [Steady], muteSteady (muteForsaken _)⟩) rfl
  | exitTold =>
    rcases triedCases Request.exit c with ⟨_, same⟩ | ⟨_, same⟩ <;> rw [same] <;>
      exact listedSame listed rfl (by simp [Steady]) rfl

theorem turnCapabilities (turn : Turn c after) : after.capabilities = c.capabilities ∨
    ∃ id result, .heard (.response id result none) ∈ after.log ∧
      (.resolved .start .done ∈ after.log ∨ ∃ m, .lost m ∈ after.log) ∧
      after.capabilities = .ofResult (result.getD .null) := by
  cases turn with
  | host held free done => cases done <;> exact .inl rfl
  | @taken s rest m after listening server hearing =>
    cases hearing with
    | request => exact .inl (triedSame Client.capabilities _ _ rfl rfl)
    | @ready id result =>
      exact .inr ⟨id, result, by simp [note], .inl (by simp), rfl⟩
    | @readyLost id result failure first m rest =>
      exact .inr ⟨id, result, by simp [note], .inr ⟨m, by simp⟩, rfl⟩
    | _ => exact .inl rfl
  | exitTold => exact .inl (triedSame Client.capabilities _ _ rfl rfl)
  | _ => exact .inl rfl

theorem turnUnrun (reached : Reached config nextId c) (unrun : Unrun c) (turn : Turn c after)
    (undone : .resolved .start .done ∉ after.log) : Unrun after := by
  obtain ⟨es, log, stored⟩ := shelvesStored reached (reachedShelves reached turn)
  have phase := unrunPhase unrun.phase (reachedCourse reached turn) undone
  refine ⟨phase, turnListed unrun.phase (reachedCoherent reached) unrun.listed turn, fun uri => ?_, ?_⟩
  · rcases stored with ⟨stopping, _⟩ | stored
    · exact absurd stopping unrun.phase.2
    · exact log ▸ storedLatest (stored uri) (unrun.latest uri)
  · rcases turnCapabilities turn with same | ⟨id, result, heard, cause, own⟩
    · rw [same, log]
      refine unrun.capabilities.imp_right ?_
      rintro ⟨id, result, m, heard, lost, own⟩
      exact ⟨id, result, m, List.mem_append_left es heard, List.mem_append_left es lost, own⟩
    · obtain ⟨m, lost⟩ := cause.resolve_left undone
      exact .inr ⟨id, result, m, heard, lost, own⟩

theorem reachedUnrun (reached : Reached config nextId c) (undone : .resolved .start .done ∉ c.log) :
    Unrun c := by
  induction reached with
  | new =>
    exact ⟨⟨nofun, nofun⟩, fun uri => iff_of_true rfl rfl, fun uri => .inl ⟨inertUntouched inertNone _ uri, rfl⟩,
      .inl rfl⟩
  | @turn c after before turn ih =>
    obtain ⟨es, log⟩ := askedLog (reachedAsked before turn)
    refine turnUnrun before (ih fun member => undone ?_) turn undone
    exact log ▸ List.mem_append_left es member

theorem openingUndecided (reached : Reached config nextId c) (opening : c.Opening) (outcome : Outcome) :
    .resolved .start outcome ∉ c.log := by
  have balanced : c.log.countP (issues .start) = c.log.countP (settles .start) + c.owes .start :=
    reachedBalanced reached .start
  have single := (reachedSingle reached).start
  have owed : c.owes .start = 1 := openingOwed opening
  have none : c.log.countP (settles .start) = 0 := by omega
  rw [List.countP_eq_zero] at none
  exact fun member => none _ member rfl

structure Broken (c : Client) : Prop where
  stopped : c.phase = .stopped
  closed : c.link = .closed
  undone : .resolved .start .done ∉ c.log

theorem failedBroken {es : List Event} {failure : Failure} (reached : Reached config nextId c)
    (opening : c.Opening) (between : Between es)
    (log : after.log = c.log ++ (es ++ [.resolved .start (.failed failure)])) (phase : after.phase = .stopped)
    (link : after.link = .closed) : Broken after := by
  refine ⟨phase, link, fun member => ?_⟩
  rw [log, List.mem_append, List.mem_append, List.mem_singleton] at member
  rcases member with old | new | last
  · exact openingUndecided reached opening .done old
  · exact betweenUndecided between .done new
  · cases last

theorem laterBroken (reached : Reached config nextId c) (broken : Broken c) (turn : Turn c after) :
    Broken after := by
  have course := reachedCourse reached turn
  refine ⟨turnStopped broken.stopped turn, turnClosed (reachedCoherent reached) broken.closed turn, ?_⟩
  intro member
  rcases courseMember course member rfl with old | ⟨⟨_, other⟩, _⟩ | ⟨_, other⟩ | ⟨_, running⟩ | other
  · exact broken.undone old
  · cases other
  · cases other
  · exact nomatch running.symm.trans (turnStopped broken.stopped turn)
  · cases other

theorem courseFails (course : Course c after) (failed : StartFailed after.log) : StartFailed c.log ∨
    ∃ es failure, Between es ∧ c.Opening ∧ after.phase = .stopped ∧ after.link = .closed ∧
      after.log = c.log ++ (es ++ [.resolved .start (.failed failure)]) := by
  obtain ⟨failure, member⟩ := failed
  have old {es : List Event} (log : after.log = c.log ++ es)
      (undecided : .resolved .start (.failed failure) ∉ es) : StartFailed c.log := by
    rw [log] at member
    exact ⟨failure, (List.mem_append.mp member).resolve_right undecided⟩
  cases course with
  | failed log between opening phase link => exact .inr ⟨_, _, between, opening, phase, link, log⟩
  | level log between | ceased log between => exact .inl (old log (betweenUndecided between _))
  | begun log | spawned log | leaving log => exact .inl (old log (by simp))
  | ready log between =>
    exact .inl (old log (by simp [betweenUndecided between]))
  | farewell log asks => exact .inl (old log (farewellUndecided asks _))

theorem reachedBroken (reached : Reached config nextId c) (failed : StartFailed c.log) : Broken c := by
  induction reached with
  | new =>
    obtain ⟨failure, member⟩ := failed
    simp [new] at member
  | turn before turn ih =>
    rcases courseFails (reachedCourse before turn) failed with old | ⟨es, failure, between, opening, phase, link, log⟩
    · exact laterBroken before (ih old) turn
    · exact failedBroken before opening between log phase link

theorem triedStopped {m : Message} (held : (c.tried m).held = true) (stopped : (c.tried m).phase = .stopped) :
    c.held = true ∧ c.phase = .stopped :=
  ⟨(triedSame Client.held m c rfl rfl).symm.trans held, (triedPhase m c).symm.trans stopped⟩

theorem turnStops (coherent : Coherent c) (turn : Turn c after) (held : after.held = true)
    (stopped : after.phase = .stopped) : c.held = true ∧ c.phase = .stopped ∨ StartFailed after.log := by
  have failed (failure : Failure) (c : Client) : StartFailed (c.startFailed failure).log :=
    ⟨failure, by simp [startFailed]⟩
  cases turn with
  | host holding free done =>
    cases done with
    | start => cases stopped
    | stopUnstarted | stopOver | stop | drop => cases held
    | _ => exact .inl ⟨held, stopped⟩
  | @taken s rest m _ listening server hearing =>
    cases hearing with
    | request => exact .inl (triedStopped (c := (c.readOn s rest).note _) held stopped)
    | ready => cases stopped
    | _ => exact .inl ⟨held, stopped⟩
  | exitTold => exact .inl (triedStopped held stopped)
  | gaveUp => exact .inr (failed _ _)
  | shutdownOpened | shutdownShut => cases stopped
  | finished waiting => cases waiting.symm.trans (coherent.held held)
  | _ => exact .inl ⟨held, stopped⟩

theorem reachedStops (reached : Reached config nextId c) (held : c.held = true) (stopped : c.phase = .stopped) :
    StartFailed c.log := by
  induction reached with
  | new => cases stopped
  | turn before turn ih =>
    rcases turnStops (reachedCoherent before) turn held stopped with ⟨holding, past⟩ | failed
    · obtain ⟨failure, member⟩ := ih holding past
      obtain ⟨es, log⟩ := askedLog (reachedAsked before turn)
      exact ⟨failure, log ▸ List.mem_append_left es member⟩
    · exact failed

structure Aftermath (c : Client) : Prop where
  released : StartFailed c.deeds → c.phase = .stopped ∧ c.attached = false ∧ c.router.pending = [] ∧
    c.queued = [] ∧ c.link = .closed
  tracked : StartFailed c.deeds → ∀ uri, c.documents.get? uri = none ↔ look uri (desk c.deeds) = none
  stored : StartFailed c.deeds → ∀ uri, Latest c.deeds uri (c.store.get? uri)
  -- capabilities are left only if the handshake failed in its last messages
  capabilities : StartFailed c.deeds → c.capabilities = .none ∨
    ∃ id result m, .heard (.response id result none) ∈ c.deeds ∧ .lost m ∈ c.deeds ∧
      c.capabilities = .ofResult (result.getD .null)
  -- a stop of a client that ran forgets all but its capabilities
  stopped : ∀ move, c.phase = .stopping → (c.perform move).phase = .stopped →
    (c.perform move).documents = [] ∧ (c.perform move).queued = [] ∧ (c.perform move).store = [] ∧
      (c.perform move).attached = false

theorem takenCleared {m : Message} (settled : ¬ c.Opening) (taken : Taken c m after) : after.phase = c.phase := by
  have handshake {id : Int} (awaited : c.link = .handshake id) : False :=
    settled (.inr (.inr (.inl ⟨id, awaited⟩)))
  cases taken with
  | request => exact triedPhase _ c
  | ready awaited => exact (handshake awaited).elim
  | _ => rfl

theorem turnCleared (coherent : Coherent c) (stopping : c.phase = .stopping) (turn : Turn c after)
    (stopped : after.phase = .stopped) :
    after.documents = [] ∧ after.queued = [] ∧ after.store = [] ∧ after.attached = false := by
  have settled : ¬ c.Opening := fun opening => by
    rcases openingPhase coherent opening with phase | phase <;> exact nomatch stopping.symm.trans phase
  have busy := stoppingBusy coherent stopping
  have past (same : after.phase = c.phase) : False := nomatch stopping.symm.trans (same.symm.trans stopped)
  cases turn with
  | finished waiting =>
    obtain ⟨_, ⟨⟨id, own⟩ | ⟨id, own⟩, _⟩ | ⟨_, detached⟩⟩ := coherent.stopping stopping
    · exact nomatch waiting.symm.trans own
    · exact nomatch waiting.symm.trans own
    · exact ⟨rfl, rfl, rfl, detached⟩
  | host held => exact absurd (coherent.held held) busy
  | @taken s rest m _ listening server hearing =>
    exact (past (takenCleared (c := (c.readOn s rest).note (.heard m)) settled hearing)).elim
  | gaveUp failing => exact absurd (.inr (.inr (.inr ⟨_, failing⟩))) settled
  | exitTold => exact (past (triedPhase _ c)).elim
  | shutdownOpened | shutdownShut => cases stopped
  | _ => exact (past rfl).elim

theorem aftermath (config : Config) (nextId : Int) (moves : List Move) :
    Aftermath ((new config nextId).play moves) := by
  have reached := playReached config nextId moves
  generalize (new config nextId).play moves = c at reached
  have unrun (failed : StartFailed c.deeds) : Unrun c.quiet :=
    reachedUnrun reached (reachedBroken reached failed).undone
  exact {
    released := fun failed => by
      have coherent := reachedCoherent reached
      have broken := reachedBroken reached failed
      have decided := (reachedDecided reached).failed
      obtain ⟨failure, member⟩ := failed
      obtain ⟨_, stopped, queued⟩ := (decided _ member).resolve_left nofun
      have pending := reachedShut (c := c.quiet) reached (coherent.closed.mpr broken.closed)
      exact ⟨stopped, (coherent.stopped stopped).1, pending, queued, broken.closed⟩
    tracked := fun failed => (unrun failed).listed
    stored := fun failed => (unrun failed).latest
    capabilities := fun failed => (unrun failed).capabilities
    stopped := fun move stopping stopped => by
      have turn := reachedTurn reached move
      have past : (c.perform move).quiet.phase = .stopped := stopped
      have cleared := turnCleared (reachedCoherent reached) stopping turn past
      exact cleared }

/-- The server answers the handshake, but reads no more. -/
def cutShort : Client := (new sampleConfig 1).play [.host (.didOpen sampleDocument), .host (.start none),
  .spawn, .introduce, .server (.endsInput 0), .server (.writes
    (Message.response 1 (some (.ofFields [("textDocumentSync", .integer 1)])) none).octets), .take, .giveUp]

theorem cutShortLeft : cutShort.phase = .stopped ∧
    .resolved .start (.failed (.io .brokenPipe)) ∈ cutShort.deeds ∧
    cutShort.documents = [(sampleDocument.uri, 1)] ∧ cutShort.capabilities.sync = 1 := by
  decide +kernel

end LspClient.Client
