import LspClient.Proofs.Client.Aftermath
import LspClient.Proofs.Client.Custody

/-! No server is left behind. A failed start and a drop kill it, a stop waits for its exit, and after that
nothing is written to it. -/
namespace LspClient

def Event.isParting : Event → Bool
  | .resolved .start (.failed _) | .resolved .stop _ | .called .drop _ => true
  | _ => false

def Event.isPeaceful : Event → Bool
  | .killed => false
  | e => !e.isParting

namespace Client

variable {config : Config} {nextId : Int} {c after : Client}

def Peaceful (es : List Event) : Prop := ∀ e ∈ es, e.isPeaceful = true

def Abandoned (es : List Event) : Prop := ∀ e ∈ es, ∃ name, e = .resolved (.pull name) .abandoned

theorem abandonedNothing : Abandoned [] := List.forall_mem_nil _

/-- What a turn has to do with the end of the server. A server that was launched for a client which the host
has dropped since is killed later, by the receiving side. -/
inductive Fate (c after : Client) : Prop where
  | spared {es} (log : after.log = c.log ++ es) (peaceful : Peaceful es)
  | orphaned (log : after.log = c.log ++ [.killed]) (dropped : .called .drop .nothing ∈ c.log)
  | failed {first death failure}
      (log : after.log = c.log ++ (first ++ death ++ [.resolved .start (.failed failure)]))
      (before : Abandoned first) (killed : death = [] ∨ death = [.killed])
      (phase : after.phase = .stopped) (met : ¬ after.Fallow)
  | dropped {death} (log : after.log = c.log ++ (death ++ [.called .drop .nothing]))
      (killed : death = [] ∨ death = [.killed]) (phase : after.phase = .stopped)
  | stopped {rest} (log : after.log = c.log ++ .resolved .stop .done :: rest)
      (last : rest = [] ∨ rest = [.called .stop .nothing]) (phase : after.phase = .stopped)
      (met : ¬ after.Fallow)

theorem peacefulNone : Peaceful [] := List.forall_mem_nil _

theorem peacefulOne {e : Event} (peaceful : e.isPeaceful = true) : Peaceful [e] := by
  simpa [Peaceful] using peaceful

theorem peacefulCons {e : Event} {rest : List Event} (peaceful : e.isPeaceful = true)
    (others : Peaceful rest) : Peaceful (e :: rest) := List.forall_mem_cons.mpr ⟨peaceful, others⟩

theorem peacefulAppend {first last : List Event} (before : Peaceful first) (later : Peaceful last) :
    Peaceful (first ++ last) := List.forall_mem_append.mpr ⟨before, later⟩

theorem peacefulWrote (ms : List Message) : Peaceful (ms.map .wrote) := by
  intro e member
  obtain ⟨m, _, rfl⟩ := List.mem_map.mp member
  rfl

theorem peacefulForsaken (c : Client) : Peaceful c.forsaken := everyForsaken (fun _ => rfl) c

theorem deathNoteCases (c : Client) : c.deathNote = [] ∨ c.deathNote = [.killed] := by
  cases attached : c.attached <;> simp [deathNote, attached]

theorem shutMet (closed : after.link = .closed) : ¬ after.Fallow := by
  simp [Fallow, closed]

theorem failedFate (failure : Failure) (c : Client) : Fate c (c.startFailed failure) := by
  have log : (c.startFailed failure).log = c.log ++ (c.forsaken ++ c.deathNote ++
      [.resolved .start (.failed failure)]) := by simp [startFailed]
  exact .failed log (fun _ => forsakenPull) (deathNoteCases c) rfl (shutMet rfl)

theorem turnDropped (coherent : Coherent c) (turn : Turn c after) (opening : after.Opening)
    (stopped : after.phase = .stopped) :
    c.Opening ∧ c.phase = .stopped ∨ .called .drop .nothing ∈ after.log := by
  obtain ⟨idle, pumping, closed⟩ := openingApart opening
  cases turn with
  | host held free done =>
    cases done with
    | start => cases stopped
    | stopUnstarted fresh => exact absurd (coherent.created fresh).1 idle
    | drop => exact .inr (by simp [note])
    | _ => exact .inl ⟨opening, stopped⟩
  | taken listening server hearing =>
    cases hearing with
    | request =>
      rw [triedPhase] at stopped
      simp only [Opening, triedLink] at opening
      exact .inl ⟨opening, stopped⟩
    | ready => cases stopped
    | rejected awaited | tooLate awaited | readyLost awaited =>
      exact .inl ⟨.inr (.inr (.inl ⟨_, awaited⟩)), stopped⟩
    | _ => exact .inl ⟨opening, stopped⟩
  | spawnRefused waiting | spawned waiting => exact .inl ⟨.inl ⟨_, waiting⟩, stopped⟩
  | orphaned waiting => exact .inl ⟨.inr (.inl waiting), stopped⟩
  | introduced waiting starting | introduceLost waiting starting => cases starting.symm.trans stopped
  | lost awaiting => exact .inl ⟨.inr (.inr (.inl ⟨_, awaiting⟩)), stopped⟩
  | gaveUp | parted => exact absurd rfl closed
  | shutdownOpened | shutdownShut => cases stopped
  | exitTold =>
    rw [triedPhase] at stopped
    simp only [Opening, triedLink] at opening
    exact .inl ⟨opening, stopped⟩
  | finished waiting =>
    have link := (coherent.stopping (teardownStopping coherent (.inr (.inr waiting)))).1
    exact (link.elim pumping closed).elim
  | _ => exact .inl ⟨opening, stopped⟩

theorem reachedDropped (reached : Reached config nextId c) (opening : c.Opening) (stopped : c.phase = .stopped) :
    .called .drop .nothing ∈ c.log := by
  induction reached with
  | new => cases stopped
  | turn before turn ih =>
    rcases turnDropped (reachedCoherent before) turn opening stopped with ⟨opening, stopped⟩ | dropped
    · obtain ⟨es, log⟩ := askedLog (reachedAsked before turn)
      exact log ▸ List.mem_append_left es (ih opening stopped)
    · exact dropped

def Vacant (c : Client) : Prop := c.held = true → c.phase = .stopped → c.link = .closed

theorem reachedVacant (reached : Reached config nextId c) : Vacant c :=
  fun held stopped => (reachedBroken reached (reachedStops reached held stopped)).closed

theorem heldOver (reached : Reached config nextId c) (held : c.held = true) (past : c.Over) :
    c.phase = .stopped ∧ c.link = .closed := by
  have coherent := reachedCoherent reached
  rcases past with stopping | stopped
  · exact absurd (coherent.held held) (stoppingBusy coherent stopping)
  · exact ⟨stopped, reachedVacant reached held stopped⟩

theorem calledFate {call answer} (reached : Reached config nextId c) (held : c.held = true)
    (done : Called c call answer after) : Fate c (after.note (.called call answer)) := by
  cases done with
  | stopUnstarted fresh =>
    have idle : c.link = .idle := ((reachedCoherent reached).created fresh).1
    exact .stopped (List.append_assoc _ _ _) (.inr rfl) rfl (by simp [Fallow, note, idle])
  | stopOver past =>
    obtain ⟨stopped, closed⟩ := heldOver reached held past
    exact .stopped (List.append_assoc _ _ _) (.inr rfl) stopped (shutMet closed)
  | drop => exact .dropped (List.append_assoc _ _ _) (deathNoteCases c) rfl
  | start | startAgain | stop | openForeign | openOver | openAgain | openQueued | changeUnknown | changeOver
    | changeQueued | closeUnknown | closeUnsent => exact .spared rfl (peacefulOne rfl)
  | openSent | openLost | changeSent | changeLost | closeSent | closeLost | pullIdle =>
    exact .spared (List.append_assoc _ _ _) (peacefulAppend (peacefulOne rfl) (peacefulOne rfl))

theorem takenFate {m} {s : Server} {rest}
    (taken : Taken ((c.readOn s rest).note (.heard m)) m after) : Fate c after := by
  cases taken with
  | @request id method params =>
    rcases triedCases (Router.replyTo id method params)
      ((c.readOn s rest).note (.heard (.request id method params))) with ⟨_, same⟩ | ⟨_, same⟩ <;>
    · rw [same]
      exact .spared (List.append_assoc _ [_] [_]) (peacefulCons rfl (peacefulOne rfl))
  | published | other | unasked | pullForestalled | shutdownAnswered | rejected | tooLate =>
    exact .spared (heardLog s rest _ c) (peacefulOne rfl)
  | pullAnswered => exact .spared (List.append_assoc _ [_] [_]) (peacefulCons rfl (peacefulOne rfl))
  | readyLost | ready =>
    exact .spared (openedLog s rest _ c _ _)
      (peacefulAppend (peacefulCons rfl (peacefulWrote _)) (peacefulOne rfl))

theorem turnFate (reached : Reached config nextId c) (turn : Turn c after) : Fate c after := by
  have coherent := reachedCoherent reached
  cases turn with
  | host held free done => exact calledFate reached held done
  | taken listening server hearing => exact takenFate hearing
  | idle | skipped | spawnRefused | exitUntold | served | elsewhere =>
    exact .spared (List.append_nil _).symm peacefulNone
  | pullOpened | pullShut | spawned | introduced | introduceLost | lost | shutdownOpened | shutdownShut
    | shutdownSent | shutdownLost => exact .spared rfl (peacefulOne rfl)
  | @pullSent a =>
    have news : Peaceful a.news := everyNews (fun _ _ => rfl) a
    exact .spared rfl (peacefulCons rfl (peacefulAppend news (peacefulOne rfl)))
  | pullLost => exact .spared rfl (peacefulCons rfl (peacefulCons rfl (peacefulOne rfl)))
  | orphaned waiting gone =>
    have opening : c.Opening := .inr (.inl waiting)
    exact .orphaned rfl (reachedDropped reached opening ((openingPhase coherent opening).resolve_left gone))
  | gaveUp => exact failedFate _ c
  | parted => exact .spared (List.append_assoc _ _ _) (peacefulCons rfl (peacefulForsaken c))
  | stopVoid requested settled idle =>
    -- a stop finds nothing to tear down only where the start it waited for has failed
    cases phase : c.phase with
    | created => cases requested.symm.trans (coherent.created phase).2.1
    | starting => exact absurd phase settled
    | running => exact absurd phase idle
    | stopping =>
      exact absurd requested (stoppingUnrequested coherent phase)
    | stopped =>
      rcases (coherent.stopped phase).2 with none | ⟨_, closed⟩
      · cases requested.symm.trans none
      · exact .stopped rfl (.inl rfl) rfl (shutMet closed)
  | exitTold =>
    rcases triedCases Request.exit c with ⟨_, same⟩ | ⟨_, same⟩ <;> rw [same] <;>
      exact .spared rfl (peacefulOne rfl)
  | finished waiting =>
    have link := (coherent.stopping (teardownStopping coherent (.inr (.inr waiting)))).1
    exact .stopped rfl (.inl rfl) rfl (by rcases link with link | link <;> simp [Fallow, link])

theorem stoppedSilent (reached : Reached config nextId c) (stopped : c.phase = .stopped)
    (turn : Turn c after) : ∃ es, after.log = c.log ++ es ∧ ∀ m, .wrote m ∉ es := by
  have shut : c.refusal ≠ none := detached ((reachedCoherent reached).stopped stopped).1
  have unwritten {es : List Event} (mute : Mute es) (m : Message) : .wrote m ∉ es :=
    fun member => nomatch mute _ member
  cases reachedSaid reached turn with
  | nothing log mute => exact ⟨_, log, unwritten mute⟩
  | @stuck first m last log mute =>
    refine ⟨_, log, fun n member => ?_⟩
    rcases List.mem_append.mp member with new | new
    · exact unwritten mute n (List.mem_append_left last new)
    · rcases List.mem_cons.mp new with other | new
      · cases other
      · exact unwritten mute n (List.mem_append_right first new)
  | edited edit log => exact ⟨_, log, by simp⟩
  | told running => cases running.symm.trans stopped
  | introduced unopened starting | ready starting | readyLost starting => cases starting.symm.trans stopped
  | shutdown registered stopping => cases stopping.symm.trans stopped
  | replied pipe | exit waiting answered pipe => exact absurd pipe shut

theorem turnMet (stopped : c.phase = .stopped) (met : ¬ c.Fallow) (turn : Turn c after) : ¬ after.Fallow := by
  cases turn with
  | host held free done =>
    cases done with
    | start fresh => cases fresh.symm.trans stopped
    | _ => exact met
  | @taken s rest m after listening server hearing =>
    exact linkMet (c := (c.readOn s rest).note (.heard m)) (takenLink hearing) met
  | spawned waiting => exact absurd (.inl ⟨_, waiting⟩) met
  | introduced waiting => exact absurd (.inr waiting) met
  | spawnRefused | orphaned | introduceLost | lost => simp [Fallow]
  | gaveUp | parted => exact shutMet rfl
  | exitTold =>
    simp only [Fallow, triedLink]
    exact met
  | _ => exact met

def Quieted (log : List Event) : Prop :=
  ∀ (before : List Event) (e : Event) (rest : List Event), log = before ++ e :: rest →
    e.isParting = true → ∀ m, .wrote m ∉ rest

def Doomed (log : List Event) : Prop :=
  ∃ (e : Event) (rest : List Event), log = e :: rest ∧
    (e = .called .drop .nothing ∨ ∃ failure, e = .resolved .start (.failed failure))

def Warranted (log : List Event) : Prop :=
  ∀ before rest : List Event, log = before ++ .killed :: rest → .called .drop .nothing ∈ before ∨ Doomed rest

theorem quietedAppend {log es : List Event} (quieted : Quieted log) (last : Quieted es)
    (silent : (∃ e ∈ log, e.isParting = true) → ∀ m, .wrote m ∉ es) : Quieted (log ++ es) := by
  intro before e rest split parting m member
  rcases splitAppend split with ⟨short, rfl, old⟩ | ⟨first, _, new⟩
  · rcases List.mem_append.mp member with there | there
    · exact quieted before e short old parting m there
    · exact silent ⟨e, splitMember old, parting⟩ m there
  · exact last first e rest new parting m member

theorem quietedPeaceful {es : List Event} (peaceful : ∀ e ∈ es, e.isParting = false) (last : Event) :
    Quieted (es ++ [last]) := by
  intro before e rest split parting m member
  rcases splitLast split with ⟨none, _⟩ | ⟨short, _, old⟩
  · rw [none] at member
    cases member
  · cases parting.symm.trans (peaceful e (splitMember old))

theorem unparting {e : Event} (peaceful : e.isPeaceful = true) : e.isParting = false := by
  cases e <;> simp_all [Event.isPeaceful, Event.isParting]

theorem abandonedPeaceful {es : List Event} (abandoned : Abandoned es) : Peaceful es := by
  intro e member
  obtain ⟨name, rfl⟩ := abandoned e member
  rfl

theorem killedParting {death : List Event} (killed : death = [] ∨ death = [.killed]) :
    ∀ e ∈ death, e.isParting = false := by
  rcases killed with rfl | rfl
  · exact List.forall_mem_nil _
  · simp [Event.isParting]

theorem fateQuieted (fate : Fate c after) : ∃ es, after.log = c.log ++ es ∧ Quieted es := by
  cases fate with
  | @spared es log peaceful =>
    refine ⟨es, log, fun before e rest split parting => ?_⟩
    cases parting.symm.trans (unparting (peaceful e (splitMember split)))
  | orphaned log => exact ⟨_, log, quietedPeaceful (List.forall_mem_nil _) .killed⟩
  | failed log before killed =>
    refine ⟨_, log, quietedPeaceful (fun e member => ?_) _⟩
    rcases List.mem_append.mp member with new | new
    · exact unparting (abandonedPeaceful before e new)
    · exact killedParting killed e new
  | dropped log killed => exact ⟨_, log, quietedPeaceful (killedParting killed) _⟩
  | @stopped more log last =>
    refine ⟨_, log, fun before e rest split parting m member => ?_⟩
    have among : .wrote m ∈ .resolved .stop .done :: more :=
      split ▸ List.mem_append_right before (List.mem_cons_of_mem e member)
    rcases last with rfl | rfl <;> simp at among

theorem doomedOn {log : List Event} (doomed : Doomed log) (es : List Event) : Doomed (log ++ es) := by
  obtain ⟨e, rest, rfl, own⟩ := doomed
  exact ⟨e, rest ++ es, rfl, own⟩

theorem warrantedAppend {log es : List Event} (warranted : Warranted log)
    (last : .called .drop .nothing ∈ log ∨ Warranted es) : Warranted (log ++ es) := by
  intro before rest split
  rcases splitAppend split with ⟨short, rfl, old⟩ | ⟨first, rfl, new⟩
  · exact (warranted before short old).imp_right fun doomed => doomedOn doomed es
  · rcases last with dropped | last
    · exact .inl (List.mem_append_left first dropped)
    · exact (last first rest new).imp_left (List.mem_append_right log)

theorem warrantedNone {es : List Event} (none : .killed ∉ es) : Warranted es :=
  fun _ _ split => absurd (splitMember split) none

theorem peacefulSpared {es : List Event} (peaceful : Peaceful es) : .killed ∉ es :=
  fun member => nomatch peaceful _ member

theorem warrantedDeath {first death : List Event} {e : Event} (before : Abandoned first)
    (killed : death = [] ∨ death = [.killed])
    (own : e = .called .drop .nothing ∨ ∃ failure, e = .resolved .start (.failed failure)) :
    Warranted (first ++ death ++ [e]) := by
  have other : .killed ∉ [e] := by rcases own with rfl | ⟨failure, rfl⟩ <;> simp
  have earlier : .killed ∉ first := peacefulSpared (abandonedPeaceful before)
  rcases killed with rfl | rfl
  · refine warrantedNone ?_
    rw [List.append_nil, List.mem_append]
    exact not_or.mpr ⟨earlier, other⟩
  · -- there is no second kill, so the log splits only at this one
    intro start rest split
    have split : first ++ .killed :: [e] = start ++ .killed :: rest := by simpa using split
    obtain ⟨_, same⟩ := splitUnique split earlier other
    exact .inr ⟨e, [], same.symm, own⟩

theorem fateWarranted (fate : Fate c after) :
    ∃ es, after.log = c.log ++ es ∧ (.called .drop .nothing ∈ c.log ∨ Warranted es) := by
  cases fate with
  | spared log peaceful => exact ⟨_, log, .inr (warrantedNone (peacefulSpared peaceful))⟩
  | orphaned log dropped => exact ⟨_, log, .inl dropped⟩
  | failed log before killed => exact ⟨_, log, .inr (warrantedDeath before killed (.inr ⟨_, rfl⟩))⟩
  | dropped log killed =>
    exact ⟨_, log, .inr (warrantedDeath abandonedNothing killed (.inl rfl))⟩
  | stopped log last =>
    refine ⟨_, log, .inr (warrantedNone ?_)⟩
    rcases last with rfl | rfl <;> simp

structure Severed (c : Client) : Prop where
  stopped : ∀ e ∈ c.log, e.isParting = true → c.phase = .stopped
  met : ∀ e ∈ c.log, e.isParting = true → (∀ answer, e ≠ .called .drop answer) → ¬ c.Fallow
  quieted : Quieted c.log
  warranted : Warranted c.log

theorem fateParting {e : Event} (fate : Fate c after) (member : e ∈ after.log) (parting : e.isParting = true) :
    e ∈ c.log ∨ after.phase = .stopped ∧ ((∀ answer, e ≠ .called .drop answer) → ¬ after.Fallow) := by
  cases fate with
  | spared log peaceful =>
    rw [log, List.mem_append] at member
    exact member.imp_right fun new => nomatch parting.symm.trans (unparting (peaceful e new))
  | orphaned log =>
    rw [log, List.mem_append, List.mem_singleton] at member
    refine member.imp_right fun same => ?_
    rw [same] at parting
    cases parting
  | failed log before killed phase met | stopped log last phase met => exact .inr ⟨phase, fun _ => met⟩
  | dropped log killed phase =>
    rw [log, List.mem_append, List.mem_append, List.mem_singleton] at member
    refine member.imp_right fun new => ⟨phase, fun other => ?_⟩
    rcases new with death | rfl
    · cases parting.symm.trans (killedParting killed e death)
    · exact absurd rfl (other .nothing)

theorem turnSevered (reached : Reached config nextId c) (severed : Severed c) (turn : Turn c after) :
    Severed after := by
  have fate := turnFate reached turn
  constructor
  · intro e member parting
    rcases fateParting fate member parting with old | ⟨phase, _⟩
    · exact turnStopped (severed.stopped e old parting) turn
    · exact phase
  · intro e member parting other
    rcases fateParting fate member parting with old | ⟨_, met⟩
    · exact turnMet (severed.stopped e old parting) (severed.met e old parting other) turn
    · exact met other
  · obtain ⟨es, log, last⟩ := fateQuieted fate
    rw [log]
    refine quietedAppend severed.quieted last ?_
    rintro ⟨e, member, parting⟩
    obtain ⟨same, log', silent⟩ := stoppedSilent reached (severed.stopped e member parting) turn
    rwa [List.append_cancel_left (log.symm.trans log')]
  · obtain ⟨es, log, last⟩ := fateWarranted fate
    rw [log]
    exact warrantedAppend severed.warranted last

theorem reachedSevered (reached : Reached config nextId c) : Severed c := by
  induction reached with
  | new => exact ⟨by simp [new], by simp [new], by simp [Quieted, new], by simp [Warranted, new]⟩
  | turn before turn ih => exact turnSevered before ih turn

theorem reachedExited (reached : Reached config nextId c) (stopped : c.phase = .stopped) (met : ¬ c.Fallow) :
    c.exited = true := by
  obtain ⟨detached, unstopped⟩ := (reachedCoherent reached).stopped stopped
  rcases reachedInHand reached with past | attached | launched | waiting
  · exact past
  · cases detached.symm.trans attached
  · exact absurd (.inr launched) met
  · rcases unstopped with none | ⟨requested, _⟩
    · cases none.symm.trans waiting
    · cases requested.symm.trans waiting

theorem playExited (reached : Reached config nextId c.quiet) (stopped : c.phase = .stopped) (met : ¬ c.Fallow)
    (more : List Move) : (c.play more).exited = true := by
  induction more generalizing c with
  | nil => exact reachedExited (c := c.quiet) reached stopped met
  | cons move more ih =>
    have turn := reachedTurn reached move
    have stopped' := turnStopped (c := c.quiet) stopped turn
    have met' := turnMet (c := c.quiet) stopped met turn
    exact ih (performReached reached move) stopped' met'

theorem restingExited (reached : Reached config nextId c.quiet) (resting : c.Resting) {e : Event}
    (member : e ∈ c.deeds) (parting : e.isParting = true) : c.exited = true :=
  reachedExited (c := c.quiet) reached ((reachedSevered reached).stopped e member parting)
    (restingStill.mp resting).met

structure Orphanless (c : Client) : Prop where
  failed : StartFailed c.deeds → ∀ more, (c.play more).exited = true
  stopped : ∀ outcome, .resolved .stop outcome ∈ c.deeds → ∀ more, (c.play more).exited = true
  dropped : .called .drop .nothing ∈ c.deeds → c.Resting → ∀ more, (c.play more).exited = true
  silent : ∀ (before : List Event) (e : Event) (rest : List Event), c.deeds = before ++ e :: rest →
    e.isParting = true → ∀ m, .wrote m ∉ rest
  -- only a drop and the failure of a start kill, a drop perhaps once the launch is over
  killed : ∀ before rest : List Event, c.deeds = before ++ .killed :: rest →
    .called .drop .nothing ∈ before ∨ ∃ (e : Event) (later : List Event), rest = e :: later ∧
      (e = .called .drop .nothing ∨ ∃ failure, e = .resolved .start (.failed failure))
  died : ∀ move, c.exited = false → (c.perform move).exited = true → move = .server .exits ∨
    ∃ es, (c.perform move).deeds = c.deeds ++ es ∧ .killed ∈ es
  spared : ∀ move : Move, move.isStop = true → (c.perform move).exited = c.exited

theorem orphanless (config : Config) (nextId : Int) (moves : List Move) :
    Orphanless ((new config nextId).play moves) := by
  have reached := playReached config nextId moves
  generalize (new config nextId).play moves = c at reached
  have severed := reachedSevered reached
  have gone {e : Event} (member : e ∈ c.deeds) (parting : e.isParting = true) (met : ¬ c.Fallow) (more : List Move) :
      (c.play more).exited = true := playExited reached (severed.stopped e member parting) met more
  exact {
    failed := fun ⟨failure, member⟩ => gone member rfl (severed.met _ member rfl nofun)
    stopped := fun outcome member => gone member rfl (severed.met _ member rfl nofun)
    dropped := fun member resting => gone member rfl (restingStill.mp resting).met
    silent := severed.quieted
    killed := severed.warranted
    died := fun move living past => by
      by_cases own : move = .server .exits
      · exact .inl own
      · rcases performSpares own c past with before | killed
        · exact nomatch living.symm.trans before
        · exact .inr killed
    spared := fun move stops => stopExited stops c }

-- a drop right after the launch finds nothing attached, and the receiving side kills the process
example : ((new default 1).play [.host (.start none), .spawn, .host .drop]).exited = false ∧
    ((new default 1).play [.host (.start none), .spawn, .host .drop, .introduce]).exited = true := by
  decide

end Client
end LspClient
