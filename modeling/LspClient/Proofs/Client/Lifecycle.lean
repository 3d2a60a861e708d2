import Mathlib.Data.List.Induction
import LspClient.Proofs.Client.Blind
import LspClient.Proofs.Client.Course
import LspClient.Proofs.Client.Rest

/-! The life of a client: which move takes it from one phase to another, that its server is launched at most
once, what its start resolves to, and that a stop during the start waits for it. -/
namespace LspClient.Client

variable {config : Config} {nextId : Int} {c after : Client}

inductive Edge : Move → Phase → Phase → Prop where
  | start {refused} : Edge (.host (.start refused)) .created .starting
  | ready : Edge .take .starting .running
  | failed : Edge .giveUp .starting .stopped
  | shutDown : Edge .beginTeardown .running .stopping
  | exited : Edge .finishTeardown .stopping .stopped
  | stopUnstarted : Edge (.host .stop) .created .stopped
  | drop {phase} : Edge (.host .drop) phase .stopped

theorem edgeStopped {move : Move} {phase : Phase} (edge : Edge move .stopped phase) : phase = .stopped := by
  cases edge
  rfl

theorem edgeUsed {move : Move} {before after : Phase} (edge : Edge move before after) : after ≠ .created := by
  cases edge <;> nofun

def Follows (move : Move) (c after : Client) : Prop := after.phase = c.phase ∨ Edge move c.phase after.phase

theorem calledFollows {call answer} (done : Called c call answer after) : Follows (.host call) c after := by
  cases done with
  | start fresh =>
    refine .inr ?_
    rw [fresh]
    exact .start
  | stopUnstarted fresh =>
    refine .inr ?_
    rw [fresh]
    exact .stopUnstarted
  | drop => exact .inr .drop
  | _ => exact .inl rfl

theorem hostFollows (call : Call) (c : Client) : Follows (.host call) c (c.hostCall call).1 := by
  rcases hostCases c call with void | ⟨after, done, same⟩ | ⟨name, uri, rfl, free, running, same⟩
  · exact .inl (congrArg Client.phase void)
  · have follows := calledFollows done
    have phase := congrArg Client.phase same
    change (c.hostCall call).1.phase = after.phase at phase
    rwa [Follows, phase]
  · refine .inl ?_
    rw [same, pull, if_pos running]
    rfl

theorem giveUpFollows (coherent : Coherent c.quiet) : Follows .giveUp c c.giveUp := by
  cases link : c.link with
  | failing failure =>
    have failed : c.giveUp = c.failStart failure := by rw [giveUp, link]
    have opening : c.quiet.Opening := .inr (.inr (.inr ⟨failure, link⟩))
    rcases openingPhase coherent opening with phase | phase
    · have starting : c.phase = .starting := phase
      refine .inr ?_
      rw [failed, starting]
      exact .failed
    · rw [failed]
      exact .inl phase.symm
  | _ =>
    simp only [giveUp, link]
    exact .inl rfl

theorem takenFollows {m : Message} (taken : Taken c m after) : Follows .take c after := by
  cases taken with
  | request => exact .inl (triedPhase _ _)
  | ready awaited starting =>
    refine .inr ?_
    rw [starting]
    exact .ready
  | _ => exact .inl rfl

theorem spawnFollows (c : Client) : Follows .spawn c c.spawn := by
  suffices quiet : Follows .spawn c.quiet c.spawn.quiet from quiet
  have spawns := spawnSpawns c
  generalize c.spawn.quiet = after at spawns
  cases spawns <;> exact .inl rfl

theorem sendPhase (m : Message) (c : Client) : (c.send m).1.phase = c.phase :=
  (congrArg Client.phase (quietSend m c)).trans (triedPhase m c.quiet)

theorem introduceFollows (c : Client) : Follows .introduce c c.introduce := by
  suffices quiet : Follows .introduce c.quiet c.introduce.quiet from quiet
  have introduces := introduceIntroduces c
  generalize c.introduce.quiet = after at introduces
  cases introduces <;> exact .inl rfl

theorem takeFollows (took : c.take? = some after) : Follows .take c after := by
  obtain ⟨listening, s, server, ⟨text, rest, _, rfl⟩ | ⟨_, _, rfl⟩⟩ := takeCases took
  · unfold receive
    split
    · exact .inl rfl
    · rename_i m parsed
      have follows := takenFollows (hearTaken m (c.updateServer fun s => {s with unread := rest}))
      exact follows
  · refine .inl ?_
    suffices quiet : c.lose.quiet.phase = c.phase from quiet
    cases link : c.link with
    | handshake id => rw [loseHandshake link]; rfl
    | pumping => rw [losePumping link]; rfl
    | _ => simp [Client.listening, link] at listening

theorem askStays (c : Client) : c.ask.phase = c.phase ∧ c.ask.link = c.link ∧ c.ask.held = c.held ∧
    c.ask.teardown = c.teardown := by
  suffices quiet : c.ask.quiet.phase = c.phase ∧ c.ask.quiet.link = c.link ∧ c.ask.quiet.held = c.held ∧
    c.ask.quiet.teardown = c.teardown from quiet
  cases asking : c.asking with
  | none =>
    rw [askStill asking]
    exact ⟨rfl, rfl, rfl, rfl⟩
  | some a =>
    cases refused : c.refusal with
    | none =>
      rw [askSent asking refused]
      exact ⟨rfl, rfl, rfl, rfl⟩
    | some failure =>
      rw [askLost asking refused]
      exact ⟨rfl, rfl, rfl, rfl⟩

theorem beginFollows (c : Client) : Follows .beginTeardown c c.beginTeardown := by
  unfold beginTeardown
  split
  · exact .inl rfl
  split
  · rename_i running
    refine .inr ?_
    rw [running]
    exact .shutDown
  · exact .inl rfl

theorem askToShutDownFollows (c : Client) : Follows .askToShutDown c c.askToShutDown := by
  refine .inl ?_
  cases teardown : c.teardown with
  | registered id =>
    exact askToShutDownKeeps (P := fun d => d.phase = c.phase) teardown (sendPhase (Request.shutdown id) c)
      fun _ _ _ same => same
  | _ => simp only [askToShutDown, teardown]

theorem sendExitFollows (c : Client) : Follows .sendExit c c.sendExit := by
  refine .inl ?_
  unfold sendExit
  split
  · split
    · rfl
    · split
      · exact sendPhase Request.exit c
      · rfl
  · rfl

theorem finishFollows (coherent : Coherent c.quiet) : Follows .finishTeardown c c.finishTeardown := by
  by_cases due : c.teardown = .awaitingExit ∧ c.exited = true
  · have stopping : c.phase = .stopping := teardownStopping (c := c.quiet) coherent (.inr (.inr due.1))
    refine .inr ?_
    rw [finishTeardown, if_pos due, stopping]
    exact .exited
  · exact .inl (by rw [finishTeardown, if_neg due])

theorem serverOnly (act : ServerAct) (c : Client) :
    ∃ server, (c.serverAct act).quiet = {c.quiet with server := server} := by
  unfold serverAct
  split
  · exact ⟨c.server, rfl⟩
  cases act with
  | murmurs octets =>
    simp only [serverMurmurs]
    split
    · exact ⟨c.server, rfl⟩
    · exact ⟨_, quietDisplays _ _⟩
  | exits => exact ⟨_, quietVanish c⟩
  | writes | endsOutput | endsInput => exact ⟨_, rfl⟩

theorem serverFollows (act : ServerAct) (c : Client) : Follows (.server act) c (c.serverAct act) := by
  obtain ⟨server, same⟩ := serverOnly act c
  have phase := congrArg Client.phase same
  exact .inl phase

theorem performFollows (reached : Reached config nextId c.quiet) (move : Move) :
    Follows move c (c.perform move) := by
  have coherent := reachedCoherent reached
  cases move with
  | host call => exact hostFollows call c
  | ask => exact .inl (askStays c).1
  | spawn => exact spawnFollows c
  | introduce => exact introduceFollows c
  | take =>
    cases took : c.take? with
    | none => exact .inl (by rw [perform, took]; rfl)
    | some after =>
      have follows := takeFollows took
      rwa [perform, took]
  | giveUp => exact giveUpFollows coherent
  | beginTeardown => exact beginFollows c
  | askToShutDown => exact askToShutDownFollows c
  | sendExit => exact sendExitFollows c
  | finishTeardown => exact finishFollows coherent
  | server act => exact serverFollows act c
  | elsewhere taken => exact .inl rfl

def Move.isCall : Move → Bool
  | .host _ => true
  | _ => false

def Onward (c after : Client) : Prop :=
  after.link = c.link ∨ after.link = .pumping ∨ after.link = .closed ∨
    (∃ refused, c.link = .launching refused) ∧ after.link = .launched ∨
      c.link = .launched ∧ (∃ id, after.link = .handshake id) ∨
        c.Opening ∧ ∃ failure, after.link = .failing failure

theorem spawnOnward (c : Client) : Onward c c.spawn := by
  suffices quiet : Onward c.quiet c.spawn.quiet from quiet
  have spawns := spawnSpawns c
  generalize c.spawn.quiet = after at spawns
  cases spawns with
  | idle => exact .inl rfl
  | refused waiting => exact .inr (.inr (.inr (.inr (.inr ⟨.inl ⟨_, waiting⟩, _, rfl⟩))))
  | spawned waiting => exact .inr (.inr (.inr (.inl ⟨⟨_, waiting⟩, rfl⟩)))

theorem introduceOnward (c : Client) : Onward c c.introduce := by
  suffices quiet : Onward c.quiet c.introduce.quiet from quiet
  have introduces := introduceIntroduces c
  generalize c.introduce.quiet = after at introduces
  cases introduces with
  | idle => exact .inl rfl
  | orphaned waiting | lost waiting => exact .inr (.inr (.inr (.inr (.inr ⟨.inr (.inl waiting), _, rfl⟩))))
  | sent waiting => exact .inr (.inr (.inr (.inr (.inl ⟨waiting, _, rfl⟩))))

theorem linkOnward (link : Onwards c.link after.link) : Onward c after :=
  link.imp_right (.imp_right (.imp_right fun ⟨awaited, failing⟩ =>
    .inr (.inr ⟨.inr (.inr (.inl awaited)), failing⟩)))

theorem takeOnward (took : c.take? = some after) : Onward c after := by
  obtain ⟨listening, s, server, ⟨text, rest, _, rfl⟩ | ⟨_, _, rfl⟩⟩ := takeCases took
  · exact linkOnward (receiveLink text (c.updateServer fun s => {s with unread := rest}))
  · refine linkOnward (.inr (.inr ((loseLink listening).imp_right ?_)))
    exact fun ⟨awaited, failing⟩ => ⟨awaited, _, failing⟩

theorem keptOnward (kept : Kept c after) : Onward c after :=
  kept.link.imp_right fun ⟨_, closed⟩ => .inr (.inl closed)

theorem performOnward {move : Move} (own : move.isCall = false) (c : Client) : Onward c (c.perform move) := by
  cases move with
  | host => cases own
  | ask => exact .inl (askStays c).2.1
  | spawn => exact spawnOnward c
  | introduce => exact introduceOnward c
  | take =>
    cases took : c.take? with
    | none => exact .inl (by rw [perform, took]; rfl)
    | some after =>
      have onward := takeOnward took
      rwa [perform, took]
  | giveUp => exact keptOnward (giveUpKept c)
  | beginTeardown => exact keptOnward (beginTeardownKept c)
  | askToShutDown => exact keptOnward (askToShutDownKept c)
  | sendExit => exact keptOnward (sendExitKept c)
  | finishTeardown => exact keptOnward (finishTeardownKept c)
  | server act =>
    obtain ⟨server, same⟩ := serverOnly act c
    have link := congrArg Client.link same
    exact .inl link
  | elsewhere taken => exact .inl rfl

theorem onwardLaunching {refused : Option Refusal} (onward : Onward c after)
    (link : after.link = .launching refused) : c.link = .launching refused := by
  rcases onward with same | other | other | ⟨_, other⟩ | ⟨_, id, other⟩ | ⟨_, failure, other⟩
  · rw [← same, link]
  all_goals exact nomatch other.symm.trans link

theorem onwardSettled (onward : Onward c after) (settled : ¬ c.Opening) : ¬ after.Opening := by
  rcases onward with same | other | other | ⟨launching, _⟩ | ⟨launched, _⟩ | ⟨opening, _⟩
  · rwa [Opening, same]
  · simp [Opening, other]
  · simp [Opening, other]
  · exact absurd (.inl launching) settled
  · exact absurd (.inr (.inl launched)) settled
  · exact absurd opening settled

variable {moves more : List Move}

theorem playLast (c : Client) (moves : List Move) (move : Move) :
    c.play (moves ++ [move]) = (c.play moves).perform move := playAppend c moves [move]

theorem playTurn (config : Config) (nextId : Int) (moves : List Move) (move : Move) :
    Turn ((new config nextId).play moves).quiet ((new config nextId).play (moves ++ [move])).quiet := by
  have reached := playReached config nextId moves
  generalize same : (new config nextId).play moves = c at reached
  rw [playLast, same]
  exact reachedTurn reached move

theorem playCourse (config : Config) (nextId : Int) (moves : List Move) (move : Move) :
    Course ((new config nextId).play moves).quiet ((new config nextId).play (moves ++ [move])).quiet :=
  reachedCourse (playReached config nextId moves) (playTurn config nextId moves move)

def StartedIn (config : Config) (nextId : Int) (moves : List Move) (refused : Option Refusal) : Prop :=
  ∃ before after, moves = before ++ .host (.start refused) :: after ∧
    ((new config nextId).play before).phase = .created

theorem startedLater {refused : Option Refusal} (started : StartedIn config nextId moves refused)
    (more : List Move) : StartedIn config nextId (moves ++ more) refused := by
  obtain ⟨before, after, rfl, fresh⟩ := started
  exact ⟨before, after ++ more, by simp, fresh⟩

theorem launchingStarted {refused : Option Refusal}
    (launching : ((new config nextId).play moves).link = .launching refused) :
    StartedIn config nextId moves refused := by
  induction moves using List.reverseRecOn with
  | nil => cases launching
  | append_singleton moves move ih =>
    have reached := playReached config nextId moves
    rw [playLast] at launching
    generalize same : (new config nextId).play moves = c at *
    by_cases calls : move.isCall = true
    · cases move with
      | host call =>
        rcases hostCases c call with void | ⟨after, done, result⟩ | ⟨name, uri, rfl, free, running, result⟩
        · rw [perform, void] at launching
          exact startedLater (ih launching) _
        · have link := congrArg Client.link result
          have launching : after.link = .launching refused := link.symm.trans launching
          generalize (c.hostCall call).2 = answer at done
          cases done with
          | start created =>
            cases launching
            exact ⟨moves, [], rfl, same ▸ created⟩
          | _ => exact startedLater (ih launching) _
        · rw [perform, result, pull, if_pos running] at launching
          exact startedLater (ih launching) _
      | _ => cases calls
    · have own : move.isCall = false := by simpa using calls
      exact startedLater (ih (onwardLaunching (performOnward own c) launching)) _

theorem spawnedStarted {arguments : List String}
    (spawned : .spawned arguments ∈ ((new config nextId).play moves).deeds) :
    StartedIn config nextId moves none := by
  induction moves using List.reverseRecOn with
  | nil => cases spawned
  | append_singleton moves move ih =>
    rcases courseMember (playCourse config nextId moves move) spawned rfl with
      old | ⟨_, launching⟩ | ⟨_, other⟩ | ⟨other, _⟩ | other
    · exact startedLater (ih old) _
    · exact startedLater (launchingStarted launching) _
    · cases other
    · cases other
    · cases other

theorem doneRan : .resolved .start .done ∈ ((new config nextId).play moves).deeds ↔
    ∃ before, before <+: moves ∧ ((new config nextId).play before).phase = .running := by
  constructor
  · intro done
    induction moves using List.reverseRecOn with
    | nil => cases done
    | append_singleton moves move ih =>
      rcases courseMember (playCourse config nextId moves move) done rfl with
        old | ⟨⟨_, other⟩, _⟩ | ⟨_, other⟩ | ⟨_, running⟩ | other
      · obtain ⟨before, part, running⟩ := ih old
        exact ⟨before, part.trans (List.prefix_append _ _), running⟩
      · cases other
      · cases other
      · exact ⟨_, List.prefix_refl _, running⟩
      · cases other
  · rintro ⟨before, ⟨more, rfl⟩, running⟩
    have decided := reachedDecided (playReached config nextId before)
    obtain ⟨es, log⟩ := deedsGrow more ((new config nextId).play before)
    rw [playAppend, log]
    exact List.mem_append_left es (decided.started (.inl running))

theorem stoppedStays (config : Config) (nextId : Int) (moves more : List Move)
    (stopped : ((new config nextId).play moves).phase = .stopped) :
    ((new config nextId).play (moves ++ more)).phase = .stopped := by
  induction more using List.reverseRecOn with
  | nil => rwa [List.append_nil]
  | append_singleton more move ih =>
    rw [← List.append_assoc, playLast]
    rcases performFollows (playReached config nextId (moves ++ more)) move with same | edge
    · exact same.trans ih
    · rw [ih] at edge
      exact edgeStopped edge

def starts (log : List Event) : List Outcome :=
  log.filterMap fun
    | .resolved .start outcome => some outcome
    | _ => none

theorem startsAppend (log es : List Event) : starts (log ++ es) = starts log ++ starts es :=
  List.filterMap_append

theorem startsNone {es : List Event} (undecided : ∀ outcome, .resolved .start outcome ∉ es) :
    starts es = [] := by
  rw [starts, List.filterMap_eq_nil_iff]
  intro e member
  split
  · exact absurd member (undecided _)
  · rfl

theorem startsDeeds (c : Client) : starts c.deeds = starts c.log := by
  simp only [starts, deeds, List.filterMap_filter]
  congr 1
  funext e
  cases e <;> rfl

theorem courseStarts (course : Course c after) (settled : ¬ c.Opening) (running : c.phase ≠ .starting) :
    starts after.log = starts c.log := by
  have same {es : List Event} (log : after.log = c.log ++ es)
      (undecided : ∀ outcome, .resolved .start outcome ∉ es) : starts after.log = starts c.log := by
    rw [log, startsAppend, startsNone undecided, List.append_nil]
  cases course with
  | level log between | ceased log between => exact same log (betweenUndecided between)
  | begun log | spawned log | leaving log => exact same log (by simp)
  | farewell log asks => exact same log (farewellUndecided asks)
  | failed log between opening => exact absurd opening settled
  | ready log between starting => exact absurd starting running

theorem settledPhase (coherent : Coherent c) (settled : ¬ c.Opening) : c.phase ≠ .starting := by
  intro starting
  rcases (coherent.starting starting).2 with ⟨launching | launched, _⟩ | ⟨handshake, _⟩ | failing
  · exact settled (.inl launching)
  · exact settled (.inr (.inl launched))
  · exact settled (.inr (.inr (.inl handshake)))
  · exact settled (.inr (.inr (.inr failing)))

theorem performCourse (reached : Reached config nextId c.quiet) (move : Move) :
    Course c.quiet (c.perform move).quiet := reachedCourse reached (reachedTurn reached move)

theorem usedLater (reached : Reached config nextId c.quiet) (used : c.phase ≠ .created) (move : Move) :
    (c.perform move).phase ≠ .created :=
  (performFollows reached move).elim (fun same fresh => used (same.symm.trans fresh)) edgeUsed

theorem hostSettled (call : Call) (used : c.phase ≠ .created) (settled : ¬ c.Opening) :
    ¬ (c.hostCall call).1.Opening := by
  rcases hostCases c call with void | ⟨after, done, same⟩ | ⟨name, uri, rfl, free, running, same⟩
  · rwa [void]
  · have link := congrArg Client.link same
    have link : (c.hostCall call).1.link = after.link := link
    rw [Opening, link]
    generalize (c.hostCall call).2 = answer at done
    cases done with
    | start fresh => exact absurd fresh used
    | _ => exact settled
  · rwa [same, pull, if_pos running]

theorem performSettled {move : Move} (past : c.phase ≠ .created ∨ move.isCall = false)
    (settled : ¬ c.Opening) : ¬ (c.perform move).Opening := by
  cases calls : move.isCall with
  | true =>
    have used : c.phase ≠ .created := past.resolve_right (by simp [calls])
    cases move with
    | host call => exact hostSettled call used settled
    | _ => cases calls
  | false => exact onwardSettled (performOnward calls c) settled

theorem settledStarts (reached : Reached config nextId c.quiet) (settled : ¬ c.Opening)
    (past : c.phase ≠ .created ∨ ∀ move ∈ more, move.isCall = false) :
    starts (c.play more).log = starts c.log := by
  induction more generalizing c with
  | nil => rfl
  | cons move more ih =>
    have kept := courseStarts (performCourse reached move) settled
      (settledPhase (reachedCoherent reached) settled)
    rw [quietLog, quietLog, startsDeeds, startsDeeds] at kept
    have still := performSettled (past.imp_right fun own => own move List.mem_cons_self) settled
    have later := past.imp (fun used => usedLater reached used move)
      fun own other member => own other (List.mem_cons_of_mem move member)
    exact (ih (performReached reached move) still later).trans kept

theorem courseDecides (course : Course c after) (free : c.held = false) (starting : c.phase = .starting)
    (decided : after.phase ≠ .starting) : ¬ after.Opening := by
  cases course with
  | level log between level => exact absurd (level.phase.trans starting) decided
  | begun log fresh => cases fresh.symm.trans starting
  | spawned log waiting link phase => exact absurd (phase.trans starting) decided
  | failed log between opening phase link => simp [Opening, link]
  | ready log between waiting phase link => simp [Opening, link]
  | leaving log running => cases running.symm.trans starting
  | farewell log asks registered stopping => cases stopping.symm.trans starting
  | ceased log between phase link queued cause =>
    rcases cause with ⟨stopping, _⟩ | held
    · cases stopping.symm.trans starting
    · cases free.symm.trans held

theorem teardownIdle {move : Move} (own : move.isCall = false) (other : move.isApart = false)
    (idle : c.teardown = .none ∨ c.teardown = .requested ∧ c.phase = .starting) : c.perform move = c := by
  have undue (waiting : c.teardown ≠ .requested ∨ c.phase = .starting) : c.beginTeardown = c := if_pos waiting
  cases move with
  | host => cases own
  | ask | spawn | introduce | take | giveUp | server | elsewhere => cases other
  | beginTeardown =>
    rcases idle with none | ⟨_, starting⟩
    · exact undue (.inl (by simp [none]))
    · exact undue (.inr starting)
  | askToShutDown => rcases idle with none | ⟨requested, _⟩ <;> simp [perform, askToShutDown, *]
  | sendExit => rcases idle with none | ⟨requested, _⟩ <;> simp [perform, sendExit, *]
  | finishTeardown => rcases idle with none | ⟨requested, _⟩ <;> simp [perform, finishTeardown, *]

theorem startsUnder (held : Bool) (teardown : Teardown) (past : List Event) (c : Client) :
    starts (c.under held teardown past).log = starts past ++ starts c.log := startsAppend _ _

theorem twinStarts {first last : List Event} {teardown : Teardown} {c : Client}
    (alike : starts first = starts last)
    (waits : teardown = .none ∨ teardown = .requested ∧ c.phase = .starting)
    (one : Reached config nextId (c.under true .none first).quiet)
    (two : Reached config nextId (c.under false teardown last).quiet)
    (own : ∀ move ∈ more, move.isCall = false) :
    starts ((c.under true .none first).play more).log =
      starts ((c.under false teardown last).play more).log := by
  induction more generalizing c with
  | nil =>
    change starts (c.under true .none first).log = starts (c.under false teardown last).log
    rw [startsUnder, startsUnder, alike]
  | cons move more ih =>
    have later := (List.forall_mem_cons.mp own).2
    have own := (List.forall_mem_cons.mp own).1
    change starts (((c.under true .none first).perform move).play more).log =
      starts (((c.under false teardown last).perform move).play more).log
    have next := performReached one move
    have next' := performReached two move
    cases apart : move.isApart with
    | false =>
      have idle : (c.under true .none first).perform move = c.under true .none first :=
        teardownIdle own apart (.inl rfl)
      have idle' : (c.under false teardown last).perform move = c.under false teardown last :=
        teardownIdle own apart waits
      rw [idle, idle']
      exact ih waits one two later
    | true =>
      have course := performCourse two move
      rw [performUnder apart] at next next' course ⊢
      rw [performUnder apart]
      -- while the start is undecided the stop only waits; once it is decided, neither client resolves one any more
      by_cases still : teardown = .none ∨ teardown = .requested ∧ (c.perform move).phase = .starting
      · exact ih still next next' later
      · have starting : c.phase = .starting := (waits.resolve_left fun none => still (.inl none)).2
        have decided : (c.perform move).phase ≠ .starting := fun phase =>
          still (waits.imp_right fun ⟨requested, _⟩ => ⟨requested, phase⟩)
        have settled : ¬ ((c.perform move).under false teardown last).quiet.Opening :=
          courseDecides course rfl starting decided
        have settled : ¬ (c.perform move).Opening := settled
        rw [settledStarts next settled (.inr later), settledStarts next' settled (.inr later), startsUnder,
          startsUnder, alike]

theorem heldLater (reached : Reached config nextId c.quiet) (free : c.held = false) (move : Move) :
    (c.perform move).held = false := by
  have kept := ticketedHeld (reachedTicketed reached (reachedTurn reached move))
  cases held : (c.perform move).held with
  | false => rfl
  | true => exact nomatch free.symm.trans (kept held)

theorem playUnheld (reached : Reached config nextId c.quiet) (free : c.held = false) (moves : List Move) :
    c.play moves = c.play (moves.filter fun move => !move.isCall) := by
  induction moves generalizing c with
  | nil => rfl
  | cons move moves ih =>
    have later := ih (performReached reached move) (heldLater reached free move)
    cases calls : move.isCall with
    | true =>
      cases move with
      | host call =>
        have same : c.perform (.host call) = c := hostUnheld free call
        rw [List.filter_cons_of_neg (by simp [calls])]
        rw [same] at later
        exact (congrArg (fun c => play c moves) same).trans later
      | _ => cases calls
    | false =>
      rw [List.filter_cons_of_pos (by simp [calls])]
      exact later

theorem stopTwins (held : c.held = true) (idle : c.teardown = .none)
    (waits : c.phase = .starting ∨ c.phase = .stopped) :
    c = ({c with log := []} : Client).under true .none c.log ∧ ∃ teardown last,
      c.stop.note (.called .stop .nothing) = ({c with log := []} : Client).under false teardown last ∧
        starts c.log = starts last ∧
          (teardown = .none ∨ teardown = .requested ∧ ({c with log := []} : Client).phase = .starting) := by
  refine ⟨?_, ?_⟩
  · rw [under, List.append_nil, ← held, ← idle]
  rcases waits with starting | stopped
  · refine ⟨.requested, c.log ++ [.called .stop .nothing], ?_, ?_, .inr ⟨rfl, starting⟩⟩
    · simp [stop, starting, note, under]
    · simp [starts]
  · refine ⟨.none, c.log ++ [.resolved .stop .done, .called .stop .nothing], ?_, ?_, .inl rfl⟩
    · simp [stop, stopped, resolve, note, under, idle]
    · simp [starts]

theorem stopUnseen (config : Config) (nextId : Int) (before after : List Move) :
    starts ((new config nextId).play (before ++ .host .stop :: after)).deeds =
      starts ((new config nextId).play (before ++ after.filter fun move => !move.isCall)).deeds := by
  have reached := playReached config nextId before
  rw [startsDeeds, startsDeeds, playAppend, playAppend]
  generalize (new config nextId).play before = c at reached
  have own : ∀ move ∈ after.filter fun move => !move.isCall, move.isCall = false := by simp
  have stopped := performReached reached (.host .stop)
  change starts ((c.perform (.host .stop)).play after).log = _
  have coherent := reachedCoherent reached
  cases held : c.held with
  | false =>
    have same : c.perform (.host .stop) = c := hostUnheld held .stop
    rw [same, playUnheld reached held]
  | true =>
  cases asking : c.asking with
  -- a client that pulls has been started, and no stop can be called before the pull returns
  | some a =>
    have void : c.perform (.host .stop) = c := hostAsking asking .stop
    have running : c.phase = .running := (coherent.asking (by simp [quiet, asking])).1
    have settled : ¬ c.Opening := fun opening => by
      rcases openingPhase (c := c.quiet) coherent opening with phase | phase <;>
        cases running.symm.trans phase
    rw [void, settledStarts reached settled (.inl (by simp [running])),
      settledStarts reached settled (.inr own)]
  | none =>
    have idle : c.teardown = .none := coherent.held held
    have returned : c.stop.asking = none := by
      cases phase : c.phase <;> simp [stop, phase, resolve, note, asking]
    have answered : c.perform (.host .stop) = c.stop.note (.called .stop .nothing) := by
      simp [perform, hostCall, held, asking, called, returned]
    rw [answered] at stopped ⊢
    have free : (c.stop.note (.called .stop .nothing)).held = false := by
      cases phase : c.phase <;> simp [stop, phase, resolve, note]
    rw [playUnheld stopped free]
    -- in any other phase no link is opening, so no start is left that could be resolved
    by_cases waits : c.phase = .starting ∨ c.phase = .stopped
    · obtain ⟨one, teardown, last, two, alike, still⟩ := stopTwins held idle waits
      rw [two] at stopped ⊢
      rw [one] at reached
      have twins := twinStarts alike still reached stopped own
      rw [← one] at twins
      exact twins.symm
    · have settled : ¬ c.Opening := fun opening => waits (openingPhase (c := c.quiet) coherent opening)
      have link : (c.stop.note (.called .stop .nothing)).link = c.link := by
        cases phase : c.phase <;> simp [stop, phase, resolve, note]
      have log : starts (c.stop.note (.called .stop .nothing)).log = starts c.log := by
        cases phase : c.phase <;> simp [stop, phase, resolve, note, starts]
      have settled' : ¬ (c.stop.note (.called .stop .nothing)).Opening := by rwa [Opening, link]
      rw [settledStarts reached settled (.inr own), settledStarts stopped settled' (.inr own), log]

theorem playBound (reached : Reached config nextId c.quiet) (bound : Bound c.quiet) (moves : List Move) :
    Bound (c.play moves).quiet := by
  induction moves generalizing c with
  | nil => exact bound
  | cons move moves ih =>
    exact ih (performReached reached move) (turnBound reached (reachedTurn reached move) bound)

theorem stopBound (starting : c.phase = .starting) (held : c.held = true) (free : c.asking = none) :
    Bound (c.perform (.host .stop)).quiet := by
  have answered : c.perform (.host .stop) =
      ({c with held := false, teardown := .requested} : Client).note (.called .stop .nothing) := by
    simp [perform, hostCall, held, free, called, stop, starting]
  rw [answered]
  exact ⟨rfl, .inl ⟨.inl starting, rfl⟩⟩

theorem boundRests (reached : Reached config nextId c.quiet) (bound : Bound c.quiet) (resting : c.Resting) :
    (∃ e ∈ c.deeds, e.isFarewell = true) ↔ .resolved .start .done ∈ c.deeds := by
  have decided := reachedDecided reached
  constructor
  · rintro ⟨e, member, asks⟩
    exact decided.farewell e member asks
  · intro done
    have still := restingStill.mp resting
    rcases bound.stage with ⟨_, requested⟩ | ⟨id, _, registered⟩ | asked | ⟨_, failed⟩
    · have starting : c.phase = .starting := still.begun requested
      exact absurd done (decided.undecided (.inr starting) _)
    · exact absurd registered (still.told id)
    · exact asked
    · exact absurd done failed

structure Orderly (config : Config) (nextId : Int) (moves : List Move) (c : Client) : Prop where
  edges : ∀ move, (c.perform move).phase = c.phase ∨ Edge move c.phase (c.perform move).phase
  stopped : c.phase = .stopped → ∀ more, (c.play more).phase = .stopped
  spawnedOnce : c.deeds.countP Event.isSpawn ≤ 1
  spawnedBy : ∀ arguments, .spawned arguments ∈ c.deeds → StartedIn config nextId moves none
  startAgain : ∀ refused, c.held = true → c.asking = none → c.phase ≠ .created → c.hostCall (.start refused) =
    (c.note (.called (.start refused) (.failed (.invalidState c.phase))), .failed (.invalidState c.phase))
  startOnce : (starts c.deeds).length ≤ 1
  startDone : .resolved .start .done ∈ c.deeds ↔
    ∃ before, before <+: moves ∧ ((new config nextId).play before).phase = .running
  startFailed : ∀ outcome, .resolved .start outcome ∈ c.deeds → outcome = .done ∨
    (∃ failure, outcome = .failed failure) ∧ c.phase = .stopped ∧ c.attached = false ∧ c.queued = []
  -- the start goes on as if it were not for the stop
  stopUnseen : ∀ after, starts (c.play (.host .stop :: after)).deeds =
    starts (c.play (after.filter fun move => !move.isCall)).deeds
  stopWaits : c.phase = .starting → c.held = true → ∀ after, (c.play (.host .stop :: after)).Resting →
    ((∃ e ∈ (c.play (.host .stop :: after)).deeds, e.isFarewell = true) ↔
      .resolved .start .done ∈ (c.play (.host .stop :: after)).deeds)

theorem startsCount (log : List Event) : (starts log).length = log.countP (settles .start) := by
  induction log with
  | nil => rfl
  | cons e log ih =>
    rw [List.countP_cons, ← ih]
    cases e with
    | resolved ticket outcome => cases ticket <;> simp [starts, settles]
    | _ => rfl

theorem orderly (config : Config) (nextId : Int) (moves : List Move) :
    Orderly config nextId moves ((new config nextId).play moves) := by
  have reached := playReached config nextId moves
  have stopped := stoppedStays config nextId moves
  have unseen := stopUnseen config nextId moves
  have done : .resolved .start .done ∈ ((new config nextId).play moves).deeds ↔
      ∃ before, before <+: moves ∧ ((new config nextId).play before).phase = .running := doneRan
  have spawned : ∀ arguments, .spawned arguments ∈ ((new config nextId).play moves).deeds →
      StartedIn config nextId moves none := fun _ => spawnedStarted
  simp only [playAppend] at stopped unseen
  generalize (new config nextId).play moves = c at *
  have decided := reachedDecided reached
  exact {
    edges := performFollows reached
    stopped := fun past more => stopped more past
    spawnedOnce := (reachedLaunched reached).once
    spawnedBy := spawned
    startAgain := fun refused held free used => by
      simp [hostCall, held, free, called, start, used, Answer.ofFailure]
    startOnce := by
      have balanced : c.deeds.countP (issues .start) = c.deeds.countP (settles .start) + c.quiet.owes .start :=
        reachedBalanced reached .start
      have single : c.deeds.countP (issues .start) ≤ 1 := (reachedSingle reached).start
      rw [startsCount]
      omega
    startDone := done
    startFailed := fun outcome member => by
      refine (decided.failed outcome member).imp_right ?_
      rintro ⟨failure, past, queued⟩
      exact ⟨failure, past, ((reachedCoherent reached).stopped past).1, queued⟩
    stopUnseen := unseen
    stopWaits := fun starting held after resting => by
      have stopped := performReached reached (.host .stop)
      have free : c.asking = none := unaskedPhase (c := c.quiet) (reachedCoherent reached) fun running =>
        by cases starting.symm.trans running
      exact boundRests (playOn stopped after) (playBound stopped (stopBound starting held free) after) resting }

end LspClient.Client
