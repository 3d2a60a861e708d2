import LspClient.Proofs.Client.Tickets

/-! The course of a client's life. A few of its events are milestones: the server is launched, the start is
decided, the server is asked to shut down. `Course` says which of them a turn passes and what that does to
the phase; all else is level. -/
namespace LspClient

def Message.asksToShutDown (m : Message) : Bool := m.method? == some "shutdown"

def Event.isMilestone : Event → Bool
  | .spawned _ | .resolved .start _ => true
  | .wrote m | .lost m => m.asksToShutDown
  | _ => false

def Event.isSpawn : Event → Bool
  | .spawned _ => true
  | _ => false

def Event.isFarewell : Event → Bool
  | .wrote m | .lost m => m.asksToShutDown
  | _ => false

namespace Client

variable {config : Config} {nextId : Int} {c after : Client}

def Between (es : List Event) : Prop := ∀ e ∈ es, e.isMilestone = false

theorem betweenNone : Between [] := List.forall_mem_nil _

theorem betweenOne {e : Event} (between : e.isMilestone = false) : Between [e] := by
  simpa [Between] using between

theorem betweenCons {e : Event} {rest : List Event} (between : e.isMilestone = false)
    (others : Between rest) : Between (e :: rest) := List.forall_mem_cons.mpr ⟨between, others⟩

theorem betweenAppend {first last : List Event} (before : Between first) (after : Between last) :
    Between (first ++ last) := List.forall_mem_append.mpr ⟨before, after⟩

theorem betweenForsaken (c : Client) : Between c.forsaken := everyForsaken (fun _ => rfl) c

theorem betweenDeathNote (c : Client) : Between c.deathNote := everyDeathNote rfl c

theorem betweenOpens (documents : List TextDocument) :
    Between ((Request.initialized :: documents.map Request.didOpen).map .wrote) := by
  intro e member
  obtain ⟨m, own, rfl⟩ := List.mem_map.mp member
  rcases List.mem_cons.mp own with rfl | own
  · rfl
  · obtain ⟨d, _, rfl⟩ := List.mem_map.mp own
    rfl

structure Level (c after : Client) : Prop where
  phase : after.phase = c.phase
  link : after.link = c.link ∨ after.link = .closed ∨ (∃ id, after.link = .handshake id) ∨
    ∃ failure, after.link = .failing failure
  queued : c.phase = .stopped → c.queued = [] → after.queued = []
  held : after.held = true → c.held = true
  waits : c.phase = .starting ∨ c.phase = .running → c.teardown = .requested → after.teardown = .requested
  registered : ∀ id, c.teardown = .registered id → after.teardown = .registered id

inductive Course (c after : Client) : Prop where
  | level {es} (log : after.log = c.log ++ es) (between : Between es) (level : Level c after)
  | begun {refused} (log : after.log = c.log ++ [.called (.start refused) .nothing])
      (fresh : c.phase = .created) (held : c.held = true) (phase : after.phase = .starting)
  | spawned {arguments} (log : after.log = c.log ++ [.spawned arguments])
      (waiting : c.link = .launching none) (link : after.link = .launched) (phase : after.phase = c.phase)
      (queued : after.queued = c.queued) (held : after.held = c.held) (teardown : after.teardown = c.teardown)
  | failed {es failure} (log : after.log = c.log ++ (es ++ [.resolved .start (.failed failure)]))
      (between : Between es) (opening : c.Opening) (phase : after.phase = .stopped)
      (link : after.link = .closed) (queued : after.queued = [])
  | ready {es} (log : after.log = c.log ++ (es ++ [.resolved .start .done])) (between : Between es)
      (starting : c.phase = .starting) (phase : after.phase = .running) (link : after.link = .pumping)
      (held : after.held = c.held) (teardown : after.teardown = c.teardown)
  | leaving {id} (log : after.log = c.log ++ [.awaits id .shutdown]) (running : c.phase = .running)
      (requested : c.teardown = .requested) (phase : after.phase = .stopping) (link : after.link = c.link)
      (registered : after.teardown = .registered id)
  | farewell {e id} (log : after.log = c.log ++ [e]) (asks : e.isFarewell = true)
      (registered : c.teardown = .registered id) (stopping : c.phase = .stopping)
      (phase : after.phase = .stopping) (link : after.link = c.link)
  | ceased {es} (log : after.log = c.log ++ es) (between : Between es) (phase : after.phase = .stopped)
      (link : after.link = c.link) (queued : c.queued = [] → after.queued = [])
      (cause : c.phase = .stopping ∧ c.teardown = .awaitingExit ∨ c.held = true)

theorem levelSame (phase : after.phase = c.phase) (link : after.link = c.link)
    (queued : after.queued = c.queued) (held : after.held = c.held) (teardown : after.teardown = c.teardown) :
    Level c after :=
  ⟨phase, .inl link, fun _ none => queued.trans none, fun holding => held ▸ holding,
    fun _ requested => teardown.trans requested, fun _ own => teardown.trans own⟩

theorem failingLevel {failure} (phase : after.phase = c.phase) (link : after.link = .failing failure)
    (queued : c.phase = .stopped → c.queued = [] → after.queued = []) (held : after.held = c.held)
    (teardown : after.teardown = c.teardown) : Level c after :=
  ⟨phase, .inr (.inr (.inr ⟨failure, link⟩)), queued, fun holding => held ▸ holding,
    fun _ requested => teardown.trans requested, fun _ own => teardown.trans own⟩

theorem earlyUnstopped (early : c.Early) : c.phase ≠ .stopped := by
  rcases early with phase | phase <;> simp [phase]

theorem calledCourse {call answer} (coherent : Coherent c) (holding : c.held = true)
    (done : Called c call answer after) : Course c (after.note (.called call answer)) := by
  cases done with
  | start fresh => exact .begun rfl fresh holding rfl
  | stopUnstarted =>
    exact .ceased (List.append_assoc _ _ _) (betweenCons rfl (betweenOne rfl)) rfl rfl id (.inr holding)
  | drop =>
    exact .ceased (List.append_assoc _ _ _) (betweenAppend (betweenDeathNote c) (betweenOne rfl)) rfl rfl id
      (.inr holding)
  | stopOver past =>
    exact .level (List.append_assoc _ _ _) (betweenCons rfl (betweenOne rfl))
      ⟨rfl, .inl rfl, fun _ => id, nofun, fun _ => id, fun _ => id⟩
  | stop active =>
    have free := coherent.held holding
    exact .level rfl (betweenOne rfl) ⟨rfl, .inl rfl, fun _ => id, nofun, fun _ _ => rfl,
      fun _ own => nomatch free.symm.trans own⟩
  | openQueued _ early | changeQueued early =>
    exact .level rfl (betweenOne rfl)
      ⟨rfl, .inl rfl, fun past => absurd past (earlyUnstopped early), id, fun _ => id, fun _ => id⟩
  | closeUnsent =>
    refine .level rfl (betweenOne rfl) ⟨rfl, .inl rfl, fun _ none => ?_, id, fun _ => id, fun _ => id⟩
    simp [note, none]
  | startAgain | openForeign | openOver | openAgain | changeUnknown | changeOver | closeUnknown =>
    exact .level rfl (betweenOne rfl) (levelSame rfl rfl rfl rfl rfl)
  | openSent | openLost | changeSent | changeLost | closeSent | closeLost | pullIdle =>
    exact .level (List.append_assoc _ _ _) (betweenAppend (betweenOne rfl) (betweenOne rfl))
      (levelSame rfl rfl rfl rfl rfl)

theorem takenCourse {m} {s : Server} {rest}
    (taken : Taken ((c.readOn s rest).note (.heard m)) m after) : Course c after := by
  cases taken with
  | @request asked method params =>
    have plain : (Router.replyTo asked method params).asksToShutDown = false := by
      obtain ⟨result, error, same⟩ := replyResponse asked method params
      exact same ▸ rfl
    rcases triedCases (Router.replyTo asked method params)
      ((c.readOn s rest).note (.heard (.request asked method params))) with ⟨_, same⟩ | ⟨_, same⟩ <;>
    · rw [same]
      exact .level (List.append_assoc _ [_] [_]) (betweenCons rfl (betweenOne plain))
        (levelSame rfl rfl rfl rfl rfl)
  | published | other | unasked | pullForestalled | shutdownAnswered =>
    exact .level (heardLog s rest _ c) (betweenOne rfl) (levelSame rfl rfl rfl rfl rfl)
  | pullAnswered =>
    exact .level (List.append_assoc _ [_] [_]) (betweenCons rfl (betweenOne rfl))
      (levelSame rfl rfl rfl rfl rfl)
  | rejected | tooLate =>
    exact .level (heardLog s rest _ c) (betweenOne rfl) (failingLevel rfl rfl (fun _ => id) rfl rfl)
  | @readyLost asked result failure first m rest' awaited starting clear split =>
    have all : Between ((first ++ m :: rest').map .wrote) := split ▸ betweenOpens c.queued
    simp only [List.map_append, List.map_cons] at all
    obtain ⟨before, own⟩ := List.forall_mem_append.mp all
    have last : m.asksToShutDown = false := (List.forall_mem_cons.mp own).1
    exact .level (openedLog s rest _ c _ _) (betweenAppend (betweenCons rfl before) (betweenOne last))
      (failingLevel rfl rfl (fun _ none => by simp [note, readOn, none]) rfl rfl)
  | @ready asked result awaited starting clear =>
    exact .ready (openedLog s rest _ c _ _) (betweenCons rfl (betweenOpens _)) starting rfl rfl rfl rfl

theorem turnCourse (coherent : Coherent c) (turn : Turn c after) : Course c after := by
  cases turn with
  | host holding free done => exact calledCourse coherent holding done
  | taken listening server hearing => exact takenCourse hearing
  | idle | skipped | served | elsewhere =>
    exact .level (List.append_nil _).symm betweenNone (levelSame rfl rfl rfl rfl rfl)
  | pullOpened | pullShut =>
    exact .level rfl (betweenOne rfl) (levelSame rfl rfl rfl rfl rfl)
  | @pullSent a =>
    have news : Between a.news := everyNews (fun _ _ => rfl) a
    exact .level rfl (betweenCons rfl (betweenAppend news (betweenOne rfl))) (levelSame rfl rfl rfl rfl rfl)
  | pullLost =>
    exact .level rfl (betweenCons rfl (betweenCons rfl (betweenOne rfl))) (levelSame rfl rfl rfl rfl rfl)
  | spawnRefused =>
    exact .level (List.append_nil _).symm betweenNone (failingLevel rfl rfl (fun _ => id) rfl rfl)
  | spawned waiting => exact .spawned rfl waiting rfl rfl rfl rfl rfl
  | orphaned => exact .level rfl (betweenDeathNote _) (failingLevel rfl rfl (fun _ => id) rfl rfl)
  | introduced waiting =>
    exact .level rfl (betweenOne rfl)
      ⟨rfl, .inr (.inr (.inl ⟨_, rfl⟩)), fun _ => id, id, fun _ => id, fun _ => id⟩
  | introduceLost | lost => exact .level rfl (betweenOne rfl) (failingLevel rfl rfl (fun _ => id) rfl rfl)
  | @gaveUp failure failing =>
    have notes : Between (c.forsaken ++ c.deathNote) := betweenAppend (betweenForsaken c) (betweenDeathNote c)
    have log : (c.startFailed failure).log = c.log ++ (c.forsaken ++ c.deathNote ++
        [.resolved .start (.failed failure)]) := by simp [startFailed]
    exact .failed log notes (.inr (.inr (.inr ⟨failure, failing⟩))) rfl rfl rfl
  | parted pumping =>
    have log : (c.log ++ [.ended]) ++ c.forsaken = c.log ++ (.ended :: c.forsaken) := by simp
    exact .level log (betweenCons rfl (betweenForsaken c))
      ⟨rfl, .inr (.inl rfl), fun _ => id, id, fun _ => id, fun _ => id⟩
  | stopVoid requested settled idle =>
    refine .level rfl (betweenOne rfl) ⟨rfl, .inl rfl, fun _ => id, id, fun active => ?_, fun _ own => ?_⟩
    · exact (active.elim settled idle).elim
    · cases requested.symm.trans own
  | shutdownOpened requested running | shutdownShut requested running =>
    exact .leaving rfl running requested rfl rfl rfl
  | shutdownSent registered | shutdownLost registered =>
    have stopping := teardownStopping coherent (.inl ⟨_, registered⟩)
    exact .farewell rfl rfl registered stopping stopping rfl
  | exitTold waiting =>
    rcases triedCases Request.exit c with ⟨_, same⟩ | ⟨_, same⟩ <;>
    · rw [same]
      exact .level rfl (betweenOne rfl) ⟨rfl, .inl rfl, fun _ => id, id,
        fun _ requested => (by cases waiting.symm.trans requested), fun _ own => by cases waiting.symm.trans own⟩
  | exitUntold waiting =>
    exact .level (List.append_nil _).symm betweenNone ⟨rfl, .inl rfl, fun _ => id, id,
      fun _ requested => (by cases waiting.symm.trans requested), fun _ own => by cases waiting.symm.trans own⟩
  | finished waiting =>
    have stopping := teardownStopping coherent (.inr (.inr waiting))
    exact .ceased rfl (betweenOne rfl) rfl rfl (fun _ => rfl) (.inl ⟨stopping, waiting⟩)

theorem reachedCourse (reached : Reached config nextId c) (turn : Turn c after) : Course c after :=
  turnCourse (reachedCoherent reached) turn

theorem courseMember {e : Event} (course : Course c after) (member : e ∈ after.log)
    (milestone : e.isMilestone = true) :
    e ∈ c.log ∨ (∃ arguments, e = .spawned arguments) ∧ c.link = .launching none ∨
      (∃ failure, e = .resolved .start (.failed failure)) ∨
        e = .resolved .start .done ∧ after.phase = .running ∨ e.isFarewell = true := by
  have mixed {es : List Event} (between : Between es) (new : e ∈ es) : False :=
    nomatch milestone.symm.trans (between e new)
  cases course with
  | level log between | ceased log between =>
    rw [log, List.mem_append] at member
    exact member.imp_right fun new => (mixed between new).elim
  | begun log | leaving log =>
    rw [log, List.mem_append, List.mem_singleton] at member
    refine member.imp_right ?_
    rintro rfl
    cases milestone
  | spawned log waiting =>
    rw [log, List.mem_append, List.mem_singleton] at member
    exact member.imp_right fun new => .inl ⟨⟨_, new⟩, waiting⟩
  | failed log between =>
    rw [log, List.mem_append, List.mem_append, List.mem_singleton] at member
    refine member.imp_right fun new => .inr (.inl ?_)
    exact new.elim (fun new => (mixed between new).elim) fun last => ⟨_, last⟩
  | ready log between starting phase =>
    rw [log, List.mem_append, List.mem_append, List.mem_singleton] at member
    refine member.imp_right fun new => .inr (.inr (.inl ?_))
    exact new.elim (fun new => (mixed between new).elim) fun last => ⟨last, phase⟩
  | farewell log asks =>
    rw [log, List.mem_append, List.mem_singleton] at member
    refine member.imp_right fun new => .inr (.inr (.inr ?_))
    exact new ▸ asks

theorem betweenSpawns {es : List Event} (between : Between es) : es.countP Event.isSpawn = 0 := by
  rw [List.countP_eq_zero]
  intro e member spawn
  cases e with
  | spawned => exact nomatch between _ member
  | _ => cases spawn

structure Launched (c : Client) : Prop where
  once : c.log.countP Event.isSpawn ≤ 1
  unlaunched : (c.link = .idle ∨ ∃ refused, c.link = .launching refused) → c.log.countP Event.isSpawn = 0

theorem launchedSame (launched : Launched c)
    (spawns : after.log.countP Event.isSpawn = c.log.countP Event.isSpawn)
    (link : after.link = c.link ∨ after.link = .pumping ∨ after.link = .closed ∨
      (∃ id, after.link = .handshake id) ∨ ∃ failure, after.link = .failing failure) : Launched after := by
  refine ⟨spawns ▸ launched.once, fun opening => ?_⟩
  rw [spawns]
  rcases link with same | other
  · exact launched.unlaunched (same ▸ opening)
  · rcases other with link | link | ⟨id, link⟩ | ⟨failure, link⟩ <;> simp [link] at opening

theorem courseLaunched (coherent : Coherent c) (launched : Launched c) (course : Course c after) :
    Launched after := by
  cases course with
  | level log between level =>
    refine launchedSame launched ?_ (level.link.imp_right .inr)
    rw [log, List.countP_append, betweenSpawns between, Nat.add_zero]
  | begun log fresh =>
    have none := launched.unlaunched (.inl (coherent.created fresh).1)
    have spawns : after.log.countP Event.isSpawn = 0 := by
      rw [log, List.countP_append, none]
      rfl
    exact ⟨by omega, fun _ => spawns⟩
  | spawned log waiting link =>
    have none := launched.unlaunched (.inr ⟨_, waiting⟩)
    refine ⟨?_, fun opening => by simp [link] at opening⟩
    rw [log, List.countP_append, none]
    exact Nat.le_refl 1
  | failed log between opening phase link =>
    refine launchedSame launched ?_ (.inr (.inr (.inl link)))
    rw [log, List.countP_append, List.countP_append, betweenSpawns between]
    rfl
  | ready log between starting phase link =>
    refine launchedSame launched ?_ (.inr (.inl link))
    rw [log, List.countP_append, List.countP_append, betweenSpawns between]
    rfl
  | leaving log running requested phase link =>
    refine launchedSame launched ?_ (.inl link)
    rw [log, List.countP_append]
    rfl
  | @farewell e id log asks registered stopping phase link =>
    refine launchedSame launched ?_ (.inl link)
    have other : e.isSpawn = false := by cases e <;> first | rfl | cases asks
    rw [log, List.countP_append, List.countP_singleton, other]
    rfl
  | ceased log between phase link =>
    refine launchedSame launched ?_ (.inl link)
    rw [log, List.countP_append, betweenSpawns between, Nat.add_zero]

theorem reachedLaunched (reached : Reached config nextId c) : Launched c := by
  induction reached with
  | new => exact ⟨Nat.zero_le 1, fun _ => rfl⟩
  | turn before turn ih => exact courseLaunched (reachedCoherent before) ih (reachedCourse before turn)

structure Decided (c : Client) : Prop where
  undecided : c.Early → ∀ outcome, .resolved .start outcome ∉ c.log
  started : c.phase = .running ∨ c.phase = .stopping → .resolved .start .done ∈ c.log
  failed : ∀ outcome, .resolved .start outcome ∈ c.log → outcome = .done ∨
    (∃ failure, outcome = .failed failure) ∧ c.phase = .stopped ∧ c.queued = []
  farewell : ∀ e ∈ c.log, e.isFarewell = true → .resolved .start .done ∈ c.log

theorem betweenUndecided {es : List Event} (between : Between es) (outcome : Outcome) :
    .resolved .start outcome ∉ es := fun member => nomatch between _ member

theorem farewellMilestone {e : Event} (farewell : e.isFarewell = true) : e.isMilestone = true := by
  cases e <;> first | exact farewell | cases farewell

theorem betweenFarewell {es : List Event} (between : Between es) {e : Event} (member : e ∈ es) :
    e.isFarewell = false := by
  cases farewell : e.isFarewell with
  | false => rfl
  | true => exact (farewellMilestone farewell).symm.trans (between e member)

theorem farewellUndecided {e : Event} (farewell : e.isFarewell = true) (outcome : Outcome) :
    .resolved .start outcome ∉ [e] := by
  rintro member
  rw [← List.mem_singleton.mp member] at farewell
  cases farewell

theorem decidedSame {es : List Event} (decided : Decided c) (log : after.log = c.log ++ es)
    (undecided : ∀ outcome, .resolved .start outcome ∉ es) (early : after.Early → c.Early)
    (started : after.phase = .running ∨ after.phase = .stopping → c.phase = .running ∨ c.phase = .stopping)
    (stopped : c.phase = .stopped → c.queued = [] → after.phase = .stopped ∧ after.queued = [])
    (farewell : ∀ e ∈ es, e.isFarewell = true → .resolved .start .done ∈ c.log) : Decided after := by
  have own {outcome} (member : .resolved .start outcome ∈ after.log) : .resolved .start outcome ∈ c.log := by
    rw [log] at member
    exact (List.mem_append.mp member).resolve_right (undecided outcome)
  have grown {e} (member : e ∈ c.log) : e ∈ after.log := log ▸ List.mem_append_left es member
  refine ⟨fun first outcome member => decided.undecided (early first) outcome (own member),
    fun runs => grown (decided.started (started runs)), fun outcome member => ?_, fun e member asks => ?_⟩
  · refine (decided.failed outcome (own member)).imp_right fun ⟨failure, phase, queued⟩ => ?_
    exact ⟨failure, stopped phase queued⟩
  · rw [log] at member
    rcases List.mem_append.mp member with old | new
    · exact grown (decided.farewell e old asks)
    · exact grown (farewell e new asks)

theorem courseDecided (decided : Decided c) (course : Course c after) : Decided after := by
  cases course with
  | level log between level =>
    refine decidedSame decided log (betweenUndecided between) ?_ ?_ ?_ ?_
    · intro early
      rwa [Early, level.phase] at early
    · exact fun started => level.phase ▸ started
    · exact fun stopped none => ⟨level.phase.trans stopped, level.queued stopped none⟩
    · intro e member asks
      cases (betweenFarewell between member).symm.trans asks
  | begun log fresh held phase =>
    refine decidedSame decided log (by simp) (fun _ => .inl fresh) ?_ ?_ (by simp [Event.isFarewell])
    · simp [phase]
    · intro stopped
      cases fresh.symm.trans stopped
  | spawned log waiting link phase queued =>
    refine decidedSame decided log (by simp) ?_ ?_ ?_ (by simp [Event.isFarewell])
    · intro early
      rwa [Early, phase] at early
    · exact fun started => phase ▸ started
    · exact fun stopped none => ⟨phase.trans stopped, queued.trans none⟩
  | failed log between opening phase link queued =>
    have old {outcome} (member : .resolved .start outcome ∈ after.log) :
        .resolved .start outcome ∈ c.log ∨ ∃ failure, outcome = .failed failure := by
      rw [log, List.mem_append, List.mem_append, List.mem_singleton] at member
      rcases member with old | new | last
      · exact .inl old
      · exact absurd new (betweenUndecided between outcome)
      · cases last
        exact .inr ⟨_, rfl⟩
    refine ⟨fun early => ?_, fun started => ?_, fun outcome member => ?_, fun e member asks => ?_⟩
    · simp [Early, phase] at early
    · simp [phase] at started
    · rcases old member with member | failure
      · exact (decided.failed outcome member).imp_right fun failed => ⟨failed.1, phase, queued⟩
      · exact .inr ⟨failure, phase, queued⟩
    · rw [log, List.mem_append, List.mem_append, List.mem_singleton] at member
      rcases member with old | new | rfl
      · rw [log]
        exact List.mem_append_left _ (decided.farewell e old asks)
      · cases (betweenFarewell between new).symm.trans asks
      · cases asks
  | ready log between starting phase =>
    have done : .resolved .start .done ∈ after.log := by simp [log]
    refine ⟨fun early => ?_, fun _ => done, fun outcome member => .inl ?_, fun _ _ _ => done⟩
    · simp [Early, phase] at early
    · rw [log, List.mem_append, List.mem_append, List.mem_singleton] at member
      rcases member with old | new | last
      · exact absurd old (decided.undecided (.inr starting) outcome)
      · exact absurd new (betweenUndecided between outcome)
      · cases last
        rfl
  | leaving log running requested phase =>
    refine decidedSame decided log (by simp) ?_ ?_ ?_ (by simp [Event.isFarewell])
    · intro early
      simp [Early, phase] at early
    · exact fun _ => .inl running
    · intro stopped
      cases running.symm.trans stopped
  | farewell log asks registered stopping phase =>
    refine decidedSame decided log (farewellUndecided asks) ?_ ?_ ?_ ?_
    · intro early
      simp [Early, phase] at early
    · exact fun _ => .inr stopping
    · intro stopped
      cases stopping.symm.trans stopped
    · exact fun e member asks => decided.started (.inr stopping)
  | ceased log between phase link queued =>
    refine decidedSame decided log (betweenUndecided between) ?_ ?_ ?_ ?_
    · intro early
      simp [Early, phase] at early
    · simp [phase]
    · exact fun stopped none => ⟨phase, queued none⟩
    · intro e member asks
      cases (betweenFarewell between member).symm.trans asks

theorem reachedDecided (reached : Reached config nextId c) : Decided c := by
  induction reached with
  | new => constructor <;> simp [new]
  | turn before turn ih => exact courseDecided ih (reachedCourse before turn)

/-- Nobody holds the client any more: its stop waits for the start, then for a running client, is about to ask
the server to shut down and then has, unless the start failed. -/
structure Bound (c : Client) : Prop where
  free : c.held = false
  stage : (c.phase = .starting ∨ c.phase = .running) ∧ c.teardown = .requested ∨
    (∃ id, c.phase = .stopping ∧ c.teardown = .registered id) ∨
    (∃ e ∈ c.log, e.isFarewell = true) ∨ c.phase = .stopped ∧ .resolved .start .done ∉ c.log

theorem boundLater (log : ∃ es, after.log = c.log ++ es) (asked : ∃ e ∈ c.log, e.isFarewell = true) :
    ∃ e ∈ after.log, e.isFarewell = true := by
  obtain ⟨es, log⟩ := log
  obtain ⟨e, member, asks⟩ := asked
  exact ⟨e, log ▸ List.mem_append_left es member, asks⟩

theorem courseBound (coherent : Coherent c) (decided : Decided c) (bound : Bound c) (course : Course c after)
    (free : after.held = true → c.held = true) : Bound after := by
  have loose : after.held = false := by
    cases held : after.held with
    | false => rfl
    | true => exact absurd (free held) (by simp [bound.free])
  refine ⟨loose, ?_⟩
  rcases bound.stage with ⟨phase, requested⟩ | ⟨id, stopping, own⟩ | asked | ⟨stopped, failed⟩
  · cases course with
    | level log between level =>
      exact .inl ⟨by rwa [level.phase], level.waits phase requested⟩
    | begun log fresh => rcases phase with phase | phase <;> exact nomatch fresh.symm.trans phase
    | spawned log waiting link same queued held teardown =>
      exact .inl ⟨by rwa [same], teardown.trans requested⟩
    | failed log between opening past link queued =>
      have starting : c.phase = .starting := (openingPhase coherent opening).resolve_right fun stopped => by
        rcases phase with phase | phase <;> exact nomatch stopped.symm.trans phase
      -- the start was undecided until now, and what decides it here is the failure
      refine .inr (.inr (.inr ⟨past, fun member => ?_⟩))
      rw [log, List.mem_append, List.mem_append, List.mem_singleton] at member
      rcases member with old | new | last
      · exact decided.undecided (.inr starting) _ old
      · exact betweenUndecided between _ new
      · cases last
    | ready log between starting runs link held teardown =>
      exact .inl ⟨.inr runs, teardown.trans requested⟩
    | leaving log running _ stops link registered => exact .inr (.inl ⟨_, stops, registered⟩)
    | farewell log asks => exact .inr (.inr (.inl ⟨_, by simp [log], asks⟩))
    | ceased log between past link queued cause =>
      rcases cause with ⟨stopping, _⟩ | held
      · rcases phase with phase | phase <;> exact nomatch stopping.symm.trans phase
      · exact absurd held (by simp [bound.free])
  · cases course with
    | level log between level => exact .inr (.inl ⟨id, level.phase.trans stopping, level.registered id own⟩)
    | begun log fresh => exact nomatch stopping.symm.trans fresh
    | spawned log waiting link same queued held teardown =>
      exact .inr (.inl ⟨id, same.trans stopping, teardown.trans own⟩)
    | failed log between opening =>
      rcases openingPhase coherent opening with phase | phase <;> exact nomatch stopping.symm.trans phase
    | ready log between starting => exact nomatch stopping.symm.trans starting
    | leaving log running => exact nomatch stopping.symm.trans running
    | farewell log asks => exact .inr (.inr (.inl ⟨_, by simp [log], asks⟩))
    | ceased log between past link queued cause =>
      rcases cause with ⟨_, waiting⟩ | held
      · exact nomatch own.symm.trans waiting
      · exact absurd held (by simp [bound.free])
  · refine .inr (.inr (.inl (boundLater ?_ asked)))
    cases course with
    | level log | begun log | spawned log | failed log | ready log | leaving log | farewell log | ceased log =>
      exact ⟨_, log⟩
  · have more {es} (log : after.log = c.log ++ es) (new : .resolved .start .done ∉ es) :
        .resolved .start .done ∉ after.log := by
      rw [log, List.mem_append]
      exact fun member => member.elim failed new
    refine .inr (.inr (.inr ?_))
    cases course with
    | level log between level => exact ⟨level.phase.trans stopped, more log (betweenUndecided between _)⟩
    | begun log fresh => exact nomatch fresh.symm.trans stopped
    | spawned log waiting link phase => exact ⟨phase.trans stopped, more log (by simp)⟩
    | failed log between opening phase =>
      refine ⟨phase, more log fun member => ?_⟩
      rw [List.mem_append, List.mem_singleton] at member
      rcases member with new | last
      · exact betweenUndecided between _ new
      · cases last
    | ready log between starting => exact nomatch starting.symm.trans stopped
    | leaving log running => exact nomatch running.symm.trans stopped
    | farewell log asks registered stopping => exact nomatch stopping.symm.trans stopped
    | ceased log between phase => exact ⟨phase, more log (betweenUndecided between _)⟩

theorem ticketedHeld (ticketed : Ticketed c after) (held : after.held = true) : c.held = true := by
  cases ticketed with
  | beside log beside alike => exact alike.held held
  | starting _ _ _ _ _ _ kept | started _ _ _ _ _ kept | stopped _ _ _ _ kept => exact kept held
  | stopping log holding | stoppedAtOnce log holding => exact holding

theorem turnBound (reached : Reached config nextId c) (turn : Turn c after) (bound : Bound c) : Bound after :=
  courseBound (reachedCoherent reached) (reachedDecided reached) bound (reachedCourse reached turn)
    (ticketedHeld (reachedTicketed reached turn))

theorem turnAnnounces (idle : c.phase ≠ .running) (running : after.phase = .running) (turn : Turn c after) :
    (∃ id, c.link = .handshake id) ∧
      written after.log = written c.log ++ Request.initialized :: c.queued.map Request.didOpen := by
  have still (same : after.phase = c.phase) : False := idle (same.symm.trans running)
  cases turn with
  | host held free done =>
    cases done with
    | start | stopUnstarted | drop => cases running
    | _ => exact (still rfl).elim
  | @taken s rest m _ listening server hearing =>
    cases hearing with
    | request => exact (still (triedPhase _ _)).elim
    | @ready id result awaited =>
      refine ⟨⟨id, awaited⟩, ?_⟩
      rw [openedLog, writtenAppend, heardWritten rfl]
      rfl
    | _ => exact (still rfl).elim
  | exitTold => exact (still (triedPhase _ _)).elim
  | gaveUp | finished | shutdownOpened | shutdownShut => cases running
  | _ => exact (still rfl).elim

theorem deafenedIdle (reached : Reached config nextId c.quiet) (shut : c.Deafened) (idle : c.phase ≠ .running)
    (more : List Move) : (c.play more).phase ≠ .running := by
  induction more generalizing c with
  | nil => exact idle
  | cons move more ih =>
    have turn := reachedTurn reached move
    have later := turnDeafened (c := c.quiet) (reachedCoherent reached) shut turn
    refine ih (performReached reached move) later fun running => ?_
    have running : (c.perform move).quiet.phase = .running := running
    obtain ⟨⟨id, awaited⟩, _⟩ := turnAnnounces (c := c.quiet) idle running turn
    have awaited : c.link = .handshake id := awaited
    rcases shut with closed | ⟨failure, failing⟩
    · cases closed.symm.trans awaited
    · cases failing.symm.trans awaited

end Client
end LspClient
