import LspClient.Proofs.Client.Moves

/-! All states a client can come to, its shown and traced lines aside, and how its phase, its link, its
router and its stop belong together in each of them. -/
namespace LspClient.Client

inductive Reached (config : Config) (nextId : Int) : Client → Prop where
  | new : Reached config nextId (.new config nextId)
  | turn {c after} (before : Reached config nextId c) (turn : Turn c after) :
      Reached config nextId after

variable {config : Config} {nextId : Int} {c after : Client}

theorem triedCases (m : Message) (c : Client) :
    c.refusal = none ∧ c.tried m = c.told [m] ∨ c.refusal ≠ none ∧ c.tried m = c.note (.lost m) := by
  cases h : c.refusal with
  | none => exact .inl ⟨rfl, by simp only [tried, h]⟩
  | some failure => exact .inr ⟨by simp, by simp only [tried, h]⟩

theorem triedSame {β : Type} (f : Client → β) (m : Message) (c : Client) (wrote : f (c.told [m]) = f c)
    (lost : f (c.note (.lost m)) = f c) : f (c.tried m) = f c := by
  rcases triedCases m c with ⟨_, same⟩ | ⟨_, same⟩ <;> rw [same]
  · exact wrote
  · exact lost

theorem triedPhase (m : Message) (c : Client) : (c.tried m).phase = c.phase :=
  triedSame Client.phase m c rfl rfl

theorem triedLink (m : Message) (c : Client) : (c.tried m).link = c.link :=
  triedSame Client.link m c rfl rfl

theorem triedConfig (m : Message) (c : Client) : (c.tried m).config = c.config :=
  triedSame Client.config m c rfl rfl

theorem triedTeardown (m : Message) (c : Client) : (c.tried m).teardown = c.teardown :=
  triedSame Client.teardown m c rfl rfl

theorem triedRouter (m : Message) (c : Client) : (c.tried m).router = c.router :=
  triedSame Client.router m c rfl rfl

theorem triedFresh (m : Message) (fresh : c.Fresh) : (c.tried m).Fresh := by
  rcases triedCases m c with ⟨_, same⟩ | ⟨_, same⟩ <;> exact same ▸ fresh

theorem freshLater {ids : List (Int × Awaited)} {next taken : Int} (positive : 0 ≤ taken)
    (fresh : ∀ slot ∈ ids, slot.1 < next) : ∀ slot ∈ ids, slot.1 < next + taken := by
  intro slot member
  have older := fresh slot member
  omega

theorem freshSlot {ids : List (Int × Awaited)} {next : Int} (owner : Awaited)
    (fresh : ∀ slot ∈ ids, slot.1 < next) : ∀ slot ∈ ids ++ [(next, owner)], slot.1 < next + 1 := by
  intro slot member
  rcases List.mem_append.mp member with old | new
  · have older := fresh slot old
    omega
  · rw [List.mem_singleton.mp new]
    omega

theorem takenFresh {m} (fresh : c.Fresh) (taken : Taken c m after) : after.Fresh := by
  cases taken with
  | request => exact triedFresh _ fresh
  | pullForestalled => exact fun slot member => fresh slot (List.mem_filter.mp member).1
  | pullAnswered => exact fun slot member => fresh slot (List.mem_filter.mp member).1
  | shutdownAnswered => exact fun slot member => fresh slot (List.mem_filter.mp member).1
  | _ => exact fresh

theorem turnFresh (fresh : c.Fresh) (turn : Turn c after) : after.Fresh := by
  cases turn with
  | host held free done => cases done <;> exact fresh
  | @taken s rest m _ listening server hearing =>
    exact takenFresh (c := (c.readOn s rest).note (.heard m)) fresh hearing
  | pullOpened | shutdownOpened => exact freshSlot _ fresh
  | orphaned | introduced | introduceLost | pullShut | shutdownShut => exact freshLater (by decide) fresh
  | pullLost | shutdownLost => exact fun slot member => fresh slot (List.mem_filter.mp member).1
  | exitTold => exact triedFresh Request.exit fresh
  | elsewhere => exact freshLater (by omega) fresh
  | gaveUp | parted => exact fun slot member => nomatch member
  | _ => exact fresh

theorem reachedFresh (reached : Reached config nextId c) : c.Fresh := by
  induction reached with
  | new => exact fun slot member => nomatch member
  | turn before turn ih => exact turnFresh ih turn

theorem turnConfig (turn : Turn c after) : after.config = c.config := by
  cases turn with
  | host held free done => cases done <;> rfl
  | taken listening server hearing =>
    cases hearing with
    | request => exact triedConfig _ _
    | _ => rfl
  | exitTold => exact triedConfig _ _
  | _ => rfl

theorem reachedConfig (reached : Reached config nextId c) : c.config = config := by
  induction reached with
  | new => rfl
  | turn before turn ih => exact (turnConfig turn).trans ih

theorem quietFresh (reached : Reached config nextId c.quiet) : c.Fresh := reachedFresh (c := c.quiet) reached

theorem reachedTurn (reached : Reached config nextId c.quiet) (move : Move) :
    Turn c.quiet (c.perform move).quiet := performTurn (quietFresh reached) move

theorem performReached (reached : Reached config nextId c.quiet) (move : Move) :
    Reached config nextId (c.perform move).quiet := .turn reached (reachedTurn reached move)

theorem hostCases (c : Client) (call : Call) : (c.hostCall call).1 = c ∨
    (∃ after, Called c.quiet call (c.hostCall call).2 after ∧
      (c.hostCall call).1.quiet = after.note (.called call (c.hostCall call).2)) ∨
    ∃ name uri, call = .pull name uri ∧ c.asking = none ∧ c.phase = .running ∧
      (c.hostCall call).1 = c.pull name uri := by
  cases held : c.held with
  | false => exact .inl (hostUnheld held call)
  | true =>
  cases asking : c.asking with
  | some a => exact .inl (hostAsking asking call)
  | none =>
    by_cases prompt : call.pulls = false ∨ c.phase ≠ .running
    · exact .inr (.inl (hostCalled held asking prompt))
    · obtain ⟨pulls, running⟩ := not_or.mp prompt
      cases call with
      | pull name uri =>
        have phase := Decidable.not_not.mp running
        exact .inr (.inr ⟨name, uri, rfl, rfl, phase, hostPulls held asking phase name uri⟩)
      | _ => exact absurd rfl pulls

theorem playOn (reached : Reached config nextId c.quiet) (moves : List Move) :
    Reached config nextId (c.play moves).quiet := by
  induction moves generalizing c with
  | nil => exact reached
  | cons move moves ih => exact ih (performReached reached move)

theorem playReached (config : Config) (nextId : Int) (moves : List Move) :
    Reached config nextId ((new config nextId).play moves).quiet := playOn .new moves

theorem playAppend (c : Client) (moves more : List Move) :
    c.play (moves ++ more) = (c.play moves).play more := List.foldl_append

structure Coherent (c : Client) : Prop where
  created : c.phase = .created → c.link = .idle ∧ c.teardown = .none ∧ c.attached = false
  starting : c.phase = .starting → (c.teardown = .none ∨ c.teardown = .requested) ∧
    (((∃ refused, c.link = .launching refused) ∨ c.link = .launched) ∧ c.attached = false ∨
      (∃ id, c.link = .handshake id) ∧ c.attached = true ∨ ∃ failure, c.link = .failing failure)
  running : c.phase = .running → (c.teardown = .none ∨ c.teardown = .requested) ∧
    (c.link = .pumping ∨ c.link = .closed) ∧ c.attached = true
  stopping : c.phase = .stopping → (c.link = .pumping ∨ c.link = .closed) ∧
    (((∃ id, c.teardown = .registered id) ∨ ∃ id, c.teardown = .awaitingReply id) ∧ c.attached = true ∨
      c.teardown = .awaitingExit ∧ c.attached = false)
  stopped : c.phase = .stopped → c.attached = false ∧
    (c.teardown = .none ∨ c.teardown = .requested ∧ c.link = .closed)
  closed : c.router.closed = true ↔ c.link = .closed
  held : c.held = true → c.teardown = .none
  asking : c.asking ≠ none → c.phase = .running ∧ c.held = true

theorem newCoherent (config : Config) (nextId : Int) : Coherent (new config nextId) := by
  constructor <;> simp [new, Router.empty]

theorem quietCoherent (coherent : Coherent c.quiet) : Coherent c := by
  have ⟨created, starting, running, stopping, stopped, closed, held, asking⟩ := coherent
  exact ⟨created, starting, running, stopping, stopped, closed, held, asking⟩

section
variable (closed : c.router.closed = true ↔ c.link = .closed)
  (held : c.held = true → c.teardown = .none)
include closed held

theorem startingCoherent (free : c.asking = none) (phase : c.phase = .starting)
    (unstopped : c.teardown = .none ∨ c.teardown = .requested)
    (link : ((∃ refused, c.link = .launching refused) ∨ c.link = .launched) ∧ c.attached = false ∨
      (∃ id, c.link = .handshake id) ∧ c.attached = true ∨ ∃ failure, c.link = .failing failure) :
    Coherent c :=
  ⟨by simp [phase], fun _ => ⟨unstopped, link⟩, by simp [phase], by simp [phase], by simp [phase],
    closed, held, by simp [free]⟩

theorem runningCoherent (asking : c.asking ≠ none → c.held = true) (phase : c.phase = .running)
    (unstopped : c.teardown = .none ∨ c.teardown = .requested)
    (link : c.link = .pumping ∨ c.link = .closed) (attached : c.attached = true) : Coherent c :=
  ⟨by simp [phase], by simp [phase], fun _ => ⟨unstopped, link, attached⟩, by simp [phase],
    by simp [phase], closed, held, fun some => ⟨phase, asking some⟩⟩

theorem stoppingCoherent (free : c.asking = none) (phase : c.phase = .stopping)
    (link : c.link = .pumping ∨ c.link = .closed)
    (teardown : ((∃ id, c.teardown = .registered id) ∨ ∃ id, c.teardown = .awaitingReply id) ∧
      c.attached = true ∨ c.teardown = .awaitingExit ∧ c.attached = false) : Coherent c :=
  ⟨by simp [phase], by simp [phase], by simp [phase], fun _ => ⟨link, teardown⟩, by simp [phase],
    closed, held, by simp [free]⟩

theorem stoppedCoherent (free : c.asking = none) (phase : c.phase = .stopped) (attached : c.attached = false)
    (teardown : c.teardown = .none ∨ c.teardown = .requested ∧ c.link = .closed) : Coherent c :=
  ⟨by simp [phase], by simp [phase], by simp [phase], by simp [phase], fun _ => ⟨attached, teardown⟩,
    closed, held, by simp [free]⟩

end

theorem unaskedPhase (coherent : Coherent c) (phase : c.phase ≠ .running) : c.asking = none :=
  Decidable.not_not.mp fun asking => phase (coherent.asking asking).1

theorem unaskedLoose (coherent : Coherent c) (loose : c.held = false) : c.asking = none :=
  Decidable.not_not.mp fun asking => Bool.noConfusion (loose.symm.trans (coherent.asking asking).2)

theorem calledCoherent {call answer} (coherent : Coherent c) (held : c.held = true) (free : c.asking = none)
    (done : Called c call answer after) : Coherent after := by
  obtain ⟨created, starting, running, stopping, stopped, closed, unstopped, _⟩ := coherent
  have unasked : c.asking ≠ none → c.phase = .running ∧ c.held = true := fun asking => absurd free asking
  cases done with
  | start fresh =>
    obtain ⟨idle, unstopped, detached⟩ := created fresh
    refine startingCoherent (iff_of_false (fun shut => ?_) nofun) (fun _ => unstopped) free rfl
      (.inl unstopped) (.inl ⟨.inl ⟨_, rfl⟩, detached⟩)
    exact nomatch idle.symm.trans (closed.mp shut)
  | stopUnstarted fresh =>
    obtain ⟨idle, unstopped, detached⟩ := created fresh
    exact stoppedCoherent closed nofun free rfl detached (.inl unstopped)
  | stopOver past =>
    exact ⟨created, starting, running, stopping, stopped, closed, nofun, fun asking => absurd free asking⟩
  | stop active =>
    rcases active with phase | phase
    · exact startingCoherent closed nofun free phase (.inr rfl) (starting phase).2
    · exact runningCoherent closed nofun (fun asking => absurd free asking) phase (.inr rfl)
        (running phase).2.1 (running phase).2.2
  | drop => exact stoppedCoherent closed nofun free rfl rfl (.inl (unstopped held))
  | _ => exact ⟨created, starting, running, stopping, stopped, closed, unstopped, unasked⟩

def Opening (c : Client) : Prop :=
  (∃ refused, c.link = .launching refused) ∨ c.link = .launched ∨ (∃ id, c.link = .handshake id) ∨
    ∃ failure, c.link = .failing failure

theorem openingApart (opening : c.Opening) : c.link ≠ .idle ∧ c.link ≠ .pumping ∧ c.link ≠ .closed := by
  rcases opening with ⟨refused, own⟩ | own | ⟨id, own⟩ | ⟨failure, own⟩ <;> simp [own]

theorem openingPhase (coherent : Coherent c) (opening : c.Opening) :
    c.phase = .starting ∨ c.phase = .stopped := by
  obtain ⟨idle, pumping, closed⟩ := openingApart opening
  have shut (link : c.link = .pumping ∨ c.link = .closed) : False := link.elim pumping closed
  cases phase : c.phase with
  | starting => exact .inl rfl
  | stopped => exact .inr rfl
  | created => exact (idle (coherent.created phase).1).elim
  | running => exact (shut (coherent.running phase).2.1).elim
  | stopping => exact (shut (coherent.stopping phase).1).elim

theorem openingUnstopped (coherent : Coherent c) (opening : c.Opening) :
    c.teardown = .none ∨ c.teardown = .requested := by
  rcases openingPhase coherent opening with phase | phase
  · exact (coherent.starting phase).1
  · exact (coherent.stopped phase).2.imp_right And.left

theorem openingListens (coherent : Coherent c) (opening : c.Opening) : c.router.closed ≠ true :=
  fun shut => (openingApart opening).2.2 (coherent.closed.mp shut)

theorem openingUnasked (coherent : Coherent c) (opening : c.Opening) : c.asking = none := by
  refine unaskedPhase coherent fun running => ?_
  rcases openingPhase coherent opening with phase | phase <;> exact nomatch running.symm.trans phase

theorem failingCoherent {failure} (coherent : Coherent c) (opening : c.Opening)
    (attached : after.phase = .stopped → after.attached = false) (link : after.link = .failing failure)
    (phase : after.phase = c.phase) (teardown : after.teardown = c.teardown) (held : after.held = c.held)
    (router : after.router = c.router) (asking : after.asking = c.asking) : Coherent after := by
  have listens := openingListens coherent opening
  have closed : after.router.closed = true ↔ after.link = .closed :=
    iff_of_false (router ▸ listens) (by simp [link])
  have unheld : after.held = true → after.teardown = .none := fun keeps =>
    teardown.trans (coherent.held (held.symm.trans keeps))
  have free : after.asking = none := asking.trans (openingUnasked coherent opening)
  rcases openingPhase coherent opening with own | own
  · exact startingCoherent closed unheld free (phase.trans own) (teardown ▸ (coherent.starting own).1)
      (.inr (.inr ⟨failure, link⟩))
  · refine stoppedCoherent closed unheld free (phase.trans own) (attached (phase.trans own)) (.inl ?_)
    rcases (coherent.stopped own).2 with none | ⟨_, shut⟩
    · exact teardown.trans none
    · exact absurd shut (openingApart opening).2.2

theorem teardownStopping (coherent : Coherent c) (waiting : (∃ id, c.teardown = .registered id) ∨
    (∃ id, c.teardown = .awaitingReply id) ∨ c.teardown = .awaitingExit) : c.phase = .stopping := by
  have unstopped (teardown : c.teardown = .none ∨ c.teardown = .requested) : False := by
    rcases waiting with ⟨id, own⟩ | ⟨id, own⟩ | own <;> simp [own] at teardown
  cases phase : c.phase with
  | stopping => rfl
  | created => exact (unstopped (.inl (coherent.created phase).2.1)).elim
  | starting => exact (unstopped (coherent.starting phase).1).elim
  | running => exact (unstopped (coherent.running phase).1).elim
  | stopped => exact (unstopped ((coherent.stopped phase).2.imp_right And.left)).elim

theorem stoppingBusy (coherent : Coherent c) (stopping : c.phase = .stopping) : c.teardown ≠ .none := by
  rcases (coherent.stopping stopping).2 with ⟨⟨id, own⟩ | ⟨id, own⟩, _⟩ | ⟨own, _⟩ <;> simp [own]

theorem stoppingUnrequested (coherent : Coherent c) (stopping : c.phase = .stopping) :
    c.teardown ≠ .requested := by
  rcases (coherent.stopping stopping).2 with ⟨⟨id, own⟩ | ⟨id, own⟩, _⟩ | ⟨own, _⟩ <;> simp [own]

theorem triedCoherent (m : Message) (coherent : Coherent c) : Coherent (c.tried m) := by
  obtain ⟨created, starting, running, stopping, stopped, closed, free, asking⟩ := coherent
  rcases triedCases m c with ⟨_, same⟩ | ⟨_, same⟩ <;>
    exact same ▸ ⟨created, starting, running, stopping, stopped, closed, free, asking⟩

theorem forestallAsks (outcome : Outcome) (c : Client) :
    (c.forestall outcome).asking ≠ none ↔ c.asking ≠ none := by
  cases asking : c.asking <;> simp [forestall, asking]

theorem unheededAsks (c : Client) : c.unheeded ≠ none ↔ c.asking ≠ none := by
  unfold unheeded
  split
  · exact forestallAsks .abandoned c
  · rfl

theorem takenCoherent {m} (coherent : Coherent c) (taken : Taken c m after) : Coherent after := by
  have ⟨created, starting, running, stopping, stopped, closed, free, asking⟩ := coherent
  cases taken with
  | request => exact triedCoherent _ coherent
  | @pullForestalled id result error name uri =>
    have own := forestallAsks (pullOutcome (Router.outcome result error)
      (((keep uri (Router.outcome result error) c.store).get? uri).getD [])) c
    exact ⟨created, starting, running, stopping, stopped, closed, free, fun some => asking (own.mp some)⟩
  | rejected awaited | tooLate awaited | readyLost awaited =>
    have opening : c.Opening := .inr (.inr (.inl ⟨_, awaited⟩))
    exact failingCoherent coherent opening (fun phase => (stopped phase).1) rfl rfl rfl rfl rfl rfl
  | ready awaited starts =>
    have opening : c.Opening := .inr (.inr (.inl ⟨_, awaited⟩))
    have listens := openingListens coherent opening
    have unasked := openingUnasked coherent opening
    obtain ⟨unstopped, ⟨waiting, _⟩ | ⟨_, attached⟩ | ⟨failure, link⟩⟩ := starting starts
    · rcases waiting with ⟨refused, link⟩ | link <;> exact nomatch awaited.symm.trans link
    · exact runningCoherent (iff_of_false listens nofun) free (fun some => absurd unasked some) rfl
        unstopped (.inl rfl) attached
    · exact nomatch awaited.symm.trans link
  | _ => exact ⟨created, starting, running, stopping, stopped, closed, free, asking⟩

theorem partedCoherent (coherent : Coherent c) (pumping : c.link = .pumping) :
    Coherent {(c.note .ended).unrouted with link := .closed} := by
  obtain ⟨created, starting, running, stopping, stopped, closed, free, asking⟩ := coherent
  have shut : ({(c.note .ended).unrouted with link := .closed} : Client).router.closed = true ↔
      Link.closed = .closed := ⟨fun _ => rfl, fun _ => rfl⟩
  have own (some : (c.note .ended).unheeded ≠ none) : c.phase = .running ∧ c.held = true :=
    asking ((unheededAsks (c.note .ended)).mp some)
  cases phase : c.phase with
  | created => exact nomatch pumping.symm.trans (created phase).1
  | starting =>
    rcases (starting phase).2 with ⟨⟨refused, link⟩ | link, _⟩ | ⟨⟨id, link⟩, _⟩ | ⟨failure, link⟩ <;>
      exact nomatch pumping.symm.trans link
  | running =>
    exact runningCoherent shut free (fun some => (own some).2) phase (running phase).1 (.inr rfl)
      (running phase).2.2
  | stopping =>
    refine stoppingCoherent shut free (Decidable.not_not.mp fun some => ?_) phase (.inr rfl) (stopping phase).2
    exact nomatch phase.symm.trans (own some).1
  | stopped =>
    refine stoppedCoherent shut free (Decidable.not_not.mp fun some => ?_) phase (stopped phase).1 ?_
    · exact nomatch phase.symm.trans (own some).1
    · exact (stopped phase).2.imp_right fun requested => ⟨requested.1, rfl⟩

theorem failedCoherent {failure} (unasked : c.asking = none)
    (unstopped : c.teardown = .none ∨ c.teardown = .requested)
    (held : c.held = true → c.teardown = .none) : Coherent (c.startFailed failure) := by
  have free : (c.startFailed failure).asking = none :=
    Decidable.not_not.mp fun some => absurd unasked ((unheededAsks c).mp some)
  refine stoppedCoherent ⟨fun _ => rfl, fun _ => rfl⟩ held free rfl rfl ?_
  exact unstopped.imp_right fun requested => ⟨requested, rfl⟩

theorem turnCoherent (coherent : Coherent c) (turn : Turn c after) : Coherent after := by
  have ⟨created, starting, running, stopping, stopped, closed, free, asking⟩ := coherent
  have busy (waiting : c.teardown ≠ .none) (held : c.held = true) : False := waiting (free held)
  cases turn with
  | host held idle done =>
    have ⟨created, starting, running, stopping, stopped, closed, free, asking⟩ :=
      calledCoherent coherent held idle done
    exact ⟨created, starting, running, stopping, stopped, closed, free, asking⟩
  | pullOpened held _ runs | pullShut held _ runs =>
    exact ⟨created, starting, running, stopping, stopped, closed, free, fun _ => ⟨runs, held⟩⟩
  | pullSent | pullLost =>
    exact ⟨created, starting, running, stopping, stopped, closed, free, fun some => absurd rfl some⟩
  | spawnRefused waiting =>
    exact failingCoherent coherent (.inl ⟨_, waiting⟩) (fun phase => (stopped phase).1) rfl rfl rfl rfl rfl rfl
  | spawned waiting =>
    have opening : c.Opening := .inl ⟨_, waiting⟩
    have listens := iff_of_false (openingListens coherent opening) (nofun : Link.launched ≠ .closed)
    have unasked := openingUnasked coherent opening
    rcases openingPhase coherent opening with phase | phase
    · obtain ⟨unstopped, ⟨_, detached⟩ | ⟨⟨id, link⟩, _⟩ | ⟨failure, link⟩⟩ := starting phase
      · exact startingCoherent listens free unasked phase unstopped (.inl ⟨.inr rfl, detached⟩)
      · exact nomatch waiting.symm.trans link
      · exact nomatch waiting.symm.trans link
    · obtain ⟨detached, unstopped | ⟨_, link⟩⟩ := stopped phase
      · exact stoppedCoherent listens free unasked phase detached (.inl unstopped)
      · exact nomatch waiting.symm.trans link
  -- a dropped client has stopped, yet its link may still be opening
  | orphaned waiting =>
    exact failingCoherent coherent (.inr (.inl waiting)) (fun _ => rfl) rfl rfl rfl rfl rfl rfl
  | introduceLost waiting starts =>
    refine failingCoherent coherent (.inr (.inl waiting)) (fun phase => ?_) rfl rfl rfl rfl rfl rfl
    exact nomatch starts.symm.trans phase
  | introduced waiting starts clear =>
    have listens := openingListens coherent (.inr (.inl waiting))
    have unasked := openingUnasked coherent (.inr (.inl waiting))
    exact startingCoherent (iff_of_false listens nofun) free unasked starts (starting starts).1
      (.inr (.inl ⟨⟨_, rfl⟩, rfl⟩))
  | gaveUp failing =>
    have opening : c.Opening := .inr (.inr (.inr ⟨_, failing⟩))
    exact failedCoherent (openingUnasked coherent opening) (openingUnstopped coherent opening) free
  | taken listening server hearing =>
    refine takenCoherent ?_ hearing
    exact ⟨created, starting, running, stopping, stopped, closed, free, asking⟩
  | lost awaiting =>
    have opening : c.Opening := .inr (.inr (.inl ⟨_, awaiting⟩))
    exact failingCoherent coherent opening (fun phase => (stopped phase).1) rfl rfl rfl rfl rfl rfl
  | parted pumping => exact partedCoherent coherent pumping
  | stopVoid requested settled idle =>
    have unasked := unaskedPhase coherent idle
    cases phase : c.phase with
    | created => exact nomatch requested.symm.trans (created phase).2.1
    | starting => exact absurd phase settled
    | running => exact absurd phase idle
    | stopping => exact absurd requested (stoppingUnrequested coherent phase)
    | stopped => exact stoppedCoherent closed (fun _ => rfl) unasked rfl (stopped phase).1 (.inl rfl)
  | shutdownOpened requested runs | shutdownShut requested runs =>
    obtain ⟨_, link, attached⟩ := running runs
    have unasked := unaskedLoose coherent (Bool.eq_false_iff.mpr (busy (by simp [requested])))
    exact stoppingCoherent closed (fun held => (busy (by simp [requested]) held).elim) unasked rfl link
      (.inl ⟨.inl ⟨_, rfl⟩, attached⟩)
  | shutdownSent registered | shutdownLost registered =>
    have phase := teardownStopping coherent (.inl ⟨_, registered⟩)
    have unasked := unaskedPhase coherent (by simp [phase])
    obtain ⟨link, ⟨_, attached⟩ | ⟨own, _⟩⟩ := stopping phase
    · exact stoppingCoherent closed (fun held => (busy (by simp [registered]) held).elim) unasked phase
        link (.inl ⟨.inr ⟨_, rfl⟩, attached⟩)
    · exact nomatch registered.symm.trans own
  | exitTold waiting =>
    have phase := teardownStopping coherent (.inr (.inl ⟨_, waiting⟩))
    have unasked := unaskedPhase coherent (by simp [phase])
    rcases triedCases Request.exit c with ⟨_, same⟩ | ⟨_, same⟩ <;> rw [same] <;>
      exact stoppingCoherent closed (fun held => (busy (by simp [waiting]) held).elim) unasked phase
        (stopping phase).1 (.inr ⟨rfl, rfl⟩)
  | exitUntold waiting answered detached =>
    have phase := teardownStopping coherent (.inr (.inl ⟨_, waiting⟩))
    have unasked := unaskedPhase coherent (by simp [phase])
    exact stoppingCoherent closed (fun held => (busy (by simp [waiting]) held).elim) unasked phase
      (stopping phase).1 (.inr ⟨rfl, detached⟩)
  | finished waiting exited =>
    have phase := teardownStopping coherent (.inr (.inr waiting))
    have unasked := unaskedPhase coherent (by simp [phase])
    obtain ⟨_, ⟨⟨id, own⟩ | ⟨id, own⟩, _⟩ | ⟨_, detached⟩⟩ := stopping phase
    · exact nomatch waiting.symm.trans own
    · exact nomatch waiting.symm.trans own
    · exact stoppedCoherent closed (fun _ => rfl) unasked rfl detached (.inl rfl)
  | _ => exact ⟨created, starting, running, stopping, stopped, closed, free, asking⟩

theorem reachedCoherent (reached : Reached config nextId c) : Coherent c := by
  induction reached with
  | new => exact newCoherent config nextId
  | turn before turn ih => exact turnCoherent ih turn

def sampleConfig : Config where
  id := "lustreLsp"
  name := "Lustre Language Server"
  channel := "Lustre Language Server"
  launch := .single ⟨"lustrels", []⟩
  debugging := false
  selector := [.lustreFiles]
  workspace := none
  trace := .off

def sampleDocument : TextDocument := ⟨"file:///a.lus", "lustre", 1, "x"⟩

end LspClient.Client
