import LspClient.Proofs.Client.Tickets
import LspClient.Proofs.Client.Rest

/-! Nobody waits for a dead server. Once a client rests and its server's output has ended, no start and no pull
is owed, and no stop once the process has exited. -/
namespace LspClient.Client

variable {config : Config} {nextId : Int} {c after : Client}

def Ended (c : Client) : Prop :=
  .ended ∈ c.deeds ∨ ∀ s, c.server = some s →
    s.writes = false ∨ ∃ fault, Frame.read s.writes s.unread = .fault fault

def Served (c : Client) : Prop := c.link = .launched ∨ c.listening = true → c.server ≠ none

theorem toldServer (ms : List Message) (present : c.server ≠ none) : (c.told ms).server ≠ none := by
  simpa [told] using present

theorem triedServer (m : Message) (present : c.server ≠ none) : (c.tried m).server ≠ none := by
  rcases triedCases m c with ⟨_, same⟩ | ⟨_, same⟩ <;> rw [same]
  · exact toldServer _ present
  · exact present

theorem bereftServer (present : c.server ≠ none) : c.bereft.server ≠ none := by
  unfold bereft widow
  split
  · simpa using present
  · exact present

theorem servedSame (served : Served c) (link : after.link = c.link)
    (server : c.server ≠ none → after.server ≠ none) : Served after := by
  intro waits
  rw [listening, link] at waits
  exact server (served waits)

theorem servedClosed (closed : after.link = .closed) : Served after := by
  simp [Served, listening, closed]

theorem servedFailing {failure} (failing : after.link = .failing failure) : Served after := by
  simp [Served, listening, failing]

theorem calledServed {call answer} (served : Served c) (done : Called c call answer after) :
    Served after := by
  cases done with
  | start => simp [Served, listening]
  | drop => exact servedSame served rfl bereftServer
  | openSent | changeSent | closeSent => exact servedSame served rfl (toldServer _)
  | _ => exact servedSame served rfl id

theorem takenServed {m} (present : c.server ≠ none) (taken : Taken c m after) : Served after := by
  cases taken with
  | request => exact fun _ => triedServer _ present
  | ready => exact fun _ => toldServer _ present
  | rejected | tooLate | readyLost => exact servedFailing rfl
  | _ => exact fun _ => present

theorem turnServed (served : Served c) (turn : Turn c after) : Served after := by
  cases turn with
  | host held free done => exact servedSame (calledServed served done) rfl id
  | spawned => exact fun _ => nofun
  | introduced waiting => exact fun _ => toldServer _ (served (.inl waiting))
  | skipped | served => exact fun _ => nofun
  | taken listening server hearing => exact takenServed (by simp [note, readOn]) hearing
  | spawnRefused | orphaned | introduceLost | lost => exact servedFailing rfl
  | gaveUp | parted => exact servedClosed rfl
  | pullSent | shutdownSent => exact servedSame served rfl (toldServer _)
  | exitTold => exact servedSame served (triedLink _ _) (triedServer _)
  | _ => exact servedSame served rfl id

theorem reachedServed (reached : Reached config nextId c) : Served c := by
  induction reached with
  | new => simp [Served, new, listening]
  | turn before turn ih => exact turnServed ih turn

def Shut (c : Client) : Prop := c.router.closed = true → c.router.pending = []

theorem shutReleased {id : Int} (shut : Shut c) (router : after.router = (c.router.release id).1) :
    Shut after := by
  intro closed
  rw [router] at closed ⊢
  have empty := shut closed
  simp [Router.release, empty]

theorem takenShut {m} (shut : Shut c) (taken : Taken c m after) : Shut after := by
  cases taken with
  | request =>
    rw [Shut, triedRouter]
    exact shut
  | pullForestalled => exact shutReleased shut rfl
  | pullAnswered => exact shutReleased shut rfl
  | shutdownAnswered => exact shutReleased shut rfl
  | _ => exact shut

theorem turnShut (shut : Shut c) (turn : Turn c after) : Shut after := by
  cases turn with
  | host held free done => cases done <;> exact shut
  | @taken s rest m _ listening server hearing =>
    exact takenShut (c := (c.readOn s rest).note (.heard m)) shut hearing
  | gaveUp | parted => exact fun _ => rfl
  | pullOpened held free running listening | shutdownOpened requested running listening =>
    intro closed
    exact absurd (listening.symm.trans closed) nofun
  | pullLost | shutdownLost => exact shutReleased shut rfl
  | exitTold =>
    rw [Shut]
    simp only [triedRouter]
    exact shut
  | _ => exact shut

theorem reachedShut (reached : Reached config nextId c) : Shut c := by
  induction reached with
  | new => exact nofun
  | turn before turn ih => exact turnShut ih turn

theorem endedDeaf (reached : Reached config nextId c.quiet) (still : Still c) (ended : Ended c) :
    c.listening = false := by
  refine Bool.eq_false_iff.mpr fun listening => ?_
  have starved := takeNone.mp still.taken listening
  rcases ended with heard | ended
  · rcases (reachedClosing reached).ended heard with closed | ⟨failure, failing⟩
    · have link : c.link = .closed := closed
      simp [Client.listening, link] at listening
    · exact still.cleaned failure failing
  · cases server : c.server with
    | none => exact reachedServed reached (.inr listening) server
    | some s =>
      have starved := starved s.writes s.unread (by simp [output, server])
      rcases ended s server with silent | ⟨fault, broken⟩
      · rw [silent] at starved
        exact Frame.readEnded s.unread starved
      · cases starved.symm.trans broken

theorem endedLink (reached : Reached config nextId c.quiet) (still : Still c) (ended : Ended c) :
    c.link = .idle ∨ c.link = .closed := by
  have deaf := endedDeaf reached still ended
  have met := still.met
  have cleaned := still.cleaned
  unfold Fallow at met
  cases link : c.link <;> simp_all [listening]

theorem endedPending (reached : Reached config nextId c.quiet) (still : Still c) (ended : Ended c) :
    c.router.pending = [] := by
  rcases endedLink reached still ended with idle | closed
  · exact reachedWaitless (c := c.quiet) reached (.inl idle)
  · exact reachedShut (c := c.quiet) reached ((reachedCoherent reached).closed.mpr closed)

theorem exitedTeardown (reached : Reached config nextId c.quiet) (still : Still c) (ended : Ended c)
    (exited : c.exited = true) : c.teardown = .none := by
  have link := endedLink reached still ended
  cases teardown : c.teardown with
  | none => rfl
  | requested =>
    have starting : c.quiet.phase = .starting := still.begun teardown
    obtain ⟨_, (⟨launching | launched, _⟩ | ⟨⟨id, handshake⟩, _⟩ | ⟨failure, failing⟩)⟩ :=
      (reachedCoherent reached).starting starting
    · exact absurd (.inl launching) still.met
    · exact absurd (.inr launched) still.met
    · have handshake : c.link = .handshake id := handshake
      simp [handshake] at link
    · exact absurd failing (still.cleaned failure)
  | registered id => exact absurd teardown (still.told id)
  | awaitingReply id =>
    have known := still.answered id teardown
    simp [Router.owner?, endedPending reached still ended] at known
  | awaitingExit => exact absurd (still.finished teardown) (by simp [exited])

theorem endedPull (reached : Reached config nextId c.quiet) (still : Still c) (ended : Ended c)
    (name uri : String) : ∃ es outcome last,
      (c.pull name uri).ask.deeds = c.deeds ++ (es ++ .resolved (.pull name) outcome :: last) ∧
        (outcome = .abandoned ∨ ∃ failure, outcome = .failed failure) := by
  by_cases running : c.phase = .running
  · have closed : c.link = .closed := (endedLink reached still ended).resolve_left fun idle => by
      rcases ((reachedCoherent reached).running running).2.1 with link | link <;> exact nomatch idle.symm.trans link
    have shut : c.router.closed = true := (reachedCoherent reached).closed.mpr closed
    let asked := c.pull name uri
    obtain ⟨asking, log⟩ : asked.asking = some ⟨c.nextId, name, uri, some .abandoned⟩ ∧
        asked.deeds = c.deeds ++ [.awaits c.nextId (.pull name uri)] := by
      simp only [asked, pull, if_pos running, Router.registerClosed shut]
      exact ⟨rfl, by simp [deeds, note, Event.isDeed]⟩
    cases pipe : asked.refusal with
    | none =>
      have returned : asked.ask.deeds = asked.deeds ++ _ := congrArg Client.log (askSent asking pipe)
      exact ⟨[_, _], .abandoned, [_], by rw [returned, log, List.append_assoc]; rfl, .inl rfl⟩
    | some failure =>
      have returned : asked.ask.deeds = asked.deeds ++ _ := congrArg Client.log (askLost asking pipe)
      exact ⟨[_, _], .failed failure, [_], by rw [returned, log, List.append_assoc]; rfl, .inr ⟨_, rfl⟩⟩
  · have free : (c.pull name uri).asking = none := by
      rw [pull, if_neg running]
      exact still.free
    have refused : (c.pull name uri).ask.deeds = c.deeds ++
        [.resolved (.pull name) (.failed (.invalidState c.phase))] := by
      simp only [ask, free]
      simp [pull, running, resolve, deeds, note, Event.isDeed]
    exact ⟨[], _, [], refused, .inr ⟨_, rfl⟩⟩

structure Attended (c : Client) : Prop where
  rests : c.comeToRest.Resting ∧ Goes c c.comeToRest
  once : ∀ t, c.deeds.countP (settles t) ≤ c.deeds.countP (issues t)
  single : c.deeds.countP (issues .start) ≤ 1 ∧ c.deeds.countP (issues .stop) ≤ 1
  start : c.Resting → c.Ended → c.deeds.countP (settles .start) = c.deeds.countP (issues .start)
  pulls : c.Resting → c.Ended → ∀ name,
    c.deeds.countP (settles (.pull name)) = c.deeds.countP (issues (.pull name))
  later : c.Resting → c.Ended → ∀ name uri, ∃ es outcome last,
    (c.pull name uri).ask.deeds = c.deeds ++ (es ++ .resolved (.pull name) outcome :: last) ∧
      (outcome = .abandoned ∨ ∃ failure, outcome = .failed failure)
  stop : c.Resting → c.Ended → c.exited = true →
    c.deeds.countP (settles .stop) = c.deeds.countP (issues .stop)
  done : ∀ outcome, .resolved .stop outcome ∈ c.deeds → outcome = .done

theorem owedNothing (reached : Reached config nextId c.quiet) {t : Ticket} (free : c.owes t = 0) :
    c.deeds.countP (settles t) = c.deeds.countP (issues t) := by
  have balanced := reachedBalanced reached t
  have free : c.quiet.owes t = 0 := by cases t <;> exact free
  rw [Balanced, free] at balanced
  exact balanced.symm

theorem attended (config : Config) (nextId : Int) (moves : List Move) :
    Attended ((new config nextId).play moves) := by
  have reached := playReached config nextId moves
  generalize (new config nextId).play moves = c at reached
  have single := reachedSingle reached
  exact {
    rests := ⟨comeToRestResting c, comeToRestGoes c⟩
    once := fun t => by
      have balanced : c.deeds.countP (issues t) = c.deeds.countP (settles t) + c.quiet.owes t :=
        reachedBalanced reached t
      omega
    single := ⟨single.start, single.stop⟩
    start := fun resting ended => by
      refine owedNothing reached ?_
      rcases endedLink reached (restingStill.mp resting) ended with link | link <;> rw [owes, link] <;> rfl
    pulls := fun resting ended name => by
      refine owedNothing reached ?_
      rw [owes, waiting, endedPending reached (restingStill.mp resting) ended]
      rfl
    later := fun resting ended => endedPull reached (restingStill.mp resting) ended
    stop := fun resting ended exited => by
      refine owedNothing reached ?_
      rw [owes, exitedTeardown reached (restingStill.mp resting) ended exited]
      rfl
    done := single.done }

end LspClient.Client
