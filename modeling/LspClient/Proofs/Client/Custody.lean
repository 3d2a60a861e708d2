import LspClient.Proofs.Client.Lifecycle
import LspClient.Proofs.Client.Process

/-! In whose hands a server is. As long as it lives the client is attached to it or is about to be, or waits for
its exit. It comes to its end by itself or because the client kills it, and no move of a stop does that. -/
namespace LspClient.Client

variable {config : Config} {nextId : Int} {c after : Client}

theorem toldExited (ms : List Message) (c : Client) : (c.told ms).exited = c.exited := by
  cases server : c.server <;> simp [exited, told, server, Server.fed]

theorem triedExited (m : Message) (c : Client) : (c.tried m).exited = c.exited :=
  triedSame exited m c (toldExited [m] c) rfl

theorem bereftExited (c : Client) : c.bereft.exited = (c.attached || c.exited) := by
  cases attached : c.attached <;> cases server : c.server <;>
    simp [bereft, widow, exited, attached, server, Server.gone]

theorem failedExited (failure : Failure) (c : Client) :
    (c.startFailed failure).exited = (c.attached || c.exited) := bereftExited c.unrouted

theorem readOnExited {s : Server} (rest : Utf8.Octets) (server : c.server = some s) :
    (c.readOn s rest).exited = c.exited := by
  simp [readOn, exited, server]

def InHand (c : Client) : Prop :=
  c.exited = true ∨ c.attached = true ∨ c.link = .launched ∨ c.teardown = .awaitingExit

theorem inHandSame (own : InHand c) (exited : after.exited = c.exited) (attached : after.attached = c.attached)
    (link : c.link = .launched → after.link = .launched)
    (teardown : c.teardown = .awaitingExit → after.teardown = .awaitingExit) : InHand after := by
  rcases own with past | held | launched | waiting
  · exact .inl (exited.trans past)
  · exact .inr (.inl (attached.trans held))
  · exact .inr (.inr (.inl (link launched)))
  · exact .inr (.inr (.inr (teardown waiting)))

theorem calledInHand {call answer} (reached : Reached config nextId c) (held : c.held = true)
    (own : InHand c) (done : Called c call answer after) : InHand after := by
  have free : c.teardown = .none := (reachedCoherent reached).held held
  have busy (waiting : c.teardown = .awaitingExit) : False := nomatch free.symm.trans waiting
  cases done with
  | start fresh =>
    have idle : c.link = .idle := ((reachedCoherent reached).created fresh).1
    have bare : c.server = none := (reachedHoused reached).bare (.inl idle)
    exact .inl (by simp [exited, bare])
  | stop => exact inHandSame own rfl rfl id fun waiting => (busy waiting).elim
  | drop =>
    have exits : c.bereft.exited = (c.attached || c.exited) := bereftExited c
    rcases own with past | attached | launched | waiting
    · exact .inl (exits.trans (by simp [past]))
    · exact .inl (exits.trans (by simp [attached]))
    · exact .inr (.inr (.inl launched))
    · exact (busy waiting).elim
  | openSent | changeSent | closeSent =>
    exact inHandSame own (toldExited _ c) rfl id id
  | _ => exact own

theorem openingHolds (coherent : Coherent c) (own : InHand c) (opening : c.Opening)
    (met : c.link ≠ .launched) : (c.attached || c.exited) = true := by
  rcases own with past | attached | launched | waiting
  · simp [past]
  · simp [attached]
  · exact absurd launched met
  · rcases openingUnstopped coherent opening with none | requested
    · cases none.symm.trans waiting
    · cases requested.symm.trans waiting

theorem holdsInHand (holds : (c.attached || c.exited) = true) : InHand c := by
  rcases Bool.or_eq_true_iff.mp holds with attached | past
  · exact .inr (.inl attached)
  · exact .inl past

theorem awaitedInHand {id : Int} (coherent : Coherent c) (own : InHand c) (awaited : c.link = .handshake id)
    (attached : after.attached = c.attached) (exited : after.exited = c.exited) : InHand after := by
  refine holdsInHand ?_
  rw [attached, exited]
  exact openingHolds coherent own (.inr (.inr (.inl ⟨id, awaited⟩))) (by simp [awaited])

theorem takenInHand {m : Message} (coherent : Coherent c) (own : InHand c) (taken : Taken c m after) :
    InHand after := by
  cases taken with
  | request =>
    exact inHandSame own (triedExited _ c) (triedAttached _ c) (triedLink _ c).trans (triedTeardown _ c).trans
  | rejected awaited | tooLate awaited => exact awaitedInHand coherent own awaited rfl rfl
  | @readyLost id result failure first m rest awaited =>
    exact awaitedInHand coherent own awaited rfl (toldExited first c)
  | ready awaited => exact awaitedInHand coherent own awaited rfl (toldExited _ c)
  | _ => exact own

theorem turnInHand (reached : Reached config nextId c) (own : InHand c) (turn : Turn c after) :
    InHand after := by
  have coherent := reachedCoherent reached
  cases turn with
  | host held free done =>
    have kept := calledInHand reached held own done
    exact kept
  | pullSent => exact inHandSame own (toldExited _ c) rfl id id
  | spawnRefused waiting =>
    have bare : c.server = none := (reachedHoused reached).bare (.inr ⟨_, waiting⟩)
    exact .inl (by simp [exited, bare])
  | spawned => exact .inr (.inr (.inl rfl))
  | orphaned =>
    have gone : ({c with attached := true, nextId := c.nextId + 1} : Client).bereft.exited = true :=
      bereftExited _
    exact .inl gone
  | introduced | introduceLost => exact .inr (.inl rfl)
  | @gaveUp failure failing =>
    have holds := openingHolds coherent own (.inr (.inr (.inr ⟨failure, failing⟩))) (by simp [failing])
    exact .inl ((failedExited failure c).trans holds)
  | @skipped s rest listening server => exact inHandSame own (readOnExited rest server) rfl id id
  | @taken s rest m after listening server hearing =>
    have own : InHand ((c.readOn s rest).note (.heard m)) :=
      inHandSame own (readOnExited rest server) rfl id id
    refine takenInHand ?_ own hearing
    obtain ⟨created, starting, running, stopping, stopped, closed, held, asking⟩ := coherent
    exact ⟨created, starting, running, stopping, stopped, closed, held, asking⟩
  | lost awaiting => exact awaitedInHand coherent own awaiting rfl rfl
  | parted pumping =>
    refine inHandSame own rfl rfl (fun link => ?_) id
    cases pumping.symm.trans link
  | stopVoid requested =>
    refine inHandSame own rfl rfl id fun waiting => ?_
    cases requested.symm.trans waiting
  | shutdownOpened requested running | shutdownShut requested running =>
    exact .inr (.inl (coherent.running running).2.2)
  | shutdownSent registered =>
    exact inHandSame own (toldExited _ c) rfl id fun waiting => by cases registered.symm.trans waiting
  | shutdownLost registered =>
    exact inHandSame own rfl rfl id fun waiting => by cases registered.symm.trans waiting
  | exitTold | exitUntold => exact .inr (.inr (.inr rfl))
  | finished waiting past => exact .inl past
  | served server alive =>
    -- only a living process acts
    rcases own with past | other
    · simp [exited, server, alive] at past
    · exact .inr other
  | idle | pullOpened | pullShut | pullLost | elsewhere => exact own

theorem reachedInHand (reached : Reached config nextId c) : InHand c := by
  induction reached with
  | new => exact .inl rfl
  | turn before turn ih => exact turnInHand before ih turn

def Spares (c after : Client) : Prop :=
  after.exited = true → c.exited = true ∨ ∃ es, after.log = c.log ++ es ∧ .killed ∈ es

theorem sparesSame (exited : after.exited = c.exited) : Spares c after :=
  fun past => .inl (exited.symm.trans past)

theorem giveUpSpares (c : Client) : Spares c.quiet c.giveUp.quiet := by
  cases link : c.link with
  | failing failure =>
    simp only [giveUp, link]
    rw [quietFailStart]
    intro past
    rw [failedExited] at past
    cases attached : c.quiet.attached with
    | false => exact .inl (by simpa [attached] using past)
    | true =>
      have killed : c.quiet.deathNote = [.killed] := by simp [deathNote, attached]
      refine .inr ⟨c.quiet.failureNotes failure, failureLog failure c.quiet, ?_⟩
      simp [failureNotes, killed]
  | _ =>
    simp only [giveUp, link]
    exact .inl

theorem calledSpares {call answer} (done : Called c call answer after) :
    Spares c (after.note (.called call answer)) := by
  cases done with
  | drop =>
    intro past
    have past : c.bereft.exited = true := past
    rw [bereftExited] at past
    cases attached : c.attached with
    | false => exact .inl (by simpa [attached] using past)
    | true => exact .inr ⟨[.killed, .called .drop .nothing], by simp [note, bereft, deathNote, attached], by simp⟩
  | openSent | changeSent | closeSent => exact sparesSame (toldExited _ c)
  | _ => exact .inl

theorem takenSpares {m : Message} (taken : Taken c m after) : Spares c after := by
  cases taken with
  | request => exact sparesSame (triedExited _ c)
  | readyLost | ready => exact sparesSame (toldExited _ c)
  | _ => exact .inl

theorem spawnSpares (c : Client) : Spares c.quiet c.spawn.quiet := by
  have spawns := spawnSpawns c
  generalize c.spawn.quiet = after at spawns
  cases spawns with
  | idle | refused => exact .inl
  | spawned => exact nofun

theorem sendExited (m : Message) (c : Client) : (c.send m).1.exited = c.exited :=
  (congrArg exited (quietSend m c)).trans (triedExited m c.quiet)

theorem introduceSpares (c : Client) : Spares c.quiet c.introduce.quiet := by
  have introduces := introduceIntroduces c
  generalize c.introduce.quiet = after at introduces
  cases introduces with
  | idle | lost => exact .inl
  | sent => exact sparesSame (toldExited _ _)
  | orphaned => exact fun _ => .inr ⟨[.killed], rfl, List.mem_singleton_self _⟩

theorem askSpares (c : Client) : Spares c.quiet c.ask.quiet := by
  cases asking : c.asking with
  | none =>
    rw [askStill asking]
    exact .inl
  | some a =>
    cases refused : c.refusal with
    | none =>
      rw [askSent asking refused]
      exact sparesSame (toldExited _ _)
    | some failure =>
      rw [askLost asking refused]
      exact .inl

theorem takeSpares (took : c.take? = some after) : Spares c.quiet after.quiet := by
  obtain ⟨listening, s, server, ⟨text, rest, _, same⟩ | ⟨_, _, same⟩⟩ := takeCases took
  · have updated := readOnQuiet server rest
    have exits : (c.quiet.readOn s rest).exited = c.quiet.exited := readOnExited rest server
    rw [same]
    cases parsed : Message.parse? text with
    | none =>
      simp only [receive, parsed]
      rw [updated]
      exact sparesSame exits
    | some m =>
      have hearing := hearTaken m (c.updateServer fun s => {s with unread := rest})
      simp only [receive, parsed]
      rw [updated] at hearing
      intro past
      refine (takenSpares hearing past).imp exits.symm.trans ?_
      rintro ⟨es, log, killed⟩
      exact ⟨.heard m :: es, by simp [log, note, readOn], List.mem_cons_of_mem _ killed⟩
  · rw [same]
    cases link : c.link with
    | handshake id =>
      rw [loseHandshake link]
      exact .inl
    | pumping =>
      rw [losePumping link]
      exact .inl
    | _ => simp [Client.listening, link] at listening

theorem askToShutDownExited (c : Client) : c.askToShutDown.exited = c.exited := by
  cases teardown : c.teardown with
  | registered id =>
    have sent := sendExited (Request.shutdown id) c
    exact askToShutDownKeeps (P := fun d => d.exited = c.exited) teardown sent fun _ _ _ same => same
  | _ => simp only [askToShutDown, teardown]

def Move.isStop : Move → Bool
  | .host .stop | .beginTeardown | .askToShutDown | .sendExit | .finishTeardown => true
  | _ => false

theorem stopCallExited (c : Client) : (c.hostCall .stop).1.exited = c.exited := by
  have stopped : c.stop.exited = c.exited := by cases phase : c.phase <;> simp only [stop, phase] <;> rfl
  have noted : ({c.stop with log := c.stop.log ++ [.called .stop .nothing]} : Client).exited = c.exited := stopped
  cases callable : c.held && c.asking.isNone <;> cases returned : c.stop.asking.isNone <;>
    simp [hostCall, called, note, callable, returned, stopped, noted]

theorem stopExited {move : Move} (stops : move.isStop = true) (c : Client) :
    (c.perform move).exited = c.exited := by
  cases move with
  | host call =>
    cases call with
    | stop => exact stopCallExited c
    | _ => cases stops
  | beginTeardown =>
    simp only [perform, beginTeardown]
    split
    · rfl
    · split <;> rfl
  | askToShutDown => exact askToShutDownExited c
  | sendExit =>
    simp only [perform, sendExit]
    split
    · split
      · rfl
      · split
        · exact sendExited Request.exit c
        · rfl
    · rfl
  | finishTeardown =>
    simp only [perform, finishTeardown]
    split <;> rfl
  | _ => cases stops

theorem actSpares {act : ServerAct} (other : act ≠ .exits) (c : Client) :
    Spares c.quiet (c.serverAct act).quiet := by
  unfold serverAct
  split
  · exact .inl
  · rename_i living
    cases server : c.server with
    | none => simp [exited, server] at living
    | some s =>
      have alive : s.alive = true := by simpa [exited, server] using living
      have kept (f : Server → Server) (lives : (f s).alive = true) :
          (c.updateServer f).quiet.exited = false := by
        simp [updateServer, exited, quiet, server, lives]
      have spared {after : Client} (lives : after.exited = false) : Spares c.quiet after :=
        fun past => absurd (lives.symm.trans past) Bool.false_ne_true
      cases act with
      | exits => exact absurd rfl other
      | writes octets =>
        have lives := kept (fun s => if s.writes then {s with unread := s.unread ++ octets} else s)
          (by split <;> exact alive)
        exact spared lives
      | murmurs octets =>
        have lives := kept (fun own => {own with murmur := (murmured (s.murmur ++ octets)).2}) alive
        simp only [serverMurmurs, server]
        rw [quietDisplays]
        exact spared lives
      | endsOutput =>
        have lives := kept (fun s => {s with writes := false}) alive
        exact spared lives
      | endsInput after =>
        have lives := kept (fun s => {s with room := some (min after (s.room.getD after))}) alive
        exact spared lives

theorem hostSpares (call : Call) (c : Client) : Spares c.quiet (c.hostCall call).1.quiet := by
  rcases hostCases c call with void | ⟨after, done, same⟩ | ⟨name, uri, rfl, free, running, same⟩
  · rw [void]
    exact .inl
  · rw [same]
    exact calledSpares done
  · rw [same, pull, if_pos running]
    exact .inl

theorem performSpares {move : Move} (other : move ≠ .server .exits) (c : Client) :
    Spares c.quiet (c.perform move).quiet := by
  cases move with
  | host call => exact hostSpares call c
  | ask => exact askSpares c
  | spawn => exact spawnSpares c
  | introduce => exact introduceSpares c
  | take =>
    cases took : c.take? with
    | none => exact sparesSame (by rw [perform, took]; rfl)
    | some after =>
      have spares := takeSpares took
      rwa [perform, took]
  | giveUp => exact giveUpSpares c
  | beginTeardown => exact sparesSame (stopExited (rfl : Move.beginTeardown.isStop = true) c)
  | askToShutDown => exact sparesSame (stopExited (rfl : Move.askToShutDown.isStop = true) c)
  | sendExit => exact sparesSame (stopExited (rfl : Move.sendExit.isStop = true) c)
  | finishTeardown => exact sparesSame (stopExited (rfl : Move.finishTeardown.isStop = true) c)
  | server act => exact actSpares (fun same => other (congrArg Move.server same)) c
  | elsewhere => exact .inl

end LspClient.Client
