import LspClient.Proofs.Peer.Visits

/-! The last act of a host. A client that is stopped has the stand-in shut down, tells it to exit once that is answered,
and ends when it has left. -/
namespace LspClient

namespace Client
variable {c after : Client}

theorem hostStops (running : c.phase = .running) (held : c.held = true) (free : c.asking = none) :
    (c.hostCall .stop).1 =
      ({c with held := false, teardown := .requested} : Client).note (.called .stop .nothing) := by
  simp [hostCall, held, free, called, stop, running]

theorem stopRests (fresh : c.Fresh) (running : c.phase = .running) (pumping : c.link = .pumping)
    (held : c.held = true) (free : c.asking = none) (clear : c.refusal = none) (listening : c.router.closed = false)
    (starved : c.take? = none) :
    let told := (c.hostCall .stop).1.beginTeardown.askToShutDown
    (c.hostCall .stop).1.comeToRest = told ∧ told.teardown = .awaitingReply c.nextId ∧ told.deeds =
      c.deeds ++ [.called .stop .nothing, .awaits c.nextId .shutdown, .wrote (Request.shutdown c.nextId)] := by
  rw [hostStops running held free]
  obtain ⟨stopped, same⟩ : ∃ stopped, stopped =
      ({c with held := false, teardown := .requested} : Client).note (.called .stop .nothing) := ⟨_, rfl⟩
  rw [← same]
  have open' : stopped.listening = true := by
    rw [same, Client.listening]
    simp [note, pumping]
  have starved : stopped.take? = none := takeNone.mpr (by subst same; exact (takeNone (c := c)).mp starved)
  have begins : stopped.beginTeardown = ({stopped with
      phase := .stopping, nextId := c.nextId + 1, router := (c.router.register c.nextId .shutdown).1
      teardown := .registered c.nextId} : Client).note (.awaits c.nextId .shutdown) := by
    simp [beginTeardown, same, note, running]
  obtain ⟨asked, sent, quiet⟩ := sendClear (c := stopped.beginTeardown) (by rw [begins, same]; exact clear)
    (Request.shutdown c.nextId)
  have registered : stopped.beginTeardown.teardown = .registered c.nextId := by rw [begins]; rfl
  have tells : stopped.beginTeardown.askToShutDown = {asked with teardown := .awaitingReply c.nextId} := by
    rw [askToShutDownStep registered, sent]
  have unfinished : stopped.beginTeardown.askToShutDown.finishTeardown = stopped.beginTeardown.askToShutDown :=
    finishStill fun waits => by cases (congrArg Client.teardown tells).symm.trans waits
  have owner : (asked.router.owner? c.nextId).isSome = true := by
    have own : asked.router = (c.router.register c.nextId .shutdown).1 :=
      (congrArg Client.router quiet).trans (by rw [begins]; rfl)
    rw [own, Router.registerOpen listening (unknownNext fresh), Router.ownerAppend, if_pos rfl, Option.isSome_or]
    exact Bool.or_true _
  have answered : stopped.beginTeardown.askToShutDown.sendExit = stopped.beginTeardown.askToShutDown :=
    sendExitStill fun id waits => by
      rw [tells] at waits ⊢
      cases waits
      exact owner
  refine ⟨?_, by rw [tells], ?_⟩
  · rw [comeToRestListening open' (same ▸ free), drainStarved starved, settle,
      giveUpStill (listeningCleaned open'), answered, unfinished]
  · have log : asked.deeds = stopped.beginTeardown.deeds ++ [.wrote (Request.shutdown c.nextId)] :=
      congrArg Client.log quiet
    have told := congrArg Client.deeds tells
    refine told.trans (log.trans ?_)
    rw [begins, same]
    simp only [deeds, note, List.append_assoc, List.filter_append]
    rfl

end Client

namespace Dialogue
open Client (hearings written Left)
open StandIn (echo hearing attend)

variable {config : Config} {nextId : Int} {d : Dialogue} {attended waiting coming : List Message}

theorem stopAsks (calm : Calm config nextId d attended) :
    let asked := (d.perform (.client (.host .stop))).rest
    Joined asked attended [Request.shutdown d.client.nextId] [] ∧
      asked.client.teardown = .awaitingReply d.client.nextId ∧ asked.client.deeds = d.client.deeds ++
        [.called .stop .nothing, .awaits d.client.nextId .shutdown, .wrote (Request.shutdown d.client.nextId)] := by
  have reached := calm.live.reached
  have runs := calm.live.runs
  have held := calm.live.held
  have free := calm.live.free
  have clear := heardClear reached (calmHeard calm)
  have listening : d.client.quiet.router.closed = false :=
    Bool.eq_false_iff.mpr (mt (Client.reachedCoherent reached).closed.mp calm.joined.link)
  obtain ⟨rests, awaits, log⟩ := Client.stopRests (Client.quietFresh reached) runs.phase runs.link held free clear
    listening (takeNothing calm.joined)
  have stopped := Client.hostStops runs.phase held free
  have going : ¬ (d.client.hostCall .stop).1.Over := Client.runningGoing (by rw [stopped]; exact runs.phase)
  have gentle : (Client.Move.host .stop).isGentle = true := rfl
  obtain ⟨_, joined⟩ := hushedStep reached calm.joined gentle rfl going
  have reached' := performReached reached (.client (.host .stop))
  have reached'' := performReached reached' (.client .beginTeardown)
  have pumping : (d.client.hostCall .stop).1.link = .pumping := by rw [stopped]; exact runs.link
  have link := Client.keptLink (Client.beginTeardownKept (d.client.hostCall .stop).1)
    (by rw [pumping]; nofun)
  have link' := Client.keptLink (Client.askToShutDownKept (d.client.hostCall .stop).1.beginTeardown)
    (by rw [link, pumping]; nofun)
  have hushed : Client.Move.beginTeardown.isIntake = false := rfl
  have hushed' : Client.Move.askToShutDown.isIntake = false := rfl
  obtain ⟨_, joined'⟩ := hushedKeeps reached' joined hushed
    (fun closed => joined.link (link.symm.trans closed)) (Client.beginTeardownLodged joined.lodged)
  obtain ⟨_, joined''⟩ := hushedKeeps reached'' joined' hushed'
    (fun closed => joined'.link (link'.symm.trans closed)) (Client.askToShutDownLodged joined'.lodged)
  have rest : (d.perform (.client (.host .stop))).rest =
      {d with client := (d.client.hostCall .stop).1.beginTeardown.askToShutDown} :=
    congrArg (fun c => ({d with client := c} : Dialogue)) rests
  rw [rest]
  exact ⟨joinedMore calm.joined joined'' log, awaits, log⟩

theorem shutdownSaid (attended : List Message) (id : Int) :
    saying attended [Request.shutdown id] [] = [StandIn.farewell id] := by
  rw [saying, StandIn.attendFarewell _ id (List.forall_mem_nil _)]
  rfl

theorem shutdownStays (voiced : ∀ m ∈ attended, Client.Voiced config m) (id : Int) :
    (hearing (attended ++ [Request.shutdown id])).exitCode = none := by
  have civil : ∀ m ∈ attended ++ [Request.shutdown id], StandIn.Civil config m :=
    List.forall_mem_append.mpr ⟨fun m member => .voiced (voiced m member), List.forall_mem_singleton.mpr .shutdown⟩
  exact (StandIn.attendCivil StandIn.freshServes civil).stays

structure Answered (config : Config) (nextId : Int) (d : Dialogue) (attended : List Message) (id : Int) : Prop where
  reached : Client.Reached config nextId d.client.quiet
  joined : Joined d attended [] [StandIn.farewell id]
  awaits : d.client.teardown = .awaitingReply id
  passed : d.unpassed = []
  answer : Message.Sendable (StandIn.farewell id) ∧ (StandIn.farewell id).normal = StandIn.farewell id

theorem farewellPasses {id : Int} (reached : Client.Reached config nextId d.client.quiet)
    (joined : Joined d attended [Request.shutdown id] []) (awaits : d.client.teardown = .awaitingReply id)
    (voiced : ∀ m ∈ attended, Client.Voiced config m) (brief : Brief attended [Request.shutdown id]) :
    let heard := d.hearAll d.client.sent.length
    Answered config nextId (heard.pass heard.unpassed.length) (attended ++ [Request.shutdown id]) id := by
  have ranged := brief.ranged _ List.mem_cons_self
  have sendable : Message.Sendable (Request.shutdown id) :=
    ⟨ranged, Message.shutdownPlain ranged, brief.small _ List.mem_cons_self⟩
  have carried : StandIn.Carried (StandIn.farewell id) := StandIn.farewellCarried ranged
  have small := brief.said _ (shutdownSaid attended id ▸ List.mem_cons_self)
  have stays := (StandIn.hearingServes voiced).stays
  have present := stoppingPresent reached joined (awaitingStops reached joined awaits).1
  have living := servedLiving joined present
  have heard := hearStep joined living sendable stays
  have client := hearClient d
  rw [StandIn.handleShutdown, List.nil_append] at heard
  have reached₁ : Client.Reached config nextId d.hear.client.quiet := performReached reached .hear
  rw [hearAllOnce joined present sendable stays]
  generalize d.hear = h at heard client reached₁ ⊢
  obtain ⟨joined₂, passed₂⟩ := passAll heard (client ▸ present) (Nat.le_refl h.unpassed.length)
  have continues := passContinues h h.unpassed.length
  exact ⟨performReached reached₁ (.pass h.unpassed.length), joined₂,
    continues.teardown.trans ((congrArg Client.teardown client).trans awaits), passed₂,
    ⟨carried.ranged, carried.plain, small⟩, carried.same⟩

structure Leaving (config : Config) (nextId : Int) (d : Dialogue) (attended : List Message) : Prop where
  reached : Client.Reached config nextId d.client.quiet
  joined : Joined d attended [Request.exit] []
  awaits : d.client.teardown = .awaitingExit
  leaves : Leaves config d.client.deeds

theorem farewellTaken {id : Int} (reached : Client.Reached config nextId d.client.quiet)
    (joined : Joined d attended [] []) (awaits : d.client.teardown = .awaitingReply id) :
    Leaving config nextId {d with client := d.client.settle} attended := by
  have whole : hearings d.client.deeds = echo (written d.client.deeds) := by
    rw [joined.written, List.append_nil, joined.heard, List.append_nil]
  have answered := farewellHeard reached joined.heeds whole awaits
  obtain ⟨waits, leaves, joined'⟩ := sendExitLeaves reached joined awaits answered
  have reached' : Client.Reached config nextId d.client.sendExit.quiet := performReached reached (.client .sendExit)
  have present := stoppingPresent reached' joined' (leavingStops reached' waits)
  have begun : d.client.beginTeardown = d.client :=
    Client.beginStill fun requested => by cases awaits.symm.trans requested
  have unfinished : d.client.sendExit.finishTeardown = d.client.sendExit :=
    Client.finishStill fun _ => servedLiving joined' present
  have told : d.client.askToShutDown = d.client :=
    Client.askToShutDownStill fun id registered => by cases awaits.symm.trans registered
  have cleaned : d.client.giveUp = d.client := Client.giveUpStill fun failure link => by
    cases (stoppingPumps reached joined (awaitingStops reached joined awaits).1).symm.trans link
  have settles : d.client.settle = d.client.sendExit := by rw [Client.settle, cleaned, begun, told, unfinished]
  rw [settles]
  exact ⟨reached', joined', waits, leaves⟩

theorem answeredRests {id : Int} (answered : Answered config nextId d attended id) :
    Leaving config nextId d.rest attended := by
  obtain ⟨reached, joined, awaits, passed, answer⟩ := answered
  obtain ⟨stopping, clear⟩ := awaitingStops reached joined awaits
  have pumping := stoppingPumps reached joined stopping
  have listening : d.client.listening = true := by rw [Client.listening, pumping]
  obtain ⟨t, took⟩ := Option.ne_none_iff_exists'.mp (takeReady joined (stoppingPresent reached joined stopping)
    listening passed answer.1)
  obtain ⟨joined', continues⟩ := takeAnswers reached joined (List.forall_mem_singleton.mpr answer)
    (Client.refusalClear.mp clear).1 (fun _ _ _ _ awaited => by cases pumping.symm.trans awaited) took
  have reached' := performReached reached (.client .take)
  rw [performTaken took] at reached'
  have free : d.client.asking = none := Decidable.byContradiction fun asking => by
    cases stopping.symm.trans ((Client.reachedCoherent reached).asking asking).1
  have rests : d.rest = {d with client := t.settle} :=
    congrArg (fun c => ({d with client := c} : Dialogue))
      (Client.comeToRestOnce listening free took (takeNothing joined'))
  rw [rests]
  exact farewellTaken reached' joined' (continues.teardown.trans awaits)

theorem roundFarewell {id : Int} (reached : Client.Reached config nextId d.client.quiet)
    (joined : Joined d attended [Request.shutdown id] []) (awaits : d.client.teardown = .awaitingReply id)
    (voiced : ∀ m ∈ attended, Client.Voiced config m) (brief : Brief attended [Request.shutdown id]) :
    Leaving config nextId d.round (attended ++ [Request.shutdown id]) ∧ d.round.client.Resting := by
  have leaving := answeredRests (farewellPasses reached joined awaits voiced brief)
  have stays := shutdownStays voiced id
  rw [round]
  generalize d.hearAll d.client.sent.length = h at leaving ⊢
  have resting : (h.pass h.unpassed.length).rest.client.Resting := Client.comeToRestResting _
  rw [leaveStays leaving.joined stays, restAgain]
  exact ⟨leaving, resting⟩

theorem goesGrows {after : Dialogue} (reached : Client.Reached config nextId d.client.quiet) (goes : Goes d after) :
    ∃ es, after.client.deeds = d.client.deeds ++ es := by
  obtain ⟨moves, _, rfl⟩ := goes
  exact playGrows reached moves

theorem partedGoes (parted : Parted config d) {after : Dialogue} (goes : Goes d after) :
    Parted config after ∧ after.spoken = d.spoken := by
  obtain ⟨moves, own, rfl⟩ := goes
  clear own
  induction moves using List.reverseRecOn with
  | nil => exact ⟨parted, rfl⟩
  | append_singleton moves move ih =>
    obtain ⟨kept, same⟩ := ih
    rw [playAppend]
    obtain ⟨next, again, _⟩ := partedMoves kept move
    exact ⟨next, again.trans same⟩

theorem partedResting (parted : Parted config d) (resting : d.client.Resting) : Resting d := by
  intro move own
  cases move with
  | client move => exact performStill own (resting move own)
  | hear => simp [perform, hear, parted.exited]
  | pass count => exact passEmpty parted.unpassed count
  | murmur => cases own
  | leave => simp [perform, leave, Client.perform, Client.serverAct, parted.exited]

theorem leaveSpoken (d : Dialogue) : d.leave.spoken = d.spoken := by
  rw [leave]
  split
  · obtain ⟨server, same⟩ := Client.serverOnly .exits d.client
    have log : (d.client.serverAct .exits).deeds = d.client.deeds := congrArg Client.log same
    exact congrArg (fun log => (written log, d.said)) log
  · rfl

theorem roundExit (leaving : Leaving config nextId d attended) (resting : d.client.Resting)
    (stays : (hearing attended).exitCode = none) : Parted config d.round ∧ d.round.client.Resting ∧
      d.round.spoken = (attended ++ [Request.exit], (echo attended).map Message.toJson) := by
  obtain ⟨reached, joined, awaits, leaves⟩ := leaving
  have present := stoppingPresent reached joined (leavingStops reached awaits)
  have living := servedLiving joined present
  have heard := hearStep joined living Message.exitSendable stays
  have client := hearClient d
  rw [StandIn.handleExit, List.nil_append] at heard
  have reached' : Client.Reached config nextId d.hear.client.quiet := performReached reached .hear
  rw [round, hearAllOnce joined present Message.exitSendable stays]
  generalize d.hear = h at heard client reached' ⊢
  rw [← client] at awaits leaves resting
  have passed : h.pass h.unpassed.length = h := passEmpty (List.append_eq_nil_iff.mp heard.pipe).2 _
  have parted := leavingParted reached' heard awaits leaves rfl (farewellExits heard leaves.1)
  obtain ⟨kept, again⟩ := partedGoes parted (restGoes h.leave)
  rw [passed, restStill resting]
  refine ⟨kept, Client.comeToRestResting _, again.trans ((leaveSpoken h).trans ?_)⟩
  rw [spoken, heard.written, heard.said, StandIn.echoExit, List.append_nil]

theorem stepStops (calm : Calm config nextId d attended)
    (brief : Brief attended [Request.shutdown d.client.nextId]) :
    Concluded (d.step (.host .stop)) ∧ (d.step (.host .stop)).spoken =
      (attended ++ [Request.shutdown d.client.nextId] ++ [Request.exit],
        (echo (attended ++ [Request.shutdown d.client.nextId])).map Message.toJson) := by
  obtain ⟨joined, awaits, log⟩ := stopAsks calm
  have voiced : ∀ m ∈ attended, Client.Voiced config m := fun m member => (calm.fair m member).1
  have reached := goesReached (performReached calm.live.reached (.client (.host .stop))) (restGoes _)
  rw [stepSettles]
  generalize (d.perform (.client (.host .stop))).rest = asked at joined awaits log reached ⊢
  obtain ⟨leaving, resting⟩ := roundFarewell reached joined awaits voiced brief
  obtain ⟨parted, resting', wire⟩ := roundExit leaving resting (shutdownStays voiced _)
  have goes := goesThen (roundGoes asked) (roundGoes asked.round)
  obtain ⟨es, grown⟩ := goesGrows reached goes
  rw [settleOnce joined, settleOnce leaving.joined, restingSettles (partedResting parted resting')]
  obtain ⟨_, idle, past⟩ := partedStopped parted resting'
  refine ⟨partedConcluded (goesReached reached goes) parted idle past ?_, wire⟩
  rw [grown, log]
  simp

theorem stopBrief (calm : Calm config nextId d attended) (fit : Fit (d.step (.host .stop))) :
    Brief attended [Request.shutdown d.client.nextId] := by
  obtain ⟨joined, awaits, _⟩ := stopAsks calm
  have voiced : ∀ m ∈ attended, Client.Voiced config m := fun m member => (calm.fair m member).1
  have reached := goesReached (performReached calm.live.reached (.client (.host .stop))) (restGoes _)
  rw [stepSettles] at fit
  generalize (d.perform (.client (.host .stop))).rest = asked at joined awaits reached fit
  generalize d.client.nextId = id at joined awaits ⊢
  have now : Fit asked := goesFit reached (settleGoes _ asked) fit
  have member : Request.shutdown id ∈ asked.client.sent := by
    rw [sentWritten, joined.written]
    exact List.mem_append_right _ List.mem_cons_self
  have ranged := now.ranged _ member
  have small := now.small _ member
  have sendable : Message.Sendable (Request.shutdown id) := ⟨ranged, Message.shutdownPlain ranged, small⟩
  have stays := (StandIn.hearingServes voiced).stays
  have present := stoppingPresent reached joined (awaitingStops reached joined awaits).1
  have heard := hearStep joined (servedLiving joined present) sendable stays
  have first := heardGoes asked
  rw [hearAllOnce joined present sendable stays] at first
  rw [settleOnce joined] at fit
  have told : Fit asked.hear := goesFit (performReached reached .hear) (goesThen first (settleGoes 7 asked.round)) fit
  refine ⟨List.forall_mem_singleton.mpr ranged, List.forall_mem_singleton.mpr small, ?_⟩
  rw [shutdownSaid]
  refine List.forall_mem_singleton.mpr (told.said _ ?_)
  rw [heard.said, StandIn.echoFarewell _ _ (List.forall_mem_nil _)]
  simp

theorem stopsFit (calm : Calm config nextId d attended) (brief : Brief attended [Request.shutdown d.client.nextId]) :
    Fit (d.step (.host .stop)) := by
  obtain ⟨_, wire⟩ := stepStops calm brief
  obtain ⟨sent, said⟩ := Prod.mk.inj wire
  rw [← sentWritten] at sent
  have each : ∀ m ∈ attended ++ [Request.shutdown d.client.nextId] ++ [Request.exit],
      m.Ranged ∧ (Utf8.ofString m.body).length ≤ Frame.limit := by
    simp only [List.forall_mem_append, List.forall_mem_singleton]
    exact ⟨⟨fun m member => (calm.fair m member).2, brief.ranged _ List.mem_cons_self, brief.small _ List.mem_cons_self⟩,
      Message.exitSendable.ranged, Message.exitSendable.small⟩
  refine ⟨fun m member => (each m (sent ▸ member)).1, fun m member => (each m (sent ▸ member)).2, ?_⟩
  rw [said, StandIn.echoAppend]
  exact List.forall_mem_map.mpr (List.forall_mem_append.mpr ⟨calm.said, brief.said⟩)

end Dialogue
end LspClient
