import LspClient.Proofs.Client.Handshake
import LspClient.Proofs.Peer.Mirror
import LspClient.Proofs.Peer.Stages
import LspClient.Proofs.Session

/-! How all runs of a client and the stand-in end. From wherever a run has brought them, both sides come to rest of
themselves. Then every accepted start and stop has ended well, and so has every pull that came before the stop. -/
namespace LspClient

namespace Client
open StandIn (echo)

variable {config : Config} {nextId : Int} {c : Client} {log : List Event} {id : Int} {name uri : String}

theorem firstAnswer (heard : ¬ Unheard id log) : ∃ between result error last,
    log = between ++ .heard (.response id result error) :: last ∧ Unheard id between := by
  induction log with
  | nil => exact absurd nofun heard
  | cons e log ih =>
    by_cases own : ∃ result error, e = .heard (.response id result error)
    · obtain ⟨result, error, rfl⟩ := own
      exact ⟨[], result, error, log, rfl, nofun⟩
    · have silent : Unheard id [e] := fun result error member =>
        own ⟨result, error, (List.mem_singleton.mp member).symm⟩
      have later : ¬ Unheard id log := fun none => heard (unheardAppend.mpr ⟨silent, none⟩)
      obtain ⟨between, result, error, last, rfl, unheard⟩ := ih later
      exact ⟨e :: between, result, error, last, rfl, unheardAppend.mpr ⟨silent, unheard⟩⟩

theorem startsDone (reached : Reached config nextId c.quiet) (done : .resolved .start .done ∈ c.deeds) :
    starts c.deeds = [.done] := by
  have balanced : c.deeds.countP (issues .start) = c.deeds.countP (settles .start) + c.quiet.owes .start :=
    reachedBalanced reached .start
  have single : c.deeds.countP (issues .start) ≤ 1 := (reachedSingle reached).start
  have once : (starts c.deeds).length ≤ 1 := by
    rw [startsCount]
    omega
  have member : Outcome.done ∈ starts c.deeds := List.mem_filterMap.mpr ⟨_, done, rfl⟩
  obtain ⟨outcome, sole⟩ := List.length_eq_one_iff.mp (Nat.le_antisymm once (List.length_pos_of_mem member))
  rw [sole] at member ⊢
  rw [List.mem_singleton.mp member]

theorem stopDone (reached : Reached config nextId c.quiet) (idle : c.teardown = .none)
    (stop : .called .stop .nothing ∈ c.deeds) : .resolved .stop .done ∈ c.deeds := by
  have balanced : c.deeds.countP (issues .stop) = c.deeds.countP (settles .stop) + c.teardown.owed :=
    reachedBalanced reached .stop
  have issued : 0 < c.deeds.countP (issues .stop) := List.countP_pos_iff.mpr ⟨_, stop, rfl⟩
  rw [balanced, idle, Teardown.owed, Nat.add_zero] at issued
  obtain ⟨e, member, settles⟩ := List.countP_pos_iff.mp issued
  cases e with
  | resolved ticket outcome =>
    obtain rfl : Ticket.stop = ticket := by simpa [Client.settles] using settles
    obtain rfl := (reachedSingle reached).done outcome member
    exact member
  | _ => cases settles

end Client

namespace Dialogue
open Client (hearings written Left)
open StandIn (echo hearing)

variable {config : Config} {nextId : Int} {d after : Dialogue} {attended waiting coming : List Message} {n : Nat}

theorem performUnheld (free : d.client.held = false) (call : Client.Call) : d.perform (.client (.host call)) = d :=
  congrArg (fun c => ({d with client := c} : Dialogue)) (Client.hostUnheld free call)

theorem voidLeads (reached : Client.Reached config nextId d.client.quiet) (joined : Joined d [] [] [])
    (stopped : d.client.phase = .stopped) (idle : d.client.link = .idle) (free : d.client.held = false)
    (unstarted : d.client.deeds.countP (Client.issues .start) = 0) (move : Move) :
    Leads config d 0 move.own (d.perform move) := by
  have teardown : d.client.teardown = .none :=
    ((Client.reachedCoherent reached).stopped stopped).2.resolve_right fun other => by cases idle.symm.trans other.2
  have unasked : d.client.asking = none := Decidable.byContradiction fun asking => by
    cases stopped.symm.trans ((Client.reachedCoherent reached).asking asking).1
  have resting : d.client.Resting := Client.restingStill.mpr {
    free := unasked
    told := fun id registered => by cases teardown.symm.trans registered
    cleaned := fun failure link => by cases idle.symm.trans link
    met := by rintro (⟨refused, link⟩ | link) <;> cases idle.symm.trans link
    taken := Client.takeNone.mpr fun listening => by simp [Client.listening, idle] at listening
    begun := fun waits => by cases teardown.symm.trans waits
    answered := fun id waits => by cases teardown.symm.trans waits
    finished := fun waits => by cases teardown.symm.trans waits }
  have bare : d.client.server = none := (Client.reachedHoused reached).bare (.inl idle)
  have gone : d.client.exited = true := by rw [Client.exited, bare]
  have passed : d.unpassed = [] := (unpassedSaid joined).trans List.drop_nil
  have stage : Stage config d 0 := .void joined stopped idle free unstarted
  cases move with
  | client move =>
    cases move with
    | host call => exact leadsSame stage (performUnheld free call)
    | server act => exact leadsSame stage rfl
    | elsewhere taken =>
      let later : Client := d.client.perform (.elsewhere taken)
      have log : later.deeds = d.client.deeds ++ [] := (List.append_nil _).symm
      have step := joinedStep joined log joined.link joined.lodged joined.heard
        (unpassedSaid joined ▸ joined.pipe) joined.passed
      exact leadsAny (.void step stopped idle free unstarted)
    | ask | spawn | introduce | take | giveUp | beginTeardown | askToShutDown | sendExit | finishTeardown =>
      exact leadsSame stage (performStill rfl (resting _ rfl))
  | hear => exact leadsSame stage (hearNothing joined)
  | pass count => exact leadsSame stage (passEmpty passed count)
  | murmur octets => exact leadsSame stage (by simp [perform, Client.perform, Client.serverAct, gone])
  | leave =>
    have stays : d.peer.exited = false := by rw [joined.peer]; rfl
    exact leadsSame stage (by simp [perform, leave, stays])

def spoken (d : Dialogue) : List Message × List Json := (written d.client.deeds, d.said)

theorem partedLater {c : Client} {es : List Event} (parted : Parted config d) (log : c.deeds = d.client.deeds ++ es)
    (mute : Client.Mute es) (deaf : hearings es = []) (server : c.server = d.client.server)
    (held : c.held = d.client.held) (asking : c.asking = none) (link : c.link = .pumping ∨ c.link = .closed)
    (teardown : c.teardown = .awaitingExit ∨ c.teardown = .none ∧ c.phase = .stopped) :
    Parted config {d with client := c} := by
  obtain ⟨past, last, split, none, open', returned, prompt⟩ := parted.prompt
  have silent := Client.muteWritten mute
  have wire : written c.deeds = written d.client.deeds := by rw [log, Client.writtenSilent silent]
  obtain ⟨left, lossless⟩ := parted.leaves
  have same : hearings (d.client.deeds ++ es) = echo (written d.client.deeds) := by
    rw [Client.hearingsAppend, deaf, List.append_nil, parted.whole]
  exact {
    free := held.trans parted.free
    returned := asking
    link := link
    teardown := teardown
    exited := by rw [Client.exited, server]; exact parted.exited
    output := by rw [Client.output, server]; exact parted.output
    unpassed := by exact parted.unpassed
    peer := by rw [wire]; exact parted.peer
    leaves := log ▸ ⟨Client.leftLater silent left, Client.losslessAppend.mpr ⟨lossless, Client.muteLossless mute⟩⟩
    heeds := log ▸ Client.heedsLater parted.heeds (same ▸ List.prefix_rfl)
    whole := by rw [wire, log, same]
    prompt := ⟨past, last ++ es, by rw [log, split, List.append_assoc],
      by rw [Client.hearingsAppend, none, deaf]; rfl, open', returned, prompt⟩ }

theorem partedTake (parted : Parted config d) (pumping : d.client.link = .pumping) :
    Parted config (d.perform (.client .take)) ∧ (d.perform (.client .take)).spoken = d.spoken ∧
      remaining (d.perform (.client .take)) 0 < remaining d 0 := by
  obtain ⟨s, server, output⟩ := Option.map_eq_some_iff.mp parted.output
  obtain ⟨writes, unread⟩ := Prod.mk.inj output
  have ended : Frame.read false [] = .ended := rfl
  have lost : d.perform (.client .take) = {d with client := d.client.lose} := by
    simp [perform, Client.perform, Client.take?, Client.listening, pumping, server, writes, unread, ended]
  have quiet := Client.losePumping pumping
  have phase : d.client.lose.phase = d.client.phase := (congrArg Client.phase quiet).trans rfl
  have held : d.client.lose.held = d.client.held := (congrArg Client.held quiet).trans rfl
  have link : d.client.lose.link = .closed := congrArg Client.link quiet
  have teardown : d.client.lose.teardown = d.client.teardown := (congrArg Client.teardown quiet).trans rfl
  have same : d.client.lose.server = d.client.server := (congrArg Client.server quiet).trans rfl
  have log : d.client.lose.deeds = d.client.deeds ++ (.ended :: (d.client.quiet.note .ended).forsaken) :=
    (congrArg Client.log quiet).trans (List.append_assoc _ _ _)
  have mute : Client.Mute (.ended :: (d.client.quiet.note .ended).forsaken) :=
    Client.muteAppend (Client.muteOne rfl) (Client.muteForsaken _)
  have asking : d.client.lose.asking = none := by
    refine (congrArg Client.asking quiet).trans (Option.eq_none_iff_forall_ne_some.mpr fun a own => ?_)
    obtain ⟨early, before⟩ := Client.unheededAsking own
    cases parted.returned.symm.trans before
  have deaf : hearings (.ended :: (d.client.quiet.note .ended).forsaken) = [] := Client.forsakenHearings _
  rw [lost]
  refine ⟨partedLater parted log mute deaf same held asking (.inr link) ?_, ?_, ?_⟩
  · rw [teardown, phase]
    exact parted.teardown
  · rw [spoken, log, Client.writtenSilent (Client.muteWritten mute)]
    rfl
  · refine aheadNearer (Client.aheadLess ?_)
    rw [link, teardown, pumping]
    exact Nat.add_lt_add_right Nat.zero_lt_one _

theorem partedFinish (parted : Parted config d) (awaits : d.client.teardown = .awaitingExit) :
    Parted config (d.perform (.client .finishTeardown)) ∧ (d.perform (.client .finishTeardown)).spoken = d.spoken ∧
      remaining (d.perform (.client .finishTeardown)) 0 < remaining d 0 := by
  have finishes : d.client.finishTeardown = ({d.client with
      teardown := .none, documents := [], queued := [], phase := .stopped, store := []} :
        Client).resolve .stop .done :=
    if_pos ⟨awaits, parted.exited⟩
  have log : d.client.finishTeardown.deeds = d.client.deeds ++ [.resolved .stop .done] := by
    rw [finishes]
    simp [Client.deeds, Client.resolve, Client.note, Event.isDeed]
  have server : d.client.finishTeardown.server = d.client.server := by rw [finishes]; rfl
  have held : d.client.finishTeardown.held = d.client.held := by rw [finishes]; rfl
  have link : d.client.finishTeardown.link = d.client.link := by rw [finishes]; rfl
  have teardown : d.client.finishTeardown.teardown = .none := by rw [finishes]; rfl
  have phase : d.client.finishTeardown.phase = .stopped := by rw [finishes]; rfl
  have asking : d.client.finishTeardown.asking = none := by rw [finishes]; exact parted.returned
  have later := partedLater parted log (Client.muteOne rfl) rfl server held asking (link ▸ parted.link)
    (.inr ⟨teardown, phase⟩)
  have wire : written d.client.finishTeardown.deeds = written d.client.deeds := by
    rw [log, Client.writtenSilent rfl]
  refine ⟨later, congrArg (·, d.said) wire, aheadNearer (Client.aheadLess ?_)⟩
  have less : d.client.finishTeardown.link.ahead + d.client.finishTeardown.teardown.ahead <
      d.client.link.ahead + d.client.teardown.ahead := by
    rw [link, teardown, awaits]
    exact Nat.lt_succ_self _
  exact less

theorem partedMoves (parted : Parted config d) (move : Move) :
    Parted config (d.perform move) ∧ (d.perform move).spoken = d.spoken ∧
      (move.own = true → d.perform move = d ∨ remaining (d.perform move) 0 < remaining d 0) := by
  have stays {move : Move} (same : d.perform move = d) : Parted config (d.perform move) ∧
      (d.perform move).spoken = d.spoken ∧
        (move.own = true → d.perform move = d ∨ remaining (d.perform move) 0 < remaining d 0) :=
    ⟨same.symm ▸ parted, congrArg spoken same, fun _ => .inl same⟩
  have own {move : Client.Move} (own : move.own = true) (same : d.client.perform move = d.client) :=
    stays (performStill own same : d.perform (.client move) = d)
  cases move with
  | client move =>
    cases move with
    | host call => exact stays (performUnheld parted.free call)
    | server act => exact stays rfl
    | elsewhere taken =>
      have log : (d.client.perform (.elsewhere taken)).deeds = d.client.deeds ++ [] := (List.append_nil _).symm
      exact ⟨partedLater parted log Client.muteNone rfl rfl rfl parted.returned parted.link parted.teardown, rfl, nofun⟩
    | ask => exact own rfl (Client.askStill parted.returned)
    | giveUp =>
      refine own rfl (Client.giveUpStill fun failure failing => ?_)
      rcases parted.link with other | other <;> cases failing.symm.trans other
    | askToShutDown =>
      refine own rfl (Client.askToShutDownStill fun id registered => ?_)
      rcases parted.teardown with other | ⟨other, _⟩ <;> cases registered.symm.trans other
    | spawn =>
      refine own rfl (Client.spawnStill ?_)
      rintro (⟨refused, link⟩ | link) <;> rcases parted.link with other | other <;>
        cases link.symm.trans other
    | introduce =>
      refine own rfl (if_pos fun link => ?_)
      rcases parted.link with other | other <;> cases link.symm.trans other
    | beginTeardown =>
      refine own rfl (Client.beginStill fun waits => ?_)
      rcases parted.teardown with other | ⟨other, _⟩ <;> cases waits.symm.trans other
    | sendExit =>
      refine own rfl (Client.sendExitStill fun id waits => ?_)
      rcases parted.teardown with other | ⟨other, _⟩ <;> cases waits.symm.trans other
    | take =>
      rcases parted.link with pumping | closed
      · exact (partedTake parted pumping).imp_right (And.imp_right fun less _ => .inr less)
      · refine own rfl ?_
        have deaf : d.client.take? = none :=
          Client.takeNone.mpr fun listening => by simp [Client.listening, closed] at listening
        rw [Client.perform, deaf, Option.getD_none]
    | finishTeardown =>
      rcases parted.teardown with awaits | ⟨idle, _⟩
      · exact (partedFinish parted awaits).imp_right (And.imp_right fun less _ => .inr less)
      · exact own rfl (Client.finishStill fun waits => by cases waits.symm.trans idle)
  | hear => exact stays (by simp [perform, hear, parted.exited])
  | pass count => exact stays (passEmpty parted.unpassed count)
  | murmur octets => exact stays (by simp [perform, Client.perform, Client.serverAct, parted.exited])
  | leave => exact stays (by simp [perform, leave, Client.perform, Client.serverAct, parted.exited])

theorem partedLeads (parted : Parted config d) (move : Move) : Leads config d 0 move.own (d.perform move) := by
  obtain ⟨kept, _, nearer⟩ := partedMoves parted move
  exact ⟨0, .parted kept, nearer⟩

theorem stageLeads (reached : Client.Reached config nextId d.client.quiet) (stage : Stage config d n) (fit : Fit d)
    {move : Move} (plain : move.plain = true) : Leads config d n move.own (d.perform move) := by
  cases stage with
  | void joined stopped idle free unstarted => exact voidLeads reached joined stopped idle free unstarted move
  | bound joined bond => exact boundLeads reached joined bond fit plain
  | parted parted => exact partedLeads parted move

theorem playStage (reached : Client.Reached config nextId d.client.quiet) (stage : ∃ n, Stage config d n)
    {moves : List Move} (plain : ∀ move ∈ moves, Move.plain move = true) (fit : Fit (d.play moves)) :
    ∃ n, Stage config (d.play moves) n := by
  induction moves using List.reverseRecOn with
  | nil => exact stage
  | append_singleton moves move ih =>
    obtain ⟨before, last⟩ := List.forall_mem_append.mp plain
    have earlier : Client.Reached config nextId (d.play moves).client.quiet := playReached reached moves
    rw [playAppend] at fit ⊢
    have small : Fit (d.play moves) := fitBefore earlier move fit
    obtain ⟨n, stage⟩ := ih before small
    obtain ⟨m, next, _⟩ := stageLeads earlier stage small (last move List.mem_cons_self)
    exact ⟨m, next⟩

theorem openingStage (config : Config) (nextId : Int) : Stage config (opening config nextId) 0 :=
  .bound (openingJoined config nextId) (.early (by rintro (past | past) <;> cases past) ⟨nofun, nofun⟩)

structure Advances (d after : Dialogue) : Prop where
  own : ∃ move : Move, move.own = true ∧ after = d.perform move
  busy : after = d → Resting d

theorem ownPlain {move : Move} (own : move.own = true) : move.plain = true := by
  cases move with
  | client move =>
    cases move with
    | host => cases own
    | _ => rfl
  | _ => rfl

theorem comesToRest (reached : Client.Reached config nextId d.client.quiet) (stage : Stage config d n)
    (run : Nat → Dialogue) (first : run 0 = d) (fit : ∀ i, Fit (run i))
    (advances : ∀ i, Advances (run i) (run (i + 1))) : ∃ i, Resting (run i) := by
  generalize left : remaining d n = rank
  induction rank using WellFoundedLT.induction generalizing d n run with
  | ind rank ih =>
    obtain ⟨⟨move, own, after⟩, busy⟩ := advances 0
    have now : Fit d := first ▸ fit 0
    obtain ⟨m, next, nearer⟩ := stageLeads reached stage now (ownPlain own)
    rw [first] at after busy
    rcases nearer own with same | less
    · exact ⟨0, first ▸ busy (after.trans same)⟩
    · obtain ⟨i, rests⟩ := ih _ (left ▸ less) (performReached reached move) next (fun i => run (i + 1)) after
        (fun i => fit (i + 1)) (fun i => advances (i + 1)) rfl
      exact ⟨i + 1, rests⟩

structure Complete (d : Dialogue) : Prop where
  returned : d.client.asking = none
  lossless : Client.Lossless d.client.deeds
  heeds : Client.Heeds d.client.deeds
  whole : hearings d.client.deeds = echo (written d.client.deeds)

/-- Both sides rest: the client has not been started, or runs and has heard all, or has stopped after that. -/
inductive Rested (config : Config) (d : Dialogue) : Prop where
  | unstarted (idle : d.client.link = .idle) (none : d.client.deeds.countP (Client.issues .start) = 0) :
      Rested config d
  | running (runs : Runs d) (idle : d.client.teardown = .none)
      (complete : Complete d) : Rested config d
  | stopped (parted : Parted config d) (closed : d.client.link = .closed) (idle : d.client.teardown = .none)
      (past : d.client.phase = .stopped) : Rested config d

theorem wholeHeard {id : Int} {method : String} {params : Option Json}
    (whole : hearings d.client.deeds = echo (written d.client.deeds))
    (asked : .wrote (.request id method params) ∈ d.client.deeds) : ¬ Client.Unheard id d.client.deeds := by
  intro unheard
  obtain ⟨result, error, answer⟩ := StandIn.echoAsked (Client.memWritten.mp asked)
  exact unheard result error (Client.heardMember.mp (whole ▸ answer))

theorem farewellHeard {id : Int} (reached : Client.Reached config nextId d.client.quiet)
    (heeds : Client.Heeds d.client.deeds) (whole : hearings d.client.deeds = echo (written d.client.deeds))
    (awaits : d.client.teardown = .awaitingReply id) : d.client.router.owner? id = none := by
  have coherent := Client.reachedCoherent reached
  have stopping : d.client.phase = .stopping :=
    Client.teardownStopping (c := d.client.quiet) coherent (.inr (.inl ⟨id, awaits⟩))
  have returned : d.client.asking = none := Decidable.byContradiction fun asking => by
    cases stopping.symm.trans (coherent.asking asking).1
  refine Option.eq_none_iff_forall_ne_some.mpr fun owner known => ?_
  have free : d.client.asks id = false := by simp [Client.asks, returned]
  have told : d.client.registered ≠ some id := by simp [Client.registered, awaits]
  obtain ⟨asked, unheard⟩ := Client.awaitedUnheard (c := d.client.quiet) reached heeds known free told
  obtain ⟨method, params, request⟩ := Client.awaitedRequest owner id
  exact wholeHeard whole (request ▸ asked) unheard

theorem farewellExits (joined : Joined d attended [] coming) (left : Left config d.client.deeds) :
    d.peer.exited = true := by
  obtain ⟨wire, first, replies, id, same, parting⟩ := StandIn.leftParting left
  rw [joined.written, List.append_nil, parting.wire] at same
  rw [joined.peer, same, StandIn.hearingFarewell first id parting.replies]
  rfl

section
variable (reached : Client.Reached config nextId d.client.quiet) (joined : Joined d attended waiting coming)
  (resting : Resting d)
include reached joined resting

theorem restFlows (flows : Flows config attended waiting coming) (listening : d.client.listening = true) :
    waiting = [] ∧ hearings d.client.deeds = echo (written d.client.deeds) := by
  have present : d.client.server ≠ none := Client.reachedServed (c := d.client.quiet) reached (.inr listening)
  obtain ⟨rfl, rfl, _⟩ := restEmpty joined resting present listening (fun more => (flows.ready more).serves.stays)
    flows.sendable fun x member => (flows.said x member).2
  exact ⟨rfl, by rw [joined.written, List.append_nil, joined.heard, List.append_nil]⟩

theorem earlyRests (bond : Bond config d.client) (going : ¬ d.client.Over) (fit : Fit d) : Rested config d := by
  have flows := bondFlows reached joined bond fit
  have still := Client.restingStill.mp (clientResting resting)
  have coherent := Client.reachedCoherent reached
  cases phase : d.client.phase with
  | created => exact .unstarted (coherent.created phase).1 ((Client.reachedSingle reached).unstarted phase)
  | starting =>
    rcases (coherent.starting phase).2 with ⟨fallow, _⟩ | ⟨⟨id, link⟩, _⟩ | ⟨failure, link⟩
    · exact absurd fallow still.met
    · have awaited : d.client.link = .handshake id := link
      have listening : d.client.listening = true := by rw [Client.listening, awaited]
      obtain ⟨introduced, unheard⟩ := Client.reachedIntroduced reached link
      exact absurd unheard (wholeHeard (restFlows reached joined resting flows listening).2 introduced)
    · exact absurd link (still.cleaned failure)
  | running =>
    have runs := joinedRuns reached joined phase
    have idle : d.client.teardown = .none := (coherent.running phase).1.resolve_right fun requested => by
      cases phase.symm.trans (still.begun requested)
    have clear : d.client.refusal = none := Client.lodgedClear (c := d.client.quiet) joined.lodged
      (Client.reachedHoused reached) (coherent.running phase).2.2
    exact .running runs idle {
      returned := still.free
      lossless := (Client.reachedPiped reached).clear clear
      heeds := joined.heeds
      whole := (restFlows reached joined resting flows (runsListening runs)).2 }
  | stopping => exact absurd (.inl phase) going
  | stopped => exact absurd (.inr phase) going

theorem boundRested (bond : Bond config d.client) (fit : Fit d) : Rested config d := by
  have flows := bondFlows reached joined bond fit
  have listens (stopping : d.client.phase = .stopping) : d.client.listening = true := by
    rw [Client.listening, stoppingPumps reached joined stopping]
  cases bond with
  | early going launch => exact earlyRests reached joined resting (.early going launch) going fit
  | @registered id registered => exact absurd registered ((Client.restingStill.mp (clientResting resting)).told id)
  | @asking id awaits =>
    obtain ⟨_, whole⟩ := restFlows reached joined resting flows (listens (awaitingStops reached joined awaits).1)
    have waits := (Client.restingStill.mp (clientResting resting)).answered id awaits
    rw [farewellHeard reached joined.heeds whole awaits] at waits
    cases waits
  | leaving awaits leaves =>
    have stopping := leavingStops reached awaits
    obtain ⟨rfl, _⟩ := restFlows reached joined resting flows (listens stopping)
    have parted := leavingParted reached joined awaits leaves rfl (farewellExits joined leaves.1)
    have same : d.leave = d := resting .leave rfl
    rw [same] at parted
    have living := servedLiving joined (stoppingPresent reached joined stopping)
    cases living.symm.trans parted.exited

end

theorem partedStopped (parted : Parted config d) (resting : d.client.Resting) :
    d.client.link = .closed ∧ d.client.teardown = .none ∧ d.client.phase = .stopped := by
  have still := Client.restingStill.mp resting
  have closed : d.client.link = .closed := by
    refine parted.link.resolve_left fun pumping => ?_
    have listening : d.client.listening = true := by rw [Client.listening, pumping]
    cases Client.takeNone.mp still.taken listening false [] parted.output
  exact ⟨closed, parted.teardown.resolve_left fun awaits => by cases parted.exited.symm.trans (still.finished awaits)⟩

theorem partedRested (parted : Parted config d) (resting : d.client.Resting) : Rested config d := by
  obtain ⟨closed, idle, past⟩ := partedStopped parted resting
  exact .stopped parted closed idle past

theorem stageRested (reached : Client.Reached config nextId d.client.quiet) (stage : Stage config d n)
    (resting : Resting d) (fit : Fit d) : Rested config d := by
  cases stage with
  | void _ _ idle _ unstarted => exact .unstarted idle unstarted
  | bound joined bond => exact boundRested reached joined resting bond fit
  | parted parted => exact partedRested parted (clientResting resting)

theorem stageRunning (reached : Client.Reached config nextId d.client.quiet) (stage : Stage config d n)
    (running : d.client.phase = .running) : ∃ attended waiting coming, Joined d attended waiting coming := by
  cases stage with
  | void _ stopped => cases running.symm.trans stopped
  | bound joined => exact ⟨_, _, _, joined⟩
  | parted parted =>
    rcases parted.teardown with awaits | ⟨_, stopped⟩
    · cases running.symm.trans (leavingStops reached awaits)
    · cases running.symm.trans stopped

theorem stagePolite (reached : Client.Reached config nextId d.client.quiet) (stage : Stage config d n) (fit : Fit d) :
    Polite config (written d.client.deeds) := by
  cases stage with
  | void joined => exact ⟨[], nofun, .inl joined.written⟩
  | bound joined bond => exact bondPolite reached joined bond fit
  | parted parted => exact leftPolite parted.leaves.1

theorem partedComplete (parted : Parted config d) : Complete d :=
  ⟨parted.returned, parted.leaves.2, parted.heeds, parted.whole⟩

theorem completeFetched (reached : Client.Reached config nextId d.client.quiet) (complete : Complete d)
    (polite : Polite config (written d.client.deeds)) (fit : Fit d) {past : Client} {before es back : List Event}
    {id : Int} {name uri : String} (parts : d.client.deeds = past.log ++ back) (deaf : hearings back = [])
    (open' : .ended ∉ past.log) (returned : past.asking = none) (prompt : Client.Prompt past)
    (log : d.client.deeds = before ++ .awaits id (.pull name uri) :: es) :
    ∃ items, Client.Fetched before d.client.deeds name uri items := by
  have wrote := Client.returnedWrote (c := d.client.quiet) reached complete.returned complete.lossless log
  obtain ⟨early, rest, rfl⟩ := List.append_of_mem wrote
  have place : d.client.deeds = (before ++ .awaits id (.pull name uri) :: early) ++
      .wrote (Request.diagnostic id uri) :: rest := by simp [log]
  have unheard := Client.earlyUnheard (Client.sentIncreasing reached) complete.heeds place
  have answered : ¬ Client.Unheard id rest := by
    intro none
    refine wholeHeard complete.whole (splitMember place) ?_
    rw [place, Client.unheardAppend]
    exact ⟨unheard, fun result error member => none result error (by simpa using member)⟩
  obtain ⟨between, result, error, last, own, unheard'⟩ := Client.firstAnswer answered
  have member : .response id result error ∈ hearings d.client.deeds :=
    Client.heardMember.mpr (by simp [place, own])
  obtain rfl : error = none := (politeCarried polite fit _ (complete.whole ▸ member)).right _ result error rfl
  have early' : Client.Unheard id early := fun result error member =>
    unheard result error (List.mem_append_right _ (List.mem_cons_of_mem _ member))
  obtain ⟨entry, _, fetched, _⟩ := Client.fetched (c := d.client.quiet) reached parts deaf open' prompt
    returned log own early' unheard'
  exact ⟨_, fetched⟩

theorem pullFetched (reached : Client.Reached config nextId d.client.quiet)
    (joined : Joined d attended waiting coming) (running : d.client.phase = .running)
    (held : d.client.held = true) (free : d.client.asking = none) (name uri : String) {later : Dialogue}
    (reached' : Client.Reached config nextId later.client.quiet) (polite : Polite config (written later.client.deeds))
    (fit : Fit later) (rested : Rested config later) {es : List Event}
    (log : later.client.deeds = (d.perform (.client (.host (.pull name uri)))).client.deeds ++ es) :
    ∃ items, Client.Fetched d.client.deeds later.client.deeds name uri items := by
  have opened : (d.perform (.client (.host (.pull name uri)))).client.deeds = d.client.deeds ++
      [.awaits d.client.nextId (.pull name uri)] :=
    (Client.pullAsks reached running held free joined.link name uri).1
  rw [opened, List.append_assoc] at log
  cases rested with
  | unstarted _ none =>
    have done : .resolved .start .done ∈ d.client.deeds := (Client.reachedDecided reached).started (.inl running)
    have settled : 0 < later.client.deeds.countP (Client.settles .start) :=
      List.countP_pos_iff.mpr ⟨_, log ▸ List.mem_append_left _ done, rfl⟩
    have balanced : later.client.deeds.countP (Client.issues .start) =
      later.client.deeds.countP (Client.settles .start) + later.client.quiet.owes .start :=
        Client.reachedBalanced reached' .start
    omega
  | running runs _ complete =>
    have unstopped : later.client.quiet.phase ≠ .stopped := by
      intro stopped
      cases runs.phase.symm.trans stopped
    exact completeFetched reached' complete polite fit (List.append_nil _).symm rfl
      (Client.pumpingUnended reached' runs.link) complete.returned (Client.reachedPrompt reached' unstopped) log
  | stopped parted =>
    obtain ⟨past, back, parts, deaf, open', returned, prompt⟩ := parted.prompt
    exact completeFetched reached' (partedComplete parted) polite fit parts deaf open' returned prompt log

structure Concluded (d : Dialogue) : Prop where
  phase : d.client.phase = .stopped
  resolved : .resolved .stop .done ∈ d.client.deeds
  sent : ∃ first id replies, d.client.sent = first ++ Request.shutdown id :: replies ++ [Request.exit]
  peer : d.peer = .standIn (hearing d.client.sent)
  exitCode : (hearing d.client.sent).exitCode = some 0
  exited : d.client.exited = true

theorem partedConcluded (reached : Client.Reached config nextId d.client.quiet) (parted : Parted config d)
    (idle : d.client.teardown = .none) (past : d.client.phase = .stopped)
    (stop : .called .stop .nothing ∈ d.client.deeds) : Concluded d := by
  obtain ⟨wire, first, replies, id, same, parting⟩ := StandIn.leftParting parted.leaves.1
  have sent : d.client.sent = first ++ Request.shutdown id :: replies ++ [Request.exit] := by
    rw [sentWritten, same, parting.wire]
  exact {
    phase := past
    resolved := Client.stopDone reached idle stop
    sent := ⟨first, id, replies, sent⟩
    peer := by rw [sentWritten]; exact parted.peer
    exitCode := by rw [sent, StandIn.hearingFarewell first id parting.replies]
    exited := parted.exited }

section
variable (reached : Client.Reached config nextId d.client.quiet) (rested : Rested config d)
  (started : .called (.start none) .nothing ∈ d.client.deeds)
include reached rested started

theorem restedStarted : .resolved .start .done ∈ d.client.deeds := by
  have decided := Client.reachedDecided reached
  cases rested with
  | unstarted _ none => exact absurd rfl (List.countP_eq_zero.mp none _ started)
  | running runs => exact decided.started (.inl runs.phase)
  | stopped parted =>
    obtain ⟨wire, first, replies, id, same, parting⟩ := StandIn.leftParting parted.leaves.1
    have asks : .wrote (Request.shutdown id) ∈ d.client.deeds := by
      refine Client.memWritten.mpr ?_
      rw [same, parting.wire]
      simp
    exact decided.farewell _ asks rfl

theorem restedStopped (stop : .called .stop .nothing ∈ d.client.deeds) : Concluded d := by
  cases rested with
  | unstarted _ none => exact absurd rfl (List.countP_eq_zero.mp none _ started)
  | running runs idle =>
    have past := (Client.reachedSevered reached).stopped _ (Client.stopDone reached idle stop) rfl
    cases runs.phase.symm.trans past
  | stopped parted _ idle past => exact partedConcluded reached parted idle past stop

end

theorem playClient {moves : List Client.Move} (own : ∀ move ∈ moves, Client.Move.own move = true) (d : Dialogue) :
    (d.play (moves.map .client)).client = d.client.play moves := by
  induction moves generalizing d with
  | nil => rfl
  | cons move moves ih =>
    obtain ⟨first, others⟩ := List.forall_mem_cons.mp own
    rw [List.map_cons, playCons, performOwn first]
    exact ih others _

def Answers (d : Dialogue) (call : Client.Call) (c : Client) : Prop :=
  ∃ taken own, (∀ move ∈ own, Move.own move = true) ∧
    c = (d.play (.client (.elsewhere taken) :: .client (.host call) :: own)).client

theorem actAnswers (call : Client.Call) {next : Int} (later : d.client.nextId ≤ next) :
    Answers d call (Client.act (.host call) {d.client with nextId := next}).1 := by
  obtain ⟨moves, own, same⟩ := Client.actGoes (.host call) {d.client with nextId := next}
  refine ⟨(next - d.client.nextId).toNat, moves.map .client, List.forall_mem_map.mpr own, ?_⟩
  rw [same, playCons, playCons, playClient own, Client.renumbered later]
  rfl

structure Ends (config : Config) (d : Dialogue) : Prop where
  -- however both sides go on by themselves, they come to rest
  rests : ∀ run : Nat → Dialogue, run 0 = d → (∀ i, Fit (run i)) → (∀ i, Advances (run i) (run (i + 1))) →
    ∃ i, Resting (run i)
  started : Resting d → .called (.start none) .nothing ∈ d.client.deeds → Client.starts d.client.deeds = [.done]
  -- a pull of a client that was not stopped before brings items, also if it is stopped meanwhile
  pulled : d.client.phase = .running → d.client.held = true → d.client.asking = none → ∀ name uri more,
    (∀ move ∈ more, Move.plain move = true) →
      let later := (d.perform (.client (.host (.pull name uri)))).play more
      Fit later → Resting later → ∃ items, Client.Fetched d.client.deeds later.client.deeds name uri items
  stopped : Resting d → .called (.start none) .nothing ∈ d.client.deeds → .called .stop .nothing ∈ d.client.deeds →
    Concluded d
  activates : ∀ (s : Session) (context : Context), s.origin = .extension context → context.config = config →
    s.held? = none → s.refused config = none → ∃ c, Answers (opening config s.nextId) (.start none) c ∧
      (s.act .activate).1.clients = s.clients ++ [c]
  deactivates : ∀ s : Session, s.held? = some d.client → d.client.nextId ≤ s.nextId →
    ∃ c, Answers d .stop c ∧ (s.act .stop).1.clients = s.clients.dropLast ++ [c]

theorem ends (config : Config) (nextId : Int) (moves : List Move) (plain : ∀ move ∈ moves, Move.plain move = true)
    (fit : Fit ((opening config nextId).play moves)) : Ends config ((opening config nextId).play moves) := by
  have reached : Client.Reached config nextId ((opening config nextId).play moves).client.quiet :=
    playReached .new moves
  obtain ⟨n, stage⟩ := playStage .new ⟨0, openingStage config nextId⟩ plain fit
  generalize (opening config nextId).play moves = d at *
  exact {
    rests := fun run first fits advances => comesToRest reached stage run first fits advances
    started := fun resting started =>
      Client.startsDone reached (restedStarted reached (stageRested reached stage resting fit) started)
    pulled := fun running held free name uri more plain' fit' resting => by
      let asking : Move := .client (.host (.pull name uri))
      obtain ⟨attended, waiting, coming, joined⟩ := stageRunning reached stage running
      have reached' := playReached reached (asking :: more)
      obtain ⟨m, stage'⟩ := playStage reached ⟨n, stage⟩ (List.forall_mem_cons.mpr ⟨rfl, plain'⟩) fit'
      obtain ⟨es, log⟩ := playGrows (performReached reached asking) more
      exact pullFetched reached joined running held free name uri reached' (stagePolite reached' stage' fit') fit'
        (stageRested reached' stage' resting fit') log
    stopped := fun resting started stop => restedStopped reached (stageRested reached stage resting fit) started stop
    activates := fun s context origin own free clear => by
      have joins := Session.startLastJoins s (.new config s.nextId)
      have clear : s.refused (Client.new config s.nextId).config = none := clear
      rw [clear] at joins
      have same : (s.act .activate).1 =
          (Session.startLast {s with clients := s.clients ++ [.new config s.nextId]}).1 := by
        simp [Session.act, Session.activate, origin, free, own]
      exact ⟨_, actAnswers (d := opening config s.nextId) (.start none) (Int.le_refl _),
        (congrArg Session.clients same).trans joins⟩
    deactivates := fun s held later => ⟨_, actAnswers .stop later, Session.hostCallActs held .stop⟩ }

theorem stopFit (fit : Fit d) : Fit (d.perform (.client (.host .stop))) := by
  have stopped : d.client.stop.sent = d.client.sent := by
    unfold Client.stop
    dsimp only
    split <;> simp [Client.sent, Client.note, Client.resolve]
  have silent : (d.client.hostCall .stop).1.sent = d.client.sent := by
    unfold Client.hostCall
    split
    · dsimp only [Client.called]
      split
      · simpa [Client.sent, Client.note] using stopped
      · exact stopped
    · rfl
  obtain ⟨ranged, small, said⟩ := fit
  exact ⟨fun m member => ranged m (silent ▸ member), fun m member => small m (silent ▸ member), said⟩

def leaving : List Move := reopening ++ [.client (.host .stop)]

theorem leavingEnds : (∀ move ∈ leaving, Move.plain move = true) ∧
    Fit ((opening Client.sampleConfig 1).play leaving) ∧
    Ends Client.sampleConfig ((opening Client.sampleConfig 1).play leaving) := by
  have plain : ∀ move ∈ leaving, Move.plain move = true := by
    have settles : ∀ move ∈ settling [introduction] openings [], Move.plain move = true :=
      fun move member => ownPlain (settlingOwn move member)
    simp only [leaving, reopening, List.forall_mem_append]
    exact ⟨⟨by decide, by decide, settles⟩, by decide⟩
  have fit : Fit ((opening Client.sampleConfig 1).play leaving) := by
    rw [leaving, playAppend, ← reopened, playCons]
    exact stopFit reopenedFit
  exact ⟨plain, fit, ends Client.sampleConfig 1 leaving plain fit⟩

end Dialogue
end LspClient
