import LspClient.Proofs.Client.Tickets
import LspClient.Proofs.Peer.Settling

/-! Rounds. In each of them the stand-in reads all that was written, the pipe lets all through, and the client takes
what it can. While the client runs, two rounds are enough: the second only brings its replies. -/
namespace LspClient

namespace Client

variable {c after : Client} {m : Message}

theorem restingPlay (resting : c.Resting) {moves : List Move} (own : ∀ move ∈ moves, Move.own move = true) :
    c.play moves = c := by
  induction moves with
  | nil => rfl
  | cons move moves ih =>
    obtain ⟨first, others⟩ := List.forall_mem_cons.mp own
    exact (congrArg (play · moves) (resting move first)).trans (ih others)

theorem restingRests (resting : c.Resting) : c.comeToRest = c := by
  obtain ⟨moves, own, same⟩ := comeToRestGoes c
  exact same.trans (restingPlay resting own)

theorem listeningCleaned (listening : c.listening = true) (failure : Failure) : c.link ≠ .failing failure := by
  intro link
  simp [Client.listening, link] at listening

theorem settleIdle (idle : c.teardown = .none) (listening : c.listening = true) : c.settle = c := by
  rw [settle, giveUpStill (listeningCleaned listening)]
  simp [beginTeardown, askToShutDown, sendExit, finishTeardown, idle]

theorem comeToRestListening (listening : c.listening = true) (free : c.asking = none) :
    c.comeToRest = (c.drain (c.unread.length + 2)).settle := by
  have met : ¬ c.Fallow := listeningMet listening
  have introduced : c.introduce = c := if_pos fun link => met (.inr link)
  rw [comeToRest, askStill free, spawnStill met, introduced, pump]
  cases server : c.server <;> simp [unread, server]

theorem drainStarved (starved : c.take? = none) (bound : Nat) : c.drain bound = c := by
  cases bound with
  | zero => rfl
  | succ => simp [drain, starved]

theorem comeToRestOnce (listening : c.listening = true) (free : c.asking = none) (took : c.take? = some after)
    (last : after.take? = none) : c.comeToRest = after.settle := by
  have tooks := takeTook took
  have still : after.settle.Resting := restingStill.mpr (settleStill (tooks.free free) tooks.met last)
  have starved : after.settle.take? = none := (restingStill.mp still).taken
  obtain ⟨moves, own, same⟩ := settleGoes after.settle
  rw [comeToRestListening listening free, drain, took]
  dsimp only
  rw [drainStarved starved, same, restingPlay still own]

def Uncalled (es : List Event) : Prop := ∀ e ∈ es, ∀ call answer, e ≠ .called call answer

theorem uncalledNone : Uncalled [] := List.forall_mem_nil _

theorem uncalledOne {e : Event} (own : ∀ call answer, e ≠ .called call answer) : Uncalled [e] :=
  List.forall_mem_singleton.mpr own

structure Retains (c after : Client) : Prop where
  capabilities : after.capabilities = c.capabilities
  nextId : after.nextId = c.nextId
  log : ∃ es, after.deeds = c.deeds ++ es ∧ Uncalled es

theorem retainsSame (c : Client) : Retains c c := ⟨rfl, rfl, [], (List.append_nil _).symm, uncalledNone⟩

theorem retainsThen {later : Client} (first : Retains c after) (second : Retains after later) : Retains c later := by
  obtain ⟨capabilities, nextId, es, log, uncalled⟩ := first
  obtain ⟨capabilities', nextId', more, log', uncalled'⟩ := second
  exact ⟨capabilities'.trans capabilities, nextId'.trans nextId, es ++ more, by rw [log', log, List.append_assoc],
    List.forall_mem_append.mpr ⟨uncalled, uncalled'⟩⟩

theorem retainsDesk (retains : Retains c after) : desk after.deeds = desk c.deeds := by
  obtain ⟨es, log, uncalled⟩ := retains.log
  rw [log, steadyDesk fun e member call => uncalled e member call _]

theorem retainsIssues (retains : Retains c after) (t : Ticket) :
    after.deeds.countP (issues t) = c.deeds.countP (issues t) := by
  obtain ⟨es, log, uncalled⟩ := retains.log
  have none : es.countP (issues t) = 0 := by
    refine List.countP_eq_zero.mpr fun e member issued => ?_
    cases e with
    | called call answer => exact uncalled _ member call answer rfl
    | _ => cases issued
  rw [log, List.countP_append, none, Nat.add_zero]

theorem takenRetains (settled : ∀ id, c.link ≠ .handshake id) (taken : Taken c m after) :
    after.capabilities = c.capabilities ∧ after.nextId = c.nextId ∧ ∃ es, after.log = c.log ++ es ∧ Uncalled es := by
  cases taken with
  | @request id method params =>
    refine ⟨triedSame Client.capabilities _ c rfl rfl, triedSame Client.nextId _ c rfl rfl, ?_⟩
    rcases triedCases (Router.replyTo id method params) c with ⟨_, same⟩ | ⟨_, same⟩ <;> rw [same]
    · exact ⟨[.wrote _], rfl, uncalledOne (by simp)⟩
    · exact ⟨[.lost _], rfl, uncalledOne (by simp)⟩
  | pullAnswered => exact ⟨rfl, rfl, _, rfl, uncalledOne (by simp)⟩
  | published | other | unasked | pullForestalled | shutdownAnswered =>
    exact ⟨rfl, rfl, [], (List.append_nil _).symm, uncalledNone⟩
  | rejected awaited | tooLate awaited | readyLost awaited | ready awaited => exact absurd awaited (settled _)

theorem hearRetains (pumping : c.link = .pumping) (m : Message) : Retains c (c.hear m) := by
  have settled : ∀ id, (c.quiet.note (.heard m)).link ≠ .handshake id := fun id awaited => by
    cases pumping.symm.trans awaited
  obtain ⟨capabilities, nextId, es, log, uncalled⟩ := takenRetains settled (hearTaken m c)
  exact ⟨capabilities, nextId, .heard m :: es, log.trans (List.append_assoc _ [_] es),
    List.forall_mem_cons.mpr ⟨by simp, uncalled⟩⟩

theorem serverRetains (act : ServerAct) (c : Client) : Retains c (c.serverAct act) := by
  obtain ⟨server, same⟩ := serverOnly act c
  have capabilities := congrArg Client.capabilities same
  have nextId := congrArg Client.nextId same
  have log := congrArg Client.log same
  exact ⟨capabilities, nextId, [], log.trans (List.append_nil _).symm, uncalledNone⟩

end Client

namespace Dialogue
open Client (hearings written answers Continues Retains)
open StandIn (echo hearing attend)

variable {config : Config} {nextId : Int} {d after : Dialogue} {attended waiting coming : List Message}

def Goes (d after : Dialogue) : Prop := ∃ moves : List Move, (∀ move ∈ moves, move.own = true) ∧ after = d.play moves

theorem goesNowhere (d : Dialogue) : Goes d d := ⟨[], List.forall_mem_nil _, rfl⟩

theorem goesThen {later : Dialogue} (first : Goes d after) (second : Goes after later) : Goes d later := by
  obtain ⟨moves, own, rfl⟩ := first
  obtain ⟨more, own', rfl⟩ := second
  exact ⟨moves ++ more, List.forall_mem_append.mpr ⟨own, own'⟩, (playAppend d moves more).symm⟩

theorem goesOnce (move : Move) (own : move.own = true) (d : Dialogue) : Goes d (d.perform move) :=
  ⟨[move], List.forall_mem_singleton.mpr own, rfl⟩

theorem playOwn {moves : List Client.Move} (own : ∀ move ∈ moves, Client.Move.own move = true) (d : Dialogue) :
    d.play (moves.map .client) = {d with client := d.client.play moves} := by
  induction moves generalizing d with
  | nil => rfl
  | cons move moves ih =>
    obtain ⟨first, others⟩ := List.forall_mem_cons.mp own
    rw [List.map_cons, playCons, performOwn first, ih others]
    rfl

theorem restGoes (d : Dialogue) : Goes d d.rest := by
  obtain ⟨moves, own, same⟩ := Client.comeToRestGoes d.client
  exact ⟨moves.map .client, List.forall_mem_map.mpr own, by rw [rest, same, playOwn own]⟩

theorem hearAllGoes (bound : Nat) (d : Dialogue) : Goes d (d.hearAll bound) := by
  induction bound generalizing d with
  | zero => exact goesNowhere d
  | succ bound ih =>
    rw [hearAll]
    split
    · exact goesNowhere d
    · exact goesThen (goesOnce .hear rfl d) (ih d.hear)

theorem heardGoes (d : Dialogue) : Goes (d.hearAll d.client.sent.length) d.round := by
  rw [round]
  generalize d.hearAll d.client.sent.length = h
  have passed : Goes h (h.pass h.unpassed.length) := goesOnce (.pass h.unpassed.length) rfl h
  have left (d : Dialogue) : Goes d d.leave := goesOnce .leave rfl d
  exact goesThen passed (goesThen (restGoes _) (goesThen (left _) (restGoes _)))

theorem roundGoes (d : Dialogue) : Goes d d.round := goesThen (hearAllGoes _ d) (heardGoes d)

theorem settleGoes (bound : Nat) (d : Dialogue) : Goes d (d.settle bound) := by
  induction bound generalizing d with
  | zero => exact goesNowhere d
  | succ bound ih =>
    rw [settle]
    split
    · exact goesNowhere d
    · exact goesThen (roundGoes d) (ih d.round)

theorem goesReached (reached : Client.Reached config nextId d.client.quiet) (goes : Goes d after) :
    Client.Reached config nextId after.client.quiet := by
  obtain ⟨moves, _, rfl⟩ := goes
  exact playReached reached moves

theorem goesFit (reached : Client.Reached config nextId d.client.quiet) (goes : Goes d after) (fit : Fit after) :
    Fit d := by
  obtain ⟨moves, _, rfl⟩ := goes
  have whole : Fit (d.play ([] ++ moves)) := fit
  exact fitEarlier reached whole

theorem restingGoes (resting : Resting d) (goes : Goes d after) : after = d := by
  obtain ⟨moves, own, rfl⟩ := goes
  induction moves with
  | nil => rfl
  | cons move moves ih =>
    obtain ⟨first, others⟩ := List.forall_mem_cons.mp own
    rw [playCons, resting move first]
    exact ih others

theorem restStill (resting : d.client.Resting) : d.rest = d :=
  congrArg (fun c => ({d with client := c} : Dialogue)) (Client.restingRests resting)

theorem restAgain (d : Dialogue) : d.rest.rest = d.rest := restStill (Client.comeToRestResting d.client)

theorem restingSettles (resting : Resting d) (bound : Nat) : d.settle bound = d :=
  restingGoes resting (settleGoes bound d)

theorem hearAllIdle (idle : d.unheard = []) (bound : Nat) : d.hearAll bound = d := by
  cases bound <;> simp [hearAll, idle]

theorem waitingUnheard {m : Message} (joined : Joined d attended (m :: waiting) coming) : d.unheard ≠ [] := by
  have long := messageLong m
  intro none
  have whole := congrArg List.length ((unheardWaiting joined).symm.trans none)
  rw [List.flatMap_cons, List.length_append, List.length_nil] at whole
  omega

theorem hearAllPlays {bound : Nat} (joined : Joined d attended waiting coming) (present : d.client.server ≠ none)
    (voiced : ∀ m ∈ attended ++ waiting, Client.Voiced config m) (sendable : ∀ m ∈ waiting, Message.Sendable m)
    (enough : waiting.length ≤ bound) : d.hearAll bound = d.play (List.replicate waiting.length .hear) := by
  induction waiting generalizing d attended coming bound with
  | nil => exact hearAllIdle (unheardWaiting joined) bound
  | cons m waiting ih =>
    obtain ⟨bound, rfl⟩ := Nat.exists_eq_add_of_le' (Nat.le_trans (Nat.succ_pos waiting.length) enough)
    have next := hearVoiced joined present voiced sendable
    rw [← hearClient d] at present
    have unread : d.unheard.isEmpty = false := by simpa using waitingUnheard joined
    rw [hearAll, if_neg (by simp [unread]), List.length_cons, List.replicate_succ, playCons, perform]
    exact ih next present (by simpa using voiced) (fun n member => sendable n (List.mem_cons_of_mem m member))
      (Nat.le_of_succ_le_succ enough)

theorem roundHears (joined : Joined d attended waiting coming) (present : d.client.server ≠ none)
    (voiced : ∀ m ∈ attended ++ waiting, Client.Voiced config m) (sendable : ∀ m ∈ waiting, Message.Sendable m) :
    let heard := d.hearAll d.client.sent.length
    Joined heard (attended ++ waiting) [] (saying attended waiting coming) ∧ heard.client = d.client := by
  have few : waiting.length ≤ d.client.sent.length := by
    rw [sentWritten, joined.written, List.length_append]
    exact Nat.le_add_left _ _
  dsimp only
  rw [hearAllPlays joined present voiced sendable few]
  exact hearsAll joined present voiced sendable

theorem leaveStays (joined : Joined d attended waiting coming) (stays : (hearing attended).exitCode = none) :
    d.leave = d := by
  simp [leave, joined.peer, Peer.exited, stays]

structure Live (config : Config) (nextId : Int) (d : Dialogue) : Prop where
  reached : Client.Reached config nextId d.client.quiet
  runs : Runs d
  held : d.client.held = true
  free : d.client.asking = none
  passed : d.unpassed = []

theorem liveIdle (live : Live config nextId d) : d.client.teardown = .none :=
  (Client.reachedCoherent live.reached).held live.held

theorem liveVoiced (live : Live config nextId d) (joined : Joined d attended waiting coming) :
    ∀ m ∈ attended ++ waiting, Client.Voiced config m := by
  have clear := Client.lodgedClear (c := d.client.quiet) joined.lodged (Client.reachedHoused live.reached)
  have voiced := Client.earlyVoiced live.reached (.inl (runsGoing live.runs)) clear
  rwa [Client.quietLog, joined.written] at voiced

theorem takeNothing (joined : Joined d attended waiting []) : d.client.take? = none := by
  cases took : d.client.take? with
  | none => rfl
  | some next =>
    obtain ⟨x, later, _, split, _⟩ := takeHears joined nofun took
    cases split

theorem performTaken {next : Client} (took : d.client.take? = some next) :
    d.perform (.client .take) = {d with client := next} := by
  simp [perform, Client.perform, took]

theorem drainLive {bound : Nat} (live : Live config nextId d) (joined : Joined d attended waiting coming)
    (sendable : ∀ x ∈ coming, Message.Sendable x ∧ x.normal = x) (enough : coming.length ≤ bound) :
    let later : Dialogue := {d with client := d.client.drain bound}
    Joined later attended (waiting ++ coming.flatMap answers) [] ∧ Live config nextId later ∧
      Retains d.client later.client := by
  induction coming generalizing d waiting bound with
  | nil =>
    simp only [Client.drainStarved (takeNothing joined)]
    exact ⟨by simpa using joined, live, Client.retainsSame _⟩
  | cons x coming ih =>
    obtain ⟨bound, rfl⟩ := Nat.exists_eq_add_of_le' (Nat.le_trans (Nat.succ_pos coming.length) enough)
    have present := runsPresent live.reached live.runs
    obtain ⟨next, took⟩ := Option.ne_none_iff_exists'.mp (takeReady joined present (runsListening live.runs)
      live.passed (sendable x List.mem_cons_self).1)
    have attached := ((Client.reachedCoherent live.reached).running live.runs.phase).2.2
    obtain ⟨step, continues⟩ := takeAnswers live.reached joined sendable attached
      (fun id _ _ _ awaited => by cases live.runs.link.symm.trans awaited) took
    obtain ⟨y, _, rest, _, _, heard⟩ := takeHears joined (fun y member => (sendable y member).1) took
    let c := d.client.updateServer fun s => {s with unread := rest}
    have retains : Retains d.client next := by
      obtain ⟨capabilities, nextId, log⟩ := Client.hearRetains (c := c) live.runs.link y.normal
      exact heard ▸ ⟨capabilities, nextId, log⟩
    have reached := performReached live.reached (.client .take)
    have same := performTaken took
    rw [same] at reached
    have live' : Live config nextId {d with client := next} :=
      ⟨reached, ⟨continues.phase.trans live.runs.phase, continues.link.trans live.runs.link⟩,
        continues.held.trans live.held, continues.asking live.free, live.passed⟩
    have drained : d.client.drain (bound + 1) = next.drain bound := by
      simp only [Client.drain, took]
      rw [Client.settleIdle (liveIdle live') (runsListening live'.runs)]
    obtain ⟨joined', live', retains'⟩ := ih live' step
      (fun y member => sendable y (List.mem_cons_of_mem x member)) (Nat.le_of_succ_le_succ enough)
    rw [List.append_assoc] at joined'
    simp only [drained]
    exact ⟨joined', live', Client.retainsThen retains retains'⟩

theorem comingLength (coming : List Message) : coming.length ≤ (coming.flatMap Message.octets).length := by
  induction coming with
  | nil => exact Nat.le_refl 0
  | cons x coming ih =>
    have long := messageLong x
    rw [List.flatMap_cons, List.length_append, List.length_cons]
    omega

theorem restLive (live : Live config nextId d) (joined : Joined d attended waiting coming)
    (sendable : ∀ x ∈ coming, Message.Sendable x ∧ x.normal = x) :
    Joined d.rest attended (waiting ++ coming.flatMap answers) [] ∧ Live config nextId d.rest ∧
      Retains d.client d.rest.client := by
  have unread : coming.length ≤ d.client.unread.length + 2 := by
    have pipe := joined.pipe
    rw [live.passed, List.append_nil] at pipe
    rw [pipe]
    exact Nat.le_add_right_of_le (comingLength coming)
  have drained := drainLive live joined sendable unread
  have idle := liveIdle drained.2.1
  have rests : d.rest = {d with client := d.client.drain (d.client.unread.length + 2)} := by
    rw [rest, Client.comeToRestListening (runsListening live.runs) live.free,
      Client.settleIdle idle (runsListening drained.2.1.runs)]
  rw [rests]
  exact drained

theorem roundLive (live : Live config nextId d) (joined : Joined d attended waiting coming)
    (heard : ∀ m ∈ waiting, Message.Sendable m)
    (said : ∀ x ∈ saying attended waiting coming, StandIn.Carried x ∧ Message.Sendable x) :
    Joined d.round (attended ++ waiting) ((saying attended waiting coming).flatMap answers) [] ∧
      Live config nextId d.round ∧ Retains d.client d.round.client := by
  have voiced := liveVoiced live joined
  have present := runsPresent live.reached live.runs
  obtain ⟨joined₁, same₁⟩ := roundHears joined present voiced heard
  have goes₁ := hearAllGoes d.client.sent.length d
  rw [round]
  generalize d.hearAll d.client.sent.length = h at joined₁ same₁ goes₁ ⊢
  have reached₁ := goesReached live.reached goes₁
  obtain ⟨joined₂, passed₂⟩ := passAll joined₁ (same₁ ▸ present) (Nat.le_refl _)
  have continues := passContinues h h.unpassed.length
  have retains : Retains d.client (h.pass h.unpassed.length).client :=
    same₁ ▸ Client.serverRetains (.writes (h.unpassed.take h.unpassed.length)) h.client
  have reached₂ := performReached reached₁ (.pass h.unpassed.length)
  rw [perform] at reached₂
  generalize h.pass h.unpassed.length = p at joined₂ passed₂ continues retains reached₂ ⊢
  rw [same₁] at continues
  have live₂ : Live config nextId p :=
    ⟨reached₂, runsContinues live.runs continues, continues.held.trans live.held, continues.asking live.free, passed₂⟩
  obtain ⟨joined₃, live₃, retains₃⟩ := restLive live₂ joined₂ fun x member => ⟨(said x member).2, (said x member).1.same⟩
  rw [leaveStays joined₃ (StandIn.hearingServes voiced).stays, restAgain]
  exact ⟨joined₃, live₃, Client.retainsThen retains retains₃⟩

theorem settleCalm (joined : Joined d attended [] []) (passed : d.unpassed = []) (bound : Nat) :
    d.settle bound = d := by
  have heard : d.unheard = [] := unheardWaiting joined
  cases bound <;> simp [settle, atRest, heard, passed]

theorem stepSettles (call : Client.Call) (d : Dialogue) :
    d.step (.host call) = (d.perform (.client (.host call))).rest.settle 8 := rfl

theorem settleOnce {m : Message} (joined : Joined d attended (m :: waiting) coming) (bound : Nat) :
    d.settle (bound + 1) = d.round.settle bound := by
  have unread : d.unheard.isEmpty = false := by simpa using waitingUnheard joined
  simp [settle, atRest, unread]

theorem settleLive {n : Nat} (live : Live config nextId d) (joined : Joined d attended waiting [])
    (heard : ∀ m ∈ waiting, Message.Sendable m)
    (said : ∀ x ∈ saying attended waiting [], StandIn.Carried x ∧ Message.Sendable x) :
    let later := d.settle (n + 2)
    Joined later (attended ++ waiting ++ (saying attended waiting []).flatMap answers) [] [] ∧
      Live config nextId later ∧ Retains d.client later.client := by
  have replies := carriedAnswers fun x member => (said x member).1
  cases waiting with
  | nil =>
    rw [settleCalm joined live.passed]
    exact ⟨by simpa [saying, attend] using joined, live, Client.retainsSame _⟩
  | cons m waiting =>
    rw [settleOnce joined]
    obtain ⟨joined₁, live₁, retains₁⟩ := roundLive live joined heard said
    generalize d.round = r at joined₁ live₁ retains₁ ⊢
    generalize (saying attended (m :: waiting) []).flatMap answers = last at replies joined₁ ⊢
    -- what waits for the stand-in now is only replies, and it says nothing to those
    have silent : saying (attended ++ m :: waiting) last [] = [] := settingsSilent _ replies
    cases last with
    | nil =>
      rw [List.append_nil, settleCalm joined₁ live₁.passed]
      exact ⟨joined₁, live₁, retains₁⟩
    | cons reply last =>
      rw [settleOnce joined₁]
      obtain ⟨joined₂, live₂, retains₂⟩ := roundLive live₁ joined₁
        (fun m member => replies m member ▸ settingsSendable) (by rw [silent]; exact List.forall_mem_nil _)
      rw [silent] at joined₂
      rw [settleCalm joined₂ live₂.passed]
      exact ⟨joined₂, live₂, Client.retainsThen retains₁ retains₂⟩

end Dialogue
end LspClient
