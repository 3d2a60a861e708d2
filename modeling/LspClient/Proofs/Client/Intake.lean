import LspClient.Proofs.Frame.Texts
import LspClient.Proofs.Client.Process
import LspClient.Proofs.Client.Lifecycle

/-! What a client takes in. The messages it has heard are those in the first frames of what its server has
written, and once it rests there is no further frame, unless its start has failed. -/
namespace LspClient.Client
open Utf8 (Octets)

variable {config : Config} {nextId : Int} {c after : Client}

def hearings (log : List Event) : List Message :=
  log.filterMap fun
    | .heard m => some m
    | _ => none

theorem hearingsAppend (log es : List Event) : hearings (log ++ es) = hearings log ++ hearings es :=
  List.filterMap_append

theorem hearingsNone {es : List Event} (silent : ∀ m, .heard m ∉ es) : hearings es = [] := by
  rw [hearings, List.filterMap_eq_nil_iff]
  intro e member
  split
  · exact absurd member (silent _)
  · rfl

theorem heardMember {log : List Event} {m : Message} : m ∈ hearings log ↔ .heard m ∈ log := by
  constructor
  · intro member
    obtain ⟨e, own, same⟩ := List.mem_filterMap.mp member
    cases e with
    | heard n => cases same; exact own
    | _ => cases same
  · exact fun member => List.mem_filterMap.mpr ⟨.heard m, member, rfl⟩

theorem deafUnheard {log : List Event} (deaf : hearings log = []) (id : Int) : Unheard id log := by
  intro result error heard
  have member := heardMember.mpr heard
  rw [deaf] at member
  cases member

theorem hearingsDeeds (c : Client) : hearings c.deeds = hearings c.log := by
  simp only [hearings, deeds, List.filterMap_filter]
  congr 1
  funext e
  cases e <;> rfl

theorem hearingsSame {log es : List Event} (silent : hearings es = []) :
    hearings (log ++ es) = hearings log := by
  rw [hearingsAppend, silent, List.append_nil]

theorem forsakenHearings (c : Client) : hearings c.forsaken = [] := by
  refine hearingsNone fun m member => ?_
  obtain ⟨name, other⟩ := forsakenPull member
  cases other

theorem deathHearings (c : Client) : hearings c.deathNote = [] := by
  unfold deathNote
  split <;> rfl

def StartFailed (log : List Event) : Prop := ∃ failure, .resolved .start (.failed failure) ∈ log

theorem failedStart (failure : Failure) (c : Client) : StartFailed (c.startFailed failure).log :=
  ⟨failure, by simp [startFailed]⟩

structure Hushed (c after : Client) : Prop where
  unread : after.unread = c.unread
  hearings : hearings after.log = hearings c.log
  link : after.link = .closed → c.link = .closed ∨ StartFailed after.log

theorem hushedSame {es : List Event} (unread : after.unread = c.unread) (log : after.log = c.log ++ es)
    (silent : Client.hearings es = []) (link : after.link = .closed → c.link = .closed) : Hushed c after :=
  ⟨unread, log ▸ hearingsSame silent, fun closed => .inl (link closed)⟩

theorem failedHushed (failure : Failure) (c : Client) : Hushed c (c.startFailed failure) := by
  refine ⟨failedUnread failure c, ?_, fun _ => .inr (failedStart failure c)⟩
  have silent : hearings [.resolved .start (.failed failure)] = [] := rfl
  rw [failureLog, failureNotes]
  simp only [hearingsAppend, forsakenHearings, deathHearings, silent, List.append_nil]

theorem calledHushed {call answer} (done : Called c call answer after) :
    Hushed c (after.note (.called call answer)) := by
  cases done with
  | start => exact hushedSame rfl rfl rfl nofun
  | drop =>
    refine hushedSame (bereftUnread c) (List.append_assoc _ _ _) ?_ id
    rw [hearingsAppend, deathHearings]
    rfl
  | openSent | changeSent | closeSent =>
    exact hushedSame (toldUnread _ c) (List.append_assoc _ [_] [_]) rfl id
  | stopUnstarted | stopOver | openLost | changeLost | closeLost | pullIdle =>
    exact hushedSame rfl (List.append_assoc _ [_] [_]) rfl id
  | startAgain | stop | openForeign | openOver | openAgain | openQueued | changeUnknown | changeOver
    | changeQueued | closeUnknown | closeUnsent => exact hushedSame rfl rfl rfl id

theorem takenHushed {m} (taken : Taken c m after) : Hushed c after := by
  cases taken with
  | @request asked method params =>
    rcases triedCases (Router.replyTo asked method params) c with ⟨_, same⟩ | ⟨_, same⟩ <;> rw [same]
    · exact hushedSame (toldUnread _ c) rfl rfl id
    · exact hushedSame rfl rfl rfl id
  | rejected | tooLate => exact hushedSame rfl (List.append_nil _).symm rfl nofun
  | readyLost =>
    refine hushedSame (toldUnread _ c) (List.append_assoc _ _ _) ?_ nofun
    exact (hearingsAppend _ _).trans (congrArg (· ++ []) (hearingsNone (by simp)))
  | ready =>
    refine hushedSame (toldUnread _ c) (List.append_assoc _ _ _) ?_ nofun
    exact (hearingsAppend _ _).trans (congrArg (· ++ []) (hearingsNone (by simp)))
  | pullAnswered => exact hushedSame rfl rfl rfl id
  | published | other | unasked | pullForestalled | shutdownAnswered =>
    exact hushedSame rfl (List.append_nil _).symm rfl id

theorem newsHearings (a : Pull) : hearings a.news = [] := by
  refine hearingsNone fun m member => ?_
  obtain ⟨outcome, _, other⟩ := List.mem_map.mp member
  cases other

theorem askHushed (c : Client) : Hushed c.quiet c.ask.quiet := by
  cases asking : c.asking with
  | none =>
    rw [askStill asking]
    exact hushedSame rfl (List.append_nil _).symm rfl id
  | some a =>
    cases refused : c.refusal with
    | none =>
      rw [askSent asking refused]
      refine hushedSame (toldUnread _ c.quiet) rfl ?_ id
      exact (hearingsAppend a.news _).trans (congrArg (· ++ []) (newsHearings a))
    | some failure =>
      rw [askLost asking refused]
      exact hushedSame rfl rfl rfl id

theorem giveUpHushed (c : Client) : Hushed c.quiet c.giveUp.quiet := by
  cases link : c.link with
  | failing failure =>
    simp only [giveUp, link]
    rw [quietFailStart]
    exact failedHushed failure c.quiet
  | _ =>
    simp only [giveUp, link]
    exact hushedSame rfl (List.append_nil _).symm rfl id

theorem spawnHushed (housed : Housed c.quiet) : Hushed c.quiet c.spawn.quiet := by
  have spawns := spawnSpawns c
  generalize c.spawn.quiet = after at spawns
  cases spawns with
  | idle => exact hushedSame rfl (List.append_nil _).symm rfl id
  | refused => exact hushedSame rfl (List.append_nil _).symm rfl nofun
  | spawned waiting =>
    have none : c.quiet.server = none := housed.bare (.inr ⟨_, waiting⟩)
    exact hushedSame (by simp [unread, none, Server.fresh]) rfl rfl (by simp)

theorem introduceHushed (c : Client) : Hushed c.quiet c.introduce.quiet := by
  have introduces := introduceIntroduces c
  generalize c.introduce.quiet = after at introduces
  cases introduces with
  | idle => exact hushedSame rfl (List.append_nil _).symm rfl id
  | sent => exact hushedSame (toldUnread _ _) rfl rfl nofun
  | lost => exact hushedSame rfl rfl rfl nofun
  | orphaned =>
    have unread := bereftUnread {c.quiet with attached := true, nextId := c.quiet.nextId + 1}
    exact hushedSame unread rfl (deathHearings _) nofun

theorem keptHushed (kept : Kept c after) (link : after.link = c.link)
    (heard : hearings after.log = hearings c.log) : Hushed c.quiet after.quiet := by
  have unread := kept.unread
  refine ⟨unread, ?_, fun closed => .inl (link.symm.trans closed)⟩
  rw [quietLog, quietLog, hearingsDeeds, hearingsDeeds, heard]

theorem traceHearings (direction : String) (m : Message) (c : Client) :
    hearings (c.traceMessage direction m).log = hearings c.log :=
  hearingsSame (hearingsNone (by simp))

theorem sendHearings (m : Message) (c : Client) : hearings (c.send m).1.log = hearings c.log := by
  have traced := traceHearings "Sending" m c
  unfold send
  simp only
  split <;> exact (hearingsSame rfl).trans traced

theorem sendLink (m : Message) (c : Client) : (c.send m).1.link = c.link :=
  (congrArg Client.link (quietSend m c)).trans (triedLink m c.quiet)

theorem beginHushed (c : Client) : Hushed c.quiet c.beginTeardown.quiet := by
  suffices same : c.beginTeardown.link = c.link ∧ hearings c.beginTeardown.log = hearings c.log from
    keptHushed (beginTeardownKept c) same.1 same.2
  unfold beginTeardown
  split
  · exact ⟨rfl, rfl⟩
  split
  · exact ⟨rfl, hearingsSame rfl⟩
  · exact ⟨rfl, hearingsSame rfl⟩

theorem askToShutDownHushed (c : Client) : Hushed c.quiet c.askToShutDown.quiet := by
  suffices same : c.askToShutDown.link = c.link ∧ hearings c.askToShutDown.log = hearings c.log from
    keptHushed (askToShutDownKept c) same.1 same.2
  cases teardown : c.teardown with
  | registered id =>
    let request := Request.shutdown id
    exact askToShutDownKeeps (P := fun d => d.link = c.link ∧ hearings d.log = hearings c.log) teardown
      ⟨sendLink request c, sendHearings request c⟩ fun _ _ _ same => same
  | _ => simp only [askToShutDown, teardown, and_self]

theorem sendExitHushed (c : Client) : Hushed c.quiet c.sendExit.quiet := by
  suffices same : c.sendExit.link = c.link ∧ hearings c.sendExit.log = hearings c.log from
    keptHushed (sendExitKept c) same.1 same.2
  unfold sendExit
  split
  · split
    · exact ⟨rfl, rfl⟩
    · split
      · exact ⟨sendLink Request.exit c, sendHearings Request.exit c⟩
      · exact ⟨rfl, rfl⟩
  · exact ⟨rfl, rfl⟩

theorem finishHushed (c : Client) : Hushed c.quiet c.finishTeardown.quiet := by
  suffices same : c.finishTeardown.link = c.link ∧ hearings c.finishTeardown.log = hearings c.log from
    keptHushed (finishTeardownKept c) same.1 same.2
  unfold finishTeardown
  split
  · exact ⟨rfl, hearingsSame rfl⟩
  · exact ⟨rfl, rfl⟩

theorem updateUnread (f : Server → Server) (same : ∀ s, (f s).unread = s.unread) (c : Client) :
    (c.updateServer f).unread = c.unread := by
  cases server : c.server <;> simp [updateServer, unread, server, same]

theorem serverUnread {act : ServerAct} (silent : ∀ octets, act ≠ .writes octets) (c : Client) :
    (c.serverAct act).unread = c.unread := by
  unfold serverAct
  split
  · rfl
  cases act with
  | writes octets => exact absurd rfl (silent octets)
  | murmurs octets =>
    simp only [serverMurmurs]
    split
    · rfl
    · rename_i s server
      generalize murmured (s.murmur ++ octets) = heard
      have shown := congrArg unread
        (quietDisplays heard.1 (c.updateServer fun s => {s with murmur := heard.2}))
      exact shown.trans (updateUnread (fun s => {s with murmur := heard.2}) (fun _ => rfl) c)
  | exits => exact (congrArg unread (quietVanish c)).trans (updateUnread Server.gone (fun _ => rfl) c)
  | endsOutput => exact updateUnread (fun s => {s with writes := false}) (fun _ => rfl) c
  | endsInput after =>
    exact updateUnread (fun s => {s with room := some (min after (s.room.getD after))}) (fun _ => rfl) c

theorem serverHushed {act : ServerAct} (silent : ∀ octets, act ≠ .writes octets) (c : Client) :
    Hushed c.quiet (c.serverAct act).quiet := by
  have unread := serverUnread silent c
  obtain ⟨server, same⟩ := serverOnly act c
  have heard := congrArg (fun c => hearings c.log) same
  have link := congrArg Client.link same
  exact ⟨unread, heard, fun closed => .inl (link.symm.trans closed)⟩

theorem hostHushed (call : Call) (c : Client) : Hushed c.quiet (c.hostCall call).1.quiet := by
  rcases hostCases c call with void | ⟨after, done, same⟩ | ⟨name, uri, rfl, free, running, same⟩
  · rw [void]
    exact hushedSame rfl (List.append_nil _).symm rfl id
  · rw [same]
    exact calledHushed done
  · rw [same, pull, if_pos running, quietNote rfl]
    exact hushedSame rfl rfl rfl id

def Move.isIntake : Move → Bool
  | .take | .server (.writes _) => true
  | _ => false

theorem performHushed (reached : Reached config nextId c.quiet) {move : Move}
    (other : move.isIntake = false) : Hushed c.quiet (c.perform move).quiet := by
  cases move with
  | host call => exact hostHushed call c
  | ask => exact askHushed c
  | spawn => exact spawnHushed (reachedHoused reached)
  | introduce => exact introduceHushed c
  | take => cases other
  | giveUp => exact giveUpHushed c
  | beginTeardown => exact beginHushed c
  | askToShutDown => exact askToShutDownHushed c
  | sendExit => exact sendExitHushed c
  | finishTeardown => exact finishHushed c
  | server act =>
    refine serverHushed (fun octets same => ?_) c
    rw [same] at other
    cases other
  | elsewhere taken => exact hushedSame rfl (List.append_nil _).symm rfl id

def adds (c : Client) : Move → Octets
  | .server (.writes octets) => if c.server.any fun s => s.alive && s.writes then octets else []
  | _ => []

def speech (c : Client) : List Move → Octets
  | [] => []
  | move :: moves => c.adds move ++ (c.perform move).speech moves

def Expects (c : Client) (more : Octets) (later : Bool) : Prop :=
  ∀ s, c.server = some s → Frame.MayFollow s.writes more later

/-- The messages heard are those of the first frames, and the unread octets are what follows these,
whatever is still to come. -/
structure Accounts (past : Octets) (c : Client) : Prop where
  heard : ∃ taken : List String, hearings c.log = taken.filterMap Message.parse? ∧
    ∀ more later, c.Expects more later →
      Frame.texts later (past ++ more) = taken ++ Frame.texts later (c.unread ++ more)
  spent : c.link = .closed → StartFailed c.log ∨
    ∀ more later, c.Expects more later → Frame.texts later (c.unread ++ more) = []

variable {past : Octets}

theorem accountsHushed (accounts : Accounts past c) (hushed : Hushed c after)
    (expects : ∀ more later, after.Expects more later → c.Expects more later)
    (grows : c.link = .closed → ∃ es, after.log = c.log ++ es) : Accounts past after := by
  obtain ⟨⟨taken, heard, frames⟩, spent⟩ := accounts
  refine ⟨⟨taken, hushed.hearings.trans heard, fun more later may => ?_⟩, fun closed => ?_⟩
  · rw [hushed.unread]
    exact frames more later (expects more later may)
  · rcases hushed.link closed with before | failed
    · obtain ⟨es, log⟩ := grows before
      refine (spent before).imp (fun ⟨failure, member⟩ => ⟨failure, by simp [log, member]⟩) fun none => ?_
      rw [hushed.unread]
      exact fun more later may => none more later (expects more later may)
    · exact .inl failed

theorem lessenedExpects {more : Octets} {later : Bool} (less : Lessened c.server after.server)
    (expects : after.Expects more later) : c.Expects more later := by
  obtain ⟨f, same, less⟩ := less
  intro s server silent
  refine expects (f s) (by simp [same, server]) (Bool.eq_false_iff.mpr fun writes => ?_)
  exact nomatch silent.symm.trans ((less s server).2 writes)

theorem turnExpects {more : Octets} {later : Bool} (housed : Housed c) (turn : Turn c after)
    (expects : after.Expects more later) : c.Expects more later := by
  rcases turnLessened turn with less | ⟨waiting, _⟩
  · exact lessenedExpects less expects
  · exact fun s server => nomatch server.symm.trans (housed.bare (.inr ⟨_, waiting⟩))

theorem writesOpen {s : Server} (octets : Octets) (server : c.server = some s) (alive : s.alive = true)
    (writes : s.writes = true) : c.adds (.server (.writes octets)) = octets ∧
      (c.serverAct (.writes octets)).quiet = c.quiet.readOn s (s.unread ++ octets) := by
  constructor
  · simp [adds, server, alive, writes]
  · simp [serverAct, exited, updateServer, quiet, deeds, readOn, server, alive, writes]

theorem writesShut (octets : Octets) (shut : ∀ s, c.server = some s → ¬ (s.alive = true ∧ s.writes = true)) :
    c.adds (.server (.writes octets)) = [] ∧ c.serverAct (.writes octets) = c := by
  cases server : c.server with
  | none => simp [adds, serverAct, exited, server]
  | some s =>
    have shut := shut s server
    have nothing : c.adds (.server (.writes octets)) = [] := by
      simp only [adds, server, Option.any_some]
      exact if_neg (by simpa using shut)
    refine ⟨nothing, ?_⟩
    cases alive : s.alive with
    | false => simp [serverAct, exited, server, alive]
    | true =>
      have silent : s.writes = false := by simpa [alive] using shut
      have same : (c.server.map fun s => if s.writes then {s with unread := s.unread ++ octets} else s) =
          c.server := by simp [server, silent]
      have living : c.exited ≠ true := by simp [exited, server, alive]
      rw [serverAct, if_neg living]
      simp only [updateServer, same]

theorem writesAccounts (octets : Octets) (accounts : Accounts past c.quiet) :
    Accounts (past ++ c.adds (.server (.writes octets))) (c.serverAct (.writes octets)).quiet := by
  by_cases open' : ∃ s, c.server = some s ∧ s.alive = true ∧ s.writes = true
  · obtain ⟨s, server, alive, writes⟩ := open'
    obtain ⟨added, same⟩ := writesOpen octets server alive writes
    obtain ⟨⟨taken, heard, frames⟩, spent⟩ := accounts
    rw [added, same]
    have own : c.quiet.unread = s.unread := by simp [unread, quiet, server]
    have longer : (c.quiet.readOn s (s.unread ++ octets)).unread = c.quiet.unread ++ octets := by
      rw [own]
      rfl
    -- a server that still writes may bring anything, in particular these octets and what follows them
    have expects (more : Octets) (later : Bool) : c.quiet.Expects (octets ++ more) later := by
      intro s' server' silent
      cases server.symm.trans server'
      cases writes.symm.trans silent
    refine ⟨⟨taken, heard, fun more later _ => ?_⟩,
      fun closed => (spent closed).imp_right fun none more later _ => ?_⟩
    · rw [longer, List.append_assoc, List.append_assoc]
      exact frames (octets ++ more) later (expects more later)
    · rw [longer, List.append_assoc]
      exact none (octets ++ more) later (expects more later)
  · obtain ⟨added, same⟩ := writesShut octets fun s server able => open' ⟨s, server, able⟩
    rwa [added, same, List.append_nil]

theorem readAccounts {s : Server} {text : String} {rest : Octets} (server : c.server = some s)
    (frame : Frame.read s.writes s.unread = .body text rest) (listening : c.listening = true)
    (accounts : Accounts past c) : Accounts past
      {c.readOn s rest with log := c.log ++ (Message.parse? text).toList.map .heard} := by
  obtain ⟨taken, heard, frames⟩ := accounts.heard
  refine ⟨⟨taken ++ [text], ?_, fun more later expects => ?_⟩, fun closed => ?_⟩
  · have new : hearings ((Message.parse? text).toList.map .heard) = [text].filterMap Message.parse? := by
      cases parsed : Message.parse? text <;> simp [hearings, parsed]
    simp only [hearingsAppend, new, heard, List.filterMap_append]
  · have follows : Frame.MayFollow s.writes more later := expects {s with unread := rest} rfl
    have own : c.unread = s.unread := by simp [unread, server]
    rw [frames more later fun s' server' => by cases server.symm.trans server'; exact follows, own,
      Frame.textsFollowed frame follows, List.append_assoc]
    rfl
  · have closed : c.link = .closed := closed
    simp [Client.listening, closed] at listening

theorem takeAccounts (reached : Reached config nextId c.quiet) (accounts : Accounts past c.quiet)
    (took : c.take? = some after) : Accounts past after.quiet := by
  have turn := takeTurn took
  have unclosed (closed : c.link = .closed) : False := by
    have listening := (takeCases took).1
    simp [Client.listening, closed] at listening
  obtain ⟨listening, s, server, ⟨text, rest, frame, same⟩ | ⟨decided, none, same⟩⟩ := takeCases took
  · have read := readAccounts (c := c.quiet) server frame listening accounts
    have updated := readOnQuiet server rest
    rw [same]
    cases parsed : Message.parse? text with
    | none =>
      simp only [receive, parsed, Option.toList_none, List.map_nil, List.append_nil] at read ⊢
      rw [updated]
      exact read
    | some m =>
      have hearing := hearTaken m (c.updateServer fun s => {s with unread := rest})
      simp only [receive, parsed, Option.toList_some, List.map_cons, List.map_nil] at read ⊢
      rw [updated] at hearing
      refine accountsHushed read (takenHushed hearing) (fun _ _ => lessenedExpects (takenLessened hearing)) ?_
      exact fun closed => (unclosed closed).elim
  · cases link : c.link with
    | handshake id =>
      rw [same] at turn ⊢
      refine accountsHushed accounts ?_ (fun _ _ => turnExpects (reachedHoused reached) turn)
        fun closed => (unclosed closed).elim
      rw [loseHandshake link]
      exact hushedSame rfl rfl rfl (by simp)
    | pumping =>
      obtain ⟨taken, heard, frames⟩ := accounts.heard
      have silent : hearings ((c.quiet.log ++ [.ended]) ++ c.quiet.forsaken) = hearings c.quiet.log :=
        (hearingsSame (forsakenHearings c.quiet)).trans (hearingsSame rfl)
      have own : c.quiet.unread = s.unread := by simp [unread, quiet, server]
      -- the front of what is left is no frame, so nothing that may still come makes it one
      rw [same, losePumping link]
      refine ⟨⟨taken, silent.trans heard, frames⟩, fun _ => .inr fun more later expects => ?_⟩
      have spent := Frame.textsOver decided none (expects s server)
      rwa [← own] at spent
    | _ => simp [Client.listening, link] at listening

theorem performAccounts (reached : Reached config nextId c.quiet) (accounts : Accounts past c.quiet)
    (move : Move) : Accounts (past ++ c.adds move) (c.perform move).quiet := by
  cases intake : move.isIntake with
  | false =>
    have turn := reachedTurn reached move
    have nothing : c.adds move = [] := by
      unfold adds
      split
      · cases intake
      · rfl
    rw [nothing, List.append_nil]
    exact accountsHushed accounts (performHushed reached intake)
      (fun _ _ => turnExpects (reachedHoused reached) turn) fun _ => askedLog (reachedAsked reached turn)
  | true =>
    cases move with
    | take =>
      have nothing : c.adds .take = [] := rfl
      rw [nothing, List.append_nil, perform]
      cases took : c.take? with
      | none => exact accounts
      | some after => exact takeAccounts reached accounts took
    | server act =>
      cases act with
      | writes octets => exact writesAccounts octets accounts
      | _ => cases intake
    | _ => cases intake

theorem playAccounts (reached : Reached config nextId c.quiet) (accounts : Accounts past c.quiet)
    (moves : List Move) : Accounts (past ++ c.speech moves) (c.play moves).quiet := by
  induction moves generalizing c past with
  | nil =>
    rw [speech, List.append_nil]
    exact accounts
  | cons move moves ih =>
    have later := ih (performReached reached move) (performAccounts reached accounts move)
    rwa [List.append_assoc] at later

theorem newAccounts (config : Config) (nextId : Int) (moves : List Move) :
    Accounts ((new config nextId).speech moves) ((new config nextId).play moves).quiet := by
  have none : Accounts [] (new config nextId).quiet := ⟨⟨[], rfl, fun _ _ _ => rfl⟩, nofun⟩
  exact playAccounts .new none moves

def growing (c : Client) : Bool := c.server.any Server.writes

def messages (growing : Bool) (output : Octets) : List Message :=
  (Frame.texts growing output).filterMap Message.parse?

theorem expectsNothing (c : Client) : c.Expects [] c.growing := by
  intro s server silent
  exact ⟨rfl, by simp [growing, server, silent]⟩

theorem accountsMessages (accounts : Accounts past c.quiet) :
    messages c.growing past = hearings c.deeds ++ messages c.growing c.unread := by
  obtain ⟨taken, heard, frames⟩ := accounts.heard
  have now := frames [] c.growing (expectsNothing c.quiet)
  rw [List.append_nil, List.append_nil] at now
  rw [messages, now, List.filterMap_append, ← quietLog, heard]
  rfl

theorem restTexts (reached : Reached config nextId c.quiet) (accounts : Accounts past c.quiet)
    (resting : c.Resting) (started : ¬ StartFailed c.deeds) : Frame.texts c.growing c.unread = [] := by
  have still := restingStill.mp resting
  cases link : c.link with
  | idle =>
    have none : c.server = none := (reachedHoused reached).bare (.inl link)
    have silent : c.unread = [] := by simp [unread, none]
    rw [silent]
    refine Frame.textsNone fun text rest taken => ?_
    exact absurd (Frame.readRest taken) (Nat.not_lt_zero _)
  | launching refused => exact absurd (.inl ⟨refused, link⟩) still.met
  | launched => exact absurd (.inr link) still.met
  | failing failure => exact absurd link (still.cleaned failure)
  | closed =>
    have spent := (accounts.spent link).resolve_left started [] c.growing (expectsNothing c.quiet)
    rwa [List.append_nil] at spent
  | handshake | pumping =>
    have listening : c.listening = true := by simp [listening, link]
    have present : c.server ≠ none := reachedServed (c := c.quiet) reached (.inr listening)
    cases server : c.server with
    | none => exact absurd server present
    | some s =>
      have starved := takeNone.mp still.taken listening s.writes s.unread (by simp [output, server])
      refine Frame.textsNone ?_
      simp [growing, unread, server, starved]

theorem restMessages (reached : Reached config nextId c.quiet) (accounts : Accounts past c.quiet)
    (resting : c.Resting) (started : ¬ StartFailed c.deeds) : hearings c.deeds = messages c.growing past := by
  have left : messages c.growing c.unread = [] :=
    congrArg (List.filterMap Message.parse?) (restTexts reached accounts resting started)
  rw [accountsMessages accounts, left, List.append_nil]

end LspClient.Client
