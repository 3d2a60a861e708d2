import LspClient.Peer.Dialogue
import LspClient.Proofs.Client.Aftermath
import LspClient.Proofs.Client.Lodged
import LspClient.Proofs.Peer.Echo

/-! A client and the stand-in, joined by their pipes. As long as the client has not begun to stop, nothing is lost
between them: what the stand-in has read is what the client wrote first, and what is on its way to the client
is what the stand-in said last. -/
namespace LspClient
open Utf8 (Octets)

namespace Client

def Heeds (log : List Event) : Prop :=
  ∀ before, before <+: log → hearings before <+: StandIn.echo (written before)

theorem heedsLater {log es : List Event} (heeds : Heeds log)
    (new : hearings (log ++ es) <+: StandIn.echo (written log)) : Heeds (log ++ es) := by
  intro before ⟨rest, whole⟩
  rcases List.append_eq_append_iff.mp whole with ⟨short, start, _⟩ | ⟨first, start, last⟩
  · exact heeds before ⟨short, start.symm⟩
  · rw [last, ← List.append_assoc, ← start, hearingsAppend] at new
    refine ((List.prefix_append _ _).trans new).trans (StandIn.echoPrefix ?_)
    rw [start, writtenAppend]
    exact List.prefix_append _ _

end Client

namespace Dialogue
open Client (hearings written Heeds)
open StandIn (echo hearing Carried Fair)

variable {config : Config} {nextId : Int} {d : Dialogue} {attended waiting coming : List Message}

structure Fit (d : Dialogue) : Prop where
  ranged : ∀ m ∈ d.client.sent, m.Ranged
  small : ∀ m ∈ d.client.sent, (Utf8.ofString m.body).length ≤ Frame.limit
  said : ∀ j ∈ d.said, (Utf8.ofString j.compact).length ≤ Frame.limit

/-- What the stand-in has read and what waits for it, what it has said and what of that is to come. -/
structure Joined (d : Dialogue) (attended waiting coming : List Message) : Prop where
  link : d.client.link ≠ .closed
  lodged : d.client.Lodged
  written : written d.client.deeds = attended ++ waiting
  read : d.read = (attended.flatMap Message.octets).length
  peer : d.peer = .standIn (hearing attended)
  said : d.said = (echo attended).map Message.toJson
  heard : echo attended = hearings d.client.deeds ++ coming
  pipe : d.client.unread ++ d.unpassed = coming.flatMap Message.octets
  passed : d.passed ≤ ((echo attended).flatMap Message.octets).length
  heeds : Heeds d.client.deeds

theorem unheardWaiting (joined : Joined d attended waiting coming) :
    d.unheard = waiting.flatMap Message.octets := by
  rw [unheard, ← Client.sentQuiet, joined.read]
  have sent : d.client.quiet.sent = attended ++ waiting := joined.written
  rw [sent, List.flatMap_append, List.drop_left]

theorem saidOctets (xs : List Message) :
    ((xs.map Message.toJson).flatMap fun j => Utf8.ofString (Frame.write j.compact)) =
      xs.flatMap Message.octets :=
  List.flatMap_map _ _ _

theorem unpassedSaid (joined : Joined d attended waiting coming) :
    d.unpassed = ((echo attended).flatMap Message.octets).drop d.passed := by
  rw [unpassed, joined.said, saidOctets]

theorem joinedStep {c : Client} {passed : Nat} {es : List Event} {later : List Message}
    (joined : Joined d attended waiting coming) (log : c.deeds = d.client.deeds ++ es) (link : c.link ≠ .closed)
    (lodged : c.Lodged) (heard : echo attended = hearings c.deeds ++ later)
    (pipe : c.unread ++ ((echo attended).flatMap Message.octets).drop passed = later.flatMap Message.octets)
    (within : passed ≤ ((echo attended).flatMap Message.octets).length) :
    Joined {d with client := c, passed := passed} attended (waiting ++ written es) later where
  link := link
  lodged := lodged
  written := by rw [log, Client.writtenAppend, joined.written, List.append_assoc]
  read := joined.read
  peer := joined.peer
  said := joined.said
  heard := heard
  pipe := by rwa [unpassed, joined.said, saidOctets]
  passed := within
  heeds := by
    have grows : attended <+: written d.client.deeds := joined.written ▸ List.prefix_append _ _
    have heeded : hearings c.deeds <+: echo attended := heard ▸ List.prefix_append _ _
    rw [log] at heeded ⊢
    exact Client.heedsLater joined.heeds (heeded.trans (StandIn.echoPrefix grows))

theorem performGrows (reached : Client.Reached config nextId d.client.quiet) (move : Client.Move) :
    ∃ es, (d.client.perform move).deeds = d.client.deeds ++ es :=
  Client.askedLog (Client.reachedAsked reached (Client.reachedTurn reached move))

theorem staysOpen (reached : Client.Reached config nextId d.client.quiet)
    (joined : Joined d attended waiting coming) (move : Client.Move) (going : ¬ (d.client.perform move).Over)
    (link : (d.client.perform move).link = .closed →
      d.client.link = .closed ∨ Client.StartFailed (d.client.perform move).deeds) :
    (d.client.perform move).link ≠ .closed := by
  intro closed
  rcases link closed with before | failed
  · exact joined.link before
  · exact going (.inr (Client.reachedBroken (Client.performReached reached move) failed).stopped)

theorem hushedKeeps (reached : Client.Reached config nextId d.client.quiet)
    (joined : Joined d attended waiting coming) {move : Client.Move} (hushed : move.isIntake = false)
    (open' : (d.client.perform move).link ≠ .closed) (lodged : (d.client.perform move).Lodged) :
    ∃ more, Joined {d with client := d.client.perform move} attended (waiting ++ more) coming := by
  obtain ⟨es, log⟩ := performGrows reached move
  obtain ⟨unread, heard, _⟩ := Client.performHushed reached hushed
  refine ⟨_, joinedStep joined log open' lodged ?_ ?_ joined.passed⟩
  · exact joined.heard.trans (congrArg (· ++ coming) heard.symm)
  · rw [← unpassedSaid joined]
    exact (congrArg (· ++ d.unpassed) unread).trans joined.pipe

theorem hushedStep (reached : Client.Reached config nextId d.client.quiet)
    (joined : Joined d attended waiting coming) {move : Client.Move} (gentle : move.isGentle = true)
    (hushed : move.isIntake = false) (going : ¬ (d.client.perform move).Over) :
    ∃ more, Joined {d with client := d.client.perform move} attended (waiting ++ more) coming := by
  have link := (Client.performHushed reached hushed).link
  exact hushedKeeps reached joined hushed (staysOpen reached joined move going link)
    (Client.gentleLodged reached joined.lodged gentle hushed going)

theorem frontRead {x : Message} {later : List Message} {stream more : Octets} (sendable : Message.Sendable x)
    (whole : stream ++ more = (x :: later).flatMap Message.octets) (decided : Frame.read true stream ≠ .starved) :
    ∃ rest, Frame.read true stream = .body x.body rest ∧ rest ++ more = later.flatMap Message.octets := by
  have follows : Frame.MayFollow true more true := nofun
  have sole : Frame.read true (stream ++ more) = .body x.body (later.flatMap Message.octets) := by
    rw [whole]
    exact Frame.readWritten sendable.small
  rw [Frame.readFollowed decided follows] at sole
  cases front : Frame.read true stream with
  | body text rest =>
    rw [front] at sole
    injection sole with text' rest'
    exact ⟨rest, congrArg (Frame.Outcome.body · rest) text', rest'⟩
  | ended | fault | starved =>
    rw [front] at sole
    cases sole

theorem takeHears {after : Client} (joined : Joined d attended waiting coming)
    (sendable : ∀ x ∈ coming, Message.Sendable x) (took : d.client.take? = some after) :
    ∃ x later rest, coming = x :: later ∧ rest ++ d.unpassed = later.flatMap Message.octets ∧
      after = (d.client.updateServer fun s => {s with unread := rest}).hear x.normal := by
  obtain ⟨_, s, server, frame⟩ := Client.takeCases took
  have own : d.client.unread = s.unread := by simp [Client.unread, server]
  have pipe := joined.pipe
  rw [own] at pipe
  rw [(joined.lodged s server).writes] at frame
  have decided : Frame.read true s.unread ≠ .starved := by
    rcases frame with ⟨text, rest, body, _⟩ | ⟨decided, _⟩
    · simp [body]
    · exact decided
  cases coming with
  | nil =>
    -- with nothing on its way there is no frame to read
    obtain ⟨none, _⟩ := List.append_eq_nil_iff.mp pipe
    rw [none] at decided
    exact absurd rfl decided
  | cons x later =>
    have first := sendable x List.mem_cons_self
    obtain ⟨rest, front, left⟩ := frontRead first pipe decided
    rcases frame with ⟨text, rest', body, same⟩ | ⟨_, other, _⟩
    · rw [front] at body
      injection body with text' same'
      refine ⟨x, later, rest, rfl, left, ?_⟩
      rw [same, ← text', ← same', Client.receive, Message.bodyParsed first]
    · exact absurd front (other x.body rest)

theorem takeKeeps {after : Client} (reached : Client.Reached config nextId d.client.quiet)
    (joined : Joined d attended waiting coming)
    (sendable : ∀ x ∈ coming, Message.Sendable x ∧ x.normal = x) (took : d.client.take? = some after)
    (open' : after.link ≠ .closed) :
    ∃ x later more, coming = x :: later ∧
      Joined {d with client := after} attended (waiting ++ more) later := by
  obtain ⟨x, later, rest, rfl, pipe, same⟩ := takeHears joined (fun x member => (sendable x member).1) took
  rw [(sendable x List.mem_cons_self).2] at same
  let c := d.client.updateServer fun s => {s with unread := rest}
  have lodged : c.Lodged := Client.readLodged joined.lodged rest
  obtain ⟨_, s, server, _⟩ := Client.takeCases took
  have left : c.unread = rest := by simp [c, Client.unread, Client.updateServer, server]
  have taken : after = d.client.perform .take := by rw [Client.perform, took, Option.getD_some]
  obtain ⟨es, log⟩ := performGrows reached .take
  obtain ⟨unread, heard, _⟩ := Client.takenHushed (Client.hearTaken x c)
  rw [← taken] at log
  rw [← same] at unread heard
  have heard : hearings after.deeds = hearings d.client.deeds ++ [x] :=
    heard.trans (Client.hearingsAppend d.client.deeds [.heard x])
  refine ⟨x, later, _, rfl, joinedStep joined log open' ?_ ?_ ?_ joined.passed⟩
  · rw [same] at open' ⊢
    exact Client.hearLodged x lodged
  · rw [heard, List.append_assoc]
    exact joined.heard
  · rw [← unpassedSaid joined]
    exact (congrArg (· ++ d.unpassed) (unread.trans left)).trans pipe

theorem takeStep {after : Client} (reached : Client.Reached config nextId d.client.quiet)
    (joined : Joined d attended waiting coming)
    (sendable : ∀ x ∈ coming, Message.Sendable x ∧ x.normal = x) (took : d.client.take? = some after)
    (going : ¬ after.Over) :
    ∃ x later more, coming = x :: later ∧
      Joined {d with client := after} attended (waiting ++ more) later := by
  obtain ⟨x, later, rest, _, _, same⟩ := takeHears joined (fun x member => (sendable x member).1) took
  have taken : after = d.client.perform .take := by rw [Client.perform, took, Option.getD_some]
  have link := (Client.takenHushed
    (Client.hearTaken x.normal (d.client.updateServer fun s => {s with unread := rest}))).link
  rw [← same] at link
  refine takeKeeps reached joined sendable took ?_
  rw [taken] at going link ⊢
  exact staysOpen reached joined .take going link

theorem servedWritten (reached : Client.Reached config nextId d.client.quiet)
    (joined : Joined d attended waiting coming) :
    d.client.server ≠ none ∨ attended = [] ∧ waiting = [] := by
  by_cases bare : d.client.server = none
  · have silent := Client.bareUnwritten reached bare
    exact .inr (List.append_eq_nil_iff.mp (joined.written.symm.trans silent))
  · exact .inl bare

theorem servedLiving (joined : Joined d attended waiting coming) (present : d.client.server ≠ none) :
    d.client.exited = false := Client.lodgedLives joined.lodged present

theorem handleNormal (s : StandIn) (m : Message) : s.handle m.normal = s.handle m := by
  cases m with
  | response id result error => cases error <;> rfl
  | request | notification => rfl

theorem hearClient (d : Dialogue) : d.hear.client = d.client := by
  unfold hear
  split
  · rfl
  · split <;> rfl

theorem hearPassed (d : Dialogue) : d.hear.passed = d.passed := by
  unfold hear
  split
  · rfl
  · split <;> rfl

theorem hearNothing (joined : Joined d attended [] coming) : d.hear = d := by
  have none : d.unheard = [] := unheardWaiting joined
  have starved : Frame.read true [] = .starved := rfl
  rw [hear, none, starved]
  simp

section
variable {m : Message} (joined : Joined d attended (m :: waiting) coming) (living : d.client.exited = false)
  (sendable : Message.Sendable m) (stays : (hearing attended).exitCode = none)
include joined living sendable stays

theorem hearNext :
    d.hear = {d with
      peer := .standIn (hearing (attended ++ [m])), read := d.read + m.octets.length
      said := d.said ++ ((hearing attended).handle m).2.map Message.toJson} := by
  have frame : Frame.read true (m.octets ++ waiting.flatMap Message.octets) =
      .body m.body (waiting.flatMap Message.octets) := Frame.readWritten sendable.small
  have heard : (hearing attended).hear m.body = (hearing attended).handle m := by
    rw [StandIn.hear, Message.bodyParsed sendable]
    exact handleNormal _ m
  have after : hearing (attended ++ [m]) = ((hearing attended).handle m).1 := StandIn.hearingAppend _ _
  have going : ¬ (d.client.exited || d.peer.exited) = true := by
    simp [living, joined.peer, Peer.exited, stays]
  have next := unheardWaiting joined
  rw [List.flatMap_cons] at next
  rw [hear, if_neg going, next, frame, after]
  simp only [joined.peer, Peer.hear, heard, List.length_append, Nat.add_sub_cancel]

theorem hearStep :
    Joined d.hear (attended ++ [m]) waiting (coming ++ ((hearing attended).handle m).2) := by
  have said : echo (attended ++ [m]) = echo attended ++ ((hearing attended).handle m).2 := by
    rw [StandIn.echoAppend, StandIn.attend, StandIn.attend, List.append_nil]
  have longer : (echo (attended ++ [m])).flatMap Message.octets = (echo attended).flatMap Message.octets ++
      ((hearing attended).handle m).2.flatMap Message.octets := by rw [said, List.flatMap_append]
  rw [hearNext joined living sendable stays]
  refine ⟨joined.link, joined.lodged, ?_, ?_, rfl, ?_, ?_, ?_, ?_, joined.heeds⟩
  · rw [joined.written, List.append_assoc]
    rfl
  · simp [joined.read]
  · rw [joined.said, said, List.map_append]
  · rw [said, joined.heard, List.append_assoc]
  · have pipe := joined.pipe
    rw [unpassedSaid joined] at pipe
    rw [unpassed, joined.said, ← List.map_append, saidOctets, List.flatMap_append,
      List.drop_append_of_le_length joined.passed, ← List.append_assoc, pipe, List.flatMap_append]
  · rw [longer, List.length_append]
    exact Nat.le_trans joined.passed (Nat.le_add_right _ _)

end

theorem passNothing {count : Nat} (none : d.unpassed.take count = []) : d.pass count = d := by
  have same : d.client.serverAct (.writes []) = d.client := by
    unfold Client.serverAct
    split
    · rfl
    · simp [Client.updateServer]
  simp [pass, none, Client.perform, same]

theorem passEmpty (none : d.unpassed = []) (count : Nat) : d.pass count = d :=
  passNothing (by rw [none, List.take_nil])

theorem takeThenDrop (octets : Octets) (count : Nat) :
    octets.take count ++ octets.drop (octets.take count).length = octets := by
  rw [List.length_take]
  rcases Nat.le_total count octets.length with short | long
  · rw [Nat.min_eq_left short, List.take_append_drop]
  · rw [Nat.min_eq_right long, List.take_of_length_le long, List.drop_length, List.append_nil]

theorem passStep (joined : Joined d attended waiting coming) (present : d.client.server ≠ none) (count : Nat) :
    Joined (d.pass count) attended waiting coming := by
  obtain ⟨s, server⟩ := Option.ne_none_iff_exists'.mp present
  have sound := joined.lodged s server
  have whole := unpassedSaid joined
  let octets := d.unpassed.take count
  have same := (Client.writesOpen octets server sound.alive sound.writes).2
  have log : (d.client.serverAct (.writes octets)).deeds = d.client.deeds := congrArg Client.log same
  have link := congrArg Client.link same
  simp only [Client.quiet, Client.readOn] at link
  have own : d.client.unread = s.unread := by simp [Client.unread, server]
  have unread : (d.client.serverAct (.writes octets)).unread = d.client.unread ++ octets :=
    (congrArg Client.unread same).trans (congrArg (· ++ octets) own.symm)
  have few : octets.length ≤ ((echo attended).flatMap Message.octets).length - d.passed := by
    rw [← List.length_drop, ← whole]
    exact List.length_take_le' _ _
  have passed := joined.passed
  have pipe : (d.client.serverAct (.writes octets)).unread ++
      ((echo attended).flatMap Message.octets).drop (d.passed + octets.length) =
        coming.flatMap Message.octets := by
    rw [unread, ← List.drop_drop, ← whole, List.append_assoc, takeThenDrop]
    exact joined.pipe
  have kept := joinedStep joined (log.trans (List.append_nil _).symm) (link ▸ joined.link)
    (Client.writesLodged octets joined.lodged) (log ▸ joined.heard) pipe (by omega)
  exact List.append_nil waiting ▸ kept

theorem sentWritten (d : Dialogue) : d.client.sent = written d.client.deeds := (Client.sentQuiet d.client).symm

theorem joinedFair (reached : Client.Reached config nextId d.client.quiet)
    (joined : Joined d attended waiting coming) (staying : d.client.Staying) (fit : Fit d) :
    Fair config (attended ++ waiting) := by
  have clear := Client.lodgedClear (c := d.client.quiet) joined.lodged (Client.reachedHoused reached)
  have voiced := Client.earlyVoiced reached staying clear
  obtain ⟨ranged, small, _⟩ := fit
  rw [sentWritten, joined.written] at ranged small
  rw [Client.quietLog, joined.written] at voiced
  exact fun m member => ⟨voiced m member, ranged m member, small m member⟩

theorem carriedSendable (joined : Joined d attended waiting coming) (carried : ∀ x ∈ echo attended, Carried x)
    (fit : Fit d) : ∀ x ∈ coming, Message.Sendable x ∧ x.normal = x := by
  intro x member
  have told : x ∈ echo attended := joined.heard ▸ List.mem_append_right _ member
  have small := fit.said x.toJson (joined.said ▸ List.mem_map_of_mem told)
  exact ⟨⟨(carried x told).ranged, (carried x told).plain, small⟩, (carried x told).same⟩

theorem comingSendable (joined : Joined d attended waiting coming) (fair : Fair config attended) (fit : Fit d) :
    ∀ x ∈ coming, Message.Sendable x ∧ x.normal = x :=
  carriedSendable joined (StandIn.echoCarried fair) fit

theorem settingsReply {id : Int} {method : String} {params : Option Json}
    (asks : .request id method params = StandIn.asking) :
    Router.replyTo id method params = .response 1 (some (.array [.null])) none := by
  injection asks with id method params
  subst id method params
  rfl

theorem replyPlain {m : Message} (reached : Client.Reached config nextId d.client.quiet)
    (joined : Joined d attended waiting coming) (carried : ∀ x ∈ echo attended, Carried x)
    (wrote : m ∈ attended ++ waiting) (reply : m.isReply = true) : Json.Plain Json.depthLimit m.toJson := by
  have member : .wrote m ∈ d.client.quiet.log := Client.memWritten.mpr (joined.written ▸ wrote)
  obtain ⟨before, rest, split⟩ := List.append_of_mem member
  obtain ⟨first, id, method, params, rfl, rfl⟩ := (Client.reachedAllowed reached before m rest split).1 reply
  have heard : .request id method params ∈ hearings d.client.deeds := by
    rw [← Client.quietLog, split]
    exact List.mem_filterMap.mpr ⟨.heard (.request id method params), by simp, rfl⟩
  have told : .request id method params ∈ echo attended := joined.heard ▸ List.mem_append_left _ heard
  have asks := (carried _ told).asks id method params rfl
  rw [settingsReply asks]
  exact Message.resultPlain (by decide) (.array (List.forall_mem_singleton.mpr .null))

theorem waitingSendable (reached : Client.Reached config nextId d.client.quiet)
    (joined : Joined d attended waiting coming) (fair : Fair config (attended ++ waiting)) :
    ∀ m ∈ attended ++ waiting, Message.Sendable m := by
  intro m member
  obtain ⟨voiced, ranged, small⟩ := fair m member
  refine ⟨ranged, ?_, small⟩
  cases reply : m.isReply with
  | true => exact replyPlain reached joined (StandIn.echoCarried (StandIn.fairFirst fair)) member reply
  | false => exact Client.voicedPlain voiced ranged reply

theorem performJoined (reached : Client.Reached config nextId d.client.quiet)
    (joined : Joined d attended waiting coming) (move : Move) (going : ¬ (d.perform move).client.Over)
    (fit : Fit d) (before : ¬ d.client.Over) :
    ∃ attended waiting coming, Joined (d.perform move) attended waiting coming := by
  have fair := joinedFair reached joined (.inl before) fit
  have attendedFair := StandIn.fairFirst fair
  have serves := StandIn.fairServes attendedFair
  have stays : d.peer.exited = false := by rw [joined.peer, Peer.exited, serves.stays]; rfl
  cases move with
  | client move =>
    cases move with
    | server act => exact ⟨_, _, _, joined⟩
    | take =>
      cases took : d.client.take? with
      | none =>
        have same : d.perform (.client .take) = d := by simp [perform, Client.perform, took]
        exact ⟨_, _, _, same ▸ joined⟩
      | some after =>
        have same : d.perform (.client .take) = {d with client := after} := by simp [perform, Client.perform, took]
        rw [same] at going ⊢
        obtain ⟨x, later, more, _, step⟩ :=
          takeStep reached joined (comingSendable joined attendedFair fit) took going
        exact ⟨_, _, _, step⟩
    | host | ask | spawn | introduce | giveUp | beginTeardown | askToShutDown | sendExit | finishTeardown
      | elsewhere =>
      obtain ⟨more, step⟩ := hushedStep reached joined rfl rfl going
      exact ⟨_, _, _, step⟩
  | hear =>
    cases waiting with
    | nil => exact ⟨_, _, _, (hearNothing joined).symm ▸ joined⟩
    | cons m waiting =>
      have present := (servedWritten reached joined).resolve_right fun none => List.cons_ne_nil _ _ none.2
      have sendable := waitingSendable reached joined fair m (by simp)
      exact ⟨_, _, _, hearStep joined (servedLiving joined present) sendable serves.stays⟩
  | pass count =>
    rcases servedWritten reached joined with present | ⟨rfl, _⟩
    · exact ⟨_, _, _, passStep joined present count⟩
    · have none : d.unpassed = [] := (unpassedSaid joined).trans List.drop_nil
      exact ⟨_, _, _, (passEmpty none count).symm ▸ joined⟩
  | murmur octets =>
    have gentle : (Client.Move.server (.murmurs octets)).isGentle = true := rfl
    obtain ⟨more, step⟩ := hushedStep reached joined gentle rfl going
    exact ⟨_, _, _, step⟩
  | leave =>
    have same : d.leave = d := by simp [leave, stays]
    exact ⟨_, _, _, same.symm ▸ joined⟩

theorem performClient (d : Dialogue) (move : Move) : (d.perform move).client = d.client ∨
    ∃ own : Client.Move, (d.perform move).client = d.client.perform own := by
  cases move with
  | client move =>
    have known : (d.perform (.client move)).client = d.client ∨
        (d.perform (.client move)).client = d.client.perform move := by
      cases move with
      | server => exact .inl rfl
      | _ => exact .inr rfl
    exact known.imp_right fun same => ⟨move, same⟩
  | hear =>
    refine .inl ?_
    rw [perform, hear]
    split
    · rfl
    · split <;> rfl
  | pass count => exact .inr ⟨.server (.writes (d.unpassed.take count)), rfl⟩
  | murmur octets => exact .inr ⟨.server (.murmurs octets), rfl⟩
  | leave =>
    rw [perform, leave]
    split
    · exact .inr ⟨.server .exits, rfl⟩
    · exact .inl rfl

theorem performReached (reached : Client.Reached config nextId d.client.quiet) (move : Move) :
    Client.Reached config nextId (d.perform move).client.quiet := by
  rcases performClient d move with same | ⟨own, same⟩ <;> rw [same]
  · exact reached
  · exact Client.performReached reached own

theorem playReached (reached : Client.Reached config nextId d.client.quiet) (moves : List Move) :
    Client.Reached config nextId (d.play moves).client.quiet := by
  induction moves generalizing d with
  | nil => exact reached
  | cons move moves ih => exact ih (performReached reached move)

theorem performOver (reached : Client.Reached config nextId d.client.quiet) (move : Move)
    (past : d.client.Over) : (d.perform move).client.Over := by
  rcases performClient d move with same | ⟨own, same⟩ <;> rw [same]
  · exact past
  · exact Client.performOver reached past own

theorem deedsGrow (reached : Client.Reached config nextId d.client.quiet) (move : Move) :
    ∃ es, (d.perform move).client.deeds = d.client.deeds ++ es := by
  rcases performClient d move with same | ⟨own, same⟩ <;> rw [same]
  · exact ⟨[], (List.append_nil _).symm⟩
  · exact performGrows reached own

theorem playGrows (reached : Client.Reached config nextId d.client.quiet) (moves : List Move) :
    ∃ es, (d.play moves).client.deeds = d.client.deeds ++ es := by
  induction moves generalizing d with
  | nil => exact ⟨[], (List.append_nil _).symm⟩
  | cons move moves ih =>
    obtain ⟨es, first⟩ := deedsGrow reached move
    obtain ⟨fs, later⟩ := ih (performReached reached move)
    exact ⟨es ++ fs, later.trans (by rw [first, List.append_assoc])⟩

theorem saidGrows (d : Dialogue) (move : Move) : ∃ more, (d.perform move).said = d.said ++ more := by
  cases move with
  | client move => cases move <;> exact ⟨[], (List.append_nil _).symm⟩
  | hear =>
    rw [perform, hear]
    split
    · exact ⟨[], (List.append_nil _).symm⟩
    · split
      · exact ⟨_, rfl⟩
      all_goals exact ⟨[], (List.append_nil _).symm⟩
  | pass | murmur => exact ⟨[], (List.append_nil _).symm⟩
  | leave =>
    rw [perform, leave]
    split <;> exact ⟨[], (List.append_nil _).symm⟩

theorem fitBefore (reached : Client.Reached config nextId d.client.quiet) (move : Move)
    (fit : Fit (d.perform move)) : Fit d := by
  obtain ⟨es, log⟩ := deedsGrow reached move
  obtain ⟨more, said⟩ := saidGrows d move
  obtain ⟨ranged, small, short⟩ := fit
  rw [sentWritten, log, Client.writtenAppend, ← sentWritten] at ranged small
  rw [said] at short
  exact ⟨fun m member => ranged m (List.mem_append_left _ member),
    fun m member => small m (List.mem_append_left _ member),
    fun j member => short j (List.mem_append_left _ member)⟩

theorem playJoined (reached : Client.Reached config nextId d.client.quiet)
    (joined : ∃ attended waiting coming, Joined d attended waiting coming) {moves : List Move}
    (going : ¬ (d.play moves).client.Over) (fit : Fit (d.play moves)) :
    ∃ attended waiting coming, Joined (d.play moves) attended waiting coming := by
  induction moves using List.reverseRecOn with
  | nil => exact joined
  | append_singleton moves move ih =>
    rw [play, List.foldl_append] at going fit ⊢
    have earlier : Client.Reached config nextId (d.play moves).client.quiet := playReached reached moves
    have before : ¬ (d.play moves).client.Over := fun past => going (performOver earlier move past)
    have small : Fit (d.play moves) := fitBefore earlier move fit
    obtain ⟨attended, waiting, coming, joined⟩ := ih before small
    exact performJoined earlier joined move going small before

def opening (config : Config) (nextId : Int) : Dialogue :=
  begin (.new config nextId) (.standIn (.fresh false))

theorem openingJoined (config : Config) (nextId : Int) : Joined (opening config nextId) [] [] [] where
  link := nofun
  lodged := nofun
  written := rfl
  read := rfl
  peer := rfl
  said := rfl
  heard := rfl
  pipe := rfl
  passed := Nat.le_refl _
  heeds before part := by
    rw [List.prefix_nil.mp part]
    exact List.prefix_rfl

theorem openingPlayed (config : Config) (nextId : Int) {moves : List Move}
    (going : ¬ ((opening config nextId).play moves).client.Over)
    (fit : Fit ((opening config nextId).play moves)) :
    ∃ attended waiting coming, Joined ((opening config nextId).play moves) attended waiting coming :=
  playJoined .new ⟨_, _, _, openingJoined config nextId⟩ going fit

end Dialogue
end LspClient
