import Mathlib.Data.Prod.Lex
import LspClient.Proofs.Client.Effects
import LspClient.Proofs.Client.Orphan
import LspClient.Proofs.Peer.Farewell

/-! The stages of a client and the stand-in. Either they are joined, or the stand-in has left, or the client was
stopped before it started. Each move keeps to a stage, and a move that either side makes of itself brings them
nearer to rest. -/
namespace LspClient

def Link.ahead : Link → Nat
  | .launching _ => 4
  | .launched => 3
  | .handshake _ => 2
  | .pumping | .failing _ => 1
  | .idle | .closed => 0

def Teardown.ahead : Teardown → Nat
  | .requested => 4
  | .registered _ => 3
  | .awaitingReply _ => 2
  | .awaitingExit => 1
  | .none => 0

namespace Client
variable {config : Config} {nextId : Int} {c after : Client}

def ahead (c : Client) : Nat :=
  3 * (c.link.ahead + c.teardown.ahead) + (if c.exited then 0 else 1) + if c.asking.isSome then 1 else 0

theorem aheadLess (less : after.link.ahead + after.teardown.ahead < c.link.ahead + c.teardown.ahead) :
    after.ahead < c.ahead := by
  unfold ahead
  repeat' split
  all_goals omega

theorem aheadSame (link : after.link = c.link) (teardown : after.teardown = c.teardown)
    (exited : after.exited = c.exited) (asking : c.asking = none → after.asking = none) :
    after.ahead ≤ c.ahead := by
  rw [ahead, ahead, link, teardown, exited]
  cases own : c.asking with
  | none => rw [asking own]
  | some a =>
    have few : (if after.asking.isSome = true then 1 else 0) ≤ 1 := by split <;> omega
    simpa using few

theorem aheadAsked (link : after.link = c.link) (teardown : after.teardown = c.teardown)
    (exited : after.exited = c.exited) (asking : c.asking ≠ none) (asked : after.asking = none) :
    after.ahead < c.ahead := by
  obtain ⟨a, own⟩ := Option.ne_none_iff_exists'.mp asking
  simp only [ahead, link, teardown, exited, own, asked, Option.isSome_some, Option.isSome_none, if_true,
    Bool.false_eq_true, if_false]
  omega

theorem lodgedAffords (lodged : Lodged c) (present : c.server ≠ none) (attached : c.attached = true) (n : Nat) :
    c.Affords n := by
  intro k _
  have fed : Lodged {c with server := c.server.map (Server.fed k)} := mapLodged lodged rfl (fedSound k)
  exact lodgedReads fed (by simpa using present) attached

theorem hearReady {id : Int} (lodged : Lodged c) (present : c.server ≠ none) (attached : c.attached = true)
    (awaited : c.link = .handshake id) (starting : c.phase = .starting) (result : Option Json) :
    (c.hear (.response id result none)).phase = .running ∧ (c.hear (.response id result none)).link = .pumping ∧
      (c.hear (.response id result none)).teardown = c.teardown := by
  rw [hearWelcomed awaited result starting (lodgedAffords lodged present attached _)]
  exact ⟨rfl, rfl, rfl⟩

theorem introduceClear (lodged : Lodged c) (present : c.server ≠ none) (launched : c.link = .launched)
    (starting : c.phase = .starting) : c.introduce.phase = .starting ∧
      c.introduce.link = .handshake c.nextId ∧ c.introduce.teardown = c.teardown := by
  let attached : Client := {c with attached := true, nextId := c.nextId + 1}
  have clear : attached.refusal = none := lodgedReads (c := attached) lodged present rfl
  obtain ⟨next, sent, quiet⟩ := sendClear clear (Request.introduce c.nextId c.config.rootUri introducedAs 0)
  have phase := congrArg Client.phase quiet
  have teardown := congrArg Client.teardown quiet
  rw [introduceSent launched starting rfl sent]
  exact ⟨phase.trans starting, rfl, teardown⟩

theorem askToShutDownAwaits {id : Int} (registered : c.teardown = .registered id) :
    c.askToShutDown.teardown = .awaitingReply id := by
  rw [askToShutDownStep registered]
  split <;> rfl

def Hopeful (c : Client) : Prop := (∀ cause, c.link ≠ .launching (some cause)) ∧ ∀ failure, c.link ≠ .failing failure

theorem callHopeful {call : Call} (plain : ∀ cause, call ≠ .start (some cause)) (hopeful : c.Hopeful) :
    (c.hostCall call).1.Hopeful := by
  rcases hostCases c call with void | ⟨after, done, same⟩ | ⟨name, uri, _, _, running, pulls⟩
  · rwa [void]
  · have link := congrArg Client.link same
    have link : (c.hostCall call).1.link = after.link := link
    rw [Hopeful, link]
    generalize (c.hostCall call).2 = answer at done
    cases done with
    | start =>
      refine ⟨fun cause own => ?_, fun failure own => by cases own⟩
      cases own
      exact plain cause rfl
    | _ => exact hopeful
  · have link : (c.hostCall call).1.link = c.link := by
      rw [pulls, pull, if_pos running]
      rfl
    rwa [Hopeful, link]

theorem edgeStops {call : Call} {phase next : Phase} (edge : Edge (.host call) phase next)
    (early : phase ≠ .stopping ∧ phase ≠ .stopped) (past : next = .stopping ∨ next = .stopped) :
    call = .drop ∨ call = .stop ∧ phase = .created := by
  cases edge with
  | start => rcases past with past | past <;> cases past
  | stopUnstarted => exact .inr ⟨rfl, rfl⟩
  | drop => exact .inl rfl

end Client

namespace Dialogue
open Client (hearings written answers Continues Left)
open StandIn (echo hearing)

variable {config : Config} {nextId : Int} {d after : Dialogue} {attended waiting coming : List Message} {n : Nat}

def effort : Message → Nat
  | .response .. => 1
  | _ => 4

def notice : Message → Nat
  | .request .. => 2
  | _ => 1

def weight (each : Message → Nat) : List Message → Nat
  | [] => 0
  | m :: ms => each m + weight each ms

theorem weightAppend (each : Message → Nat) (ms ns : List Message) :
    weight each (ms ++ ns) = weight each ms + weight each ns := by
  induction ms with
  | nil => exact (Nat.zero_add _).symm
  | cons m ms ih => rw [List.cons_append, weight, weight, ih, Nat.add_assoc]

def load (waiting coming : List Message) : Nat := weight effort waiting + weight notice coming

theorem handleLess {s : StandIn} {m : Message} (serves : StandIn.Serves s)
    (known : StandIn.Civil config m ∨ m = Request.exit) : weight notice (s.handle m).2 < effort m := by
  rcases known with civil | rfl
  · cases civil with
    | voiced voiced =>
      have attends := StandIn.handleVoiced serves.accepts voiced
      generalize (s.handle m).1 = later, (s.handle m).2 = said at attends
      cases attends with
      | reply reply =>
        cases m with
        | response => exact Nat.zero_lt_one
        | request | notification => cases reply
      | _ => simp [weight, effort, notice, StandIn.afterInitialized, StandIn.publishing, StandIn.reporting, Request.introduce,
          Request.initialized, Request.didOpen, Request.didChange, Request.didClose, Request.diagnostic]
    | shutdown =>
      rw [StandIn.handleShutdown]
      simp [weight, effort, notice, StandIn.farewell, Request.shutdown]
  · rw [StandIn.handleExit]
    simp [weight, effort, Request.exit]

theorem answersLess (x : Message) : weight effort (answers x) < notice x := by
  cases x with
  | request id method params =>
    obtain ⟨result, error, same⟩ := Client.replyResponse id method params
    simp [answers, same, weight, effort, notice]
  | response | notification => exact Nat.zero_lt_one

/-- What is left to do: first of the client's life, then of what is under way, then of what the pipe holds. -/
def remaining (d : Dialogue) (load : Nat) : Nat ×ₗ Nat ×ₗ Nat :=
  toLex (d.client.ahead, toLex (load, d.unpassed.length))

theorem aheadNearer {m : Nat} (less : after.client.ahead < d.client.ahead) : remaining after m < remaining d n :=
  Prod.Lex.toLex_lt_toLex.mpr (.inl less)

theorem loadNearer {m : Nat} (kept : after.client.ahead ≤ d.client.ahead) (less : m < n) :
    remaining after m < remaining d n := by
  rcases Nat.lt_or_eq_of_le kept with ahead | same
  · exact aheadNearer ahead
  · exact Prod.Lex.toLex_lt_toLex.mpr (.inr ⟨same, Prod.Lex.toLex_lt_toLex.mpr (.inl less)⟩)

theorem pipeNearer (kept : after.client.ahead ≤ d.client.ahead) (less : after.unpassed.length < d.unpassed.length) :
    remaining after n < remaining d n := by
  rcases Nat.lt_or_eq_of_le kept with ahead | same
  · exact aheadNearer ahead
  · exact Prod.Lex.toLex_lt_toLex.mpr (.inr ⟨same, Prod.Lex.toLex_lt_toLex.mpr (.inr ⟨rfl, less⟩)⟩)

def Leaves (config : Config) (log : List Event) : Prop := Left config log ∧ Client.Lossless log

inductive Bond (config : Config) (c : Client) : Prop where
  | early (going : ¬ c.Over) (hopeful : c.Hopeful)
  | registered {id} (registered : c.teardown = .registered id)
  | asking {id} (awaits : c.teardown = .awaitingReply id)
  | leaving (awaits : c.teardown = .awaitingExit) (leaves : Leaves config c.deeds)

structure Parted (config : Config) (d : Dialogue) : Prop where
  free : d.client.held = false
  returned : d.client.asking = none
  link : d.client.link = .pumping ∨ d.client.link = .closed
  teardown : d.client.teardown = .awaitingExit ∨ d.client.teardown = .none ∧ d.client.phase = .stopped
  exited : d.client.exited = true
  output : d.client.output = some (false, [])
  unpassed : d.unpassed = []
  peer : d.peer = .standIn (hearing (written d.client.deeds))
  leaves : Leaves config d.client.deeds
  heeds : Client.Heeds d.client.deeds
  whole : hearings d.client.deeds = echo (written d.client.deeds)
  -- as long as it heard anything, each answer to a pull resolved it at once
  prompt : ∃ (past : Client) (es : List Event), d.client.deeds = past.log ++ es ∧ hearings es = [] ∧
    .ended ∉ past.log ∧ past.asking = none ∧ Client.Prompt past

inductive Stage (config : Config) (d : Dialogue) : Nat → Prop where
  | void (joined : Joined d [] [] []) (stopped : d.client.phase = .stopped) (idle : d.client.link = .idle)
      (free : d.client.held = false) (unstarted : d.client.deeds.countP (Client.issues .start) = 0) : Stage config d 0
  | bound {attended waiting coming : List Message} (joined : Joined d attended waiting coming)
      (bond : Bond config d.client) : Stage config d (load waiting coming)
  | parted (parted : Parted config d) : Stage config d 0

def Leads (config : Config) (d : Dialogue) (n : Nat) (own : Bool) (after : Dialogue) : Prop :=
  ∃ m, Stage config after m ∧ (own = true → after = d ∨ remaining after m < remaining d n)

theorem leadsAny {m : Nat} (stage : Stage config after m) : Leads config d n false after := ⟨m, stage, nofun⟩

theorem leadsSame {own : Bool} (stage : Stage config d n) (same : after = d) : Leads config d n own after := by
  rw [same]
  exact ⟨n, stage, fun _ => .inl rfl⟩

theorem bondSame {c after : Client} (bond : Bond config c) (phase : after.phase = c.phase)
    (link : after.link = c.link) (teardown : after.teardown = c.teardown) (log : after.deeds = c.deeds) :
    Bond config after := by
  cases bond with
  | early going hopeful => exact .early (by rwa [Client.Over, phase]) (by rwa [Client.Hopeful, link])
  | registered own => exact .registered (teardown.trans own)
  | asking awaits => exact .asking (teardown.trans awaits)
  | leaving awaits leaves => exact .leaving (teardown.trans awaits) (log ▸ leaves)

theorem leavingStops (reached : Client.Reached config nextId d.client.quiet)
    (awaits : d.client.teardown = .awaitingExit) : d.client.phase = .stopping :=
  Client.teardownStopping (c := d.client.quiet) (Client.reachedCoherent reached) (.inr (.inr awaits))

theorem registeredStops (reached : Client.Reached config nextId d.client.quiet) {id : Int}
    (registered : d.client.teardown = .registered id) :
    d.client.phase = .stopping ∧ d.client.attached = true := by
  have coherent := Client.reachedCoherent reached
  have stopping : d.client.phase = .stopping :=
    Client.teardownStopping (c := d.client.quiet) coherent (.inl ⟨id, registered⟩)
  rcases (coherent.stopping stopping).2 with ⟨_, attached⟩ | ⟨other, _⟩
  · exact ⟨stopping, attached⟩
  · cases registered.symm.trans other

theorem leftPolite {log : List Event} (left : Left config log) : Polite config (written log) := by
  obtain ⟨wire, first, replies, id, same, parting⟩ := StandIn.leftParting left
  exact ⟨wire, StandIn.partingCivil parting, .inr same⟩

theorem joinedMore {c : Client} {es : List Event} {more later : List Message}
    (joined : Joined d attended waiting coming) (step : Joined {d with client := c} attended (waiting ++ more) later)
    (log : c.deeds = d.client.deeds ++ es) :
    Joined {d with client := c} attended (waiting ++ written es) later := by
  have wire : written c.deeds = attended ++ (waiting ++ more) := step.written
  have same : more = written es := by
    rw [log, Client.writtenAppend, joined.written, List.append_assoc] at wire
    exact (List.append_cancel_left (List.append_cancel_left wire)).symm
  exact same ▸ step

theorem leaveContinues (d : Dialogue) : Continues d.client d.leave.client := by
  rw [leave]
  split
  · exact Client.serverContinues .exits d.client
  · exact ⟨rfl, rfl, rfl, rfl, id⟩

section
variable (reached : Client.Reached config nextId d.client.quiet) (joined : Joined d attended waiting coming)
include reached joined

theorem stoppingPumps (stopping : d.client.phase = .stopping) : d.client.link = .pumping :=
  ((Client.reachedCoherent reached).stopping stopping).1.resolve_right joined.link

theorem stoppingPresent (stopping : d.client.phase = .stopping) : d.client.server ≠ none := by
  refine Client.reachedServed (c := d.client.quiet) reached (.inr ?_)
  have link : d.client.quiet.link = .pumping := stoppingPumps reached joined stopping
  rw [Client.listening, link]

theorem awaitingStops {id : Int} (awaits : d.client.teardown = .awaitingReply id) :
    d.client.phase = .stopping ∧ d.client.refusal = none := by
  have coherent := Client.reachedCoherent reached
  have stopping : d.client.phase = .stopping :=
    Client.teardownStopping (c := d.client.quiet) coherent (.inr (.inl ⟨id, awaits⟩))
  have attached : d.client.attached = true := by
    rcases (coherent.stopping stopping).2 with ⟨_, attached⟩ | ⟨other, _⟩
    · exact attached
    · cases awaits.symm.trans other
  exact ⟨stopping, Client.lodgedReads joined.lodged (stoppingPresent reached joined stopping) attached⟩

theorem awaitingStopping {id : Int} (awaits : d.client.teardown = .awaitingReply id) :
    Client.Stopping config d.client.deeds := by
  obtain ⟨stopping, clear⟩ := awaitingStops reached joined awaits
  exact (Client.reachedConversing reached).leaving (by simp [Client.topic, Client.quiet, stopping, awaits]) clear

theorem bondCleaned (bond : Bond config d.client) (failure : Failure) : d.client.link ≠ .failing failure := by
  have pumps (stopping : d.client.phase = .stopping) : d.client.link ≠ .failing failure := by
    rw [stoppingPumps reached joined stopping]
    nofun
  cases bond with
  | early _ hopeful => exact hopeful.2 failure
  | registered own => exact pumps (registeredStops reached own).1
  | asking awaits => exact pumps (awaitingStops reached joined awaits).1
  | leaving awaits => exact pumps (leavingStops reached awaits)

theorem stayingPolite (staying : d.client.Staying) (fit : Fit d) : Polite config (written d.client.deeds) := by
  have fair := joinedFair reached joined staying fit
  rw [← joined.written] at fair
  exact ⟨_, fun m member => .voiced (fair m member).1, .inl rfl⟩

theorem bondPolite (bond : Bond config d.client) (fit : Fit d) : Polite config (written d.client.deeds) := by
  cases bond with
  | early going => exact stayingPolite reached joined (.inl going) fit
  | registered own => exact stayingPolite reached joined (.inr ⟨_, own⟩) fit
  | asking awaits =>
    obtain ⟨first, replies, id, parting⟩ := StandIn.stoppingParting (awaitingStopping reached joined awaits)
    exact ⟨_, StandIn.partingCivil parting, .inl rfl⟩
  | leaving awaits leaves => exact leftPolite leaves.1

theorem bondFlows (bond : Bond config d.client) (fit : Fit d) : Flows config attended waiting coming :=
  politeFlows reached joined (bondPolite reached joined bond fit) fit

theorem hearLeads (bond : Bond config d.client) (fit : Fit d) :
    Leads config d (load waiting coming) true d.hear := by
  have flows := bondFlows reached joined bond fit
  cases waiting with
  | nil => exact leadsSame (.bound joined bond) (hearNothing joined)
  | cons m waiting =>
    have present := (servedWritten reached joined).resolve_right fun none => List.cons_ne_nil _ _ none.2
    have living := servedLiving joined present
    have sendable := flows.sendable m List.mem_cons_self
    have serves := (flows.ready nofun).serves
    have same := hearClient d
    have less := handleLess serves (flows.known m List.mem_cons_self)
    refine ⟨_, .bound (hearStep joined living sendable serves.stays) (same ▸ bond), fun _ => .inr ?_⟩
    refine loadNearer (Nat.le_of_eq (congrArg Client.ahead same)) ?_
    simp only [load, weight, weightAppend]
    omega

theorem passLeads (bond : Bond config d.client) (count : Nat) :
    Leads config d (load waiting coming) true (d.pass count) := by
  by_cases nothing : d.unpassed.take count = []
  · exact leadsSame (.bound joined bond) (passNothing nothing)
  have present : d.client.server ≠ none := by
    refine (servedWritten reached joined).resolve_right ?_
    rintro ⟨rfl, _⟩
    have empty : d.unpassed = [] := (unpassedSaid joined).trans List.drop_nil
    exact nothing (by rw [empty, List.take_nil])
  have step := passStep joined present count
  have continues := passContinues d count
  obtain ⟨server, same⟩ := Client.serverOnly (.writes (d.unpassed.take count)) d.client
  have log : (d.pass count).client.deeds = d.client.deeds := congrArg Client.log same
  have present' : (d.pass count).client.server ≠ none := by
    obtain ⟨s, own⟩ := Option.ne_none_iff_exists'.mp present
    have sound := joined.lodged s own
    have wrote := congrArg Client.server (Client.writesOpen (d.unpassed.take count) own sound.alive sound.writes).2
    intro gone
    cases gone.symm.trans wrote
  have exited := (Client.lodgedLives step.lodged present').trans (Client.lodgedLives joined.lodged present).symm
  refine ⟨_, .bound step (bondSame bond continues.phase continues.link continues.teardown log), fun _ => .inr ?_⟩
  refine pipeNearer (Client.aheadSame continues.link continues.teardown exited continues.asking) ?_
  have taken := List.length_pos_iff.mpr nothing
  have left : (d.pass count).unpassed = d.unpassed.drop (d.unpassed.take count).length := by
    rw [unpassed, unpassed, List.drop_drop]
    rfl
  rw [left, List.length_drop]
  simp only [List.length_take] at taken ⊢
  omega

theorem asideLeads (bond : Bond config d.client) {move : Client.Move} (hushed : move.isIntake = false)
    (server : ∃ server next, (d.client.perform move).quiet = {d.client.quiet with server := server, nextId := next})
    (lodged : (d.client.perform move).Lodged) :
    Leads config d (load waiting coming) false {d with client := d.client.perform move} := by
  obtain ⟨server, next, same⟩ := server
  have phase := congrArg Client.phase same
  have link := congrArg Client.link same
  have teardown := congrArg Client.teardown same
  have log := congrArg Client.log same
  obtain ⟨more, step⟩ := hushedKeeps reached joined hushed (fun closed => joined.link (link.symm.trans closed)) lodged
  exact leadsAny (.bound step (bondSame bond phase link teardown log))

theorem openingBond (bond : Bond config d.client) (opening : d.client.Opening) :
    ¬ d.client.Over ∧ d.client.Hopeful ∧ d.client.phase = .starting := by
  have pumps (stopping : d.client.phase = .stopping) : False := by
    have link := stoppingPumps reached joined stopping
    rcases opening with ⟨refused, own⟩ | own | ⟨id, own⟩ | ⟨failure, own⟩ <;> cases link.symm.trans own
  cases bond with
  | early going hopeful =>
    have phase := Client.openingPhase (c := d.client.quiet) (Client.reachedCoherent reached) opening
    exact ⟨going, hopeful, phase.resolve_right fun stopped => going (.inr stopped)⟩
  | registered own => exact (pumps (registeredStops reached own).1).elim
  | asking awaits => exact (pumps (awaitingStops reached joined awaits).1).elim
  | leaving awaits => exact (pumps (leavingStops reached awaits)).elim

theorem spawnLeads (bond : Bond config d.client) :
    Leads config d (load waiting coming) true {d with client := d.client.spawn} := by
  have still (met : d.client.spawn = d.client) :
      Leads config d (load waiting coming) true {d with client := d.client.spawn} :=
    leadsSame (.bound joined bond) (by rw [met])
  cases link : d.client.link with
  | launching refused =>
    obtain ⟨going, hopeful, _⟩ := openingBond reached joined bond (.inl ⟨refused, link⟩)
    cases refused with
    | some cause => exact absurd link (hopeful.1 cause)
    | none =>
      have spawned : d.client.spawn = ({d.client with server := some .fresh, link := .launched} : Client).note
          (.spawned d.client.config.executable.arguments) := by simp only [Client.spawn, link]
      have phase : d.client.spawn.phase = d.client.phase := by rw [spawned]; rfl
      have launched : d.client.spawn.link = .launched := by rw [spawned]; rfl
      have teardown : d.client.spawn.teardown = d.client.teardown := by rw [spawned]; rfl
      have going : ¬ d.client.spawn.Over := by rwa [Client.Over, phase]
      have gentle : (Client.Move.spawn).isGentle = true := rfl
      obtain ⟨more, step⟩ := hushedStep reached joined gentle rfl going
      refine ⟨_, .bound step (.early going (by simp [Client.Hopeful, launched])), fun _ => .inr (aheadNearer (Client.aheadLess ?_))⟩
      rw [launched, teardown, link]
      exact Nat.add_lt_add_right (by decide) _
  | _ => exact still (by simp [Client.spawn, link])

theorem introduceLeads (bond : Bond config d.client) :
    Leads config d (load waiting coming) true {d with client := d.client.introduce} := by
  by_cases launched : d.client.link = .launched
  · obtain ⟨_, _, starting⟩ := openingBond reached joined bond (.inr (.inl launched))
    have present : d.client.server ≠ none := Client.reachedServed (c := d.client.quiet) reached (.inl launched)
    obtain ⟨phase, link, teardown⟩ := Client.introduceClear joined.lodged present launched starting
    have going : ¬ d.client.introduce.Over := by
      rintro (past | past) <;> cases phase.symm.trans past
    have gentle : (Client.Move.introduce).isGentle = true := rfl
    obtain ⟨more, step⟩ := hushedStep reached joined gentle rfl going
    refine ⟨_, .bound step (.early going (by simp [Client.Hopeful, link])), fun _ => .inr (aheadNearer (Client.aheadLess ?_))⟩
    rw [link, teardown, launched]
    exact Nat.add_lt_add_right (Nat.lt_succ_self 2) _
  · exact leadsSame (.bound joined bond) (by rw [Client.introduce, if_pos launched])

theorem bondAttached (bond : Bond config d.client) (listening : d.client.listening = true)
    (awaits : d.client.teardown ≠ .awaitingExit) : d.client.attached = true := by
  have coherent := Client.reachedCoherent reached
  have open' : d.client.link ≠ .idle := by
    intro idle
    simp [Client.listening, idle] at listening
  cases bond with
  | leaving own => exact absurd own awaits
  | registered own => exact (registeredStops reached own).2
  | asking awaits => exact (Client.refusalClear.mp (awaitingStops reached joined awaits).2).1
  | early going hopeful =>
    cases phase : d.client.phase with
    | created => exact absurd (coherent.created phase).1 open'
    | starting =>
      rcases (coherent.starting phase).2 with ⟨fallow, _⟩ | ⟨_, attached⟩ | ⟨failure, failing⟩
      · exact absurd fallow (Client.listeningMet listening)
      · exact attached
      · exact absurd failing (hopeful.2 failure)
    | running => exact (coherent.running phase).2.2
    | stopping => exact absurd (.inl phase) going
    | stopped => exact absurd (.inr phase) going

theorem readyLeads {id : Int} {result error} {next : Client} {later : List Message} (bond : Bond config d.client)
    (said : coming = .response id result error :: later)
    (carried : ∀ x ∈ coming, StandIn.Carried x ∧ Message.Sendable x) (attached : d.client.attached = true)
    (awaited : d.client.link = .handshake id) (took : d.client.take? = some next) :
    Leads config d (load waiting coming) true {d with client := next} := by
  have sendable : ∀ x ∈ coming, Message.Sendable x ∧ x.normal = x := fun x member =>
    ⟨(carried x member).2, (carried x member).1.same⟩
  obtain ⟨_, _, starting⟩ := openingBond reached joined bond (.inr (.inr (.inl ⟨id, awaited⟩)))
  have present : d.client.server ≠ none :=
    Client.reachedServed (c := d.client.quiet) reached (.inr (Client.takeCases took).1)
  obtain ⟨x, _, rest, split, _, same⟩ := takeHears joined (fun x member => (sendable x member).1) took
  obtain ⟨rfl, _⟩ := List.cons.inj (said.symm.trans split)
  have first : Message.response id result error ∈ coming := said ▸ List.mem_cons_self
  obtain rfl := (carried _ first).1.right id result error rfl
  rw [(sendable _ first).2] at same
  let c := d.client.updateServer fun s => {s with unread := rest}
  have lodged : c.Lodged := Client.readLodged joined.lodged rest
  have present' : c.server ≠ none := Client.updatePresent present
  obtain ⟨phase, link, teardown⟩ := Client.hearReady lodged present' attached awaited starting result
  rw [(same.symm : c.hear (.response id result none) = next)] at phase link teardown
  obtain ⟨_, _, more, _, step⟩ := takeKeeps reached joined sendable took (by simp [link])
  refine ⟨_, .bound step (.early (Client.runningGoing phase) (by simp [Client.Hopeful, link])),
    fun _ => .inr (aheadNearer (Client.aheadLess ?_))⟩
  rw [link, teardown, awaited]
  exact Nat.add_lt_add_right (Nat.lt_succ_self 1) _

theorem takeLeads (bond : Bond config d.client) (fit : Fit d) (awaits : d.client.teardown ≠ .awaitingExit) :
    Leads config d (load waiting coming) true {d with client := d.client.perform .take} := by
  cases took : d.client.take? with
  | none => exact leadsSame (.bound joined bond) (by rw [Client.perform, took, Option.getD_none])
  | some next =>
    have performed : d.client.perform .take = next := by rw [Client.perform, took, Option.getD_some]
    have flows := bondFlows reached joined bond fit
    have sendable : ∀ x ∈ coming, Message.Sendable x ∧ x.normal = x := fun x member =>
      ⟨(flows.said x member).2, (flows.said x member).1.same⟩
    have listening := (Client.takeCases took).1
    have attached := bondAttached reached joined bond listening awaits
    obtain ⟨x, later, _, rfl, _⟩ := takeHears joined (fun x member => (sendable x member).1) took
    rw [performed]
    by_cases own : ∃ id result error, x = .response id result error ∧ d.client.link = .handshake id
    · obtain ⟨id, result, error, rfl, awaited⟩ := own
      exact readyLeads reached joined bond rfl flows.said attached awaited took
    · obtain ⟨step, phase, link, held, teardown, asking⟩ := takeAnswers reached joined sendable attached
        (fun id result error same awaited => own ⟨id, result, error, same, awaited⟩) took
      have kept : Bond config next := by
        cases bond with
        | early going hopeful => exact .early (by rwa [Client.Over, phase]) (by rwa [Client.Hopeful, link])
        | registered own => exact .registered (teardown.trans own)
        | asking awaits => exact .asking (teardown.trans awaits)
        | leaving own => exact absurd own awaits
      have reached' := performReached reached (.client .take)
      have same : d.perform (.client .take) = {d with client := next} := by rw [performOwn rfl, performed]
      rw [same] at reached'
      have listening' : next.listening = true := by rwa [Client.listening, link]
      have present : d.client.server ≠ none := Client.reachedServed (c := d.client.quiet) reached (.inr listening)
      have present' : next.server ≠ none := Client.reachedServed (c := next.quiet) reached' (.inr listening')
      have exited := (Client.lodgedLives step.lodged present').trans (Client.lodgedLives joined.lodged present).symm
      have less := answersLess x
      refine ⟨_, .bound step kept, fun _ => .inr (loadNearer (Client.aheadSame link teardown exited asking) ?_)⟩
      simp only [load, weight, weightAppend]
      omega

theorem beginLeads (bond : Bond config d.client) :
    Leads config d (load waiting coming) true {d with client := d.client.beginTeardown} := by
  by_cases due : d.client.teardown ≠ .requested ∨ d.client.phase = .starting
  · exact leadsSame (.bound joined bond) (by rw [Client.beginTeardown, if_pos due])
  obtain ⟨requested, settled⟩ := not_or.mp due
  have requested := Decidable.not_not.mp requested
  have running : d.client.phase = .running := by
    have coherent := Client.reachedCoherent reached
    cases bond with
    | registered awaits | asking awaits | leaving awaits => cases requested.symm.trans awaits
    | early going =>
      cases phase : d.client.phase with
      | running => rfl
      | created => cases requested.symm.trans (coherent.created phase).2.1
      | starting => exact absurd phase settled
      | stopping => exact absurd (.inl phase) going
      | stopped => exact absurd (.inr phase) going
  have registered : d.client.beginTeardown.teardown = .registered d.client.nextId := by
    rw [Client.beginTeardown, if_neg due, if_pos running]
    rfl
  have link := Client.keptLink (Client.beginTeardownKept d.client) (bondCleaned reached joined bond)
  have hushed : Client.Move.beginTeardown.isIntake = false := rfl
  obtain ⟨more, step⟩ := hushedKeeps reached joined hushed (fun closed => joined.link (link.symm.trans closed))
    (Client.beginTeardownLodged joined.lodged)
  refine ⟨_, .bound step (.registered registered), fun _ => .inr (aheadNearer (Client.aheadLess ?_))⟩
  rw [link, registered, requested]
  exact Nat.add_lt_add_left (Nat.lt_succ_self 3) _

theorem askToShutDownLeads (bond : Bond config d.client) :
    Leads config d (load waiting coming) true {d with client := d.client.askToShutDown} := by
  by_cases due : ∃ id, d.client.teardown = .registered id
  · obtain ⟨id, registered⟩ := due
    have awaits := Client.askToShutDownAwaits registered
    have link := Client.keptLink (Client.askToShutDownKept d.client) (bondCleaned reached joined bond)
    have hushed : Client.Move.askToShutDown.isIntake = false := rfl
    obtain ⟨more, step⟩ := hushedKeeps reached joined hushed (fun closed => joined.link (link.symm.trans closed))
      (Client.askToShutDownLodged joined.lodged)
    refine ⟨_, .bound step (.asking awaits), fun _ => .inr (aheadNearer (Client.aheadLess ?_))⟩
    rw [link, awaits, registered]
    exact Nat.add_lt_add_left (Nat.lt_succ_self 2) _
  · have still : d.client.askToShutDown = d.client :=
      Client.askToShutDownStill fun id registered => due ⟨id, registered⟩
    exact leadsSame (.bound joined bond) (by rw [still])

theorem sendExitLeaves {id : Int} (awaits : d.client.teardown = .awaitingReply id)
    (answered : d.client.router.owner? id = none) :
    d.client.sendExit.teardown = .awaitingExit ∧ Leaves config d.client.sendExit.deeds ∧
      Joined {d with client := d.client.sendExit} attended (waiting ++ [Request.exit]) coming := by
  obtain ⟨_, clear⟩ := awaitingStops reached joined awaits
  have attached := (Client.refusalClear.mp clear).1
  have exits : d.client.sendExit =
      {(d.client.send Request.exit).1 with attached := false, teardown := .awaitingExit} := by
    simp [Client.sendExit, awaits, answered, attached]
  have log : d.client.sendExit.deeds = d.client.deeds ++ [.wrote Request.exit] := by
    obtain ⟨next, sent, quiet⟩ := Client.sendClear clear Request.exit
    rw [exits, sent]
    exact congrArg Client.log quiet
  have cleaned (failure : Failure) : d.client.link ≠ .failing failure := by
    rw [stoppingPumps reached joined (awaitingStops reached joined awaits).1]
    simp
  have link := Client.keptLink (Client.sendExitKept d.client) cleaned
  have hushed : Client.Move.sendExit.isIntake = false := rfl
  obtain ⟨more, step⟩ := hushedKeeps reached joined hushed (fun closed => joined.link (link.symm.trans closed))
    (Client.sendExitLodged joined.lodged)
  have lossless : Client.Lossless d.client.sendExit.deeds := by
    rw [log]
    exact Client.losslessAppend.mpr ⟨(Client.reachedPiped reached).clear clear, by simp [Client.Lossless]⟩
  refine ⟨by rw [exits], ⟨⟨d.client.deeds, [], log, awaitingStopping reached joined awaits, rfl⟩, lossless⟩, ?_⟩
  exact joinedMore joined step log

theorem sendExitLeads (bond : Bond config d.client) :
    Leads config d (load waiting coming) true {d with client := d.client.sendExit} := by
  by_cases due : ∃ id, d.client.teardown = .awaitingReply id ∧ d.client.router.owner? id = none
  · obtain ⟨id, awaits, answered⟩ := due
    obtain ⟨waits, leaves, step⟩ := sendExitLeaves reached joined awaits answered
    have link := Client.keptLink (Client.sendExitKept d.client) (bondCleaned reached joined bond)
    refine ⟨_, .bound step (.leaving waits leaves), fun _ => .inr (aheadNearer (Client.aheadLess ?_))⟩
    rw [link, waits, awaits]
    exact Nat.add_lt_add_left (Nat.lt_succ_self 1) _
  · have still : d.client.sendExit = d.client := Client.sendExitStill fun id awaits =>
      Option.isSome_iff_ne_none.mpr fun answered => due ⟨id, awaits, answered⟩
    exact leadsSame (.bound joined bond) (by rw [still])

theorem finishLeads (bond : Bond config d.client) :
    Leads config d (load waiting coming) true {d with client := d.client.finishTeardown} := by
  have still : d.client.finishTeardown = d.client := Client.finishStill fun awaits =>
    Client.lodgedLives joined.lodged (stoppingPresent reached joined (leavingStops reached awaits))
  exact leadsSame (.bound joined bond) (by rw [still])

theorem leavingSilent (stops : d.client.phase = .stopping) (left : Left config d.client.deeds) : coming = [] := by
  obtain ⟨before, rest, split, stopping, silent⟩ := left
  obtain ⟨first, replies, id, start, talking, all⟩ := stopping
  have wire : written d.client.deeds =
      written first ++ Request.shutdown id :: (written replies ++ [Request.exit]) := by
    have last : written (.wrote Request.exit :: rest) = [Request.exit] := congrArg (Request.exit :: ·) silent
    rw [split, start, Client.writtenAppend, Client.writtenAppend, List.append_assoc, last]
    rfl
  have heard : ∃ result error, .response id result error ∈ hearings d.client.deeds := by
    have unended : .ended ∉ before := fun ended => Client.pumpingUnended reached
      (stoppingPumps reached joined stops) (by rw [Client.quietLog, split]; exact List.mem_append_left _ ended)
    obtain ⟨first', id', rest', start', asked, answered⟩ :=
      (Client.reachedAllowed reached before Request.exit rest split).2 rfl
    have answered := answered.resolve_right unended
    -- there is one request to shut down
    have member : Event.wrote (Request.shutdown id') ∈ first ++ .wrote (Request.shutdown id) :: replies :=
      start ▸ start' ▸ List.mem_append_right _ (List.mem_cons_of_mem _ asked)
    rcases List.mem_append.mp member with early | late
    · exact absurd rfl (StandIn.voicedStays (Client.talkingVoiced talking _ (Client.memWritten.mp early)))
    · rcases List.mem_cons.mp late with same | late
      · cases same
        simp only [Client.Unheard, not_forall, not_not] at answered
        obtain ⟨result, error, member⟩ := answered
        refine ⟨result, error, Client.heardMember.mpr ?_⟩
        rw [split, start']
        simp [member]
      · cases all _ (Client.memWritten.mp late)
  obtain ⟨result, error, heard⟩ := heard
  have increasing := Client.sentIncreasing reached
  rw [Client.quietLog, wire] at increasing
  have said : echo attended <+: echo (written first) ++ [StandIn.farewell id] := by
    have whole : echo (written d.client.deeds) = echo (written first) ++ [StandIn.farewell id] := by
      rw [wire, ← List.cons_append, ← List.append_assoc, StandIn.echoExit, StandIn.echoFarewell _ id all]
    rw [← whole, joined.written]
    exact StandIn.echoPrefix (List.prefix_append _ _)
  cases coming with
  | nil => rfl
  | cons x later =>
    have next : hearings d.client.deeds ++ [x] <+: echo attended := by
      rw [joined.heard]
      exact ⟨later, List.append_assoc _ [x] later⟩
    have early : hearings d.client.deeds <+: echo (written first) := by
      rcases List.prefix_concat_iff.mp (next.trans said) with same | part
      · exact (List.append_inj' same rfl).1 ▸ List.prefix_rfl
      · exact (List.prefix_append _ _).trans part
    exact absurd (early.subset heard) (Client.laterUnanswered increasing result error)

theorem leavingParted (awaits : d.client.teardown = .awaitingExit) (leaves : Leaves config d.client.deeds)
    (read : waiting = []) (exits : d.peer.exited = true) : Parted config d.leave := by
  have stopping := leavingStops reached awaits
  obtain rfl := leavingSilent reached joined stopping leaves.1
  obtain ⟨unread, passed⟩ := List.append_eq_nil_iff.mp joined.pipe
  obtain ⟨s, server⟩ := Option.ne_none_iff_exists'.mp (stoppingPresent reached joined stopping)
  have living : d.client.exited = false := servedLiving joined (by simp [server])
  have leaves : d.leave = {d with client := d.client.vanish} := by
    simp [leave, exits, passed, Client.perform, Client.serverAct, living]
  have quiet := Client.quietVanish d.client
  have gone := congrArg Client.server quiet
  have log : d.client.vanish.deeds = d.client.deeds := congrArg Client.log quiet
  have free : d.client.held = false := by
    refine Bool.eq_false_iff.mpr fun held => ?_
    cases awaits.symm.trans ((Client.reachedCoherent reached).held held)
  have server' : d.client.vanish.server = some s.gone := by
    rw [server] at gone
    exact gone
  have wrote : written d.client.deeds = attended := by rw [joined.written, read, List.append_nil]
  have returned : d.client.quiet.asking = none := Decidable.byContradiction fun asking => by
    cases stopping.symm.trans ((Client.reachedCoherent reached).asking asking).1
  have unstopped : d.client.quiet.phase ≠ .stopped := by
    intro stopped
    cases stopping.symm.trans stopped
  rw [leaves]
  exact {
    free := (congrArg Client.held quiet).trans free
    returned := (congrArg Client.asking quiet).trans returned
    link := .inl ((congrArg Client.link quiet).trans (stoppingPumps reached joined stopping))
    teardown := .inl ((congrArg Client.teardown quiet).trans awaits)
    exited := by simp [Client.exited, server', Server.gone]
    output := by
      have nothing : s.unread = [] := by simpa [Client.unread, server] using unread
      simp [Client.output, server', Server.gone, nothing]
    unpassed := passed
    peer := by rw [log, wrote]; exact joined.peer
    leaves := by rwa [log]
    heeds := by rw [log]; exact joined.heeds
    whole := by rw [log, wrote, joined.heard, List.append_nil]
    prompt := ⟨d.client.quiet, [], by rw [log, List.append_nil]; rfl, rfl,
      Client.pumpingUnended reached (stoppingPumps reached joined stopping), returned,
      Client.reachedPrompt reached unstopped⟩ }

theorem leaveLeads (bond : Bond config d.client) (fit : Fit d) :
    Leads config d (load waiting coming) true d.leave := by
  by_cases exits : d.peer.exited = true
  · have unserving (serves : StandIn.Serves (hearing attended)) : False := by
      rw [joined.peer, Peer.exited, serves.stays] at exits
      cases exits
    have stays (staying : d.client.Staying) : False :=
      unserving (StandIn.fairServes (StandIn.fairFirst (joinedFair reached joined staying fit)))
    cases bond with
    | early going => exact (stays (.inl going)).elim
    | registered own => exact (stays (.inr ⟨_, own⟩)).elim
    | asking awaits =>
      obtain ⟨first, replies, id, parting⟩ := StandIn.stoppingParting (awaitingStopping reached joined awaits)
      have civil := StandIn.partingCivil parting
      rw [joined.written] at civil
      exact (unserving (StandIn.attendCivil StandIn.freshServes fun m member =>
        civil m (List.mem_append_left _ member))).elim
    | leaving awaits leaves =>
      have flows := bondFlows reached joined (.leaving awaits leaves) fit
      have read : waiting = [] := Decidable.byContradiction fun more => unserving (flows.ready more).serves
      have parted := leavingParted reached joined awaits leaves read exits
      have stopping := leavingStops reached awaits
      have living : d.client.exited = false := servedLiving joined (stoppingPresent reached joined stopping)
      refine ⟨0, .parted parted, fun _ => .inr (aheadNearer ?_)⟩
      have continues := leaveContinues d
      have returned : d.client.asking = none := Decidable.byContradiction fun asking => by
        cases stopping.symm.trans ((Client.reachedCoherent reached).asking asking).1
      simp [Client.ahead, continues.link, continues.teardown, parted.exited, living, returned,
        continues.asking returned]
  · exact leadsSame (.bound joined bond) (by simp [leave, exits])

theorem unstartedVoid (created : d.client.phase = .created) (held : d.client.held = true) :
    Stage config {d with client := (d.client.hostCall .stop).1} 0 := by
  have coherent := Client.reachedCoherent reached
  have idle : d.client.link = .idle := (coherent.created created).1
  have silent : written d.client.deeds = [] := ((Client.reachedPiped reached).unopened (.inl idle)).2
  obtain ⟨rfl, rfl⟩ := List.append_eq_nil_iff.mp (joined.written.symm.trans silent)
  obtain ⟨_, rfl⟩ := List.append_eq_nil_iff.mp joined.heard.symm
  have free : d.client.asking = none := Decidable.byContradiction fun asking => by
    cases created.symm.trans (coherent.asking asking).1
  obtain ⟨after, done, same⟩ := @Client.hostCalled d.client held free .stop (.inl rfl)
  generalize (d.client.hostCall .stop).1 = stopped, (d.client.hostCall .stop).2 = answer at done same
  cases done with
  | stopOver past => rcases past with past | past <;> cases created.symm.trans past
  | stop active => rcases active with active | active <;> cases created.symm.trans active
  | stopUnstarted =>
    have phase := congrArg Client.phase same
    have link := congrArg Client.link same
    have free := congrArg Client.held same
    have server := congrArg Client.server same
    have log : stopped.deeds = d.client.deeds ++ [.resolved .stop .done, .called .stop .nothing] :=
      (congrArg Client.log same).trans (List.append_assoc _ _ _)
    have heard : hearings stopped.deeds = hearings d.client.deeds := log ▸ Client.hearingsSame rfl
    have link : stopped.link = .idle := link.trans idle
    have lodged : stopped.Lodged := fun s own => joined.lodged s (server.symm.trans own)
    have unread : stopped.unread = d.client.unread :=
      congrArg (fun server => (Option.map Server.unread server).getD []) server
    have open' : stopped.link ≠ .closed := by simp [link]
    have step : Joined {d with client := stopped} [] [] [] := by
      refine joinedStep joined log open' lodged ?_ ?_ joined.passed
      · rw [heard, ← joined.heard]
      · rw [← unpassedSaid joined, unread]
        exact joined.pipe
    have none : d.client.deeds.countP (Client.issues .start) = 0 := (Client.reachedSingle reached).unstarted created
    refine .void step phase link free ?_
    simp [log, List.countP_append, none, Client.issues]

theorem callLeads (bond : Bond config d.client) {call : Client.Call} (undropped : call ≠ .drop)
    (unrefused : ∀ cause, call ≠ .start (some cause)) :
    Leads config d (load waiting coming) false {d with client := (d.client.hostCall call).1} := by
  cases held : d.client.held with
  | false => exact leadsSame (.bound joined bond) (by rw [Client.hostUnheld held])
  | true =>
    have idle : d.client.teardown = .none := (Client.reachedCoherent reached).held held
    cases bond with
    | registered awaits | asking awaits | leaving awaits => cases idle.symm.trans awaits
    | early going hopeful =>
      by_cases past : (d.client.hostCall call).1.Over
      · rcases Client.performFollows reached (.host call) with same | edge
        · exact absurd (by rwa [Client.Over, ← same]) going
        · rcases Client.edgeStops edge (not_or.mp going) past with drop | ⟨rfl, created⟩
          · exact absurd drop undropped
          · exact leadsAny (unstartedVoid reached joined created held)
      · have gentle : (Client.Move.host call).isGentle = true := rfl
        obtain ⟨more, step⟩ := hushedStep reached joined gentle rfl past
        exact leadsAny (.bound step (.early past (Client.callHopeful unrefused hopeful)))

theorem askLeads (bond : Bond config d.client) :
    Leads config d (load waiting coming) true {d with client := d.client.ask} := by
  by_cases free : d.client.asking = none
  · exact leadsSame (.bound joined bond) (by rw [Client.askStill free])
  obtain ⟨running, _⟩ := (Client.reachedCoherent reached).asking free
  obtain ⟨phase, link, _, teardown⟩ := Client.askStays d.client
  have going : ¬ d.client.ask.Over := Client.runningGoing (phase.trans running)
  have gentle : Client.Move.ask.isGentle = true := rfl
  obtain ⟨more, step⟩ := hushedStep reached joined gentle rfl going
  have runs := joinedRuns reached joined running
  have present := runsPresent reached runs
  have exited := (Client.lodgedLives step.lodged ((Client.askKept d.client).present present)).trans
    (Client.lodgedLives joined.lodged present).symm
  refine ⟨_, .bound step (.early going (by simp [Client.Hopeful, link, runs.link])), fun _ => .inr ?_⟩
  exact aheadNearer (Client.aheadAsked link teardown exited free (Client.askFree d.client))

def Move.plain : Move → Bool
  | .client (.host .drop) | .client (.host (.start (some _))) => false
  | _ => true

theorem boundLeads (bond : Bond config d.client) (fit : Fit d) {move : Move} (plain : move.plain = true) :
    Leads config d (load waiting coming) move.own (d.perform move) := by
  have stage : Stage config d (load waiting coming) := .bound joined bond
  cases move with
  | client move =>
    cases move with
    | host call =>
      refine callLeads reached joined bond ?_ ?_
      · rintro rfl
        cases plain
      · rintro cause rfl
        cases plain
    | ask => exact askLeads reached joined bond
    | spawn => exact spawnLeads reached joined bond
    | introduce => exact introduceLeads reached joined bond
    | take =>
      by_cases awaits : d.client.teardown = .awaitingExit
      · cases bond with
        | early going => exact absurd (.inl (leavingStops reached awaits)) going
        | registered other | asking other => cases other.symm.trans awaits
        | leaving _ leaves =>
          obtain rfl := leavingSilent reached joined (leavingStops reached awaits) leaves.1
          refine leadsSame stage ?_
          cases took : d.client.take? with
          | none => simp [perform, Client.perform, took]
          | some next =>
            obtain ⟨x, later, rest, split, _⟩ := takeHears joined (List.forall_mem_nil _) took
            cases split
      · exact takeLeads reached joined bond fit awaits
    | giveUp =>
      have still := Client.giveUpStill (bondCleaned reached joined bond)
      exact leadsSame stage (by rw [performOwn rfl, Client.perform, still])
    | beginTeardown => exact beginLeads reached joined bond
    | askToShutDown => exact askToShutDownLeads reached joined bond
    | sendExit => exact sendExitLeads reached joined bond
    | finishTeardown => exact finishLeads reached joined bond
    | server act => exact leadsSame stage rfl
    | elsewhere taken => exact asideLeads reached joined bond rfl ⟨_, _, rfl⟩ joined.lodged
  | hear => exact hearLeads reached joined bond fit
  | pass count => exact passLeads reached joined bond count
  | murmur octets =>
    obtain ⟨server, same⟩ := Client.serverOnly (.murmurs octets) d.client
    have hushed : (Client.Move.server (.murmurs octets)).isIntake = false := rfl
    exact asideLeads reached joined bond hushed ⟨server, d.client.nextId, same⟩
      (Client.murmursLodged octets joined.lodged)
  | leave => exact leaveLeads reached joined bond fit

end

end Dialogue
end LspClient
