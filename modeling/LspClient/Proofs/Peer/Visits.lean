import LspClient.Proofs.Peer.Acts
import LspClient.Proofs.Peer.Ending

/-! The first act of a host. A start lets a new client and a fresh stand-in greet each other, and the client runs. -/
namespace LspClient

namespace Client

variable {config : Config} {c : Client} {id : Int}

theorem hearGreeted {result : Option Json} (awaited : c.link = .handshake id) (starting : c.phase = .starting)
    (running : (c.hear (.response id result none)).phase = .running) : (c.hear (.response id result none)).quiet =
      {c.quiet.told (Request.initialized :: c.queued.map Request.didOpen) with
        capabilities := .ofResult (result.getD .null), queued := [], phase := .running, link := .pumping
        log := c.deeds ++ [.heard (.response id result none)] ++
          (Request.initialized :: c.queued.map Request.didOpen).map .wrote ++ [.resolved .start .done]} := by
  have taken := hearTaken (.response id result none) c
  have phase : (c.hear (.response id result none)).quiet.phase = .running := running
  generalize (c.hear (.response id result none)).quiet = after at taken phase
  cases taken with
  | unasked foreign | pullForestalled foreign | pullAnswered foreign | shutdownAnswered foreign =>
    exact absurd awaited foreign
  | tooLate _ gone => exact absurd starting gone
  | readyLost _ early => cases early.symm.trans phase
  | ready => rfl

theorem newStarted (config : Config) (nextId : Int) :
    ((new config nextId).hostCall (.start none)).1.comeToRest.quiet =
      {new config nextId with
        phase := .starting, attached := true, server := some .fresh, link := .handshake nextId
        nextId := nextId + 1
        log := [.called (.start none) .nothing, .spawned config.executable.arguments,
          .wrote (introduction config nextId)]} := by
  obtain ⟨d, own⟩ : ∃ d, d = ((new config nextId).hostCall (.start none)).1.ask.spawn.introduce := ⟨_, rfl⟩
  have same : d.quiet = {new config nextId with
      phase := .starting, attached := true, server := some .fresh, link := .handshake nextId
      nextId := nextId + 1
      log := [.called (.start none) .nothing, .spawned config.executable.arguments,
        .wrote (introduction config nextId)]} := by
    rw [own]
    cases config with
    | mk _ _ _ _ _ _ _ trace => cases trace <;> rfl
  have link : d.link = .handshake nextId := congrArg Client.link same
  have server : d.server = some .fresh := congrArg Client.server same
  have idle : d.teardown = .none := congrArg Client.teardown same
  have listening : d.listening = true := by rw [Client.listening, link]
  have starved : d.take? = none := takeNone.mpr fun _ _ _ output => by
    cases (congrArg (Option.map _) server).symm.trans output
    rfl
  rw [comeToRest, ← own, pump, drainStarved starved, settleIdle idle listening]
  exact same

end Client

namespace Dialogue
open Client (hearings written answers)
open StandIn (echo hearing attend)

variable {config : Config} {nextId : Int} {d : Dialogue} {attended waiting coming : List Message}

theorem hearAllOnce {m : Message} (joined : Joined d attended [m] coming) (present : d.client.server ≠ none)
    (sendable : Message.Sendable m) (stays : (hearing attended).exitCode = none) :
    d.hearAll d.client.sent.length = d.hear := by
  obtain ⟨bound, long⟩ : ∃ bound, d.client.sent.length = bound + 1 :=
    ⟨attended.length, by rw [sentWritten, joined.written, List.length_append]; rfl⟩
  have unread : d.unheard.isEmpty = false := by simpa using waitingUnheard joined
  have next := hearStep joined (servedLiving joined present) sendable stays
  rw [long, hearAll, if_neg (by simp [unread]), hearAllIdle (unheardWaiting next)]

theorem unpassedWhole (joined : Joined d attended waiting coming) (fresh : d.passed = 0) :
    d.unpassed = (echo attended).flatMap Message.octets := by
  rw [unpassedSaid joined, fresh, List.drop_zero]

theorem exchangeRound {m x : Message} {more : List Message} (reached : Client.Reached config nextId d.client.quiet)
    (joined : Joined d [] [m] []) (unsaid : d.passed = 0) (fresh : d.client.server = some .fresh)
    (listening : d.client.listening = true) (sendable : Message.Sendable m)
    (answer : ((hearing []).handle m).2 = [x]) (sendable' : Message.Sendable x) (same : x.normal = x)
    (running : (d.client.hear x).phase = .running) (pumping : (d.client.hear x).link = .pumping)
    (idle : (d.client.hear x).teardown = .none) (free : d.client.asking = none)
    (wrote : written (d.client.hear x).deeds = m :: more) (stays : (hearing [m]).exitCode = none) :
    Joined d.round [m] more [] ∧ d.round.client = d.client.hear x ∧ d.round.unpassed = [] := by
  have present : d.client.server ≠ none := by simp [fresh]
  have living := servedLiving joined present
  have heard := hearStep joined living sendable rfl
  have client := hearClient d
  have count := unpassedWhole heard ((hearPassed d).trans unsaid)
  obtain ⟨joined', client'⟩ :=
    exchange reached joined fresh listening sendable answer sendable' same running wrote
  rw [answer] at heard
  obtain ⟨_, gone⟩ := passAll heard (client ▸ present) (Nat.le_refl d.hear.unpassed.length)
  have took : (d.hear.pass d.hear.unpassed.length).client.take? = some (d.client.hear x) :=
    client ▸ passTake heard (client ▸ fresh) (client ▸ listening) sendable' same (Nat.le_refl _)
  have continues := passContinues d.hear d.hear.unpassed.length
  rw [List.nil_append] at count
  simp only [play, List.foldl, perform, ← count] at joined' client'
  rw [round, hearAllOnce joined present sendable rfl]
  generalize d.hear.pass d.hear.unpassed.length = p at joined' client' gone took continues ⊢
  have starved := takeNothing joined'
  simp only [Client.perform, took, Option.getD_some] at joined' starved
  have listening' : p.client.listening = true := by rwa [Client.listening, continues.link, client]
  have free' : p.client.asking = none := continues.asking (client ▸ free)
  have pumps : (d.client.hear x).listening = true := by rw [Client.listening, pumping]
  have rests : p.rest = {p with client := d.client.hear x} := by
    rw [rest, Client.comeToRestOnce listening' free' took starved, Client.settleIdle idle pumps]
  rw [← rests] at joined'
  rw [leaveStays joined' stays, restAgain]
  exact ⟨joined', congrArg Dialogue.client rests, (congrArg unpassed rests).trans gone⟩

theorem beginJoined {c : Client} {m : Message} (open' : c.link ≠ .closed) (fresh : c.server = some .fresh)
    (wrote : written c.deeds = [m]) (silent : hearings c.deeds = []) :
    Joined (begin c (.standIn (.fresh false))) [] [m] [] where
  link := open'
  lodged := fun s server => by
    cases fresh.symm.trans server
    exact ⟨rfl, rfl, rfl⟩
  written := wrote
  read := rfl
  peer := rfl
  said := rfl
  heard := by
    change [] = hearings c.deeds ++ []
    rw [silent]
    rfl
  pipe := by
    have unread : c.unread = [] := by rw [Client.unread, fresh]; rfl
    exact congrArg (· ++ []) unread
  passed := Nat.le_refl _
  heeds := fun before part => by
    have none : hearings before <+: [] := silent ▸ part.filterMap _
    rw [List.prefix_nil.mp none]
    exact List.nil_prefix

theorem welcomeSmall : ∀ m ∈ greeting :: Request.initialized :: StandIn.afterInitialized,
    (Utf8.ofString m.body).length ≤ Frame.limit := by
  have sizes : ∀ m ∈ greeting :: Request.initialized :: StandIn.afterInitialized,
      Utf8.size (Json.chars m.toJson) ≤ Frame.limit := by decide +kernel
  exact fun m member => Message.bodySize m ▸ sizes m member

theorem welcomeCarried : ∀ x ∈ greeting :: StandIn.afterInitialized, StandIn.Carried x ∧ Message.Sendable x := by
  have carried : ∀ x ∈ greeting :: StandIn.afterInitialized, StandIn.Carried x :=
    List.forall_mem_cons.mpr ⟨StandIn.greetingCarried (by decide), List.forall_mem_cons.mpr
      ⟨StandIn.loggedCarried _, List.forall_mem_singleton.mpr StandIn.askingCarried⟩⟩
  intro x member
  have small := welcomeSmall x (by
    rcases List.mem_cons.mp member with own | later
    · exact own ▸ List.mem_cons_self
    · exact List.mem_cons_of_mem _ (List.mem_cons_of_mem _ later))
  exact ⟨carried x member, (carried x member).ranged, (carried x member).plain, small⟩

theorem initializedSendable : Message.Sendable Request.initialized := by
  have voiced : Client.Voiced default Request.initialized := .ready
  exact ⟨trivial, Client.voicedPlain voiced trivial rfl,
    welcomeSmall _ (List.mem_cons_of_mem _ List.mem_cons_self)⟩

structure Starts (later : Dialogue) : Prop where
  outcome : later.outcome? .start = some .done
  capabilities : later.client.capabilities = .ofResult StandIn.greeting
  nextId : later.client.nextId = 2
  desk : Client.desk later.client.deeds = []
  unpulled : ∀ name, later.client.deeds.countP (Client.issues (.pull name)) = 0

def launched (config : Config) : Dialogue := ((opening config 1).perform (.client (.host (.start none)))).rest

theorem stepLaunched (config : Config) :
    (opening config 1).step (.host (.start none)) = (launched config).settle 8 :=
  stepSettles (.start none) (opening config 1)

theorem launchedGreeted (sendable : Message.Sendable (Client.introduction config 1)) :
    Joined (launched config) [] [Client.introduction config 1] [] ∧
      Joined (launched config).round [Client.introduction config 1] [Request.initialized] [] ∧
      Live config 1 (launched config).round ∧ (launched config).round.client.nextId = 2 ∧
      (launched config).round.client.capabilities = .ofResult StandIn.greeting ∧
      (launched config).round.client.deeds = [.called (.start none) .nothing,
        .spawned config.executable.arguments, .wrote (Client.introduction config 1), .heard greeting,
        .wrote Request.initialized, .resolved .start .done] := by
  have reached : Client.Reached config 1 (launched config).client.quiet :=
    goesReached (performReached .new _) (restGoes _)
  have whole : launched config = begin (launched config).client (.standIn (.fresh false)) := rfl
  have same : (launched config).client.quiet = _ := Client.newStarted config 1
  generalize launched config = d at reached whole same ⊢
  have awaited : d.client.link = .handshake 1 := congrArg Client.link same
  have starting : d.client.phase = .starting := congrArg Client.phase same
  have fresh : d.client.server = some .fresh := congrArg Client.server same
  have attached : d.client.attached = true := congrArg Client.attached same
  have held : d.client.held = true := congrArg Client.held same
  have idle : d.client.teardown = .none := congrArg Client.teardown same
  have free : d.client.asking = none := congrArg Client.asking same
  have queued : d.client.queued = [] := congrArg Client.queued same
  have log : d.client.deeds = [.called (.start none) .nothing, .spawned config.executable.arguments,
      .wrote (Client.introduction config 1)] := congrArg Client.log same
  have open' : d.client.link ≠ .closed := by
    rw [awaited]
    nofun
  have joined : Joined d [] [Client.introduction config 1] [] :=
    whole ▸ beginJoined open' fresh (congrArg written log) (congrArg hearings log)
  have present : d.client.server ≠ none := by simp [fresh]
  have listening : d.client.listening = true := by rw [Client.listening, awaited]
  obtain ⟨running, pumping, resting⟩ :=
    Client.hearReady joined.lodged present attached awaited starting (some StandIn.greeting)
  have greeted := Client.hearGreeted awaited starting running
  rw [queued, log] at greeted
  have answer : ((hearing []).handle (Client.introduction config 1)).2 = [greeting] := rfl
  obtain ⟨joined', client, passed⟩ := exchangeRound reached joined (congrArg Dialogue.passed whole) fresh listening
    sendable answer (welcomeCarried greeting List.mem_cons_self).2 rfl running pumping (resting.trans idle) free
    (congrArg (fun c => written c.log) greeted) rfl
  have reached' := goesReached reached (roundGoes d)
  rw [client]
  exact ⟨joined, joined', ⟨reached', ⟨client ▸ running, client ▸ pumping⟩,
    client ▸ (congrArg Client.held greeted).trans held, client ▸ (congrArg Client.asking greeted).trans free,
    passed⟩,
    (congrArg Client.nextId greeted).trans (congrArg Client.nextId same), congrArg Client.capabilities greeted,
    congrArg Client.log greeted⟩

theorem startBrief (fit : Fit ((opening config 1).step (.host (.start none)))) :
    Brief [] [Client.introduction config 1] := by
  have reached : Client.Reached config 1 (launched config).client.quiet :=
    goesReached (performReached .new _) (restGoes _)
  have log : (launched config).client.quiet.log = _ := congrArg Client.log (Client.newStarted config 1)
  rw [stepLaunched] at fit
  generalize launched config = d at reached log fit
  have first : Fit d := goesFit reached (settleGoes 8 d) fit
  have member : Client.introduction config 1 ∈ d.client.sent := by
    rw [sentWritten]
    exact (congrArg written log).symm ▸ List.mem_cons_self
  have said : saying [] [Client.introduction config 1] [] = [greeting] := rfl
  refine ⟨List.forall_mem_singleton.mpr (first.ranged _ member),
    List.forall_mem_singleton.mpr (first.small _ member), ?_⟩
  rw [said]
  exact List.forall_mem_singleton.mpr (welcomeSmall _ List.mem_cons_self)

theorem stepStarts (brief : Brief [] [Client.introduction config 1]) :
    Calm config 1 ((opening config 1).step (.host (.start none)))
        [Client.introduction config 1, Request.initialized, settings] ∧
      Starts ((opening config 1).step (.host (.start none))) := by
  have ranged := brief.ranged _ List.mem_cons_self
  have small := brief.small _ List.mem_cons_self
  have sendable : Message.Sendable (Client.introduction config 1) :=
    ⟨ranged, Client.voicedPlain .introduced ranged rfl, small⟩
  obtain ⟨joined, joined₁, live, next, capabilities, log⟩ := launchedGreeted sendable
  have said : saying [Client.introduction config 1] [Request.initialized] [] = StandIn.afterInitialized := rfl
  have settled : (opening config 1).step (.host (.start none)) = (launched config).round.settle (5 + 2) :=
    (stepLaunched config).trans (settleOnce joined 7)
  obtain ⟨joined₂, live₂, retains⟩ := settleLive (n := 5) live joined₁
    (List.forall_mem_singleton.mpr initializedSendable)
    (said ▸ fun x member => welcomeCarried x (List.mem_cons_of_mem _ member))
  rw [← settled] at joined₂ live₂ retains
  generalize (opening config 1).step (.host (.start none)) = later at joined₂ live₂ retains ⊢
  refine ⟨⟨live₂, joined₂, ?_, ?_⟩, ?_, ?_, ?_, ?_, ?_⟩
  · simp only [StandIn.Fair, List.forall_mem_cons, List.not_mem_nil, false_imp_iff, implies_true, and_true]
    exact ⟨⟨.introduced, ranged, small⟩, ⟨.ready, trivial, initializedSendable.small⟩, .reply rfl,
      settingsSendable.ranged, settingsSendable.small⟩
  · exact fun x member => (welcomeCarried x member).2.small
  · exact Client.soleOutcome live₂.reached (Client.reachedSingle live₂.reached).start
      ((Client.reachedDecided live₂.reached).started (.inl live₂.runs.phase))
  · exact retains.capabilities.trans capabilities
  · exact retains.nextId.trans next
  · rw [Client.retainsDesk retains, log]
    rfl
  · intro name
    rw [Client.retainsIssues retains, log]
    rfl

end Dialogue
end LspClient
