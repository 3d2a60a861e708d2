import LspClient.Proofs.Peer.Mirror
import LspClient.Proofs.Peer.Rounds

/-! Acts of the host, each followed by rounds until both sides rest. While the client runs, such an act adds to what
the stand-in has read, opens a document there or brings what it finds in one, and leaves nothing under way. -/
namespace LspClient

namespace Client

variable {config : Config} {nextId : Int} {c : Client} {t : Ticket} {outcome : Outcome}

theorem firstOutcome {log : List Event} (few : log.countP (settles t) ≤ 1) (member : .resolved t outcome ∈ log) :
    (log.findSome? fun
      | .resolved own outcome => if own = t then some outcome else none
      | _ => none) = some outcome := by
  induction log with
  | nil => cases member
  | cons e log ih =>
    rcases List.mem_cons.mp member with rfl | later
    · simp
    · have one : 0 < log.countP (settles t) := List.countP_pos_iff.mpr ⟨_, later, by simp [settles]⟩
      have other : settles t e = false := by
        refine Bool.eq_false_iff.mpr fun own => ?_
        rw [List.countP_cons, if_pos own] at few
        omega
      rw [List.countP_cons, if_neg (by simp [other])] at few
      rw [List.findSome?_cons]
      cases e with
      | resolved own first =>
        have away : own ≠ t := fun same => by simp [settles, same] at other
        simpa [away] using ih few later
      | _ => exact ih few later

theorem settlesDeed {e : Event} (own : settles t e = true) : e.isDeed = true := by
  cases e with
  | resolved => rfl
  | _ => cases own

theorem soleOutcome (reached : Reached config nextId c.quiet) (once : c.deeds.countP (issues t) ≤ 1)
    (member : .resolved t outcome ∈ c.deeds) : (c.log.findSome? fun
      | .resolved own outcome => if own = t then some outcome else none
      | _ => none) = some outcome := by
  have balanced : c.deeds.countP (issues t) = c.deeds.countP (settles t) + c.quiet.owes t := reachedBalanced reached t
  have same : c.deeds.countP (settles t) = c.log.countP (settles t) := by
    rw [deeds, List.countP_filter]
    refine List.countP_congr fun e _ => ?_
    have deed := settlesDeed (t := t) (e := e)
    cases own : settles t e <;> simp_all
  exact firstOutcome (by omega) (List.mem_of_mem_filter member)

def returned (c : Client) (call : Call) : Client := (c.hostCall call).1.ask

theorem returnedRests (c : Client) (call : Call) : (c.hostCall call).1.comeToRest = (c.returned call).comeToRest := by
  rw [comeToRest, comeToRest, returned, askStill (askFree _)]

theorem returnedPhase (c : Client) (call : Call) : (c.returned call).phase = (c.hostCall call).1.phase :=
  (askStays _).1

theorem askCapabilities (c : Client) : c.ask.capabilities = c.capabilities := by
  suffices quiet : c.ask.quiet.capabilities = c.capabilities from quiet
  cases asking : c.asking with
  | none => rw [askStill asking]; rfl
  | some a =>
    cases refused : c.refusal with
    | none => rw [askSent asking refused]; rfl
    | some failure => rw [askLost asking refused]; rfl

theorem returnedCapabilities (c : Client) (call : Call) : (c.returned call).capabilities = c.capabilities := by
  refine (askCapabilities _).trans ?_
  rcases hostCases c call with void | ⟨after, done, same⟩ | ⟨name, uri, _, _, running, pulls⟩
  · rw [void]
  · refine (congrArg Client.capabilities same).trans ?_
    change after.capabilities = c.capabilities
    generalize (c.hostCall call).2 = answer at done
    cases done <;> rfl
  · rw [pulls, pull, if_pos running]
    rfl

theorem returnedOpens {d : TextDocument} (running : c.phase = .running) (held : c.held = true)
    (free : c.asking = none) (clear : c.refusal = none) (accepts : c.config.selector.accepts d = true) :
    (c.hostCall (.didOpen d)).2 = .flag true ∧ (c.returned (.didOpen d)).phase = .running ∧
      (c.returned (.didOpen d)).held = true ∧ (c.returned (.didOpen d)).nextId = c.nextId ∧
      ∃ more : List Message, (more = [] ∨ more = [Request.didOpen d]) ∧
        (c.returned (.didOpen d)).deeds = c.deeds ++ (more.map .wrote ++ [.called (.didOpen d) (.flag true)]) := by
  obtain ⟨after, done, same⟩ := documentCalled (show Call.document? (.didOpen d) = some d.uri from rfl) held free
  have still : after.asking = none := calledFree (c := c.quiet) free done
  have kept : (c.hostCall (.didOpen d)).1.asking = none := (congrArg Client.asking same).trans still
  rw [returned, askStill kept]
  have phase := congrArg Client.phase same
  have holds := congrArg Client.held same
  have next := congrArg Client.nextId same
  have log := congrArg Client.log same
  simp only [quiet, note] at phase holds next log
  rw [phase, holds, next, log]
  generalize (c.hostCall (.didOpen d)).2 = answer at done
  cases done with
  | openForeign foreign => cases accepts.symm.trans foreign
  | openOver past => rcases past with past | past <;> cases running.symm.trans past
  | openQueued _ early => rcases early with early | early <;> cases running.symm.trans early
  | openLost _ _ stuck => cases clear.symm.trans stuck
  | openAgain => exact ⟨rfl, running, held, rfl, [], .inl rfl, rfl⟩
  | openSent => exact ⟨rfl, running, held, rfl, [Request.didOpen d], .inr rfl, List.append_assoc _ _ _⟩

theorem returnedPulls (reached : Reached config nextId c.quiet) (running : c.phase = .running)
    (held : c.held = true) (free : c.asking = none) (clear : c.refusal = none) (open' : c.link ≠ .closed)
    (name uri : String) :
    (c.returned (.pull name uri)).phase = .running ∧ (c.returned (.pull name uri)).held = true ∧
      (c.returned (.pull name uri)).nextId = c.nextId + 1 ∧ (c.returned (.pull name uri)).deeds =
        c.deeds ++ [.awaits c.nextId (.pull name uri), .wrote (Request.diagnostic c.nextId uri),
          .called (.pull name uri) .nothing] := by
  have opened := pullQuiet reached running open' name uri
  have asking : (c.pull name uri).asking = some ⟨c.nextId, name, uri, none⟩ := congrArg Client.asking opened
  have pipe : (c.pull name uri).refusal = none := (congrArg Client.refusal opened).trans clear
  have sent := askSent asking pipe
  rw [opened] at sent
  rw [returned, hostPulls held free running]
  exact ⟨(congrArg Client.phase sent).trans running, (congrArg Client.held sent).trans held,
    congrArg Client.nextId sent, (congrArg Client.log sent).trans (List.append_assoc _ _ _)⟩

end Client

namespace Dialogue
open Client (hearings written answers desk Retains)
open StandIn (echo hearing attend noted)

variable {config : Config} {nextId : Int} {d after : Dialogue} {attended waiting more : List Message}

structure Calm (config : Config) (nextId : Int) (d : Dialogue) (attended : List Message) : Prop where
  live : Live config nextId d
  joined : Joined d attended [] []
  fair : StandIn.Fair config attended
  said : ∀ x ∈ echo attended, (Utf8.ofString x.body).length ≤ Frame.limit

structure Brief (attended waiting : List Message) : Prop where
  ranged : ∀ m ∈ waiting, m.Ranged
  small : ∀ m ∈ waiting, (Utf8.ofString m.body).length ≤ Frame.limit
  said : ∀ x ∈ saying attended waiting [], (Utf8.ofString x.body).length ≤ Frame.limit

section
variable (live : Live config nextId d) (joined : Joined d attended waiting [])
include live joined

theorem fitBrief {bound : Nat} (fit : Fit (d.settle (bound + 1))) : Brief attended waiting := by
  cases waiting with
  | nil => exact ⟨nofun, nofun, nofun⟩
  | cons m waiting =>
    have now : Fit d := goesFit live.reached (settleGoes _ d) fit
    have fair := joinedFair live.reached joined (.inl (runsGoing live.runs)) now
    have sendable := waitingSendable live.reached joined fair
    have own : ∀ n ∈ m :: waiting, Message.Sendable n := fun n member => sendable n (List.mem_append_right _ member)
    have present := runsPresent live.reached live.runs
    have voiced : ∀ n ∈ attended ++ m :: waiting, Client.Voiced config n := fun n member => (fair n member).1
    obtain ⟨next, _⟩ := roundHears joined present voiced own
    have later : Fit (d.hearAll d.client.sent.length) := by
      rw [settleOnce joined] at fit
      have reached := goesReached live.reached (hearAllGoes d.client.sent.length d)
      exact goesFit reached (goesThen (heardGoes d) (settleGoes bound d.round)) fit
    exact ⟨fun n member => (fair n (List.mem_append_right _ member)).2.1,
      fun n member => (own n member).small, fun x member => (comingSendable next fair later x member).1.small⟩

end

structure Asks (d : Dialogue) (call : Client.Call) (attended more : List Message) : Prop where
  running : (d.client.returned call).phase = .running
  held : (d.client.returned call).held = true
  wrote : written (d.client.returned call).deeds = attended ++ more

section
variable {call : Client.Call} (calm : Calm config nextId d attended) (asks : Asks d call attended more)
include calm asks

theorem asksLive : let asked := (d.perform (.client (.host call))).rest
    Joined asked attended more [] ∧ Live config nextId asked ∧ Retains (d.client.returned call) asked.client := by
  have running := Client.returnedPhase d.client call ▸ asks.running
  have gentle : (Client.Move.host call).isGentle = true := rfl
  obtain ⟨new, called⟩ := hushedStep calm.live.reached calm.joined gentle rfl (Client.runningGoing running)
  have reached := performReached calm.live.reached (.client (.host call))
  have gentle' : Client.Move.ask.isGentle = true := rfl
  obtain ⟨new', joined⟩ := hushedStep reached called gentle' rfl (Client.runningGoing asks.running)
  have reached' := performReached reached (.client .ask)
  have same : [] ++ new ++ new' = more := by
    have wrote := joined.written.symm.trans asks.wrote
    exact List.append_cancel_left wrote
  rw [same] at joined
  have runs := joinedRuns reached' joined asks.running
  have live : Live config nextId {d with client := d.client.returned call} :=
    ⟨reached', runs, asks.held, Client.askFree _, calm.live.passed⟩
  have rested := restLive live joined nofun
  rw [List.flatMap_nil, List.append_nil] at rested
  have last : (d.perform (.client (.host call))).rest = ({d with client := d.client.returned call} : Dialogue).rest :=
    congrArg (fun c => ({d with client := c} : Dialogue)) (Client.returnedRests d.client call)
  rw [last]
  exact rested

theorem stepBrief (fit : Fit (d.step (.host call))) : Brief attended more := by
  obtain ⟨joined, live, _⟩ := asksLive calm asks
  exact fitBrief live joined fit

theorem stepCalm (brief : Brief attended more) :
    Calm config nextId (d.step (.host call)) (attended ++ more ++ (saying attended more []).flatMap answers) ∧
      Retains (d.client.returned call) (d.step (.host call)).client := by
  obtain ⟨joined, live, retains⟩ := asksLive calm asks
  have voiced := liveVoiced live joined
  have fair : StandIn.Fair config (attended ++ more) := by
    intro m member
    refine ⟨voiced m member, (List.mem_append.mp member).elim (fun early => (calm.fair m early).2) fun late => ?_⟩
    exact ⟨brief.ranged m late, brief.small m late⟩
  have sendable := waitingSendable live.reached joined fair
  have carried : ∀ x ∈ saying attended more [], StandIn.Carried x := fun x member =>
    StandIn.echoCarried fair x (StandIn.echoAppend attended more ▸ List.mem_append_right _ member)
  obtain ⟨joined', live', retains'⟩ := settleLive live joined
    (fun m member => sendable m (List.mem_append_right _ member))
    fun x member => ⟨carried x member, (carried x member).ranged, (carried x member).plain, brief.said x member⟩
  have replies := carriedAnswers carried
  refine ⟨⟨live', joined', List.forall_mem_append.mpr ⟨fair, fun m member => ?_⟩, ?_⟩,
    Client.retainsThen retains retains'⟩
  · rw [replies m member]
    exact ⟨.reply rfl, settingsSendable.ranged, settingsSendable.small⟩
  · rw [StandIn.echoAppend, settingsSilent _ replies, List.append_nil, StandIn.echoAppend]
    exact List.forall_mem_append.mpr ⟨calm.said, brief.said⟩

end

def Allows (d : Dialogue) (call : Client.Call) (attended : List Message) : Prop :=
  ∀ more, Asks d call attended more → Brief attended more

theorem fitAllows {call : Client.Call} (calm : Calm config nextId d attended) (fit : Fit (d.step (.host call))) :
    Allows d call attended := fun _ asks => stepBrief calm asks fit

theorem calmHeard (calm : Calm config nextId d attended) : Heard config d := by
  have wrote : written d.client.deeds = attended := calm.joined.written.trans (List.append_nil _)
  have heard : echo attended = hearings d.client.deeds := calm.joined.heard.trans (List.append_nil _)
  exact ⟨calm.live.runs, calm.joined.lodged, wrote ▸ calm.fair, wrote ▸ heard.symm, calm.joined.heeds⟩

theorem openSilent {document : TextDocument} (told : more = [] ∨ more = [Request.didOpen document]) :
    (saying attended more []).flatMap answers = [] := by
  rcases told with rfl | rfl
  · rfl
  · rw [saying, attend, StandIn.handleOpened]
    rfl

structure Opens (d : Dialogue) (document : TextDocument) (later : Dialogue) : Prop where
  desk : desk later.client.deeds = Client.place document (desk d.client.deeds)
  capabilities : later.client.capabilities = d.client.capabilities
  nextId : later.client.nextId = d.client.nextId
  issued : ∀ t, later.client.deeds.countP (Client.issues t) = d.client.deeds.countP (Client.issues t)

section
variable {document : TextDocument} (calm : Calm config nextId d attended)
include calm

theorem openAsks (accepts : config.selector.accepts document = true) :
    (d.act (.host (.didOpen document))).2 = .flag true ∧
      (d.client.returned (.didOpen document)).nextId = d.client.nextId ∧
      ∃ more, (more = [] ∨ more = [Request.didOpen document]) ∧ Asks d (.didOpen document) attended more ∧
        (d.client.returned (.didOpen document)).deeds =
          d.client.deeds ++ (more.map .wrote ++ [.called (.didOpen document) (.flag true)]) := by
  have same : d.client.config = config := Client.reachedConfig (c := d.client.quiet) calm.live.reached
  have clear := heardClear calm.live.reached (calmHeard calm)
  obtain ⟨answer, running, held, next, more, told, log⟩ :=
    Client.returnedOpens (d := document) calm.live.runs.phase calm.live.held calm.live.free clear (same ▸ accepts)
  refine ⟨answer, next, more, told, ⟨running, held, ?_⟩, log⟩
  rw [log, Client.writtenAppend, Client.writtenAppend, Client.writtenMap, calm.joined.written, List.append_nil]
  exact congrArg (attended ++ ·) (List.append_nil more)

theorem openAllows (accepts : config.selector.accepts document = true)
    (small : ∀ m ∈ [Request.didOpen document, StandIn.publishing document.uri document.text],
      (Utf8.ofString m.body).length ≤ Frame.limit) : Allows d (.didOpen document) attended := by
  intro more asks
  obtain ⟨_, _, more', told, asks', _⟩ := openAsks calm accepts
  have wire : attended ++ more = attended ++ more' := asks.wrote.symm.trans asks'.wrote
  obtain rfl := List.append_cancel_left wire
  obtain ⟨first, second⟩ := List.forall_mem_cons.mp small
  rcases told with rfl | rfl
  · exact ⟨List.forall_mem_nil _, List.forall_mem_nil _, List.forall_mem_nil _⟩
  · refine ⟨List.forall_mem_singleton.mpr trivial, List.forall_mem_singleton.mpr first, ?_⟩
    rw [saying, attend, StandIn.handleOpened]
    exact second

theorem stepOpens (accepts : config.selector.accepts document = true)
    (allows : Allows d (.didOpen document) attended) :
    (d.act (.host (.didOpen document))).2 = .flag true ∧
      (∃ more, Calm config nextId (d.step (.host (.didOpen document))) (attended ++ more)) ∧
      Opens d document (d.step (.host (.didOpen document))) := by
  obtain ⟨answer, next, more, told, asks, log⟩ := openAsks calm accepts
  obtain ⟨calm', retains⟩ := stepCalm calm asks (allows more asks)
  rw [openSilent told, List.append_nil] at calm'
  refine ⟨answer, ⟨more, calm'⟩, ?_, ?_, retains.nextId.trans next, fun t => ?_⟩
  · rw [Client.retainsDesk retains, log, ← List.append_assoc, Client.deskAppend,
      Client.steadyDesk (Client.steadyWrote more)]
    rfl
  · exact retains.capabilities.trans (Client.returnedCapabilities _ _)
  · rw [Client.retainsIssues retains, log, List.countP_append, List.countP_append]
    have none : (more.map Event.wrote).countP (Client.issues t) = 0 := by
      simp [List.countP_eq_zero, Client.issues]
    rw [none]
    rfl

end

structure Pulls (d : Dialogue) (name uri : String) (later : Dialogue) : Prop where
  outcome : later.outcome? (.pull name) = some (.items (noted (StandIn.shownText (desk d.client.deeds) uri)))
  desk : desk later.client.deeds = desk d.client.deeds
  nextId : later.client.nextId = d.client.nextId + 1
  issued : ∀ t, later.client.deeds.countP (Client.issues t) =
    d.client.deeds.countP (Client.issues t) + if t = .pull name then 1 else 0

section
variable (calm : Calm config nextId d attended) (name uri : String)
include calm

theorem pullReturns : (d.client.returned (.pull name uri)).phase = .running ∧
    (d.client.returned (.pull name uri)).held = true ∧
    (d.client.returned (.pull name uri)).nextId = d.client.nextId + 1 ∧
    (d.client.returned (.pull name uri)).deeds = d.client.deeds ++ [.awaits d.client.nextId (.pull name uri),
      .wrote (Request.diagnostic d.client.nextId uri), .called (.pull name uri) .nothing] :=
  Client.returnedPulls calm.live.reached calm.live.runs.phase calm.live.held calm.live.free
    (heardClear calm.live.reached (calmHeard calm)) calm.joined.link name uri

theorem pullAsks : Asks d (.pull name uri) attended [Request.diagnostic d.client.nextId uri] := by
  obtain ⟨running, held, _, log⟩ := pullReturns calm name uri
  have wrote : written d.client.deeds = attended := calm.joined.written.trans (List.append_nil _)
  refine ⟨running, held, ?_⟩
  rw [log, Client.writtenAppend, wrote]
  rfl

theorem pullAllows (range : Message.IsId d.client.nextId)
    (small : ∀ m ∈ [Request.diagnostic d.client.nextId uri,
      StandIn.reporting d.client.nextId (StandIn.shownText (desk d.client.deeds) uri)],
        (Utf8.ofString m.body).length ≤ Frame.limit) : Allows d (.pull name uri) attended := by
  intro more asks
  have heard := calmHeard calm
  have wrote : written d.client.deeds = attended := calm.joined.written.trans (List.append_nil _)
  have wire : attended ++ more = attended ++ [Request.diagnostic d.client.nextId uri] :=
    asks.wrote.symm.trans (pullAsks calm name uri).wrote
  obtain rfl := List.append_cancel_left wire
  obtain ⟨first, second⟩ := List.forall_mem_cons.mp small
  have text := StandIn.hearingReplica (fun m member => (heard.fair m member).1) (heardDesk calm.live.reached heard).1 uri
  rw [wrote] at text
  refine ⟨List.forall_mem_singleton.mpr range, List.forall_mem_singleton.mpr first, ?_⟩
  rw [saying, attend, StandIn.handlePulled, text]
  exact second

theorem stepPulls (allows : Allows d (.pull name uri) attended)
    (fresh : d.client.deeds.countP (Client.issues (.pull name)) = 0) :
    (∃ more, Calm config nextId (d.step (.host (.pull name uri))) (attended ++ more)) ∧
      Pulls d name uri (d.step (.host (.pull name uri))) := by
  have asks := pullAsks calm name uri
  have heard := calmHeard calm
  obtain ⟨calm', retains⟩ := stepCalm calm asks (allows _ asks)
  obtain ⟨_, _, next, log⟩ := pullReturns calm name uri
  have issued (t : Ticket) : (d.step (.host (.pull name uri))).client.deeds.countP (Client.issues t) =
      d.client.deeds.countP (Client.issues t) + if t = .pull name then 1 else 0 := by
    rw [Client.retainsIssues retains, log, List.countP_append]
    by_cases own : t = .pull name <;> simp [Client.issues, own]
  obtain ⟨es, grown, _⟩ := retains.log
  have begun := (heardAsks calm.live.reached heard calm.live.held calm.live.free name uri).1
  obtain ⟨id, result, early, between, last, split, _⟩ := heardFetched calm.live.reached heard calm.live.held
    calm.live.free name uri calm'.live.reached (calmHeard calm') calm'.live.free
    (grown.trans (by rw [log, begun, List.append_assoc, List.append_assoc]; rfl))
  refine ⟨⟨_, List.append_assoc attended _ _ ▸ calm'⟩, ?_, ?_, ?_, issued⟩
  · refine Client.soleOutcome calm'.live.reached (by rw [issued, fresh, if_pos rfl]) ?_
    rw [split, (heardFindings calm.live.reached heard uri).1]
    simp
  · rw [Client.retainsDesk retains, log]
    exact Client.steadyDesk (by simp [Client.Steady]) _
  · exact retains.nextId.trans next

end

end Dialogue
end LspClient
