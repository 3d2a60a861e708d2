import LspClient.Proofs.Client.Moves

/-! Veils. A veil changes parts of a client that operations only hand on: who holds it, its stop, its trace level
together with what stands in its log, and the output that it has not read. What an operation makes of a veiled
client is what it makes of the client, veiled. So two runs that differ only in such a part are one run. -/
namespace LspClient
open Utf8 (Octets)

def Event.isPlain : Event → Bool
  | .traced _ | .wrote _ | .lost _ | .heard _ => false
  | _ => true

def Server.reread (f : Octets → Octets) (s : Server) : Server := {s with unread := f s.unread}

theorem Server.rereadSame {f : Octets → Octets} (clear : ∀ u, f u = u) : Server.reread f = id := by
  funext s
  simp [reread, clear]

namespace Client

def traces (level : Trace) (direction : String) (m : Message) : List Event :=
  (traceLines level direction m).map .traced

structure Veil where
  held : Bool → Bool
  teardown : Teardown → Teardown
  level : Trace → Trace
  log : List Event → List Event
  unread : Octets → Octets
  plain : ∀ past e, e.isPlain = true → log (past ++ [e]) = log past ++ [e]
  tried : ∀ past level' m e, e = .wrote m ∨ e = .lost m →
    log (past ++ (traces level' "Sending" m ++ [e])) =
      log past ++ (traces (level level') "Sending" m ++ [e])
  heard : ∀ past level' m, log (past ++ (.heard m :: traces level' "Received" m)) =
    log past ++ (.heard m :: traces (level level') "Received" m)

def veiled (v : Veil) (c : Client) : Client :=
  {c with
    config := {c.config with trace := v.level c.config.trace}
    held := v.held c.held
    server := c.server.map (Server.reread v.unread)
    teardown := v.teardown c.teardown
    log := v.log c.log}

variable {v : Veil} {c : Client}

@[simp] theorem noteVeiled {e : Event} (plain : e.isPlain = true) :
    (c.veiled v).note e = (c.note e).veiled v := by
  simp [note, veiled, v.plain c.log e plain]

@[simp] theorem displayVeiled (line : String) :
    (c.veiled v).display line = (c.display line).veiled v := noteVeiled rfl

@[simp] theorem resolveVeiled (ticket : Ticket) (outcome : Outcome) :
    (c.veiled v).resolve ticket outcome = (c.resolve ticket outcome).veiled v := noteVeiled rfl

theorem plainVeiled {es : List Event} (plain : ∀ e ∈ es, e.isPlain = true) (past : List Event) :
    v.log (past ++ es) = v.log past ++ es := by
  induction es generalizing past with
  | nil => simp
  | cons e rest ih =>
    obtain ⟨own, others⟩ := List.forall_mem_cons.mp plain
    rw [← List.singleton_append, ← List.append_assoc, ih others, v.plain past e own, List.append_assoc]

theorem updateVeiled {f : Server → Server} (blind : ∀ s g, f (s.reread g) = (f s).reread g) :
    (c.veiled v).updateServer f = (c.updateServer f).veiled v := by
  cases server : c.server <;> simp [updateServer, veiled, server, blind]

theorem foldVeiled {α : Type} {f : Client → α → Client}
    (each : ∀ x c, f (veiled v c) x = (f c x).veiled v) (xs : List α) (c : Client) :
    xs.foldl f (c.veiled v) = (xs.foldl f c).veiled v := by
  induction xs generalizing c with
  | nil => rfl
  | cons x xs ih => rw [List.foldl_cons, List.foldl_cons, each, ih]

theorem refusalVeiled : (c.veiled v).refusal = c.refusal := by
  have same : (c.veiled v).writable = c.writable := by
    cases server : c.server <;> simp [writable, veiled, server, Server.reads, Server.reread]
  unfold refusal
  rw [same]
  rfl

theorem tracedRefusal (direction : String) (m : Message) :
    (c.traceMessage direction m).refusal = c.refusal := rfl

@[simp] theorem sendVeiled (m : Message) :
    (c.veiled v).send m = ((c.send m).1.veiled v, (c.send m).2) := by
  unfold send
  simp only [tracedRefusal, refusalVeiled]
  cases c.refusal with
  | some failure =>
    have log := v.tried c.log c.config.trace m (.lost m) (.inr rfl)
    simp only [note, traceMessage, veiled, traces, List.append_assoc, Prod.mk.injEq, and_true,
      Client.mk.injEq, true_and] at log ⊢
    exact log.symm
  | none =>
    have log := v.tried c.log c.config.trace m (.wrote m) (.inl rfl)
    have server := congrArg Client.server (updateVeiled (v := v) (c := c) (f := Server.fed 1) fun _ _ => rfl)
    simp only [note, traceMessage, updateServer, veiled, traces, List.append_assoc, Prod.mk.injEq, and_true,
      Client.mk.injEq, true_and] at log server ⊢
    exact ⟨server, log.symm⟩

@[simp] theorem closeVeiled : (c.veiled v).closeRouter = c.closeRouter.veiled v := by
  have plain : ∀ e ∈ c.forsaken, e.isPlain = true := fun e member => by
    obtain ⟨name, rfl⟩ := forsakenPull member
    rfl
  have log : v.log c.log ++ c.forsaken = v.log (c.log ++ c.forsaken) := (plainVeiled plain c.log).symm
  have asks : ((c.veiled v).router.pending.any fun slot => (c.veiled v).asks slot.1) =
      c.router.pending.any fun slot => c.asks slot.1 := rfl
  unfold closeRouter
  rw [asks]
  split
  · exact congrArg (fun log => {(c.veiled v).forestall .abandoned with
      router := c.router.close.1, log := log}) log
  · exact congrArg (fun log => {c.veiled v with router := c.router.close.1, log := log}) log

theorem settleVeiledPull (id : Int) (name : String) (outcome : Outcome) :
    (c.veiled v).settlePull id name outcome = (c.settlePull id name outcome).veiled v := by
  have asks : (c.veiled v).asks id = c.asks id := rfl
  unfold settlePull
  rw [asks]
  split
  · rfl
  · exact resolveVeiled _ _

theorem deliverVeiled (d : Delivery Awaited) (c : Client) :
    (c.veiled v).deliver d = (c.deliver d).veiled v := by
  cases d with
  | answer id owner result =>
    cases owner with
    | shutdown => rfl
    | pull name uri => exact settleVeiledPull (c := {c with store := keep uri result c.store}) id name _
  | published uri items => rfl
  | line text => exact displayVeiled text
  | reply m => simp [deliver]

@[simp] theorem heardVeiled (m : Message) :
    ((c.veiled v).note (.heard m)).traceMessage "Received" m =
      ((c.note (.heard m)).traceMessage "Received" m).veiled v := by
  have log := v.heard c.log c.config.trace m
  simp only [note, traceMessage, veiled, traces, List.append_assoc, List.singleton_append, Client.mk.injEq,
    true_and] at log ⊢
  exact log.symm

@[simp] theorem dispatchVeiled (m : Message) :
    ((c.veiled v).note (.heard m)).dispatch m = ((c.note (.heard m)).dispatch m).veiled v := by
  unfold dispatch
  rw [heardVeiled]
  exact foldVeiled deliverVeiled (c.router.handle m).2
    {(c.note (.heard m)).traceMessage "Received" m with router := (c.router.handle m).1}

@[simp] theorem vanishVeiled : (c.veiled v).vanish = c.vanish.veiled v := by
  have last : (c.veiled v).lastMurmur = c.lastMurmur := by
    cases server : c.server <;> simp [lastMurmur, veiled, server, Server.reread]
  have shown := foldVeiled (f := fun c line => c.display line) (v := v) (fun line c => displayVeiled line)
    c.lastMurmur c
  unfold vanish
  rw [last, shown]
  exact updateVeiled fun _ _ => rfl

@[simp] theorem killVeiled : (c.veiled v).kill = c.kill.veiled v := by
  have same : (c.veiled v).attached = c.attached := rfl
  cases attached : c.attached with
  | false => simp [kill, same, attached]
  | true =>
    simp only [kill, same, attached, if_true]
    rw [← vanishVeiled, ← noteVeiled rfl]
    rfl

@[simp] theorem failVeiled (failure : Failure) :
    (c.veiled v).failStart failure = (c.failStart failure).veiled v := by
  unfold failStart
  simp only [displayVeiled, closeVeiled, killVeiled]
  exact resolveVeiled (c := {(c.display ("Starting client failed: " ++ failure.message)).closeRouter.kill with
    queued := [], phase := .stopped, link := .closed}) _ _

theorem giveUpVeiled : (c.veiled v).giveUp = c.giveUp.veiled v := by
  have link : (c.veiled v).link = c.link := rfl
  unfold giveUp
  rw [link]
  split
  · exact failVeiled _
  · rfl

theorem askVeiled : (c.veiled v).ask = c.ask.veiled v := by
  have asking : (c.veiled v).asking = c.asking := rfl
  unfold ask
  rw [asking]
  split
  · rfl
  · rename_i a own
    have freed : ({c.veiled v with asking := none} : Client) = ({c with asking := none} : Client).veiled v := rfl
    have plain : ∀ e ∈ a.news ++ [.called (.pull a.name a.uri) .nothing], e.isPlain = true := by
      rw [List.forall_mem_append]
      refine ⟨fun e member => ?_, by simp [Event.isPlain]⟩
      obtain ⟨outcome, _, rfl⟩ := List.mem_map.mp member
      rfl
    simp only [freed, sendVeiled]
    rcases ({c with asking := none} : Client).send (Request.diagnostic a.id a.uri) with ⟨after, refused⟩
    cases refused with
    | none => exact congrArg (fun log => {after.veiled v with log := log}) (plainVeiled plain after.log).symm
    | some failure =>
      have cancelled : (after.veiled v).cancel a.id = (after.cancel a.id).veiled v := rfl
      simp only [cancelled, resolveVeiled]
      exact noteVeiled rfl

theorem spawnVeiled (empty : v.unread [] = []) : (c.veiled v).spawn = c.spawn.veiled v := by
  have link : (c.veiled v).link = c.link := rfl
  unfold spawn
  rw [link]
  split
  · rfl
  · have fresh : (({c with server := some .fresh, link := .launched} : Client).veiled v) =
        {c.veiled v with server := some .fresh, link := .launched} := by
      simp [veiled, Server.fresh, Server.reread, empty]
    rw [← noteVeiled rfl, fresh]
    rfl
  · rfl

theorem introduceVeiled : (c.veiled v).introduce = c.introduce.veiled v := by
  let attached := {c with attached := true, nextId := c.nextId + 1}
  let asking := Request.introduce c.nextId c.config.rootUri introducedAs 0
  by_cases waiting : c.link = .launched
  · by_cases starting : c.phase = .starting
    · rcases sent : attached.send asking with ⟨next, refused⟩
      have veiled : (attached.veiled v).send asking = (next.veiled v, refused) := by
        rw [sendVeiled, sent]
      cases refused with
      | none =>
        rw [introduceSent waiting starting rfl sent]
        exact introduceSent (c := c.veiled v) waiting starting rfl veiled
      | some failure =>
        rw [introduceUnsent waiting starting rfl sent]
        exact introduceUnsent (c := c.veiled v) waiting starting rfl veiled
    · have step : (c.veiled v).introduce = {(attached.veiled v).kill with link := .failing (.invalidState c.phase)} :=
        (if_neg (not_not_intro waiting)).trans (if_pos starting)
      have own : c.introduce = {attached.kill with link := .failing (.invalidState c.phase)} :=
        (if_neg (not_not_intro waiting)).trans (if_pos starting)
      rw [step, own, killVeiled]
      rfl
  · have step : (c.veiled v).introduce = c.veiled v := if_pos waiting
    have own : c.introduce = c := if_pos waiting
    rw [step, own]

@[simp] theorem sendAllVeiled (ms : List Message) (c : Client) :
    (c.veiled v).sendAll ms = ((c.sendAll ms).1.veiled v, (c.sendAll ms).2) := by
  induction ms generalizing c with
  | nil => rfl
  | cons m rest ih =>
    simp only [sendAll, sendVeiled]
    rcases c.send m with ⟨after, refused⟩
    cases refused with
    | none => exact ih after
    | some failure => rfl

@[simp] theorem becomeReadyVeiled : (c.veiled v).becomeReady = c.becomeReady.veiled v := by
  unfold becomeReady
  rw [sendVeiled]
  rcases c.send Request.initialized with ⟨next, refused⟩
  cases refused with
  | some failure => rfl
  | none =>
    have begun : ({next.veiled v with queued := []} : Client) = ({next with queued := []} : Client).veiled v := rfl
    have queued : (next.veiled v).queued = next.queued := rfl
    dsimp only
    rw [begun, queued, sendAllVeiled]
    rcases ({next with queued := []} : Client).sendAll (next.queued.map Request.didOpen) with ⟨after, refused⟩
    cases refused with
    | none => exact resolveVeiled (c := {after with phase := .running, link := .pumping}) _ _
    | some failure => rfl

@[simp] theorem answerHandshakeVeiled (result : Option Json) (error : Option ResponseError) :
    (c.veiled v).answerHandshake result error = (c.answerHandshake result error).veiled v := by
  cases error with
  | some e => rfl
  | none =>
    have phase : (c.veiled v).phase = c.phase := rfl
    simp only [answerHandshake, phase]
    split
    · exact becomeReadyVeiled (c := {c with capabilities := .ofResult (result.getD .null)})
    · rfl

@[simp] theorem hearVeiled (m : Message) : (c.veiled v).hear m = (c.hear m).veiled v := by
  have link : ((c.veiled v).note (.heard m)).link = (c.note (.heard m)).link := rfl
  unfold hear
  simp only [link]
  split
  · split
    · rw [heardVeiled, answerHandshakeVeiled]
    · exact dispatchVeiled _
  · exact dispatchVeiled _

@[simp] theorem receiveVeiled (body : String) : (c.veiled v).receive body = (c.receive body).veiled v := by
  unfold receive
  split
  · rfl
  · exact hearVeiled _

@[simp] theorem loseVeiled : (c.veiled v).lose = c.lose.veiled v := by
  have ended : (c.veiled v).note .ended = (c.note .ended).veiled v := noteVeiled rfl
  have link : ((c.note .ended).veiled v).link = (c.note .ended).link := rfl
  unfold lose
  simp only [ended, link]
  split
  · simp only [closeVeiled]
    have phase : ((c.note .ended).closeRouter.veiled v).phase = (c.note .ended).closeRouter.phase := rfl
    rw [phase]
    split
    · exact displayVeiled (c := {(c.note .ended).closeRouter with link := .closed}) _
    · rfl
  · rfl

theorem takeVeiled (clear : ∀ u, v.unread u = u) : (c.veiled v).take? = c.take?.map (veiled v) := by
  have listening : (c.veiled v).listening = c.listening := rfl
  have server : (c.veiled v).server = c.server := by
    simp [veiled, Server.rereadSame clear]
  have onward (rest : Octets) : ((c.veiled v).updateServer fun s => {s with unread := rest}) =
      (c.updateServer fun s => {s with unread := rest}).veiled v := by
    simp [updateServer, veiled, Server.rereadSame clear]
  unfold take?
  rw [listening, server]
  split
  · split
    · rfl
    · rw [onward, receiveVeiled]
      rfl
    · rw [loseVeiled]
      rfl
    · rw [loseVeiled]
      rfl
  · rfl

theorem murmursVeiled (octets : Octets) :
    (c.veiled v).serverMurmurs octets = (c.serverMurmurs octets).veiled v := by
  cases server : c.server with
  | none => simp [serverMurmurs, veiled, server]
  | some s =>
    let heard := murmured (s.murmur ++ octets)
    have step : c.serverMurmurs octets = heard.1.foldl (fun c line => c.display line)
        (c.updateServer fun s => {s with murmur := heard.2}) := by
      simp only [serverMurmurs, server]
      rfl
    have own : (c.veiled v).serverMurmurs octets = heard.1.foldl (fun c line => c.display line)
        ((c.veiled v).updateServer fun s => {s with murmur := heard.2}) := by
      simp only [serverMurmurs, veiled, server, Option.map_some]
      rfl
    rw [step, own, updateVeiled fun _ _ => rfl]
    exact foldVeiled (f := fun c line => c.display line) (fun line c => displayVeiled line) _ _

theorem exitedVeiled : (c.veiled v).exited = c.exited := by
  cases server : c.server <;> simp [Client.exited, veiled, server, Server.reread]

theorem serverActVeiled {act : ServerAct} (clear : (∀ octets, act ≠ .writes octets) ∨ ∀ u, v.unread u = u) :
    (c.veiled v).serverAct act = (c.serverAct act).veiled v := by
  unfold serverAct
  rw [exitedVeiled]
  split
  · rfl
  cases act with
  | murmurs octets => exact murmursVeiled octets
  | exits => exact vanishVeiled
  | endsOutput => exact updateVeiled (f := fun s => {s with writes := false}) fun _ _ => rfl
  | endsInput after =>
    exact updateVeiled (f := fun s => {s with room := some (min after (s.room.getD after))}) fun _ _ => rfl
  | writes octets =>
    have same := clear.resolve_left fun other => other octets rfl
    simp [updateServer, veiled, Server.rereadSame same]

def Move.isApart : Move → Bool
  | .ask | .spawn | .introduce | .take | .giveUp | .server _ | .elsewhere _ => true
  | .host _ | .beginTeardown | .askToShutDown | .sendExit | .finishTeardown => false

theorem apartVeiled (clear : ∀ u, v.unread u = u) {move : Move} (apart : move.isApart = true) (c : Client) :
    (c.veiled v).perform move = (c.perform move).veiled v := by
  cases move with
  | ask => exact askVeiled
  | spawn => exact spawnVeiled (clear [])
  | introduce => exact introduceVeiled
  | giveUp => exact giveUpVeiled
  | take =>
    simp only [perform, takeVeiled clear]
    cases c.take? <;> rfl
  | server act => exact serverActVeiled (.inr clear)
  | elsewhere taken => rfl
  | host | beginTeardown | askToShutDown | sendExit | finishTeardown => cases apart

structure Veil.Free (v : Veil) : Prop where
  held : ∀ h, v.held h = h
  teardown : ∀ t, v.teardown t = t

theorem startVeiled (refused : Option Refusal) :
    (c.veiled v).start refused = ((c.start refused).1.veiled v, (c.start refused).2) := by
  have phase : (c.veiled v).phase = c.phase := rfl
  unfold start
  rw [phase]
  split <;> rfl

@[simp] theorem tellVeiled (m : Message) : (c.veiled v).tell m = ((c.tell m).1.veiled v, (c.tell m).2) := by
  simp only [tell, sendVeiled]
  rcases c.send m with ⟨after, refused⟩
  cases refused <;> rfl

theorem didOpenVeiled (d : TextDocument) :
    (c.veiled v).didOpen d = ((c.didOpen d).1.veiled v, (c.didOpen d).2) := by
  have tracked : (c.veiled v).track d.uri d.version = (c.track d.uri d.version).veiled v := rfl
  have selector : (c.veiled v).config.selector = c.config.selector := rfl
  have phase : (c.veiled v).phase = c.phase := rfl
  have documents : (c.veiled v).documents = c.documents := rfl
  unfold didOpen
  rw [selector, phase, documents, tracked]
  split
  · rfl
  split
  · rfl
  split
  · rfl
  split
  · exact tellVeiled _
  · rfl

theorem didChangeVeiled (uri text : String) :
    (c.veiled v).didChange uri text = ((c.didChange uri text).1.veiled v, (c.didChange uri text).2) := by
  have documents : (c.veiled v).documents = c.documents := rfl
  have phase : (c.veiled v).phase = c.phase := rfl
  unfold didChange
  rw [documents]
  split
  · rfl
  · rename_i version known
    have tracked : (c.veiled v).track uri (version + 1) = (c.track uri (version + 1)).veiled v := rfl
    simp only [phase, tracked]
    split
    · exact tellVeiled _
    all_goals rfl

theorem didCloseVeiled (uri : String) :
    (c.veiled v).didClose uri = ((c.didClose uri).1.veiled v, (c.didClose uri).2) := by
  have documents : (c.veiled v).documents = c.documents := rfl
  have phase : (c.veiled v).phase = c.phase := rfl
  have untracked : (c.veiled v).untrack uri = (c.untrack uri).veiled v := rfl
  unfold didClose
  rw [documents, phase, untracked, tellVeiled]
  split
  · rfl
  split
  · rcases (c.untrack uri).tell (Request.didClose uri) with ⟨after, told⟩
    cases told <;> rfl
  · rfl

theorem pullVeiled (name uri : String) : (c.veiled v).pull name uri = (c.pull name uri).veiled v := by
  have phase : (c.veiled v).phase = c.phase := rfl
  let slot := c.router.register c.nextId (.pull name uri)
  let asking : Client := {c with
    nextId := c.nextId + 1, router := slot.1
    asking := some ⟨c.nextId, name, uri, slot.2.map fun _ => .abandoned⟩}
  unfold pull
  rw [phase]
  split
  · exact noteVeiled (c := asking) (e := .awaits c.nextId (.pull name uri)) rfl
  · exact resolveVeiled _ _

section
variable (free : v.Free)
include free

theorem givenUpVeiled (phase : Phase) (teardown : Teardown) :
    ({c.veiled v with held := false, phase := phase, teardown := teardown} : Client) =
      ({c with held := false, phase := phase, teardown := teardown} : Client).veiled v := by
  simp only [veiled, free.held, free.teardown]

theorem stopVeiled : (c.veiled v).stop = c.stop.veiled v := by
  have phase : (c.veiled v).phase = c.phase := rfl
  have teardown : (c.veiled v).teardown = c.teardown := free.teardown c.teardown
  unfold stop
  cases now : c.phase with
  | created | stopping | stopped =>
    simp only [phase, now, teardown]
    exact (congrArg (resolve .stop .done) (givenUpVeiled free _ c.teardown)).trans (resolveVeiled _ _)
  | starting | running =>
    simp only [phase, now]
    exact givenUpVeiled free _ .requested

theorem dropVeiled : (c.veiled v).drop = c.drop.veiled v := by
  have away : ({c.veiled v with held := false} : Client) = ({c with held := false} : Client).veiled v := by
    simp [veiled, free.held]
  unfold drop
  rw [away, killVeiled]
  rfl

theorem calledVeiled (call : Call) :
    (c.veiled v).called call = ((c.called call).1.veiled v, (c.called call).2) := by
  cases call with
  | start refused => simp only [called, startVeiled]
  | stop => simp only [called, stopVeiled free]
  | drop => simp only [called, dropVeiled free]
  | didOpen d => simp only [called, didOpenVeiled]
  | didChange uri text => simp only [called, didChangeVeiled]
  | didClose uri => simp only [called, didCloseVeiled]
  | pull name uri => simp only [called, pullVeiled]

theorem hostVeiled (call : Call) :
    (c.veiled v).hostCall call = ((c.hostCall call).1.veiled v, (c.hostCall call).2) := by
  have held : (c.veiled v).held = c.held := free.held c.held
  have asking (d : Client) : (d.veiled v).asking = d.asking := rfl
  unfold hostCall
  rw [held, asking, calledVeiled free]
  split
  · simp only [asking]
    split
    · exact congrArg (·, (c.called call).2) (noteVeiled rfl)
    · rfl
  · rfl

theorem tornVeiled (teardown : Teardown) (c : Client) : ({c.veiled v with teardown := teardown} : Client) =
    ({c with teardown := teardown} : Client).veiled v := by
  simp only [veiled, free.teardown]

theorem beginVeiled : (c.veiled v).beginTeardown = c.beginTeardown.veiled v := by
  have teardown : (c.veiled v).teardown = c.teardown := free.teardown c.teardown
  have phase : (c.veiled v).phase = c.phase := rfl
  let stopping : Client := {c with
    phase := .stopping, nextId := c.nextId + 1, router := (c.router.register c.nextId .shutdown).1}
  unfold beginTeardown
  simp only [teardown, phase]
  split
  · rfl
  split
  · exact (congrArg (note (.awaits c.nextId .shutdown)) (tornVeiled free (.registered c.nextId) stopping)).trans
      (noteVeiled (e := .awaits c.nextId .shutdown) rfl)
  · exact (congrArg (resolve .stop .done) (tornVeiled free .none c)).trans (resolveVeiled _ _)

theorem askToShutDownVeiled : (c.veiled v).askToShutDown = c.askToShutDown.veiled v := by
  cases teardown : c.teardown with
  | registered id =>
    have own : (c.veiled v).teardown = .registered id := (free.teardown c.teardown).trans teardown
    rw [askToShutDownStep own, askToShutDownStep teardown, sendVeiled]
    rcases c.send (Request.shutdown id) with ⟨after, refused⟩
    cases refused with
    | none => exact tornVeiled free _ after
    | some failure => exact tornVeiled free _ (after.cancel id)
  | _ =>
    have own : (c.veiled v).teardown = c.teardown := free.teardown c.teardown
    simp only [askToShutDown, own, teardown]

theorem sendExitVeiled : (c.veiled v).sendExit = c.sendExit.veiled v := by
  have teardown : (c.veiled v).teardown = c.teardown := free.teardown c.teardown
  have leaves (d : Client) : ({d.veiled v with attached := false, teardown := .awaitingExit} : Client) =
      ({d with attached := false, teardown := .awaitingExit} : Client).veiled v :=
    tornVeiled free .awaitingExit {d with attached := false}
  have attached : (c.veiled v).attached = c.attached := rfl
  have router : (c.veiled v).router = c.router := rfl
  unfold sendExit
  rw [teardown]
  split
  · simp only [attached, router, sendVeiled]
    split
    · rfl
    split
    · exact leaves _
    · exact leaves c
  · rfl

theorem finishVeiled : (c.veiled v).finishTeardown = c.finishTeardown.veiled v := by
  let gone : Client :=
    {c with teardown := .none, documents := [], queued := [], phase := .stopped, store := []}
  have teardown : (c.veiled v).teardown = c.teardown := free.teardown c.teardown
  have exited : (c.veiled v).exited = c.exited := exitedVeiled
  have left : gone.veiled v = {c.veiled v with
      teardown := .none, documents := [], queued := [], phase := .stopped, store := []} :=
    (tornVeiled free .none gone).symm
  unfold finishTeardown
  rw [teardown, exited, ← left]
  split
  · exact resolveVeiled (c := gone) _ _
  · rfl

theorem settleVeiled : (c.veiled v).settle = c.settle.veiled v := by
  rw [settle, giveUpVeiled, beginVeiled free, askToShutDownVeiled free, sendExitVeiled free,
    finishVeiled free, settle]

theorem performVeiled (clear : ∀ u, v.unread u = u) (move : Move) (c : Client) :
    (c.veiled v).perform move = (c.perform move).veiled v := by
  cases move with
  | host call => exact congrArg Prod.fst (hostVeiled free call)
  | beginTeardown => exact beginVeiled free
  | askToShutDown => exact askToShutDownVeiled free
  | sendExit => exact sendExitVeiled free
  | finishTeardown => exact finishVeiled free
  | ask | spawn | introduce | take | giveUp | server | elsewhere => exact apartVeiled clear rfl c

theorem drainVeiled (clear : ∀ u, v.unread u = u) (bound : Nat) (c : Client) :
    (c.veiled v).drain bound = (c.drain bound).veiled v := by
  induction bound generalizing c with
  | zero => rfl
  | succ bound ih =>
    rw [drain, drain, takeVeiled clear]
    cases c.take? with
    | none => rfl
    | some after =>
      simp only [Option.map_some]
      rw [settleVeiled free, ih]

theorem restVeiled (clear : ∀ u, v.unread u = u) (c : Client) :
    (c.veiled v).comeToRest = c.comeToRest.veiled v := by
  have pumped (c : Client) : (c.veiled v).pump = c.pump.veiled v := by
    have server : (c.veiled v).server = c.server := by simp [veiled, Server.rereadSame clear]
    simp only [pump, server, drainVeiled free clear, settleVeiled free]
  rw [comeToRest, askVeiled, spawnVeiled (clear []), introduceVeiled, pumped, comeToRest]

theorem actVeiled (clear : ∀ u, v.unread u = u) (a : Act) (c : Client) :
    act a (c.veiled v) = ((act a c).1.veiled v, (act a c).2) := by
  cases a with
  | host call => simp only [act, hostVeiled free, restVeiled free clear]
  | server a => simp only [act, serverActVeiled (.inr clear), restVeiled free clear]

end

def Veil.past (past : List Event) : Veil where
  held := id
  teardown := id
  level := id
  log := (past ++ ·)
  unread := id
  plain := fun _ _ _ => (List.append_assoc ..).symm
  tried := fun _ _ _ _ _ => (List.append_assoc ..).symm
  heard := fun _ _ _ => (List.append_assoc ..).symm

theorem pastVeiled (c : Client) : c = ({c with log := []} : Client).veiled (.past c.log) := by
  simp [veiled, Veil.past, Server.rereadSame]

theorem performGrows (move : Move) (c : Client) : ∃ es, (c.perform move).log = c.log ++ es := by
  let fresh : Client := {c with log := []}
  have free : (Veil.past c.log).Free := ⟨fun _ => rfl, fun _ => rfl⟩
  refine ⟨(fresh.perform move).log, ?_⟩
  calc (c.perform move).log
    _ = ((fresh.veiled (.past c.log)).perform move).log :=
      congrArg (fun c => (perform c move).log) (pastVeiled c)
    _ = ((fresh.perform move).veiled (.past c.log)).log :=
      congrArg Client.log (performVeiled free (fun _ => rfl) move fresh)

theorem playGrows (moves : List Move) (c : Client) : ∃ es, (c.play moves).log = c.log ++ es := by
  induction moves generalizing c with
  | nil => exact ⟨[], (List.append_nil _).symm⟩
  | cons move moves ih =>
    obtain ⟨first, now⟩ := performGrows move c
    obtain ⟨rest, later⟩ := ih (c.perform move)
    exact ⟨first ++ rest, by rw [play, List.foldl_cons, ← List.append_assoc, ← now]; exact later⟩

theorem deedsGrow (moves : List Move) (c : Client) : ∃ es, (c.play moves).deeds = c.deeds ++ es := by
  obtain ⟨es, log⟩ := playGrows moves c
  exact ⟨es.filter _, by rw [deeds, log, List.filter_append]; rfl⟩

end Client
end LspClient
