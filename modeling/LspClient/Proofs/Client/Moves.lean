import LspClient.Proofs.Client.Turn

/-! Every move of a client is one of its turns. -/
namespace LspClient.Client

def Fresh (c : Client) : Prop := ∀ slot ∈ c.router.pending, slot.1 < c.nextId

theorem startCalled (refused : Option Refusal) (c : Client) :
    Called c.quiet (.start refused) (.ofFailure (c.start refused).2) (c.start refused).1.quiet := by
  by_cases fresh : c.phase = .created
  · rw [start, if_neg (not_not_intro fresh)]
    exact .start fresh
  · rw [start, if_pos fresh]
    exact .startAgain fresh

theorem stopCalled (c : Client) : Called c.quiet .stop .nothing c.stop.quiet := by
  by_cases fresh : c.phase = .created
  · have result : c.stop.quiet = {c.quiet with
        held := false, phase := .stopped, log := c.quiet.log ++ [.resolved .stop .done]} := by
      simp [stop, fresh, quiet, deeds, resolve, note, Event.isDeed]
    rw [result]
    exact .stopUnstarted fresh
  by_cases past : c.Over
  · have result : c.stop.quiet = {c.quiet with
        held := false, log := c.quiet.log ++ [.resolved .stop .done]} := by
      rcases past with past | past <;>
        simp [stop, past, quiet, deeds, resolve, note, Event.isDeed]
    rw [result]
    exact .stopOver past
  have active : c.phase = .starting ∨ c.phase = .running := by
    unfold Over at past
    cases h : c.phase <;> simp_all
  have result : c.stop.quiet = {c.quiet with held := false, teardown := .requested} := by
    rcases active with active | active <;> simp [stop, active, quiet, deeds]
  rw [result]
  exact .stop active

theorem dropCalled (c : Client) : Called c.quiet .drop .nothing c.drop.quiet := by
  have killed := quietKill {c with held := false}
  have result : c.drop.quiet = {c.quiet.bereft with held := false, phase := .stopped} :=
    calc c.drop.quiet
        = {({c with held := false} : Client).kill.quiet with phase := .stopped} := rfl
      _ = _ := by rw [killed]; rfl
  rw [result]
  exact .drop

theorem didOpenCalled (d : TextDocument) (c : Client) :
    Called c.quiet (.didOpen d) (.ofExcept (c.didOpen d).2) (c.didOpen d).1.quiet := by
  cases own : c.config.selector.accepts d with
  | false =>
    simp only [didOpen, own, Bool.not_false, if_true]
    exact .openForeign own
  | true =>
  by_cases past : c.phase = .stopping ∨ c.phase = .stopped
  · simp only [didOpen, own, past, Bool.not_true, Bool.false_eq_true, if_false, if_true]
    exact .openOver past
  by_cases known : (c.documents.get? d.uri).isSome = true
  · simp only [didOpen, own, past, known, Bool.not_true, Bool.false_eq_true, if_false, if_true]
    exact .openAgain own (Option.isSome_iff_ne_none.mp known)
  have unknown : c.documents.get? d.uri = none := by simpa using known
  by_cases running : c.phase = .running
  · simp only [didOpen, own, known, running, Bool.not_true, Bool.false_eq_true, reduceCtorEq, or_self,
      if_false, if_true]
    cases clear : c.refusal with
    | none =>
      obtain ⟨after, sent, quiet⟩ :=
        tellClear (c := c.track d.uri d.version) clear (Request.didOpen d)
      rw [sent, quiet]
      exact .openSent own running unknown clear
    | some failure =>
      obtain ⟨after, sent, quiet⟩ :=
        tellStuck (c := c.track d.uri d.version) clear (Request.didOpen d)
      rw [sent, quiet]
      exact .openLost running unknown clear
  · simp only [didOpen, own, past, known, running, Bool.not_true, Bool.false_eq_true, if_false]
    refine .openQueued own ?_ unknown
    cases h : c.phase <;> simp_all [Early, quiet]

theorem didChangeCalled (uri text : String) (c : Client) :
    Called c.quiet (.didChange uri text) (.ofExcept (c.didChange uri text).2)
      (c.didChange uri text).1.quiet := by
  cases known : c.documents.get? uri with
  | none =>
    simp only [didChange, known]
    exact .changeUnknown known
  | some version =>
    cases h : c.phase with
    | created =>
      simp only [didChange, known, h]
      exact .changeQueued (.inl h) known
    | starting =>
      simp only [didChange, known, h]
      exact .changeQueued (.inr h) known
    | running =>
      simp only [didChange, known, h]
      cases clear : c.refusal with
      | none =>
        obtain ⟨after, sent, quiet⟩ := tellClear (c := c.track uri (version + 1)) clear
          (Request.didChange uri (version + 1) text)
        rw [sent, quiet]
        exact .changeSent h known clear
      | some failure =>
        obtain ⟨after, sent, quiet⟩ := tellStuck (c := c.track uri (version + 1)) clear
          (Request.didChange uri (version + 1) text)
        rw [sent, quiet]
        exact .changeLost h known clear
    | stopping =>
      simp only [didChange, known, h]
      exact h ▸ .changeOver (.inl h) known
    | stopped =>
      simp only [didChange, known, h]
      exact h ▸ .changeOver (.inr h) known

theorem didCloseCalled (uri : String) (c : Client) :
    Called c.quiet (.didClose uri) (.ofExcept (c.didClose uri).2) (c.didClose uri).1.quiet := by
  cases known : c.documents.get? uri with
  | none =>
    simp only [didClose, known, Option.isNone_none, if_true]
    exact .closeUnknown known
  | some version =>
    have tracked : c.quiet.documents.get? uri ≠ none := by simp [quiet, known]
    by_cases running : c.phase = .running
    · simp only [didClose, known, running, Option.isNone_some, Bool.false_eq_true, if_false, if_true]
      cases clear : c.refusal with
      | none =>
        obtain ⟨after, sent, quiet⟩ := tellClear (c := c.untrack uri) clear (Request.didClose uri)
        have result : (after.forget uri).quiet = after.quiet.forget uri := rfl
        simp only [sent]
        rw [result, quiet]
        exact .closeSent running tracked clear
      | some failure =>
        obtain ⟨after, sent, quiet⟩ := tellStuck (c := c.untrack uri) clear (Request.didClose uri)
        simp only [sent]
        rw [quiet]
        exact .closeLost running tracked clear
    · simp only [didClose, known, running, Option.isNone_some, Bool.false_eq_true, if_false]
      exact .closeUnsent running tracked

theorem unknownNext {c : Client} (fresh : c.Fresh) : c.router.owner? c.nextId = none := by
  rw [Router.owner?, List.lookup_eq_none_iff]
  intro slot member
  have older := fresh slot member
  simp only [bne_iff_ne, ne_eq]
  omega

theorem askSent {c : Client} {a : Pull} (asking : c.asking = some a) (clear : c.refusal = none) :
    c.ask.quiet = {c.quiet.told [Request.diagnostic a.id a.uri] with
      asking := none
      log := c.quiet.log ++ .wrote (Request.diagnostic a.id a.uri) ::
        (a.news ++ [.called (.pull a.name a.uri) .nothing])} := by
  let freed : Client := {c with asking := none}
  have pipe : freed.refusal = none := clear
  obtain ⟨after, sent, quiet⟩ := sendClear pipe (Request.diagnostic a.id a.uri)
  have deed : (a.news ++ [Event.called (.pull a.name a.uri) .nothing]).filter Event.isDeed =
      a.news ++ [Event.called (.pull a.name a.uri) .nothing] := by
    rw [Pull.news]
    cases a.early <;> rfl
  have result : c.ask.quiet =
      {after.quiet with log := after.quiet.log ++ (a.news ++ [.called (.pull a.name a.uri) .nothing])} := by
    simp only [ask, asking]
    rw [sent]
    simp only [Client.quiet, deeds, List.filter_append] at deed ⊢
    rw [deed]
  rw [result, quiet]
  simp [told, freed, Client.quiet, deeds]

theorem askLost {c : Client} {a : Pull} {failure} (asking : c.asking = some a)
    (stuck : c.refusal = some failure) : c.ask.quiet = {c.quiet with
      asking := none, router := (c.router.release a.id).1
      log := c.quiet.log ++ [.lost (Request.diagnostic a.id a.uri),
        .resolved (.pull a.name) (.failed failure), .called (.pull a.name a.uri) .nothing]} := by
  let freed : Client := {c with asking := none}
  have pipe : freed.refusal = some failure := stuck
  obtain ⟨after, sent, quiet⟩ := sendStuck pipe (Request.diagnostic a.id a.uri)
  have cancelled : (after.cancel a.id).quiet = after.quiet.cancel a.id := rfl
  simp only [ask, asking]
  rw [sent]
  simp only []
  rw [quietNote rfl, quietResolve, cancelled, quiet]
  simp [note, cancel, resolve, freed, Client.quiet, deeds]

theorem askTurn (c : Client) : Turn c.quiet c.ask.quiet := by
  cases asking : c.asking with
  | none =>
    simp only [ask, asking]
    exact .idle
  | some a =>
    cases refused : c.refusal with
    | none =>
      rw [askSent asking refused]
      exact .pullSent asking refused
    | some failure =>
      rw [askLost asking refused]
      exact .pullLost asking refused

theorem pullOpens {c : Client} (fresh : c.Fresh) (held : c.held = true) (free : c.asking = none)
    (running : c.phase = .running) (name uri : String) : Turn c.quiet (c.pull name uri).quiet := by
  rw [pull, if_pos running, quietNote rfl]
  cases closed : c.router.closed with
  | false =>
    rw [Router.registerOpen closed (unknownNext fresh)]
    exact .pullOpened held free running closed
  | true =>
    rw [Router.registerClosed closed]
    exact .pullShut held free running closed

theorem pullCalled {c : Client} (idle : c.phase ≠ .running) (name uri : String) :
    Called c.quiet (.pull name uri) .nothing (c.pull name uri).quiet := by
  have result : (c.pull name uri).quiet = {c.quiet with
      log := c.quiet.log ++ [.resolved (.pull name) (.failed (.invalidState c.phase))]} := by
    rw [pull, if_neg idle, resolve, quietNote rfl]
    rfl
  rw [result]
  exact .pullIdle idle

def Call.pulls : Call → Bool
  | .pull .. => true
  | _ => false

theorem calledFree {call answer after} {c : Client} (free : c.asking = none)
    (done : Called c call answer after) : after.asking = none := by
  cases done <;> exact free

theorem hostCalled {c : Client} (held : c.held = true) (free : c.asking = none) {call : Call}
    (prompt : call.pulls = false ∨ c.phase ≠ .running) :
    ∃ after, Called c.quiet call (c.hostCall call).2 after ∧
      (c.hostCall call).1.quiet = after.note (.called call (c.hostCall call).2) := by
  have done : Called c.quiet call (c.called call).2 (c.called call).1.quiet := by
    cases call with
    | start refused => exact startCalled refused c
    | stop => exact stopCalled c
    | drop => exact dropCalled c
    | didOpen d => exact didOpenCalled d c
    | didChange uri text => exact didChangeCalled uri text c
    | didClose uri => exact didCloseCalled uri c
    | pull name uri => exact pullCalled (prompt.resolve_left nofun) name uri
  have returned : (c.called call).1.asking = none := by
    have kept := calledFree (c := c.quiet) free done
    exact kept
  simp only [hostCall, held, free, returned, Option.isNone_none, Bool.and_self, if_true]
  exact ⟨_, done, quietNote rfl _⟩

theorem hostUnheld {c : Client} (free : c.held = false) (call : Call) : (c.hostCall call).1 = c := by
  simp only [hostCall, free, Bool.false_and, Bool.false_eq_true, if_false]

theorem hostAsking {c : Client} {a : Pull} (asking : c.asking = some a) (call : Call) :
    (c.hostCall call).1 = c := by
  simp only [hostCall, asking, Option.isNone_some, Bool.and_false, Bool.false_eq_true, if_false]

theorem hostPulls {c : Client} (held : c.held = true) (free : c.asking = none)
    (running : c.phase = .running) (name uri : String) :
    (c.hostCall (.pull name uri)).1 = c.pull name uri := by
  simp [hostCall, called, pull, note, held, free, running]

theorem hostTurn {c : Client} (fresh : c.Fresh) (call : Call) : Turn c.quiet (c.hostCall call).1.quiet := by
  cases asking : c.asking with
  | some a =>
    rw [hostAsking asking]
    exact .idle
  | none =>
  cases held : c.held with
  | false =>
    rw [hostUnheld held]
    exact .idle
  | true =>
    by_cases prompt : call.pulls = false ∨ c.phase ≠ .running
    · obtain ⟨after, done, same⟩ := hostCalled held asking prompt
      rw [same]
      exact .host held asking done
    · obtain ⟨pulls, running⟩ := not_or.mp prompt
      cases call with
      | pull name uri =>
        have phase := Decidable.not_not.mp running
        rw [hostPulls held asking phase]
        exact pullOpens fresh held asking phase name uri
      | _ => exact absurd rfl pulls

theorem notificationTaken (method : String) (params : Option Json) (c : Client) :
    Taken c.quiet (.notification method params) (c.dispatch (.notification method params)).quiet := by
  have traced := quietTrace "Received" (.notification method params) c
  have handled : c.dispatch (.notification method params) =
      (Router.notified method params).foldl deliver
        (c.traceMessage "Received" (.notification method params)) := rfl
  cases params with
  | none =>
    rw [handled]
    exact traced ▸ .other (.inr rfl)
  | some params =>
    by_cases publishing : method = "textDocument/publishDiagnostics"
    · subst publishing
      have delivered : (c.dispatch (.notification "textDocument/publishDiagnostics" (some params))).quiet =
          {c.quiet with store :=
            c.quiet.store.put (Diagnostic.published params).1 (Diagnostic.published params).2} := by
        rw [← traced, handled]
        rfl
      rw [delivered]
      exact .published
    · have silent : (c.dispatch (.notification method (some params))).quiet = c.quiet := by
        by_cases showing : method = "window/logMessage" ∨ method = "window/showMessage"
        · simp only [handled, Router.notified, publishing, showing, if_false, if_true, List.foldl_cons,
            List.foldl_nil, deliver]
          rw [quietDisplay, traced]
        · simp only [handled, Router.notified, publishing, showing, if_false, List.foldl_nil]
          exact traced
      rw [silent]
      exact .other (.inl publishing)

theorem dispatchUnknown {id : Int} {c : Client} (unknown : c.router.owner? id = none) (result : Option Json)
    (error : Option ResponseError) : c.dispatch (.response id result error) =
      c.traceMessage "Received" (.response id result error) := by
  simp only [dispatch]
  have router : (c.traceMessage "Received" (.response id result error)).router = c.router := rfl
  rw [router, Router.handleUnknown unknown]
  rfl

theorem responseTaken {id : Int} {c : Client} (foreign : c.link ≠ .handshake id)
    (result : Option Json) (error : Option ResponseError) :
    Taken c.quiet (.response id result error) (c.dispatch (.response id result error)).quiet := by
  let m := Message.response id result error
  have traced : (c.traceMessage "Received" m).quiet = c.quiet := quietTrace "Received" m c
  have step : c.dispatch m = (c.router.handle m).2.foldl deliver
      {c.traceMessage "Received" m with router := (c.router.handle m).1} := rfl
  cases known : c.router.owner? id with
  | none =>
    have ignored : c.dispatch m = c.traceMessage "Received" m := dispatchUnknown known result error
    rw [ignored, traced]
    exact .unasked foreign known
  | some owner =>
    let released := {c.traceMessage "Received" m with router := (c.router.release id).1}
    have quiet : released.quiet = {c.quiet with router := (c.router.release id).1} := by
      rw [← traced]
      rfl
    have delivered : c.dispatch m = released.answered id owner (Router.outcome result error) := by
      rw [step, Router.handleKnown known]
      rfl
    cases owner with
    | shutdown =>
      have ignored : released.answered id .shutdown (Router.outcome result error) = released := rfl
      rw [delivered, ignored, quiet]
      exact .shutdownAnswered foreign known
    | pull name uri =>
      let stored := keep uri (Router.outcome result error) c.store
      have answered : released.answered id (.pull name uri) (Router.outcome result error) =
          ({released with store := stored} : Client).settlePull id name
            (pullOutcome (Router.outcome result error) ((stored.get? uri).getD [])) := rfl
      have same : ({released with store := stored} : Client).quiet =
          {released.quiet with store := stored} := rfl
      have asks : ({released with store := stored} : Client).asks id = c.asks id := rfl
      rw [delivered, answered, settlePull, asks]
      cases own : c.asks id with
      | true =>
        have kept (outcome : Outcome) : (({released with store := stored} : Client).forestall outcome).quiet =
            ({released with store := stored} : Client).quiet.forestall outcome := rfl
        rw [if_pos rfl, kept, same, quiet]
        exact .pullForestalled foreign known own
      | false =>
        rw [if_neg Bool.false_ne_true, quietResolve, same, quiet]
        exact .pullAnswered foreign known own

theorem requestTaken (id : Int) (method : String) (params : Option Json) (c : Client) :
    Taken c.quiet (.request id method params) (c.dispatch (.request id method params)).quiet := by
  have traced := quietTrace "Received" (.request id method params) c
  have result : (c.dispatch (.request id method params)).quiet =
      c.quiet.tried (Router.replyTo id method params) := by
    rw [← traced, ← quietSend]
    rfl
  rw [result]
  exact .request

theorem readyTaken {id : Int} {c : Client} (awaited : c.link = .handshake id)
    (starting : c.phase = .starting) (result : Option Json) :
    Taken c.quiet (.response id result none)
      ({c with capabilities := .ofResult (result.getD .null)} : Client).becomeReady.quiet := by
  let able : Client := {c with capabilities := .ofResult (result.getD .null)}
  cases pipe : c.refusal with
  | some failure =>
    obtain ⟨after, sent, quiet⟩ := sendStuck (c := able) pipe Request.initialized
    have step : able.becomeReady = {after with link := .failing failure} := by
      simp only [becomeReady, sent]
    have failing : ({after with link := .failing failure} : Client).quiet =
        {after.quiet with link := .failing failure} := rfl
    have untold : (c.quiet.told []).refusal = some failure := (toldNothing c.quiet).symm ▸ pipe
    have lost := @Taken.readyLost c.quiet id result failure [] _ _ awaited starting (absurd rfl) rfl untold
    rw [step, failing, quiet]
    simpa only [toldNothing, if_true, List.map_nil, List.append_nil] using! lost
  | none =>
    obtain ⟨next, sent, quiet⟩ := sendClear (c := able) pipe Request.initialized
    let begun : Client := {next with queued := []}
    let emptied : Client := {able.quiet with queued := []}
    have queued : next.queued = c.queued := by
      have same : next.quiet.queued = able.quiet.queued := by rw [quiet]; rfl
      exact same
    have emptying : begun.quiet = {next.quiet with queued := []} := rfl
    have greeted : begun.quiet = emptied.told [Request.initialized] := by
      rw [emptying, quiet]
      rfl
    have flushed (ms : List Message) : begun.quiet.told ms = emptied.told (Request.initialized :: ms) := by
      rw [greeted, toldTwice, List.singleton_append]
    rcases quietSendAll (c.queued.map Request.didOpen) begun with
      ⟨_, after, all, same⟩ | ⟨first, m, rest, after, failure, split, _, stuck, all, same⟩
    · have all : ({next with queued := []} : Client).sendAll (c.queued.map Request.didOpen) = (after, none) := all
      have step : able.becomeReady =
          ({after with phase := .running, link := .pumping} : Client).resolve .start .done := by
        simp only [becomeReady, sent, queued, all]
      have running : ({after with phase := .running, link := .pumping} : Client).quiet =
          {after.quiet with phase := .running, link := .pumping} := rfl
      rw [step, quietResolve, running, same, flushed]
      exact .ready awaited starting pipe
    · have all : ({next with queued := []} : Client).sendAll (c.queued.map Request.didOpen) =
          (after, some failure) := all
      have step : able.becomeReady = {after with link := .failing failure} := by
        simp only [becomeReady, sent, queued, all]
      have failing : ({after with link := .failing failure} : Client).quiet =
          {after.quiet with link := .failing failure} := rfl
      have pipe' : (begun.quiet.told first).refusal = some failure := stuck
      rw [flushed] at pipe'
      rw [step, failing, same, flushed]
      have greeted : Request.initialized :: c.queued.map Request.didOpen =
          (Request.initialized :: first) ++ m :: rest := congrArg _ split
      exact @Taken.readyLost c.quiet id result failure _ _ _ awaited starting (fun _ => pipe) greeted pipe'

theorem dispatchTaken {m : Message} {c : Client}
    (foreign : ∀ id result error, m = .response id result error → c.link ≠ .handshake id) :
    Taken c.quiet m (c.dispatch m).quiet := by
  cases m with
  | request id method params => exact requestTaken id method params c
  | notification method params => exact notificationTaken method params c
  | response id result error => exact responseTaken (foreign id result error rfl) result error

theorem hearAwaited {id : Int} {c : Client} (awaited : c.link = .handshake id) (result : Option Json)
    (error : Option ResponseError) : c.hear (.response id result error) =
      ((c.note (.heard (.response id result error))).traceMessage "Received"
        (.response id result error)).answerHandshake result error := by
  simp only [hear, note, awaited, if_true]

theorem hearForeign {m : Message} {c : Client}
    (foreign : ∀ id result error, m = .response id result error → c.link ≠ .handshake id) :
    c.hear m = (c.note (.heard m)).dispatch m := by
  cases m with
  | request => cases h : c.link <;> simp only [hear, note, h]
  | notification => cases h : c.link <;> simp only [hear, note, h]
  | response id result error =>
    cases h : c.link with
    | handshake awaited =>
      have other : id ≠ awaited := fun same => foreign id result error rfl (same ▸ h)
      simp only [hear, note, h, if_neg other]
    | _ => simp only [hear, note, h]

theorem hearTaken (m : Message) (c : Client) : Taken (c.quiet.note (.heard m)) m (c.hear m).quiet := by
  have heard : (c.note (.heard m)).quiet = c.quiet.note (.heard m) := quietNote rfl c
  rw [← heard]
  by_cases own : ∃ id result error, m = .response id result error ∧ c.link = .handshake id
  · obtain ⟨id, result, error, rfl, awaited⟩ := own
    let m := Message.response id result error
    let c' := (c.note (.heard m)).traceMessage "Received" m
    have traced : c'.quiet = (c.note (.heard m)).quiet := quietTrace "Received" m _
    rw [hearAwaited awaited, ← traced]
    cases error with
    | some e =>
      exact .rejected awaited
    | none =>
      by_cases starting : c'.phase = .starting
      · rw [answerHandshake, if_pos starting]
        exact readyTaken (c := c') awaited starting result
      · rw [answerHandshake, if_neg starting]
        exact .tooLate awaited starting
  · have foreign : ∀ id result error, m = .response id result error → c.link ≠ .handshake id :=
      fun id result error same link => own ⟨id, result, error, same, link⟩
    rw [hearForeign foreign]
    exact dispatchTaken (c := c.note (.heard m)) foreign

theorem loseHandshake {c : Client} {id : Int} (awaiting : c.link = .handshake id) :
    c.lose.quiet = {c.quiet.note .ended with link := .failing .transportClosed} := by
  have ended : (c.note .ended).quiet = c.quiet.note .ended := quietNote rfl c
  rw [← ended]
  simp only [lose, note, awaiting]
  rfl

theorem losePumping {c : Client} (pumping : c.link = .pumping) :
    c.lose.quiet = {(c.quiet.note .ended).unrouted with link := .closed} := by
  have ended : (c.note .ended).quiet = c.quiet.note .ended := quietNote rfl c
  have closed : ({(c.note .ended).closeRouter with link := .closed} : Client).quiet =
      {(c.quiet.note .ended).unrouted with link := .closed} := by
    rw [← ended, ← quietCloseRouter]
    rfl
  rw [← closed]
  simp only [lose, note, pumping]
  split
  · exact quietDisplay _ _
  · rfl

theorem loseTurn {c : Client} (listening : c.listening = true) : Turn c.quiet c.lose.quiet := by
  cases h : c.link with
  | handshake id =>
    rw [loseHandshake h]
    exact .lost h
  | pumping =>
    rw [losePumping h]
    exact .parted h
  | _ => simp [Client.listening, h] at listening

theorem takeCases {c after : Client} (took : c.take? = some after) : c.listening = true ∧
    ∃ s, c.server = some s ∧
      ((∃ text rest, Frame.read s.writes s.unread = .body text rest ∧
          after = (c.updateServer fun s => {s with unread := rest}).receive text) ∨
        Frame.read s.writes s.unread ≠ .starved ∧
          (∀ text rest, Frame.read s.writes s.unread ≠ .body text rest) ∧ after = c.lose) := by
  cases listening : c.listening with
  | false => simp [take?, listening] at took
  | true =>
    cases server : c.server with
    | none => simp [take?, listening, server] at took
    | some s =>
      simp only [take?, listening, server] at took
      refine ⟨rfl, s, rfl, ?_⟩
      cases frame : Frame.read s.writes s.unread with
      | starved => simp [frame] at took
      | ended | fault =>
        simp only [frame, Option.some.injEq] at took
        exact .inr ⟨nofun, nofun, took.symm⟩
      | body text rest =>
        simp only [frame, Option.some.injEq] at took
        exact .inl ⟨text, rest, rfl, took.symm⟩

theorem readOnQuiet {c : Client} {s : Server} (server : c.server = some s) (rest : Utf8.Octets) :
    (c.updateServer fun s => {s with unread := rest}).quiet = c.quiet.readOn s rest := by
  simp [updateServer, server, quiet, deeds, readOn]

theorem takeTurn {c after : Client} (took : c.take? = some after) : Turn c.quiet after.quiet := by
  obtain ⟨listening, s, server, ⟨text, rest, frame, same⟩ | ⟨_, _, same⟩⟩ := takeCases took
  · have updated := readOnQuiet server rest
    rw [same]
    cases parsed : Message.parse? text with
    | none =>
      simp only [receive, parsed]
      rw [updated]
      exact .skipped listening server
    | some m =>
      have hearing := hearTaken m (c.updateServer fun s => {s with unread := rest})
      simp only [receive, parsed]
      rw [updated] at hearing
      exact .taken listening server hearing
  · exact same ▸ loseTurn listening

inductive Spawns (c : Client) : Client → Prop where
  | idle : Spawns c c
  | refused {cause} (waiting : c.link = .launching (some cause)) :
      Spawns c {c with link := .failing (.spawn c.config.executable.command cause)}
  | spawned (waiting : c.link = .launching none) :
      Spawns c
        {c with
          server := some .fresh, link := .launched
          log := c.log ++ [.spawned c.config.executable.arguments]}

theorem spawnSpawns (c : Client) : Spawns c.quiet c.spawn.quiet := by
  cases h : c.link with
  | launching refused =>
    cases refused with
    | some cause =>
      simp only [spawn, h]
      exact .refused h
    | none =>
      have result : c.spawn.quiet = {c.quiet with
          server := some .fresh, link := .launched
          log := c.quiet.log ++ [.spawned c.config.executable.arguments]} := by
        simp only [spawn, h]
        rw [quietNote rfl]
        rfl
      rw [result]
      exact .spawned h
  | _ =>
    simp only [spawn, h]
    exact .idle

theorem spawnTurn (c : Client) : Turn c.quiet c.spawn.quiet := by
  have spawns := spawnSpawns c
  generalize c.spawn.quiet = after at spawns
  cases spawns with
  | idle => exact .idle
  | refused waiting => exact .spawnRefused waiting
  | spawned waiting => exact .spawned waiting

theorem introduceStep {c attached : Client} (launched : c.link = .launched) (starting : c.phase = .starting)
    (same : attached = {c with attached := true, nextId := c.nextId + 1}) : c.introduce =
      match attached.send (Request.introduce c.nextId c.config.rootUri introducedAs 0) with
      | (after, none) => {after with link := .handshake c.nextId}
      | (after, some failure) => {after with link := .failing failure} := by
  rw [same]
  exact (if_neg (not_not_intro launched)).trans (if_neg (not_not_intro starting))

section
variable {c attached next : Client} (launched : c.link = .launched) (starting : c.phase = .starting)
  (same : attached = {c with attached := true, nextId := c.nextId + 1})
include launched starting same

theorem introduceSent
    (sent : attached.send (Request.introduce c.nextId c.config.rootUri introducedAs 0) = (next, none)) :
    c.introduce = {next with link := .handshake c.nextId} := by
  rw [introduceStep launched starting same, sent]

theorem introduceUnsent {failure : Failure}
    (sent : attached.send (Request.introduce c.nextId c.config.rootUri introducedAs 0) = (next, some failure)) :
    c.introduce = {next with link := .failing failure} := by
  rw [introduceStep launched starting same, sent]

end

inductive Introduces (c : Client) : Client → Prop where
  | idle : Introduces c c
  | orphaned (waiting : c.link = .launched) (gone : c.phase ≠ .starting) :
      Introduces c
        {({c with attached := true, nextId := c.nextId + 1} : Client).bereft with
          link := .failing (.invalidState c.phase)}
  | sent (waiting : c.link = .launched) (starting : c.phase = .starting)
      (clear : ({c with attached := true} : Client).refusal = none) :
      Introduces c
        {c.told [Request.introduce c.nextId c.config.rootUri introducedAs 0] with
          attached := true, nextId := c.nextId + 1, link := .handshake c.nextId}
  | lost {failure} (waiting : c.link = .launched) (starting : c.phase = .starting)
      (stuck : ({c with attached := true} : Client).refusal = some failure) :
      Introduces c
        {c with
          attached := true, nextId := c.nextId + 1, link := .failing failure
          log := c.log ++ [.lost (Request.introduce c.nextId c.config.rootUri introducedAs 0)]}

theorem introduceIntroduces (c : Client) : Introduces c.quiet c.introduce.quiet := by
  by_cases launched : c.link = .launched
  · let attached := {c with attached := true, nextId := c.nextId + 1}
    by_cases starting : c.phase = .starting
    · cases refused : attached.refusal with
      | none =>
        obtain ⟨after, sent, quiet⟩ := sendClear refused
          (Request.introduce c.nextId c.config.rootUri introducedAs 0)
        have linked : ({after with link := .handshake c.nextId} : Client).quiet =
            {after.quiet with link := .handshake c.nextId} := rfl
        rw [introduceSent launched starting rfl sent, linked, quiet]
        exact .sent launched starting refused
      | some failure =>
        obtain ⟨after, sent, quiet⟩ := sendStuck refused
          (Request.introduce c.nextId c.config.rootUri introducedAs 0)
        have failing : ({after with link := .failing failure} : Client).quiet =
            {after.quiet with link := .failing failure} := rfl
        rw [introduceUnsent launched starting rfl sent, failing, quiet]
        exact .lost launched starting refused
    · have killed := quietKill attached
      have result : c.introduce.quiet =
          {attached.kill.quiet with link := .failing (.invalidState c.phase)} := by
        rw [introduce, if_neg (not_not_intro launched), if_pos starting]
        rfl
      rw [result, killed]
      exact .orphaned launched starting
  · rw [introduce, if_pos launched]
    exact .idle

theorem introduceTurn (c : Client) : Turn c.quiet c.introduce.quiet := by
  have introduces := introduceIntroduces c
  generalize c.introduce.quiet = after at introduces
  cases introduces with
  | idle => exact .idle
  | orphaned waiting gone => exact .orphaned waiting gone
  | sent waiting starting clear => exact .introduced waiting starting clear
  | lost waiting starting stuck => exact .introduceLost waiting starting stuck

theorem giveUpTurn (c : Client) : Turn c.quiet c.giveUp.quiet := by
  cases h : c.link with
  | failing failure =>
    simp only [giveUp, h]
    rw [quietFailStart]
    exact .gaveUp h
  | _ =>
    simp only [giveUp, h]
    exact .idle

theorem askToShutDownStep {c : Client} {id : Int} (registered : c.teardown = .registered id) :
    c.askToShutDown = match c.send (Request.shutdown id) with
      | (after, none) => {after with teardown := .awaitingReply id}
      | (after, some _) => {after.cancel id with teardown := .awaitingReply id} := by
  cases c with
  | mk =>
    cases registered
    rfl

theorem askToShutDownKeeps {P : Client → Prop} {c : Client} {id : Int} (registered : c.teardown = .registered id)
    (sent : P (c.send (Request.shutdown id)).1)
    (keeps : ∀ (d : Client) router teardown, P d → P {d with router := router, teardown := teardown}) :
    P c.askToShutDown := by
  rw [askToShutDownStep registered]
  split
  · rename_i after tried
    rw [tried] at sent
    exact keeps after after.router _ sent
  · rename_i after failure tried
    rw [tried] at sent
    exact keeps after _ _ sent

theorem askToShutDownTurn (c : Client) : Turn c.quiet c.askToShutDown.quiet := by
  cases h : c.teardown with
  | registered id =>
    have step := askToShutDownStep h
    cases refused : c.refusal with
    | none =>
      obtain ⟨after, sent, quiet⟩ := sendClear refused (Request.shutdown id)
      have result : c.askToShutDown.quiet = {after.quiet with teardown := .awaitingReply id} := by
        rw [step, sent]
        rfl
      rw [result, quiet]
      exact .shutdownSent h refused
    | some failure =>
      obtain ⟨after, sent, quiet⟩ := sendStuck refused (Request.shutdown id)
      have result : c.askToShutDown.quiet =
          {after.quiet.cancel id with teardown := .awaitingReply id} := by
        rw [step, sent]
        rfl
      rw [result, quiet]
      exact .shutdownLost h refused
  | _ =>
    simp only [askToShutDown, h]
    exact .idle

theorem beginTeardownRuns {c : Client} (requested : c.teardown = .requested) (running : c.phase = .running) :
    c.beginTeardown = ({c with
      phase := .stopping, nextId := c.nextId + 1, router := (c.router.register c.nextId .shutdown).1
      teardown := .registered c.nextId} : Client).note (.awaits c.nextId .shutdown) := by
  simp [beginTeardown, requested, running]

theorem beginTeardownTurn {c : Client} (fresh : c.Fresh) : Turn c.quiet c.beginTeardown.quiet := by
  by_cases waiting : c.teardown ≠ .requested ∨ c.phase = .starting
  · rw [beginTeardown, if_pos waiting]
    exact .idle
  · obtain ⟨unrequested, settled⟩ := not_or.mp waiting
    have requested := Decidable.not_not.mp unrequested
    by_cases running : c.phase = .running
    · rw [beginTeardownRuns requested running, quietNote rfl]
      cases closed : c.router.closed with
      | true =>
        rw [Router.registerClosed closed]
        exact .shutdownShut requested running closed
      | false =>
        rw [Router.registerOpen closed (unknownNext fresh)]
        exact .shutdownOpened requested running closed
    · rw [beginTeardown, if_neg waiting, if_neg running, quietResolve]
      exact .stopVoid requested settled running

theorem sendExitTurn (c : Client) : Turn c.quiet c.sendExit.quiet := by
  cases h : c.teardown with
  | awaitingReply id =>
    cases known : c.router.owner? id with
    | some owner =>
      simp only [sendExit, h, known, Option.isSome_some, if_true]
      exact .idle
    | none =>
      cases attached : c.attached with
      | true =>
        have result : c.sendExit.quiet =
            {(c.send Request.exit).1.quiet with attached := false, teardown := .awaitingExit} := by
          simp only [sendExit, h, known, attached, Option.isSome_none, Bool.false_eq_true, if_false,
            if_true]
          rfl
        rw [result, quietSend]
        exact .exitTold h known attached
      | false =>
        have result : c.sendExit.quiet = {c.quiet with teardown := .awaitingExit} := by
          simp [sendExit, h, known, attached, quiet, deeds]
        rw [result]
        exact .exitUntold h known attached
  | _ =>
    simp only [sendExit, h]
    exact .idle

theorem finishTeardownTurn (c : Client) : Turn c.quiet c.finishTeardown.quiet := by
  by_cases past : c.teardown = .awaitingExit ∧ c.exited = true
  · rw [finishTeardown, if_pos past, quietResolve]
    exact .finished past.1 past.2
  · rw [finishTeardown, if_neg past]
    exact .idle

theorem murmursTurn {c : Client} {s : Server} (octets : Utf8.Octets) (server : c.server = some s)
    (alive : s.alive = true) : Turn c.quiet (c.serverMurmurs octets).quiet := by
  let rest := (murmured (s.murmur ++ octets)).2
  have step : c.serverMurmurs octets = (murmured (s.murmur ++ octets)).1.foldl
      (fun c line => c.display line) (c.updateServer fun s => {s with murmur := rest}) := by
    simp only [serverMurmurs, server]
    rfl
  have updated : (c.updateServer fun s => {s with murmur := rest}).quiet =
      {c.quiet with server := some {s with murmur := rest}} := by
    simp [updateServer, server, quiet, deeds]
  rw [step, quietDisplays, updated]
  exact .served server alive ⟨id, id⟩

theorem updateTurn {c : Client} {s : Server} (f : Server → Server) (server : c.server = some s)
    (alive : s.alive = true)
    (less : ((f s).reads = true → s.reads = true) ∧ ((f s).writes = true → s.writes = true)) :
    Turn c.quiet (c.updateServer f).quiet := by
  have updated : (c.updateServer f).quiet = {c.quiet with server := some (f s)} := by
    simp [updateServer, server, quiet, deeds]
  rw [updated]
  exact .served server alive less

theorem lessRoom (after : Nat) (s : Server)
    (reads : ({s with room := some (min after (s.room.getD after))} : Server).reads = true) :
    s.reads = true := by
  cases h : s.room with
  | none => simp_all [Server.reads]
  | some room =>
    simp only [Server.reads, h, Option.getD_some, Bool.and_eq_true, bne_iff_ne, ne_eq,
      Option.some.injEq] at reads ⊢
    exact ⟨reads.1, by have nonzero := reads.2; omega⟩

theorem serverTurn (act : ServerAct) (c : Client) : Turn c.quiet (c.serverAct act).quiet := by
  cases exited : c.exited with
  | true =>
    have void : c.serverAct act = c := if_pos exited
    rw [void]
    exact .idle
  | false =>
    cases server : c.server with
    | none => simp [Client.exited, server] at exited
    | some s =>
      have alive : s.alive = true := by simpa [Client.exited, server] using exited
      have living : c.exited ≠ true := by simp [exited]
      unfold serverAct
      rw [if_neg living]
      cases act with
      | writes octets =>
        refine updateTurn _ server alive ?_
        split
        · exact ⟨id, id⟩
        · exact ⟨id, id⟩
      | murmurs octets => exact murmursTurn octets server alive
      | endsOutput => exact updateTurn _ server alive ⟨id, by simp⟩
      | endsInput after => exact updateTurn _ server alive ⟨lessRoom after s, id⟩
      | exits =>
        have gone : c.vanish.quiet = {c.quiet with server := some s.gone} := by
          rw [quietVanish, server]
          rfl
        rw [gone]
        exact .served server alive ⟨by simp [Server.reads, Server.gone], by simp [Server.gone]⟩

theorem performTurn {c : Client} (fresh : c.Fresh) (move : Move) :
    Turn c.quiet (c.perform move).quiet := by
  cases move with
  | host call => exact hostTurn fresh call
  | spawn => exact spawnTurn c
  | introduce => exact introduceTurn c
  | ask => exact askTurn c
  | take =>
    cases took : c.take? with
    | none =>
      have still : c.perform .take = c := by simp [perform, took]
      rw [still]
      exact .idle
    | some after =>
      have step : c.perform .take = after := by simp [perform, took]
      rw [step]
      exact takeTurn took
  | giveUp => exact giveUpTurn c
  | beginTeardown => exact beginTeardownTurn fresh
  | askToShutDown => exact askToShutDownTurn c
  | sendExit => exact sendExitTurn c
  | finishTeardown => exact finishTeardownTurn c
  | server act => exact serverTurn act c
  | elsewhere taken => exact .elsewhere

end LspClient.Client
