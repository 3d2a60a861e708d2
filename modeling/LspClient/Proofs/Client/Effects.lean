import LspClient.Proofs.Client.Process
import LspClient.Proofs.Client.Veil

/-! What a message does. As long as the client can write, the reply, the lines, the answers to pulls and the stored
diagnostics that a message brings depend on the configuration, the router and the store alone. So a message
does the same before the answer to the handshake and after it, and the two can change places. -/
namespace LspClient.Client

variable {c d after : Client} {id : Int} {m n : Nat}

def Affords (n : Nat) (c : Client) : Prop :=
  ∀ k < n, ({c with server := c.server.map (Server.fed k)} : Client).refusal = none

theorem refusalSame (attached : d.attached = c.attached) (server : d.server = c.server) :
    d.refusal = c.refusal := by
  have same : d.writable = c.writable := by rw [writable, writable, server]
  rw [refusal, refusal, attached, same]

theorem fedNone (c : Client) : c.server.map (Server.fed 0) = c.server := by
  cases c.server <;> simp [fedNothing]

theorem fedMore (m n : Nat) (server : Option Server) :
    (server.map (Server.fed m)).map (Server.fed n) = server.map (Server.fed (m + n)) := by
  cases server <;> simp [fedTwice]

theorem affordsNone (c : Client) : c.Affords 0 := fun _ less => absurd less (Nat.not_lt_zero _)

theorem affordsOne : c.Affords 1 ↔ c.refusal = none := by
  have first : ({c with server := c.server.map (Server.fed 0)} : Client).refusal = c.refusal :=
    refusalSame rfl (fedNone c)
  refine ⟨fun affords => first ▸ affords 0 Nat.zero_lt_one, fun clear k less => ?_⟩
  rw [Nat.lt_one_iff.mp less, first, clear]

theorem affordsMore (attached : d.attached = c.attached) (server : d.server = c.server.map (Server.fed m)) :
    c.Affords (m + n) ↔ c.Affords m ∧ d.Affords n := by
  have later (k : Nat) : ({d with server := d.server.map (Server.fed k)} : Client).refusal =
      ({c with server := c.server.map (Server.fed (m + k))} : Client).refusal :=
    refusalSame attached (by rw [server, fedMore])
  constructor
  · exact fun affords => ⟨fun k less => affords k (by omega), fun k less => later k ▸ affords (m + k) (by omega)⟩
  · rintro ⟨first, rest⟩ k less
    by_cases early : k < m
    · exact first k early
    · have late := later (k - m)
      rw [Nat.add_sub_cancel' (Nat.not_lt.mp early)] at late
      exact late ▸ rest (k - m) (by omega)

def outgoing (level : Trace) (m : Message) : List Event := traces level "Sending" m ++ [.wrote m]

theorem sendOutgoing (clear : c.refusal = none) (m : Message) : c.send m =
    ({c with
      server := c.server.map (Server.fed 1)
      log := c.log ++ outgoing c.config.trace m}, none) := by
  have same : (c.traceMessage "Sending" m).refusal = none := clear
  simp only [send, same]
  simp only [updateServer, note, traceMessage, outgoing, traces, List.append_assoc]

theorem sendAllOutgoing (ms : List Message) (affords : c.Affords ms.length) : c.sendAll ms =
    ({c with
      server := c.server.map (Server.fed ms.length)
      log := c.log ++ ms.flatMap (outgoing c.config.trace)}, none) := by
  induction ms generalizing c with
  | nil => simp [sendAll, fedNone]
  | cons m rest ih =>
    have affords : c.Affords (1 + rest.length) := by rwa [Nat.add_comm]
    let next : Client := {c with
      server := c.server.map (Server.fed 1), log := c.log ++ outgoing c.config.trace m}
    obtain ⟨first, left⟩ := (affordsMore (c := c) (d := next) rfl rfl).mp affords
    simp only [sendAll, sendOutgoing (affordsOne.mp first), ih left, next, fedMore, List.flatMap_cons,
      List.append_assoc, List.length_cons, Nat.add_comm]

theorem sendLost {failure : Failure} (stuck : c.refusal = some failure) (m : Message) :
    .lost m ∈ (c.send m).1.log := by
  have same : (c.traceMessage "Sending" m).refusal = some failure := stuck
  simp only [send, same]
  exact List.mem_append_right _ (List.mem_singleton.mpr rfl)

theorem sendAllAffords {ms : List Message} (sent : c.sendAll ms = (after, none)) : c.Affords ms.length := by
  induction ms generalizing c with
  | nil => exact affordsNone c
  | cons m rest ih =>
    cases clear : c.refusal with
    | none =>
      let next : Client := {c with
        server := c.server.map (Server.fed 1), log := c.log ++ outgoing c.config.trace m}
      have rest : next.sendAll rest = (after, none) := by
        rw [← sent, sendAll, sendOutgoing clear]
      rw [List.length_cons, Nat.add_comm]
      exact (affordsMore (c := c) (d := next) rfl rfl).mpr ⟨affordsOne.mpr clear, ih rest⟩
    | some failure =>
      obtain ⟨next, refused, _⟩ := sendStuck clear m
      simp [sendAll, refused] at sent

structure Effect where
  events : List Event
  router : Router Awaited
  store : Table (List Diagnostic)
  replies : Nat

def Effect.on (e : Effect) (c : Client) : Client :=
  {c with
    router := e.router, store := e.store, server := c.server.map (Server.fed e.replies)
    log := c.log ++ e.events}

theorem affordsOn (e : Effect) : c.Affords (e.replies + n) ↔ c.Affords e.replies ∧ (e.on c).Affords n :=
  affordsMore (d := e.on c) rfl rfl

/-- The second client differs from the first in nothing that a message looks at. No call is under way, and it
waits for the response with this number or has had it. -/
structure Akin (id : Int) (c d : Client) : Prop where
  config : d.config = c.config
  router : d.router = c.router
  store : d.store = c.store
  free : d.asking = none
  listens : d.link = .handshake id ∨ d.link = .pumping

structure Brings (id : Int) (f : Client → Client) (c : Client) (e : Effect) : Prop where
  does : ∀ d, Akin id c d → d.Affords e.replies → f d = e.on d
  affords : ∀ d, Akin id c d → Lossless (f d).log → d.Affords e.replies

theorem bringsSilent {f : Client → Client} {events : List Event} {router : Router Awaited}
    {store : Table (List Diagnostic)}
    (does : ∀ d, Akin id c d → f d = {d with router := router, store := store, log := d.log ++ events}) :
    Brings id f c ⟨events, router, store, 0⟩ where
  does d akin _ := by rw [does d akin, Effect.on, fedNone]
  affords d _ _ := affordsNone d

theorem deliverEffect (x : Delivery Awaited) (c : Client) : ∃ e, Brings id (fun d => d.deliver x) c e := by
  cases x with
  | answer own owner result =>
    cases owner with
    | shutdown =>
      refine ⟨⟨[], c.router, c.store, 0⟩, bringsSilent fun d akin => ?_⟩
      simp [deliver, answered, ← akin.router, ← akin.store]
    | pull name uri =>
      let stored := keep uri result c.store
      refine ⟨⟨[.resolved (.pull name) (pullOutcome result ((stored.get? uri).getD []))], c.router, stored, 0⟩,
        bringsSilent fun d akin => ?_⟩
      simp [deliver, answered, settlePull, asks, akin.free, resolve, note, diagnostics, stored, ← akin.router,
        ← akin.store]
  | published uri items =>
    refine ⟨⟨[], c.router, c.store.put uri items, 0⟩, bringsSilent fun d akin => ?_⟩
    simp [deliver, ← akin.router, ← akin.store]
  | line text =>
    refine ⟨⟨[.shown text], c.router, c.store, 0⟩, bringsSilent fun d akin => ?_⟩
    simp [deliver, display, note, ← akin.router, ← akin.store]
  | reply m =>
    refine ⟨⟨outgoing c.config.trace m, c.router, c.store, 1⟩, fun d akin affords => ?_, fun d akin lossless => ?_⟩
    · simp [deliver, sendOutgoing (affordsOne.mp affords), Effect.on, akin.config, ← akin.router, ← akin.store]
    · refine affordsOne.mpr ?_
      cases clear : d.refusal with
      | none => rfl
      | some failure => exact absurd (sendLost clear m) (lossless m)

theorem handleDelivers {κ : Type} (r : Router κ) (m : Message) :
    (r.handle m).2 = [] ∨ ∃ x, (r.handle m).2 = [x] := by
  cases m with
  | request => exact .inr ⟨_, rfl⟩
  | notification method params =>
    simp only [Router.handle, Router.notified]
    split
    · exact .inl rfl
    · split
      · exact .inr ⟨_, rfl⟩
      · split
        · exact .inr ⟨_, rfl⟩
        · exact .inl rfl
  | response id result error =>
    cases known : r.owner? id with
    | none => exact .inl (by rw [Router.handleUnknown known])
    | some owner => exact .inr ⟨_, by rw [Router.handleKnown known]⟩

theorem dispatchEffect (m : Message) (c : Client) :
    ∃ e, Brings id (fun d => (d.note (.heard m)).dispatch m) c e := by
  let heard := .heard m :: traces c.config.trace "Received" m
  let routed (d : Client) : Client :=
    {d with router := (c.router.handle m).1, log := d.log ++ heard}
  have step (d : Client) (akin : Akin id c d) : (d.note (.heard m)).dispatch m =
      (c.router.handle m).2.foldl deliver (routed d) := by
    have router : (d.note (.heard m)).router = c.router := akin.router
    simp [dispatch, traceMessage, routed, heard, note, traces, akin.config, akin.router]
  have akin' (d : Client) (akin : Akin id c d) : Akin id (routed c) (routed d) :=
    ⟨akin.config, rfl, akin.store, akin.free, akin.listens⟩
  rcases handleDelivers c.router m with none | ⟨x, one⟩
  · refine ⟨⟨heard, (c.router.handle m).1, c.store, 0⟩, bringsSilent fun d akin => ?_⟩
    rw [step d akin, none, List.foldl_nil]
    simp [routed, ← akin.store]
  · obtain ⟨e, brings⟩ := @deliverEffect id x (routed c)
    refine ⟨{e with events := heard ++ e.events}, fun d akin affords => ?_, fun d akin lossless => ?_⟩
    · have same : (routed d).deliver x = e.on (routed d) := brings.does (routed d) (akin' d akin) affords
      rw [step d akin, one, List.foldl_cons, List.foldl_nil, same]
      simp [Effect.on, routed]
    · rw [step d akin, one, List.foldl_cons, List.foldl_nil] at lossless
      exact brings.affords (routed d) (akin' d akin) lossless

def receiveAll (bodies : List String) (c : Client) : Client := bodies.foldl (fun c body => c.receive body) c

theorem receiveAllGrows (bodies : List String) (c : Client) : ∃ es, (c.receiveAll bodies).log = c.log ++ es := by
  have veiled (bodies : List String) (v : Veil) (c : Client) :
      (c.veiled v).receiveAll bodies = (c.receiveAll bodies).veiled v :=
    foldVeiled (f := fun c body => c.receive body) (fun body c => receiveVeiled (c := c) body) bodies c
  refine ⟨(({c with log := []} : Client).receiveAll bodies).log, ?_⟩
  calc (c.receiveAll bodies).log
    _ = ((({c with log := []} : Client).veiled (.past c.log)).receiveAll bodies).log :=
      congrArg (fun c => (receiveAll bodies c).log) (pastVeiled c)
    _ = _ := congrArg Client.log (veiled bodies (.past c.log) {c with log := []})

theorem receiveAllLossless {bodies : List String} (lossless : Lossless (c.receiveAll bodies).log) :
    Lossless c.log := by
  obtain ⟨es, log⟩ := receiveAllGrows bodies c
  exact (losslessAppend.mp (log ▸ lossless)).1

def Foreign (id : Int) (body : String) : Prop :=
  ∀ result error, Message.parse? body ≠ some (.response id result error)

theorem receiveEffect {body : String} (foreign : Foreign id body) (c : Client) :
    ∃ e, Brings id (fun d => d.receive body) c e := by
  cases parsed : Message.parse? body with
  | none =>
    refine ⟨⟨[], c.router, c.store, 0⟩, bringsSilent fun d akin => ?_⟩
    simp [receive, parsed, ← akin.router, ← akin.store]
  | some m =>
    obtain ⟨e, brings⟩ := @dispatchEffect id m c
    have routed (d : Client) (akin : Akin id c d) : d.receive body = (d.note (.heard m)).dispatch m := by
      have other : ∀ own result error, m = .response own result error → d.link ≠ .handshake own := by
        rintro own result error rfl awaited
        rcases akin.listens with link | link
        · cases awaited.symm.trans link
          exact foreign result error parsed
        · cases awaited.symm.trans link
      simp only [receive, parsed]
      exact hearForeign other
    refine ⟨e, fun d akin affords => ?_, fun d akin lossless => ?_⟩
    · exact (routed d akin).trans (brings.does d akin affords)
    · exact brings.affords d akin (routed d akin ▸ lossless)

theorem receiveAllEffect {bodies : List String} (foreign : ∀ body ∈ bodies, Foreign id body) (c : Client) :
    ∃ e, Brings id (receiveAll bodies) c e := by
  induction bodies generalizing c with
  | nil =>
    refine ⟨⟨[], c.router, c.store, 0⟩, bringsSilent fun d akin => ?_⟩
    simp [receiveAll, ← akin.router, ← akin.store]
  | cons body rest ih =>
    obtain ⟨own, others⟩ := List.forall_mem_cons.mp foreign
    obtain ⟨first, now⟩ := receiveEffect own c
    -- akin clients stay akin, so what the rest does after the first body it does to all of them
    obtain ⟨more, later⟩ := ih others (first.on c)
    have next (d : Client) (akin : Akin id c d) : Akin id (first.on c) (first.on d) :=
      ⟨akin.config, rfl, rfl, akin.free, akin.listens⟩
    have step (d : Client) (akin : Akin id c d) (affords : d.Affords first.replies) :
        d.receiveAll (body :: rest) = (first.on d).receiveAll rest :=
      congrArg (receiveAll rest) (now.does d akin affords)
    refine ⟨⟨first.events ++ more.events, more.router, more.store, first.replies + more.replies⟩,
      fun d akin affords => ?_, fun d akin lossless => ?_⟩
    · obtain ⟨early, left⟩ := (affordsOn first).mp affords
      calc d.receiveAll (body :: rest)
          = (first.on d).receiveAll rest := step d akin early
        _ = more.on (first.on d) := later.does (first.on d) (next d akin) left
        _ = _ := by simp only [Effect.on, fedMore, List.append_assoc]
    · have heard : Lossless (d.receive body).log := receiveAllLossless lossless
      have early := now.affords d akin heard
      rw [step d akin early] at lossless
      exact (affordsOn first).mpr ⟨early, later.affords (first.on d) (next d akin) lossless⟩

def greetings (c : Client) : List Message := Request.initialized :: c.queued.map Request.didOpen

def welcome (id : Int) (result : Option Json) (c : Client) : List Event :=
  .heard (.response id result none) :: traces c.config.trace "Received" (.response id result none) ++
    c.greetings.flatMap (outgoing c.config.trace) ++ [.resolved .start .done]

def welcomed (id : Int) (result : Option Json) (c : Client) : Client :=
  {c with
    capabilities := .ofResult (result.getD .null), queued := [], phase := .running, link := .pumping
    server := c.server.map (Server.fed c.greetings.length)
    log := c.log ++ c.welcome id result}

theorem becomeReadyWelcomed (affords : c.Affords c.greetings.length) : c.becomeReady =
    {c with
      queued := [], phase := .running, link := .pumping
      server := c.server.map (Server.fed c.greetings.length)
      log := c.log ++ (c.greetings.flatMap (outgoing c.config.trace) ++ [.resolved .start .done])} := by
  let begun : Client := {c with
    queued := [], server := c.server.map (Server.fed 1)
    log := c.log ++ outgoing c.config.trace Request.initialized}
  have affords : c.Affords (1 + (c.queued.map Request.didOpen).length) := by
    rwa [Nat.add_comm]
  obtain ⟨first, left⟩ := (affordsMore (c := c) (d := begun) rfl rfl).mp affords
  have flushed := sendAllOutgoing (c := begun) (c.queued.map Request.didOpen) left
  simp only [becomeReady, sendOutgoing (affordsOne.mp first)]
  have same : begun.sendAll (c.queued.map Request.didOpen) = _ := flushed
  rw [same]
  simp only [begun, greetings, resolve, note, fedMore, List.flatMap_cons, List.length_cons, List.append_assoc,
    Nat.add_comm]

theorem becomeReadyAfforded (lossless : Lossless c.becomeReady.log) : c.Affords c.greetings.length := by
  cases pipe : c.refusal with
  | some failure =>
    obtain ⟨after, sent, _⟩ := sendStuck pipe Request.initialized
    have lost := sendLost pipe Request.initialized
    rw [sent] at lost
    rw [becomeReady, sent] at lossless
    exact absurd lost (lossless _)
  | none =>
    let begun : Client := {c with
      queued := [], server := c.server.map (Server.fed 1)
      log := c.log ++ outgoing c.config.trace Request.initialized}
    have rest : begun.Affords (c.queued.map Request.didOpen).length := by
      rcases quietSendAll (c.queued.map Request.didOpen) begun with
        ⟨_, next, sent, _⟩ | ⟨first, m, rest, next, failure, _, _, _, sent, quiet⟩
      · exact sendAllAffords sent
      · have log : next.deeds = ((begun.quiet.told first).note (.lost m)).log := congrArg Client.log quiet
        have cut : c.becomeReady = {next with link := .failing failure} := by
          simp only [becomeReady, sendOutgoing pipe]
          have same : begun.sendAll (c.queued.map Request.didOpen) = _ := sent
          rw [same]
        have lost : .lost m ∈ next.deeds := log ▸ List.mem_append_right _ (List.mem_singleton.mpr rfl)
        rw [cut] at lossless
        exact absurd (List.mem_filter.mp lost).1 (lossless m)
    have whole := (affordsMore (c := c) (d := begun) rfl rfl).mpr ⟨affordsOne.mpr pipe, rest⟩
    rwa [Nat.add_comm] at whole

section
variable (awaited : c.link = .handshake id) (result : Option Json)
include awaited

theorem hearWelcomed (starting : c.phase = .starting) (affords : c.Affords c.greetings.length) :
    c.hear (.response id result none) = c.welcomed id result := by
  let heard := (c.note (.heard (.response id result none))).traceMessage "Received" (.response id result none)
  let able : Client := {heard with capabilities := .ofResult (result.getD .null)}
  have start : heard.phase = .starting := starting
  have ready := becomeReadyWelcomed (c := able) affords
  have greetings : able.greetings = c.greetings := rfl
  rw [hearAwaited awaited, answerHandshake, if_pos start, ready, greetings]
  simp [welcomed, welcome, able, heard, note, traceMessage, traces]

theorem welcomeAfforded (starting : c.phase = .starting)
    (lossless : Lossless (c.hear (.response id result none)).log) : c.Affords c.greetings.length := by
  let heard := (c.note (.heard (.response id result none))).traceMessage "Received" (.response id result none)
  let able : Client := {heard with capabilities := .ofResult (result.getD .null)}
  have start : heard.phase = .starting := starting
  rw [hearAwaited awaited, answerHandshake, if_pos start] at lossless
  exact becomeReadyAfforded (c := able) lossless

end

theorem losslessDeeds : Lossless c.deeds ↔ Lossless c.log := by
  simp [Lossless, deeds, Event.isDeed]

theorem welcomedOn (id : Int) (result : Option Json) (e : Effect) (c : Client) : (e.on c).welcomed id result =
    {e.on (c.welcomed id result) with log := c.log ++ (e.events ++ c.welcome id result)} := by
  simp only [welcomed, welcome, Effect.on, greetings, fedMore, Nat.add_comm, List.append_assoc]

theorem receiveSwaps {bodies : List String} {answer : String} {result : Option Json}
    (awaited : c.link = .handshake id) (starting : c.phase = .starting) (free : c.asking = none)
    (answers : Message.parse? answer = some (.response id result none))
    (foreign : ∀ body ∈ bodies, Foreign id body)
    (lossless : Lossless ((c.receive answer).receiveAll bodies).log) :
    ∃ e : Effect, c.receiveAll bodies = e.on c ∧
      (c.receive answer).receiveAll bodies = e.on (c.receive answer) ∧
      ∃ ruling, (c.receive answer).log = c.log ++ ruling ∧ (c.receiveAll bodies).receive answer =
        {(c.receive answer).receiveAll bodies with log := c.log ++ (e.events ++ ruling)} := by
  have heard (d : Client) : d.receive answer = d.hear (.response id result none) := by simp only [receive, answers]
  have affords := welcomeAfforded awaited result starting
    (heard c ▸ receiveAllLossless lossless)
  have welcome : c.receive answer = c.welcomed id result :=
    (heard c).trans (hearWelcomed awaited result starting affords)
  rw [welcome] at lossless ⊢
  obtain ⟨e, brings⟩ := receiveAllEffect foreign c
  have early : Akin id c c := ⟨rfl, rfl, rfl, free, .inl awaited⟩
  have late : Akin id c (c.welcomed id result) := ⟨rfl, rfl, rfl, free, .inr rfl⟩
  have left := brings.affords (c.welcomed id result) late lossless
  -- there is room for the greetings and then the replies, hence for the replies and then the greetings
  have whole : c.Affords (e.replies + c.greetings.length) := by
    rw [Nat.add_comm]
    exact (affordsMore (c := c) (d := c.welcomed id result) rfl rfl).mpr ⟨affords, left⟩
  obtain ⟨first, last⟩ := (affordsOn e).mp whole
  have now := brings.does c early first
  have later := brings.does (c.welcomed id result) late left
  refine ⟨e, now, later, c.welcome id result, rfl, ?_⟩
  calc (c.receiveAll bodies).receive answer
      = (e.on c).hear (.response id result none) := by rw [now, heard]
    _ = (e.on c).welcomed id result := hearWelcomed (c := e.on c) awaited result starting last
    _ = _ := by rw [welcomedOn, later]

end LspClient.Client
