import LspClient.Proofs.Client.Quiet

/-! All that a client can do. `Called` says what a call leaves of a quiet client, `Taken` what taking up a
message leaves, and `Turn` what any one move leaves. Each result is written out, so an invariant of all
runs is one case analysis here. Request numbers under way are older than the next one: without that a
call could drop an older slot. -/
namespace LspClient.Client

def Over (c : Client) : Prop := c.phase = .stopping ∨ c.phase = .stopped

def Early (c : Client) : Prop := c.phase = .created ∨ c.phase = .starting

inductive Called (c : Client) : Call → Answer → Client → Prop where
  | start {refused} (fresh : c.phase = .created) :
      Called c (.start refused) .nothing {c with phase := .starting, link := .launching refused}
  | startAgain {refused} (used : c.phase ≠ .created) :
      Called c (.start refused) (.failed (.invalidState c.phase)) c
  | stopUnstarted (fresh : c.phase = .created) :
      Called c .stop .nothing
        {c with held := false, phase := .stopped, log := c.log ++ [.resolved .stop .done]}
  | stopOver (past : c.Over) :
      Called c .stop .nothing {c with held := false, log := c.log ++ [.resolved .stop .done]}
  | stop (active : c.phase = .starting ∨ c.phase = .running) :
      Called c .stop .nothing {c with held := false, teardown := .requested}
  | drop :
      Called c .drop .nothing {c.bereft with held := false, phase := .stopped}
  | openForeign {d} (foreign : c.config.selector.accepts d = false) :
      Called c (.didOpen d) (.flag false) c
  | openOver {d} (past : c.Over) : Called c (.didOpen d) (.failed (.invalidState c.phase)) c
  | openAgain {d} (own : c.config.selector.accepts d = true)
      (known : c.documents.get? d.uri ≠ none) : Called c (.didOpen d) (.flag true) c
  | openQueued {d} (own : c.config.selector.accepts d = true) (early : c.Early)
      (unknown : c.documents.get? d.uri = none) :
      Called c (.didOpen d) (.flag true)
        {c with documents := c.documents.put d.uri d.version, queued := c.queued ++ [d]}
  | openSent {d} (own : c.config.selector.accepts d = true) (running : c.phase = .running)
      (unknown : c.documents.get? d.uri = none) (clear : c.refusal = none) :
      Called c (.didOpen d) (.flag true)
        {c.told [Request.didOpen d] with documents := c.documents.put d.uri d.version}
  | openLost {d failure} (running : c.phase = .running) (unknown : c.documents.get? d.uri = none)
      (stuck : c.refusal = some failure) :
      Called c (.didOpen d) (.failed failure)
        {c with
          documents := c.documents.put d.uri d.version
          log := c.log ++ [.lost (Request.didOpen d)]}
  | changeUnknown {uri text} (unknown : c.documents.get? uri = none) :
      Called c (.didChange uri text) (.flag false) c
  | changeOver {uri text version} (past : c.Over) (known : c.documents.get? uri = some version) :
      Called c (.didChange uri text) (.failed (.invalidState c.phase))
        {c with documents := c.documents.put uri (version + 1)}
  | changeQueued {uri text version} (early : c.Early) (known : c.documents.get? uri = some version) :
      Called c (.didChange uri text) (.flag true)
        {c with
          documents := c.documents.put uri (version + 1)
          queued := foldChange uri (version + 1) text c.queued}
  | changeSent {uri text version} (running : c.phase = .running)
      (known : c.documents.get? uri = some version) (clear : c.refusal = none) :
      Called c (.didChange uri text) (.flag true)
        {c.told [Request.didChange uri (version + 1) text] with
          documents := c.documents.put uri (version + 1)}
  | changeLost {uri text version failure} (running : c.phase = .running)
      (known : c.documents.get? uri = some version) (stuck : c.refusal = some failure) :
      Called c (.didChange uri text) (.failed failure)
        {c with
          documents := c.documents.put uri (version + 1)
          log := c.log ++ [.lost (Request.didChange uri (version + 1) text)]}
  | closeUnknown {uri} (unknown : c.documents.get? uri = none) :
      Called c (.didClose uri) (.flag false) c
  | closeUnsent {uri} (idle : c.phase ≠ .running) (known : c.documents.get? uri ≠ none) :
      Called c (.didClose uri) (.flag true)
        {c with
          documents := c.documents.erase uri
          queued := c.queued.filter fun d => d.uri != uri
          store := c.store.erase uri}
  | closeSent {uri} (running : c.phase = .running) (known : c.documents.get? uri ≠ none)
      (clear : c.refusal = none) :
      Called c (.didClose uri) (.flag true)
        {c.told [Request.didClose uri] with
          documents := c.documents.erase uri
          store := c.store.erase uri}
  | closeLost {uri failure} (running : c.phase = .running) (known : c.documents.get? uri ≠ none)
      (stuck : c.refusal = some failure) :
      Called c (.didClose uri) (.failed failure)
        {c with
          documents := c.documents.erase uri
          log := c.log ++ [.lost (Request.didClose uri)]}
  | pullIdle {name uri} (idle : c.phase ≠ .running) :
      Called c (.pull name uri) .nothing
        {c with log := c.log ++ [.resolved (.pull name) (.failed (.invalidState c.phase))]}

inductive Taken (c : Client) : Message → Client → Prop where
  | request {id method params} :
      Taken c (.request id method params) (c.tried (Router.replyTo id method params))
  | published {params} :
      Taken c (.notification "textDocument/publishDiagnostics" (some params))
        {c with
          store := c.store.put (Diagnostic.published params).1 (Diagnostic.published params).2}
  | other {method params}
      (silent : method ≠ "textDocument/publishDiagnostics" ∨ params = none) :
      Taken c (.notification method params) c
  | unasked {id result error} (foreign : c.link ≠ .handshake id)
      (unknown : c.router.owner? id = none) : Taken c (.response id result error) c
  | pullForestalled {id result error name uri} (foreign : c.link ≠ .handshake id)
      (owner : c.router.owner? id = some (.pull name uri)) (own : c.asks id = true) :
      Taken c (.response id result error)
        {c.forestall (pullOutcome (Router.outcome result error)
            (((keep uri (Router.outcome result error) c.store).get? uri).getD [])) with
          router := (c.router.release id).1
          store := keep uri (Router.outcome result error) c.store}
  | pullAnswered {id result error name uri} (foreign : c.link ≠ .handshake id)
      (owner : c.router.owner? id = some (.pull name uri)) (apart : c.asks id = false) :
      Taken c (.response id result error)
        {c with
          router := (c.router.release id).1
          store := keep uri (Router.outcome result error) c.store
          log := c.log ++ [.resolved (.pull name) (pullOutcome (Router.outcome result error)
            (((keep uri (Router.outcome result error) c.store).get? uri).getD []))]}
  | shutdownAnswered {id result error} (foreign : c.link ≠ .handshake id)
      (owner : c.router.owner? id = some .shutdown) :
      Taken c (.response id result error) {c with router := (c.router.release id).1}
  | rejected {id result error} (awaited : c.link = .handshake id) :
      Taken c (.response id result (some error))
        {c with link := .failing (.handshake error.code error.message)}
  | tooLate {id result} (awaited : c.link = .handshake id) (gone : c.phase ≠ .starting) :
      Taken c (.response id result none) {c with link := .failing (.invalidState c.phase)}
  | readyLost {id result failure first m rest} (awaited : c.link = .handshake id)
      (starting : c.phase = .starting) (clear : first ≠ [] → c.refusal = none)
      (split : Request.initialized :: c.queued.map Request.didOpen = first ++ m :: rest)
      (stuck : (c.told first).refusal = some failure) :
      Taken c (.response id result none)
        {c.told first with
          capabilities := .ofResult (result.getD .null)
          queued := if first = [] then c.queued else []
          link := .failing failure
          log := c.log ++ first.map .wrote ++ [.lost m]}
  | ready {id result} (awaited : c.link = .handshake id) (starting : c.phase = .starting)
      (clear : c.refusal = none) :
      Taken c (.response id result none)
        {c.told (Request.initialized :: c.queued.map Request.didOpen) with
          capabilities := .ofResult (result.getD .null), queued := [], phase := .running
          link := .pumping
          log := c.log ++ (Request.initialized :: c.queued.map Request.didOpen).map .wrote ++
            [.resolved .start .done]}

def readOn (s : Server) (rest : Utf8.Octets) (c : Client) : Client :=
  {c with server := some {s with unread := rest}}

inductive Turn (c : Client) : Client → Prop where
  | idle : Turn c c
  | host {call answer after} (held : c.held = true) (free : c.asking = none)
      (done : Called c call answer after) : Turn c (after.note (.called call answer))
  | pullOpened {name uri} (held : c.held = true) (free : c.asking = none) (running : c.phase = .running)
      (listening : c.router.closed = false) :
      Turn c
        {c with
          nextId := c.nextId + 1, asking := some ⟨c.nextId, name, uri, none⟩
          router := {c.router with pending := c.router.pending ++ [(c.nextId, .pull name uri)]}
          log := c.log ++ [.awaits c.nextId (.pull name uri)]}
  | pullShut {name uri} (held : c.held = true) (free : c.asking = none) (running : c.phase = .running)
      (closed : c.router.closed = true) :
      Turn c
        {c with
          nextId := c.nextId + 1, asking := some ⟨c.nextId, name, uri, some .abandoned⟩
          log := c.log ++ [.awaits c.nextId (.pull name uri)]}
  | pullSent {a} (asking : c.asking = some a) (clear : c.refusal = none) :
      Turn c
        {c.told [Request.diagnostic a.id a.uri] with
          asking := none
          log := c.log ++ .wrote (Request.diagnostic a.id a.uri) ::
            (a.news ++ [.called (.pull a.name a.uri) .nothing])}
  | pullLost {a failure} (asking : c.asking = some a) (stuck : c.refusal = some failure) :
      Turn c
        {c with
          asking := none, router := (c.router.release a.id).1
          log := c.log ++ [.lost (Request.diagnostic a.id a.uri),
            .resolved (.pull a.name) (.failed failure), .called (.pull a.name a.uri) .nothing]}
  | spawnRefused {cause} (waiting : c.link = .launching (some cause)) :
      Turn c {c with link := .failing (.spawn c.config.executable.command cause)}
  | spawned (waiting : c.link = .launching none) :
      Turn c
        {c with
          server := some .fresh, link := .launched
          log := c.log ++ [.spawned c.config.executable.arguments]}
  | orphaned (waiting : c.link = .launched) (gone : c.phase ≠ .starting) :
      Turn c
        {({c with attached := true, nextId := c.nextId + 1} : Client).bereft with
          link := .failing (.invalidState c.phase)}
  | introduced (waiting : c.link = .launched) (starting : c.phase = .starting)
      (clear : ({c with attached := true} : Client).refusal = none) :
      Turn c
        {c.told [Request.introduce c.nextId c.config.rootUri introducedAs 0] with
          attached := true, nextId := c.nextId + 1, link := .handshake c.nextId}
  | introduceLost {failure} (waiting : c.link = .launched) (starting : c.phase = .starting)
      (stuck : ({c with attached := true} : Client).refusal = some failure) :
      Turn c
        {c with
          attached := true, nextId := c.nextId + 1, link := .failing failure
          log := c.log ++ [.lost (Request.introduce c.nextId c.config.rootUri introducedAs 0)]}
  | gaveUp {failure} (failing : c.link = .failing failure) : Turn c (c.startFailed failure)
  | skipped {s rest} (listening : c.listening = true) (server : c.server = some s) :
      Turn c (c.readOn s rest)
  | taken {s rest m after} (listening : c.listening = true) (server : c.server = some s)
      (hearing : Taken ((c.readOn s rest).note (.heard m)) m after) : Turn c after
  | lost {id} (awaiting : c.link = .handshake id) :
      Turn c {c.note .ended with link := .failing .transportClosed}
  | parted (pumping : c.link = .pumping) : Turn c {(c.note .ended).unrouted with link := .closed}
  | stopVoid (requested : c.teardown = .requested) (settled : c.phase ≠ .starting)
      (idle : c.phase ≠ .running) :
      Turn c {c with teardown := .none, log := c.log ++ [.resolved .stop .done]}
  | shutdownOpened (requested : c.teardown = .requested) (running : c.phase = .running)
      (listening : c.router.closed = false) :
      Turn c
        {c with
          phase := .stopping, teardown := .registered c.nextId, nextId := c.nextId + 1
          router := {c.router with pending := c.router.pending ++ [(c.nextId, .shutdown)]}
          log := c.log ++ [.awaits c.nextId .shutdown]}
  | shutdownShut (requested : c.teardown = .requested) (running : c.phase = .running)
      (closed : c.router.closed = true) :
      Turn c
        {c with
          phase := .stopping, teardown := .registered c.nextId, nextId := c.nextId + 1
          log := c.log ++ [.awaits c.nextId .shutdown]}
  | shutdownSent {id} (registered : c.teardown = .registered id) (clear : c.refusal = none) :
      Turn c {c.told [Request.shutdown id] with teardown := .awaitingReply id}
  | shutdownLost {id failure} (registered : c.teardown = .registered id) (stuck : c.refusal = some failure) :
      Turn c
        {c with
          teardown := .awaitingReply id, router := (c.router.release id).1
          log := c.log ++ [.lost (Request.shutdown id)]}
  | exitTold {id} (waiting : c.teardown = .awaitingReply id) (answered : c.router.owner? id = none)
      (attached : c.attached = true) :
      Turn c {c.tried Request.exit with attached := false, teardown := .awaitingExit}
  | exitUntold {id} (waiting : c.teardown = .awaitingReply id)
      (answered : c.router.owner? id = none) (detached : c.attached = false) :
      Turn c {c with teardown := .awaitingExit}
  | finished (waiting : c.teardown = .awaitingExit) (exited : c.exited = true) :
      Turn c
        {c with
          teardown := .none, documents := [], queued := [], phase := .stopped, store := []
          log := c.log ++ [.resolved .stop .done]}
  | served {s s'} (server : c.server = some s) (alive : s.alive = true)
      (less : (s'.reads = true → s.reads = true) ∧ (s'.writes = true → s.writes = true)) :
      Turn c {c with server := some s'}
  | elsewhere {taken : Nat} : Turn c {c with nextId := c.nextId + taken}

end LspClient.Client
