import LspClient.Client.Traffic

/-! What the host says about its documents, and pulls of diagnostics. Before the client runs, opened
documents wait in a queue and changes go into the queued text. -/
namespace LspClient.Client

def tell (m : Message) (c : Client) : Client × Except Failure Bool :=
  match c.send m with
  | (c, none) => (c, .ok true)
  | (c, some failure) => (c, .error failure)

def track (uri : String) (version : Int32) (c : Client) : Client :=
  {c with documents := c.documents.put uri version}

def untrack (uri : String) (c : Client) : Client := {c with documents := c.documents.erase uri}

def forget (uri : String) (c : Client) : Client := {c with store := c.store.erase uri}

def didOpen (d : TextDocument) (c : Client) : Client × Except Failure Bool :=
  if !c.config.selector.accepts d then (c, .ok false)
  else if c.phase = .stopping ∨ c.phase = .stopped then (c, .error (.invalidState c.phase))
  else if (c.documents.get? d.uri).isSome then (c, .ok true)
  else if c.phase = .running then (c.track d.uri d.version).tell (Request.didOpen d)
  else ({c.track d.uri d.version with queued := c.queued ++ [d]}, .ok true)

def foldChange (uri : String) (version : Int32) (text : String) : List TextDocument → List TextDocument
  | [] => []
  | d :: rest =>
    if d.uri = uri then {d with version := version, text := text} :: rest
    else d :: foldChange uri version text rest

def didChange (uri text : String) (c : Client) : Client × Except Failure Bool :=
  match c.documents.get? uri with
  | none => (c, .ok false)
  | some version =>
    let version := version + 1
    match c.phase with
    | .running => (c.track uri version).tell (Request.didChange uri version text)
    | .created | .starting =>
      ({c.track uri version with queued := foldChange uri version text c.queued}, .ok true)
    | .stopping | .stopped => (c.track uri version, .error (.invalidState c.phase))

def didClose (uri : String) (c : Client) : Client × Except Failure Bool :=
  if (c.documents.get? uri).isNone then (c, .ok false)
  else if c.phase = .running then
    match (c.untrack uri).tell (Request.didClose uri) with
    | (c, .ok told) => (c.forget uri, .ok told)
    | (c, .error failure) => (c, .error failure)
  else
    (({c.untrack uri with queued := c.queued.filter fun d => d.uri != uri} : Client).forget uri, .ok true)

def pull (name uri : String) (c : Client) : Client :=
  if c.phase = .running then
    let (router, dropped) := c.router.register c.nextId (.pull name uri)
    ({c with
      nextId := c.nextId + 1, router := router
      asking := some ⟨c.nextId, name, uri, dropped.map fun _ => .abandoned⟩} : Client).note
        (.awaits c.nextId (.pull name uri))
  else c.resolve (.pull name) (.failed (.invalidState c.phase))

/-- Writes the request of the pull under way and lets the call return. A request that cannot be written
leaves no slot, and the host learns that instead of an answer. -/
def ask (c : Client) : Client :=
  match c.asking with
  | none => c
  | some a =>
    let returned := Event.called (.pull a.name a.uri) .nothing
    match ({c with asking := none} : Client).send (Request.diagnostic a.id a.uri) with
    | (after, none) => {after with log := after.log ++ (a.news ++ [returned])}
    | (after, some failure) =>
      ((after.cancel a.id).resolve (.pull a.name) (.failed failure)).note returned

end LspClient.Client
