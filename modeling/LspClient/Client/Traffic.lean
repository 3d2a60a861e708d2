import LspClient.Client.Basic

/-! Messages in both directions. Sending traces a message before it is tried; receiving traces it,
routes it and carries out what the router delivers. -/
namespace LspClient.Client

def traceTarget : Message → String
  | .request id method _ => "request '" ++ method ++ " - (" ++ toString id ++ ")'"
  | .notification method _ => "notification '" ++ method ++ "'"
  | .response id _ _ => "response (" ++ toString id ++ ")"

def traceLines (level : Trace) (direction : String) (m : Message) : List String :=
  let header := "[Trace] " ++ direction ++ " " ++ traceTarget m
  match level with
  | .off => []
  | .messages => [header]
  | .verbose => [header, m.body]

def traceMessage (direction : String) (m : Message) (c : Client) : Client :=
  {c with log := c.log ++ (traceLines c.config.trace direction m).map .traced}

def writable (c : Client) : Bool :=
  match c.server with
  | some s => s.reads
  | none => false

def updateServer (f : Server → Server) (c : Client) : Client := {c with server := c.server.map f}

def refusal (c : Client) : Option Failure :=
  if !c.attached then some .transportClosed
  else if c.writable then none
  else some (.io .brokenPipe)

def send (m : Message) (c : Client) : Client × Option Failure :=
  let c := c.traceMessage "Sending" m
  match c.refusal with
  | none => ((c.updateServer (Server.fed 1)).note (.wrote m), none)
  | some failure => (c.note (.lost m), some failure)

/-- What an answer to a pull leaves in the store: an error and a report that nothing has changed
leave it as it is. -/
def keep (uri : String) (result : Except ResponseError Json) (store : Table (List Diagnostic)) :
    Table (List Diagnostic) :=
  match result.toOption.bind Diagnostic.report? with
  | some items => store.put uri items
  | none => store

def pullOutcome (result : Except ResponseError Json) (stored : List Diagnostic) : Outcome :=
  match result with
  | .error e => .failed (.protocol e.code e.message)
  | .ok _ => .items stored

def asks (id : Int) (c : Client) : Bool := c.asking.any fun a => a.id == id

def forestall (outcome : Outcome) (c : Client) : Client :=
  {c with asking := c.asking.map fun a => {a with early := some outcome}}

def settlePull (id : Int) (name : String) (outcome : Outcome) (c : Client) : Client :=
  if c.asks id then c.forestall outcome else c.resolve (.pull name) outcome

def answered (id : Int) (owner : Awaited) (result : Except ResponseError Json) (c : Client) : Client :=
  match owner with
  | .shutdown => c
  | .pull name uri =>
    let c := {c with store := keep uri result c.store}
    c.settlePull id name (pullOutcome result (c.diagnostics uri))

def deliver (c : Client) : Delivery Awaited → Client
  | .answer id owner result => c.answered id owner result
  | .published uri items => {c with store := c.store.put uri items}
  | .line text => c.display text
  | .reply m => (c.send m).1

def dispatch (m : Message) (c : Client) : Client :=
  let c := c.traceMessage "Received" m
  let (router, deliveries) := c.router.handle m
  deliveries.foldl deliver {c with router := router}

def cancel (id : Int) (c : Client) : Client := {c with router := (c.router.release id).1}

def forsaken (c : Client) : List Event :=
  c.router.pending.filterMap fun slot =>
    match slot.2 with
    | .pull name _ => if c.asks slot.1 then none else some (.resolved (.pull name) .abandoned)
    | .shutdown => none

def closeRouter (c : Client) : Client :=
  let waiting := if c.router.pending.any fun slot => c.asks slot.1 then c.forestall .abandoned else c
  {waiting with router := c.router.close.1, log := c.log ++ c.forsaken}

end LspClient.Client
