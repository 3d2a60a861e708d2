import LspClient.Extension.Context

/-! Sessions: a host that drives clients one after another, and what the servers of these clients do.
A client that was stopped goes on in the background. What the server does concerns the server that
was launched last. Request numbers go on across the clients of a session. -/
namespace LspClient
open Utf8 (Octets)

inductive Origin where
  | client
  | extension (context : Context)
  deriving DecidableEq, Repr

structure Session where
  origin : Origin
  machine : Machine
  clients : List Client
  nextId : Int

namespace Session

inductive Step where
  | start
  | activate
  | stop
  | drop
  | didOpen (document : TextDocument)
  | didOpenPath (path : Octets) (text : String)
  | didChange (uri text : String)
  | didClose (uri : String)
  | pull (name uri : String)
  | diagnostics (uri : String)
  | snapshot
  | clearOutput
  | serverSends (messages : List Json)
  | serverWrites (chunks : List Octets) (andEnds : Bool)
  | serverMurmurs (octets : Octets)
  | serverEndsOutput
  | serverExits

inductive Answer where
  | nothing
  | noClient
  | noServer
  | launched (arguments : List String)
  | flag (value : Bool)
  | failed (failure : Failure)
  | diagnostics (list : List Diagnostic)
  | snapshot

def ofConfig (machine : Machine) (config : Config) : Session :=
  ⟨.client, machine, [.new config 1], 1⟩

def ofContext (machine : Machine) (context : Context) : Session :=
  ⟨.extension context, machine, [], 1⟩

def held? (s : Session) : Option Client := s.clients.getLast?.filter (·.held)

def channels (s : Session) : List String :=
  match s.origin with
  | .client => []
  | .extension _ => s.clients.map fun c => c.config.channel

def actOn (s : Session) (index : Nat) (a : Client.Act) : Session × Client.Answer :=
  match s.clients[index]? with
  | none => (s, .nothing)
  | some c =>
    let (c, answer) := Client.act a {c with nextId := s.nextId}
    ({s with clients := s.clients.set index c, nextId := c.nextId}, answer)

def actOnLast (s : Session) (a : Client.Act) : Session × Client.Answer :=
  s.actOn (s.clients.length - 1) a

def served? (s : Session) : Option Nat :=
  (List.range s.clients.length).reverse.find? fun i =>
    ((s.clients[i]?).bind (·.server)).isSome

def Answer.ofClient : Client.Answer → Answer
  | .nothing => .nothing
  | .flag value => .flag value
  | .failed failure => .failed failure

def refused (s : Session) (config : Config) : Option Refusal :=
  s.machine.refused config.executable.command config.executable.arguments config.workspace

def startLast (s : Session) : Session × Answer :=
  match s.clients.getLast? with
  | none => (s, .noClient)
  | some c =>
    match s.actOnLast (.host (.start (s.refused c.config))) with
    | (s, .nothing) =>
      if (s.clients.getLast?.bind (·.server)).isSome then
        (s, .launched c.config.executable.arguments)
      else (s, .nothing)
    | (s, answer) => (s, .ofClient answer)

def withHeld (s : Session) (f : Client → Session × Answer) : Session × Answer :=
  match s.held? with
  | some c => f c
  | none => (s, .noClient)

def hostCall (s : Session) (call : Client.Call) : Session × Answer :=
  s.withHeld fun _ =>
    let (s, answer) := s.actOnLast (.host call)
    (s, .ofClient answer)

def serverActs (s : Session) (acts : List Client.ServerAct) : Session × Answer :=
  match s.served? with
  | none => (s, .noServer)
  | some i => (acts.foldl (fun s a => (s.actOn i (.server a)).1) s, .nothing)

/-- At most one client is held: an extension with an active client refuses to activate another. -/
def activate (s : Session) : Session × Answer :=
  match s.origin with
  | .client => (s, .noClient)
  | .extension context =>
    if s.held?.isSome then (s, .failed .alreadyActive)
    else ({s with clients := s.clients ++ [.new context.config s.nextId]} : Session).startLast

def act (s : Session) : Step → Session × Answer
  | .start => s.withHeld fun _ => s.startLast
  | .activate => s.activate
  | .stop => s.hostCall .stop
  | .drop => s.hostCall .drop
  | .didOpen d => s.hostCall (.didOpen d)
  | .didOpenPath path text =>
    match TextDocument.ofPath? path text with
    | some d => s.hostCall (.didOpen d)
    | none => s.withHeld fun _ => (s, .flag false)
  | .didChange uri text => s.hostCall (.didChange uri text)
  | .didClose uri => s.hostCall (.didClose uri)
  | .pull name uri => s.hostCall (.pull name uri)
  | .diagnostics uri => s.withHeld fun c => (s, .diagnostics (c.diagnostics uri))
  | .snapshot => (s, .snapshot)
  | .clearOutput => s.withHeld fun _ => (s, .nothing)
  | .serverSends messages =>
    s.serverActs (messages.map fun m => .writes (Utf8.ofString (Frame.write m.compact)))
  | .serverWrites chunks andEnds =>
    s.serverActs (chunks.map .writes ++ if andEnds then [.endsOutput] else [])
  | .serverMurmurs octets => s.serverActs [.murmurs octets]
  | .serverEndsOutput => s.serverActs [.endsOutput]
  | .serverExits => s.serverActs [.exits]

structure Report where
  answer : Answer
  phase : Option Phase
  events : List Event

def added (before after : Session) : List Event :=
  (after.clients.mapIdx fun i c =>
    c.log.drop (((before.clients[i]?).map fun c => c.log.length).getD 0)).flatten

def step (s : Session) (a : Step) : Session × Report :=
  let (after, answer) := s.act a
  (after, ⟨answer, after.held?.map (·.phase), s.added after⟩)

def run (s : Session) (steps : List Step) : Session × List Report :=
  steps.foldl (fun (s, reports) a =>
    let (s, report) := s.step a
    (s, reports ++ [report])) (s, [])

end Session
end LspClient
