import LspClient.Router
import LspClient.Request
import LspClient.Capabilities
import LspClient.Trace
import LspClient.Table
import LspClient.Machine

/-! The state of a language client: its phase, the documents it tracks, the requests it waits for,
its connection to one server process, and the log of all it has done. -/
namespace LspClient
open Utf8 (Octets)

inductive Phase where
  | created
  | starting
  | running
  | stopping
  | stopped
  deriving DecidableEq, Repr, Inhabited

def Phase.name : Phase → String
  | .created => "Created"
  | .starting => "Starting"
  | .running => "Running"
  | .stopping => "Stopping"
  | .stopped => "Stopped"

inductive Failure where
  | spawn (command : String) (cause : Refusal)
  | io (cause : Refusal)
  | handshake (code : Int) (message : String)
  | protocol (code : Int) (message : String)
  | transportClosed
  | invalidState (phase : Phase)
  | alreadyActive
  deriving DecidableEq, Repr

def Failure.message : Failure → String
  | .spawn command cause =>
    "Failed to spawn language server '" ++ command ++ "': " ++ cause.message
  | .io cause => "I/O error on language server transport: " ++ cause.message
  | .handshake code message =>
    "Server rejected initialize request (" ++ toString code ++ "): " ++ message
  | .protocol code message => "LSP error " ++ toString code ++ ": " ++ message
  | .transportClosed => "Connection to language server closed"
  | .invalidState phase => "Operation not valid while client is " ++ phase.name
  | .alreadyActive => "A language client is already active for this extension"

structure Executable where
  command : String
  arguments : List String
  deriving DecidableEq, Repr, Inhabited

structure Launch where
  run : Executable
  debug : Executable
  deriving DecidableEq, Repr, Inhabited

namespace Launch

def single (e : Executable) : Launch := ⟨e, e⟩

def select (l : Launch) (debugging : Bool) : Executable := if debugging then l.debug else l.run

end Launch

structure Config where
  id : String
  name : String
  channel : String
  launch : Launch
  debugging : Bool
  selector : Selector
  workspace : Option String
  trace : Trace
  deriving DecidableEq, Repr, Inhabited

def Config.executable (c : Config) : Executable := c.launch.select c.debugging

def Config.rootUri (c : Config) : Option String :=
  c.workspace.map fun folder => Uri.ofPath (Utf8.ofString folder)

inductive Awaited where
  | pull (name : String) (uri : String)
  | shutdown
  deriving DecidableEq, Repr

inductive Ticket where
  | start
  | stop
  | pull (name : String)
  deriving DecidableEq, Repr

inductive Outcome where
  | done
  | items (list : List Diagnostic)
  | failed (failure : Failure)
  | abandoned
  deriving DecidableEq, Repr

namespace Client

inductive Call where
  | start (refused : Option Refusal)
  | stop
  | drop
  | didOpen (document : TextDocument)
  | didChange (uri text : String)
  | didClose (uri : String)
  | pull (name uri : String)
  deriving DecidableEq, Repr

inductive Answer where
  | nothing
  | flag (value : Bool)
  | failed (failure : Failure)
  deriving DecidableEq, Repr

def Answer.ofExcept : Except Failure Bool → Answer
  | .ok value => .flag value
  | .error failure => .failed failure

def Answer.ofFailure : Option Failure → Answer
  | none => .nothing
  | some failure => .failed failure

end Client

/-- All that a client does and learns. Lines that only tracing adds are kept apart. A message that
could not be written is `lost`, one that was taken off the server's output is `heard`, and `ended` says
that there is no more of it. A request is preceded by what `awaits` its answer. A call stands in the log
when it returns. -/
inductive Event where
  | shown (line : String)
  | traced (line : String)
  | wrote (message : Message)
  | lost (message : Message)
  | heard (message : Message)
  | ended
  | awaits (id : Int) (owner : Awaited)
  | spawned (arguments : List String)
  | killed
  | resolved (ticket : Ticket) (outcome : Outcome)
  | called (call : Client.Call) (answer : Client.Answer)
  deriving DecidableEq, Repr

structure Server where
  alive : Bool
  room : Option Nat
  writes : Bool
  unread : Octets
  murmur : Octets
  deriving DecidableEq, Repr, Inhabited

namespace Server

def fresh : Server := ⟨true, none, true, [], []⟩

def reads (s : Server) : Bool := s.alive && s.room != some 0

def fed (count : Nat) (s : Server) : Server := {s with room := s.room.map (· - count)}

def gone (s : Server) : Server := {s with alive := false, writes := false, murmur := []}

end Server

/-- The receiving side of the connection. It launches the server, asks to initialize, waits for the
response and then takes up whatever comes. A start that is failing has still to be cleaned up. -/
inductive Link where
  | idle
  | launching (refused : Option Refusal)
  | launched
  | handshake (id : Int)
  | failing (failure : Failure)
  | pumping
  | closed
  deriving DecidableEq, Repr, Inhabited

inductive Teardown where
  | none
  | requested
  | registered (id : Int)
  | awaitingReply (id : Int)
  | awaitingExit
  deriving DecidableEq, Repr, Inhabited

/-- A pull that is not written yet, though its reply slot is open. The call holds the client until then,
so an answer that comes first is kept for its return. -/
structure Pull where
  id : Int
  name : String
  uri : String
  early : Option Outcome
  deriving DecidableEq, Repr, Inhabited

def Pull.news (a : Pull) : List Event := a.early.toList.map (.resolved (.pull a.name))

structure Client where
  config : Config
  phase : Phase
  held : Bool
  attached : Bool
  capabilities : Capabilities
  documents : Table Int32
  queued : List TextDocument
  router : Router Awaited
  store : Table (List Diagnostic)
  server : Option Server
  link : Link
  teardown : Teardown
  asking : Option Pull
  nextId : Int
  log : List Event
  deriving DecidableEq, Repr, Inhabited

namespace Client

def new (config : Config) (nextId : Int) : Client where
  config := config
  phase := .created
  held := true
  attached := false
  capabilities := .none
  documents := []
  queued := []
  router := .empty
  store := []
  server := none
  link := .idle
  teardown := .none
  asking := none
  nextId := nextId
  log := []

def note (e : Event) (c : Client) : Client := {c with log := c.log ++ [e]}

def display (line : String) (c : Client) : Client := c.note (.shown line)

def resolve (ticket : Ticket) (outcome : Outcome) (c : Client) : Client :=
  c.note (.resolved ticket outcome)

def diagnostics (uri : String) (c : Client) : List Diagnostic := (c.store.get? uri).getD []

def sent (c : Client) : List Message :=
  c.log.filterMap fun
    | .wrote m => some m
    | _ => none

def lines (c : Client) : List String :=
  c.log.filterMap fun
    | .shown line | .traced line => some line
    | _ => none

end Client
end LspClient
