import LspClient.Client.Lifecycle

/-! Runs of a client. Its host calls it, its receiving side and its stop go on by themselves, and its
server does what it likes: each of them one move at a time, in any order. A session is a run in which the
client comes to rest after each act of the host or the server. -/
namespace LspClient.Client
open Utf8 (Octets)

inductive ServerAct where
  | writes (octets : Octets)
  | murmurs (octets : Octets)
  | endsOutput
  | endsInput (after : Nat)
  | exits

def murmured (octets : Octets) : List String × Octets :=
  let pieces := octets.splitOn 0x0A
  (pieces.dropLast.map fun line => String.ofList (Text.trimEnd (Utf8.lossy line)),
    pieces.getLast?.getD [])

def serverMurmurs (octets : Octets) (c : Client) : Client :=
  match c.server with
  | none => c
  | some s =>
    let (lines, rest) := murmured (s.murmur ++ octets)
    lines.foldl (fun c line => c.display line) (c.updateServer fun s => {s with murmur := rest})

def serverAct (act : ServerAct) (c : Client) : Client :=
  if c.exited then c
  else match act with
    | .writes octets =>
      c.updateServer fun s => if s.writes then {s with unread := s.unread ++ octets} else s
    | .murmurs octets => c.serverMurmurs octets
    | .endsOutput => c.updateServer fun s => {s with writes := false}
    | .endsInput after =>
      c.updateServer fun s => {s with room := some (min after (s.room.getD after))}
    | .exits => c.vanish

def called : Call → Client → Client × Answer
  | .start refused, c =>
    let (c, failure) := c.start refused
    (c, .ofFailure failure)
  | .stop, c => (c.stop, .nothing)
  | .drop, c => (c.drop, .nothing)
  | .didOpen d, c =>
    let (c, result) := c.didOpen d
    (c, .ofExcept result)
  | .didChange uri text, c =>
    let (c, result) := c.didChange uri text
    (c, .ofExcept result)
  | .didClose uri, c =>
    let (c, result) := c.didClose uri
    (c, .ofExcept result)
  | .pull name uri, c => (c.pull name uri, .nothing)

/-- A pull that is still to be written returns with that, and no other call can be made before. -/
def hostCall (call : Call) (c : Client) : Client × Answer :=
  if c.held && c.asking.isNone then
    let (after, answer) := c.called call
    (if after.asking.isNone then after.note (.called call answer) else after, answer)
  else (c, .nothing)

/-- One move of the host, of the receiving side, of a stop or of the server, in any order. Elsewhere, other
clients of the same process take request numbers. -/
inductive Move where
  | host (call : Call)
  | ask
  | spawn
  | introduce
  | take
  | giveUp
  | beginTeardown
  | askToShutDown
  | sendExit
  | finishTeardown
  | server (act : ServerAct)
  | elsewhere (taken : Nat)

def perform (c : Client) : Move → Client
  | .host call => (c.hostCall call).1
  | .ask => c.ask
  | .spawn => c.spawn
  | .introduce => c.introduce
  | .take => c.take?.getD c
  | .giveUp => c.giveUp
  | .beginTeardown => c.beginTeardown
  | .askToShutDown => c.askToShutDown
  | .sendExit => c.sendExit
  | .finishTeardown => c.finishTeardown
  | .server act => c.serverAct act
  | .elsewhere taken => {c with nextId := c.nextId + taken}

def play (c : Client) (moves : List Move) : Client := moves.foldl perform c

inductive Act where
  | host (call : Call)
  | server (act : ServerAct)

def comeToRest (c : Client) : Client := c.ask.spawn.introduce.pump

def act : Act → Client → Client × Answer
  | .host call, c =>
    let (c, answer) := c.hostCall call
    (c.comeToRest, answer)
  | .server a, c => ((c.serverAct a).comeToRest, .nothing)

def step (c : Client) (a : Act) : Client := (act a c).1

def run (c : Client) (acts : List Act) : Client := acts.foldl step c

end LspClient.Client
