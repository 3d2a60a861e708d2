import LspClient.Peer.StandIn
import LspClient.Peer.Scripted
import LspClient.Client.Run

/-! A client and the server it talks to, with a pipe in each direction. Either side moves on its own, and the
pipe to the client lets octets through in pieces of any size: one move at a time, in any order. `settle`
takes both sides to rest, round after round. -/
namespace LspClient
open Utf8 (Octets)

inductive Peer where
  | standIn (s : StandIn)
  | scripted (s : Scripted)

namespace Peer

def hear (body : String) : Peer → Peer × List Json
  | .standIn s =>
    let (s, replies) := s.hear body
    (.standIn s, replies.map Message.toJson)
  | .scripted s =>
    let (s, replies) := s.hear body
    (.scripted s, replies)

def exited : Peer → Bool
  | .standIn s => s.exitCode.isSome
  | .scripted s => s.exited

def fail : Peer → Peer
  | .standIn s => .standIn {s with exitCode := some 1}
  | .scripted s => .scripted {s with exited := true}

end Peer

/-- The client, its server, how many octets of the client's messages the server has read, all that the server
has said, and how many octets of that have come through. -/
structure Dialogue where
  client : Client
  peer : Peer
  read : Nat
  said : List Json
  passed : Nat

namespace Dialogue

def begin (client : Client) (peer : Peer) : Dialogue := ⟨client, peer, 0, [], 0⟩

def unheard (d : Dialogue) : Octets := (d.client.sent.flatMap Message.octets).drop d.read

def unpassed (d : Dialogue) : Octets :=
  (d.said.flatMap fun j => Utf8.ofString (Frame.write j.compact)).drop d.passed

def hear (d : Dialogue) : Dialogue :=
  if d.client.exited || d.peer.exited then d
  else match Frame.read true d.unheard with
    | .body text rest =>
      let (peer, replies) := d.peer.hear text
      {d with peer := peer, read := d.read + (d.unheard.length - rest.length), said := d.said ++ replies}
    | .fault _ => {d with peer := d.peer.fail}
    | .ended | .starved => d

def pass (count : Nat) (d : Dialogue) : Dialogue :=
  let octets := d.unpassed.take count
  {d with client := d.client.perform (.server (.writes octets)), passed := d.passed + octets.length}

def leave (d : Dialogue) : Dialogue :=
  if d.peer.exited && d.unpassed.isEmpty then {d with client := d.client.perform (.server .exits)} else d

inductive Move where
  | client (move : Client.Move)
  | hear
  | pass (count : Nat)
  | murmur (octets : Octets)
  | leave

def perform (d : Dialogue) : Move → Dialogue
  | .client (.server _) => d
  | .client move => {d with client := d.client.perform move}
  | .hear => d.hear
  | .pass count => d.pass count
  | .murmur octets => {d with client := d.client.perform (.server (.murmurs octets))}
  | .leave => d.leave

def play (d : Dialogue) (moves : List Move) : Dialogue := moves.foldl perform d

def rest (d : Dialogue) : Dialogue := {d with client := d.client.comeToRest}

def hearAll : (bound : Nat) → Dialogue → Dialogue
  | 0, d => d
  | bound + 1, d => if d.unheard.isEmpty then d else hearAll bound d.hear

def round (d : Dialogue) : Dialogue :=
  let d := d.hearAll d.client.sent.length
  (d.pass d.unpassed.length).rest.leave.rest

def atRest (d : Dialogue) : Bool := d.unheard.isEmpty && d.unpassed.isEmpty

def settle : (bound : Nat) → Dialogue → Dialogue
  | 0, d => d
  | bound + 1, d => if d.atRest then d else settle bound d.round

def rounds : Nat := 8

def act (d : Dialogue) (a : Client.Act) : Dialogue × Client.Answer :=
  let (client, answer) := Client.act a d.client
  (settle rounds {d with client := client}, answer)

def step (d : Dialogue) (a : Client.Act) : Dialogue := (d.act a).1

def outcome? (d : Dialogue) (ticket : Ticket) : Option Outcome :=
  d.client.log.findSome? fun
    | .resolved t outcome => if t = ticket then some outcome else none
    | _ => none

end Dialogue
end LspClient
