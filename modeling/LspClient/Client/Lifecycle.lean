import LspClient.Client.Documents

/-! Start, handshake and stop. A start launches the server and asks to initialize; the first response
to that request decides it. A stop waits for a start under way, asks the server to shut down, tells
it to exit and waits until it has. Each function is what one side of the client does in one go. -/
namespace LspClient.Client

def introducedAs : String := "lustre-client"

def lastMurmur (c : Client) : List String :=
  match c.server with
  | some s =>
    if s.murmur.isEmpty then [] else [String.ofList (Text.trimEnd (Utf8.lossy s.murmur))]
  | none => []

def vanish (c : Client) : Client :=
  (c.lastMurmur.foldl (fun c line => c.display line) c).updateServer Server.gone

def kill (c : Client) : Client :=
  if c.attached then (({c with attached := false} : Client).note .killed).vanish else c

-- stop

/-- A requested stop begins once no start is under way; without a running client there is nothing
to tear down. It opens a reply slot for the request to shut down before that is written. -/
def beginTeardown (c : Client) : Client :=
  if c.teardown ≠ .requested ∨ c.phase = .starting then c
  else if c.phase = .running then
    ({c with
      phase := .stopping, nextId := c.nextId + 1, router := (c.router.register c.nextId .shutdown).1
      teardown := .registered c.nextId} : Client).note (.awaits c.nextId .shutdown)
  else ({c with teardown := .none} : Client).resolve .stop .done

def askToShutDown (c : Client) : Client :=
  match c.teardown with
  | .registered id =>
    match c.send (Request.shutdown id) with
    | (after, none) => {after with teardown := .awaitingReply id}
    | (after, some _) => {after.cancel id with teardown := .awaitingReply id}
  | _ => c

def sendExit (c : Client) : Client :=
  match c.teardown with
  | .awaitingReply id =>
    if (c.router.owner? id).isSome then c
    else
      let c := if c.attached then (c.send Request.exit).1 else c
      {c with attached := false, teardown := .awaitingExit}
  | _ => c

def exited (c : Client) : Bool :=
  match c.server with
  | some s => !s.alive
  | none => true

def finishTeardown (c : Client) : Client :=
  if c.teardown = .awaitingExit ∧ c.exited then
    ({c with teardown := .none, documents := [], queued := [], phase := .stopped, store := []} :
      Client).resolve .stop .done
  else c

-- start

def failStart (failure : Failure) (c : Client) : Client :=
  let c := c.display ("Starting client failed: " ++ failure.message)
  let c := c.closeRouter.kill
  ({c with queued := [], phase := .stopped, link := .closed} : Client).resolve .start (.failed failure)

def start (refused : Option Refusal) (c : Client) : Client × Option Failure :=
  if c.phase ≠ .created then (c, some (.invalidState c.phase))
  else ({c with phase := .starting, link := .launching refused}, none)

def giveUp (c : Client) : Client :=
  match c.link with
  | .failing failure => c.failStart failure
  | _ => c

def settle (c : Client) : Client := c.giveUp.beginTeardown.askToShutDown.sendExit.finishTeardown

def spawn (c : Client) : Client :=
  match c.link with
  | .launching (some cause) => {c with link := .failing (.spawn c.config.executable.command cause)}
  | .launching none =>
    ({c with server := some .fresh, link := .launched} : Client).note
      (.spawned c.config.executable.arguments)
  | _ => c

def introduce (c : Client) : Client :=
  if c.link ≠ .launched then c
  else
    let attached := {c with attached := true, nextId := c.nextId + 1}
    if c.phase ≠ .starting then {attached.kill with link := .failing (.invalidState c.phase)}
    else match attached.send (Request.introduce c.nextId c.config.rootUri introducedAs 0) with
      | (after, none) => {after with link := .handshake c.nextId}
      | (after, some failure) => {after with link := .failing failure}

def sendAll : List Message → Client → Client × Option Failure
  | [], c => (c, none)
  | m :: rest, c =>
    match c.send m with
    | (c, some failure) => (c, some failure)
    | (c, none) => c.sendAll rest

def becomeReady (c : Client) : Client :=
  match c.send Request.initialized with
  | (c, some failure) => {c with link := .failing failure}
  | (c, none) =>
    match ({c with queued := []} : Client).sendAll (c.queued.map Request.didOpen) with
    | (c, none) => ({c with phase := .running, link := .pumping} : Client).resolve .start .done
    | (c, some failure) => {c with link := .failing failure}

def answerHandshake (result : Option Json) (error : Option ResponseError) (c : Client) : Client :=
  match error with
  | some e => {c with link := .failing (.handshake e.code e.message)}
  | none =>
    if c.phase = .starting then
      ({c with capabilities := .ofResult (result.getD .null)} : Client).becomeReady
    else {c with link := .failing (.invalidState c.phase)}

def hear (m : Message) (c : Client) : Client :=
  let c := c.note (.heard m)
  match c.link, m with
  | .handshake id, .response answered result error =>
    if answered = id then (c.traceMessage "Received" m).answerHandshake result error
    else c.dispatch m
  | _, m => c.dispatch m

def receive (body : String) (c : Client) : Client :=
  match Message.parse? body with
  | none => c
  | some m => c.hear m

def lose (c : Client) : Client :=
  let c := c.note .ended
  match c.link with
  | .pumping =>
    let c := {c.closeRouter with link := .closed}
    if c.phase = .running then c.display "Connection to server got closed." else c
  | _ => {c with link := .failing .transportClosed}

def listening (c : Client) : Bool :=
  match c.link with
  | .handshake _ | .pumping => true
  | _ => false

/-- Takes one frame off the unread output, or notices that there will be none. Nothing can be taken
while a frame is not complete. -/
def take? (c : Client) : Option Client :=
  match c.listening, c.server with
  | true, some s =>
    match Frame.read s.writes s.unread with
    | .starved => none
    | .body text rest => some ((c.updateServer fun s => {s with unread := rest}).receive text)
    | .ended | .fault _ => some c.lose
  | _, _ => none

def drain : (bound : Nat) → Client → Client
  | 0, c => c
  | bound + 1, c =>
    match c.take? with
    | none => c
    | some c => drain bound c.settle

def pump (c : Client) : Client :=
  let unread := match c.server with
    | some s => s.unread.length
    | none => 0
  (c.drain (unread + 2)).settle

-- the host lets go

def stop (c : Client) : Client :=
  let c := {c with held := false}
  match c.phase with
  | .created => ({c with phase := .stopped} : Client).resolve .stop .done
  | .stopping | .stopped => c.resolve .stop .done
  | .starting | .running => {c with teardown := .requested}

def drop (c : Client) : Client :=
  {({c with held := false} : Client).kill with phase := .stopped}

end LspClient.Client
