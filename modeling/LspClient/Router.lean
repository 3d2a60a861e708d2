import LspClient.Message
import LspClient.Diagnostic

/-! Routing of incoming messages. A router holds the reply slots of requests under way, each with
what its owner put there, and turns a message into deliveries: an answer to the owner of a slot,
published diagnostics, a line to show, or a reply to send back. -/
namespace LspClient

structure Router (κ : Type) where
  pending : List (Int × κ)
  closed : Bool
  deriving DecidableEq, Repr, Inhabited

inductive Delivery (κ : Type) where
  | answer (id : Int) (owner : κ) (result : Except ResponseError Json)
  | published (uri : String) (items : List Diagnostic)
  | line (text : String)
  | reply (message : Message)
  deriving Repr

namespace Router
variable {κ : Type}

def empty : Router κ := ⟨[], false⟩

def owner? (r : Router κ) (id : Int) : Option κ := r.pending.lookup id

def release (r : Router κ) (id : Int) : Router κ × Option κ :=
  ({r with pending := r.pending.filter fun s => s.1 != id}, r.owner? id)

/-- Opens a slot. An older slot of the same number is dropped; after closing, the new one is.
Gives the router and the owner that was dropped without an answer. -/
def register (r : Router κ) (id : Int) (owner : κ) : Router κ × Option κ :=
  if r.closed then (r, some owner)
  else
    let (r, older) := r.release id
    ({r with pending := r.pending ++ [(id, owner)]}, older)

def close (r : Router κ) : Router κ × List κ := (⟨[], true⟩, r.pending.map Prod.snd)

def hasPending (r : Router κ) : Bool := !r.pending.isEmpty

def outcome (result : Option Json) : Option ResponseError → Except ResponseError Json
  | some error => .error error
  | none => .ok (result.getD .null)

def label (kind : Option Nat) : String :=
  match kind with
  | some 1 => "Error"
  | some 2 => "Warn"
  | some 3 => "Info"
  | _ => "Log"

def shownLine (params : Json) : String :=
  let text := ((params.field? "message").bind Json.string?).getD ""
  "[" ++ label ((params.field? "type").bind Json.nat64?) ++ "] " ++ text

def notified (method : String) (params : Option Json) : List (Delivery κ) :=
  match params with
  | none => []
  | some params =>
    if method = "textDocument/publishDiagnostics" then
      let (uri, items) := Diagnostic.published params
      [.published uri items]
    else if method = "window/logMessage" ∨ method = "window/showMessage" then
      [.line (shownLine params)]
    else []

def acknowledged : List String :=
  ["client/registerCapability", "client/unregisterCapability", "window/workDoneProgress/create"]

def replyTo (id : Int) (method : String) (params : Option Json) : Message :=
  if method = "workspace/configuration" then
    let items := ((params.bind (Json.field? "items")).bind Json.items?).getD []
    .response id (some (.array (items.map fun _ => .null))) none
  else if method ∈ acknowledged then .response id (some .null) none
  else .response id none (some (.methodNotFound method))

def handle (r : Router κ) : Message → Router κ × List (Delivery κ)
  | .request id method params => (r, [.reply (replyTo id method params)])
  | .notification method params => (r, notified method params)
  | .response id result error =>
    match r.release id with
    | (r, some owner) => (r, [.answer id owner (outcome result error)])
    | (r, none) => (r, [])

theorem releaseUnknown {r : Router κ} {id : Int} (unknown : r.owner? id = none) :
    (r.release id).1 = r := by
  simp only [owner?, List.lookup_eq_none_iff] at unknown
  have kept : r.pending.filter (fun s => s.1 != id) = r.pending :=
    List.filter_eq_self.mpr fun slot member => by simpa [bne_comm] using unknown slot member
  simp only [release, kept]

theorem registerClosed {r : Router κ} (closed : r.closed = true) (id : Int) (owner : κ) :
    r.register id owner = (r, some owner) := by
  simp only [register, closed, if_true]

theorem registerOpen {r : Router κ} {id : Int} (listening : r.closed = false)
    (unknown : r.owner? id = none) (owner : κ) :
    r.register id owner = ({r with pending := r.pending ++ [(id, owner)]}, none) := by
  have none : (r.release id).2 = none := unknown
  simp only [register, listening, Bool.false_eq_true, if_false]
  rw [← Prod.eta (r.release id), releaseUnknown unknown, none]
  simp [listening]

theorem registerRelease {r : Router κ} {id : Int} (unknown : r.owner? id = none) (owner : κ) :
    ((r.register id owner).1.release id).1 = r := by
  cases h : r.closed with
  | true => rw [registerClosed h, releaseUnknown unknown]
  | false =>
    have kept := congrArg pending (releaseUnknown unknown)
    simp only [release] at kept
    rw [registerOpen h unknown]
    simp [release, List.filter_append, kept]

theorem handleUnknown {r : Router κ} {id : Int} (unknown : r.owner? id = none)
    (result : Option Json) (error : Option ResponseError) :
    r.handle (.response id result error) = (r, []) := by
  have none : (r.release id).2 = none := unknown
  simp only [handle]
  rw [← Prod.eta (r.release id), releaseUnknown unknown, none]

theorem handleKnown {r : Router κ} {id : Int} {owner : κ} (known : r.owner? id = some owner)
    (result : Option Json) (error : Option ResponseError) :
    r.handle (.response id result error) =
      ((r.release id).1, [.answer id owner (outcome result error)]) := by
  have some : (r.release id).2 = some owner := known
  simp only [handle]
  rw [← Prod.eta (r.release id), some]

end Router
end LspClient
