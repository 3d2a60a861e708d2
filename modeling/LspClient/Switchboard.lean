import LspClient.Router

/-! A router in use. A callback is registered for a request, taken back, or dropped when all is closed. What a
message brings goes to the callback of its request, to the listener of published diagnostics, to the
output, or back as a reply. -/
namespace LspClient

structure Switchboard (κ : Type) where
  router : Router κ
  listener : Option String
  deriving Repr

namespace Switchboard
variable {κ : Type}

inductive Op where
  | register (id : Int)
  | cancel (id : Int)
  | listen (name : String)
  | handle (m : Message)
  | close
  deriving DecidableEq, Repr

/-- What an operation returns, the callbacks that it calls and those that it drops uncalled, what the listener
is told, and what is shown. -/
structure Effect (κ : Type) where
  flag : Option Bool := none
  reply : Option Message := none
  called : List (Int × κ × Except ResponseError Json) := []
  dropped : List κ := []
  told : List (String × String × List Diagnostic) := []
  lines : List String := []
  deriving Repr

def empty : Switchboard κ := ⟨.empty, none⟩

def deliver (listener : Option String) (e : Effect κ) : Delivery κ → Effect κ
  | .answer id callback result => {e with called := e.called ++ [(id, callback, result)]}
  | .published uri items => {e with told := e.told ++ listener.toList.map fun name => (name, uri, items)}
  | .line text => {e with lines := e.lines ++ [text]}
  | .reply m => {e with reply := some m}

def operate (callback : κ) (op : Op) (s : Switchboard κ) : Switchboard κ × Effect κ :=
  match op with
  | .register id =>
    let (router, dropped) := s.router.register id callback
    ({s with router := router}, {dropped := dropped.toList})
  | .cancel id =>
    let (router, dropped) := s.router.release id
    ({s with router := router}, {flag := some dropped.isSome, dropped := dropped.toList})
  | .listen name => ({s with listener := some name}, {})
  | .handle m =>
    let (router, deliveries) := s.router.handle m
    ({s with router := router}, deliveries.foldl (deliver s.listener) {})
  | .close =>
    let (router, dropped) := s.router.close
    ({s with router := router}, {dropped := dropped})

def run (ops : List Op) : Switchboard Nat × List (Effect Nat) :=
  ops.zipIdx.foldl (fun (s, effects) (op, place) =>
    let (s, e) := s.operate place op
    (s, effects ++ [e])) (empty, [])

def after (ops : List Op) : Switchboard Nat := (run ops).1

def effect (ops : List Op) (op : Op) : Effect Nat := ((after ops).operate ops.length op).2

end Switchboard
end LspClient
