/-! A value that becomes available later. The completer puts it into a mailbox; the completion reads the
mailbox at most once and keeps what it found. `cell` is the abstract view: unresolved, holding a value,
or empty for good. -/
namespace LspClient

inductive Cell (α : Type) where
  | unresolved
  | holding (value : α)
  | empty
  deriving DecidableEq, Repr

structure Mailbox (α : Type) where
  letter : Option α
  sender : Bool
  deriving DecidableEq, Repr

inductive Reader (α : Type) where
  | listening
  | settled (value : Option α)
  deriving DecidableEq, Repr

structure Completion (α : Type) where
  reader : Option (Reader α)
  mailbox : Mailbox α
  deriving DecidableEq, Repr

namespace Completion
variable {α : Type}

def ready (value : α) : Completion α := ⟨some (.settled (some value)), ⟨none, false⟩⟩

def pending : Completion α := ⟨some .listening, ⟨none, true⟩⟩

/-- The completer is used up, also when nobody is left to read the letter. None without a completer. -/
def complete? (value : α) (c : Completion α) : Option (Completion α) :=
  if c.mailbox.sender then some {c with mailbox := ⟨c.reader.map fun _ => value, false⟩} else none

def dropCompleter (c : Completion α) : Completion α :=
  {c with mailbox := {c.mailbox with sender := false}}

def drop (c : Completion α) : Completion α := {c with reader := none, mailbox := {c.mailbox with letter := none}}

def poll (m : Mailbox α) : Option (Option α) :=
  match m.letter with
  | some value => some (some value)
  | none => if m.sender then none else some none

def settle (value : Option α) (c : Completion α) : Completion α :=
  ⟨some (.settled value), {c.mailbox with letter := none}⟩

def isReady (c : Completion α) : Completion α × Option Bool :=
  match c.reader with
  | none => (c, none)
  | some (.settled _) => (c, some true)
  | some .listening =>
    match poll c.mailbox with
    | some value => (c.settle value, some true)
    | none => (c, some false)

inductive Taken (α : Type) where
  | gone
  | blocked
  | found (value : Option α)
  deriving DecidableEq, Repr

def tryTake (c : Completion α) : Completion α × Taken α :=
  match c.reader with
  | none => (c, .gone)
  | some (.settled value) => (c.settle none, .found value)
  | some .listening =>
    match poll c.mailbox with
    | some value => (c.settle none, .found value)
    | none => (c, .found none)

def wait (c : Completion α) : Completion α × Taken α :=
  match c.reader with
  | none => (c, .gone)
  | some (.settled value) => (c.drop, .found value)
  | some .listening =>
    match poll c.mailbox with
    | some value => (c.drop, .found value)
    | none => (c, .blocked)

def cell (c : Completion α) : Option (Cell α) :=
  let ofFound : Option α → Cell α := fun
    | some value => .holding value
    | none => .empty
  c.reader.map fun
    | .settled value => ofFound value
    | .listening =>
      match poll c.mailbox with
      | some value => ofFound value
      | none => .unresolved

end Completion
end LspClient
