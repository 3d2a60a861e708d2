import LspClient.Proofs.Client.Veil

/-! Trace lines. A message is traced before it is tried and after it has been heard, and nothing reads the log.
So the run of a client at one level of tracing is its run at any other level, retraced. -/
namespace LspClient

def Event.isTrace : Event → Bool
  | .traced _ => true
  | _ => false

def Event.annotated (level : Trace) : Event → List Event
  | .wrote m => Client.traces level "Sending" m ++ [.wrote m]
  | .lost m => Client.traces level "Sending" m ++ [.lost m]
  | .heard m => .heard m :: Client.traces level "Received" m
  | e => [e]

def Event.traffic? : Event → Option (String × Message)
  | .wrote m | .lost m => some ("Sending", m)
  | .heard m => some ("Received", m)
  | _ => none

def Event.trace? : Event → Option String
  | .traced line => some line
  | _ => none

namespace Client

def untraced (log : List Event) : List Event := log.filter fun e => !e.isTrace

def retraced (level : Trace) (log : List Event) : List Event := (untraced log).flatMap (Event.annotated level)

theorem untracedAppend (past es : List Event) : untraced (past ++ es) = untraced past ++ untraced es :=
  List.filter_append _ _

theorem retracedAppend (level : Trace) (past es : List Event) :
    retraced level (past ++ es) = retraced level past ++ retraced level es := by
  simp only [retraced, untracedAppend, List.flatMap_append]

@[simp] theorem untracedTraces (level : Trace) (direction : String) (m : Message) :
    untraced (traces level direction m) = [] := by
  rw [untraced, List.filter_eq_nil_iff]
  intro e member
  obtain ⟨line, _, rfl⟩ := List.mem_map.mp member
  simp [Event.isTrace]

@[simp] theorem retracedTraces (level level' : Trace) (direction : String) (m : Message) :
    retraced level (traces level' direction m) = [] := by
  rw [retraced, untracedTraces]
  rfl

theorem untracedOwn {e : Event} {log : List Event} (member : e ∈ untraced log) : e.isTrace = false := by
  simpa using (List.mem_filter.mp member).2

theorem untracedOne {e : Event} (own : e.isTrace = false) : untraced [e] = [e] := by simp [untraced, own]

theorem annotatedUntraced (level : Trace) {e : Event} (own : e.isTrace = false) :
    untraced (e.annotated level) = [e] := by
  cases e with
  | traced line => cases own
  | wrote m | lost m => rw [Event.annotated, untracedAppend, untracedTraces, untracedOne own, List.nil_append]
  | heard m =>
    rw [Event.annotated, ← List.singleton_append, untracedAppend, untracedTraces, untracedOne own, List.append_nil]
  | shown | ended | spawned | killed | awaits | resolved | called => exact untracedOne own

theorem untracedRetraced (level : Trace) (log : List Event) : untraced (retraced level log) = untraced log := by
  have each (e : Event) (member : e ∈ untraced log) : untraced (e.annotated level) = [e] :=
    annotatedUntraced level (untracedOwn member)
  rw [retraced]
  generalize untraced log = events at each
  induction events with
  | nil => rfl
  | cons e rest ih =>
    rw [List.flatMap_cons, untracedAppend, each e (.head _), ih fun e member => each e (.tail _ member)]
    rfl

theorem annotatedOff (e : Event) : e.annotated .off = [e] := by cases e <;> rfl

theorem retracedOff (log : List Event) : retraced .off log = untraced log := by
  have same : Event.annotated .off = fun e => [e] := funext annotatedOff
  rw [retraced, same, List.flatMap_singleton']

def abridged : List Event → List Event
  | .traced header :: .traced _ :: rest => .traced header :: abridged rest
  | e :: rest => e :: abridged rest
  | [] => []

theorem annotatedAbridged {e : Event} (own : e.isTrace = false) (rest : List Event) :
    abridged (e.annotated .verbose ++ rest) = e.annotated .messages ++ abridged rest := by
  cases e with
  | traced line => cases own
  | wrote m | lost m => rfl
  | heard m => rfl
  | shown | ended | spawned | killed | awaits | resolved | called => rfl

theorem retracedAbridged (log : List Event) : abridged (retraced .verbose log) = retraced .messages log := by
  have own (e : Event) (member : e ∈ untraced log) : e.isTrace = false := untracedOwn member
  rw [retraced, retraced]
  generalize untraced log = events at own
  induction events with
  | nil => rfl
  | cons e rest ih =>
    rw [List.flatMap_cons, List.flatMap_cons, annotatedAbridged (own e (.head _)),
      ih fun e member => own e (.tail _ member)]

def traffic (log : List Event) : List (String × Message) := log.filterMap Event.traffic?

def traceTexts (log : List Event) : List String := log.filterMap Event.trace?

theorem traceTextsAppend (past es : List Event) : traceTexts (past ++ es) = traceTexts past ++ traceTexts es :=
  List.filterMap_append

theorem traceTextsTraces (level : Trace) (direction : String) (m : Message) :
    traceTexts (traces level direction m) = traceLines level direction m := by
  have own : Event.trace? ∘ Event.traced = some := rfl
  rw [traceTexts, traces, List.filterMap_map, own, List.filterMap_some]

theorem annotatedTexts (level : Trace) {e : Event} (own : e.isTrace = false) :
    traceTexts (e.annotated level) =
      e.traffic?.toList.flatMap fun (direction, m) => traceLines level direction m := by
  cases e with
  | traced line => cases own
  | wrote m | lost m =>
    simp only [Event.annotated, Event.traffic?, Option.toList_some, List.flatMap_singleton]
    rw [traceTextsAppend, traceTextsTraces]
    exact List.append_nil _
  | heard m =>
    simp only [Event.annotated, Event.traffic?, Option.toList_some, List.flatMap_singleton]
    exact traceTextsTraces level "Received" m
  | shown | ended | spawned | killed | awaits | resolved | called => rfl

theorem retracedTexts (level : Trace) (log : List Event) : traceTexts (retraced level log) =
    (traffic (untraced log)).flatMap fun (direction, m) => traceLines level direction m := by
  have own (e : Event) (member : e ∈ untraced log) : e.isTrace = false := untracedOwn member
  rw [retraced]
  generalize untraced log = events at own
  induction events with
  | nil => rfl
  | cons e rest ih =>
    have here := annotatedTexts level (own e (.head _))
    have later := ih fun e member => own e (.tail _ member)
    have split : traffic (e :: rest) = e.traffic?.toList ++ traffic rest := by
      cases e <;> rfl
    rw [List.flatMap_cons, traceTextsAppend, here, later, split, List.flatMap_append]

theorem plainRetraced (level : Trace) (past : List Event) {e : Event} (plain : e.isPlain = true) :
    retraced level (past ++ [e]) = retraced level past ++ [e] := by
  rw [retracedAppend]
  cases e <;> first | rfl | cases plain

def Veil.tracing (level : Trace) : Veil where
  held := id
  teardown := id
  level := fun _ => level
  log := retraced level
  unread := id
  plain := fun past _ plain => plainRetraced level past plain
  tried := by
    intro past level' m e tried
    rw [retracedAppend, retracedAppend, retracedTraces, List.nil_append]
    rcases tried with rfl | rfl <;> exact congrArg (retraced level past ++ ·) (List.append_nil _)
  heard := by
    intro past level' m
    rw [retracedAppend, ← List.singleton_append, retracedAppend, retracedTraces, List.append_nil]
    exact congrArg (retraced level past ++ ·) (List.append_nil _)

theorem tracingFree (level : Trace) : (Veil.tracing level).Free := ⟨fun _ => rfl, fun _ => rfl⟩

def atLevel (level : Trace) (c : Client) : Client :=
  {c with config := {c.config with trace := level}, log := retraced level c.log}

theorem atLevelVeiled (level : Trace) (c : Client) : c.atLevel level = c.veiled (.tracing level) := by
  simp [atLevel, veiled, Veil.tracing, Server.rereadSame]

variable {config : Config} {nextId : Int} {c : Client}

theorem performAtLevel (level : Trace) (move : Move) (c : Client) :
    (c.atLevel level).perform move = (c.perform move).atLevel level := by
  rw [atLevelVeiled, atLevelVeiled, performVeiled (tracingFree level) fun _ => rfl]

theorem actAtLevel (level : Trace) (a : Act) (c : Client) :
    act a (c.atLevel level) = ((act a c).1.atLevel level, (act a c).2) := by
  rw [atLevelVeiled, atLevelVeiled, actVeiled (tracingFree level) fun _ => rfl]

theorem playAtLevel (level : Trace) (moves : List Move) (c : Client) :
    (c.atLevel level).play moves = (c.play moves).atLevel level := by
  induction moves generalizing c with
  | nil => rfl
  | cons move moves ih =>
    rw [play, List.foldl_cons, performAtLevel]
    exact ih (c.perform move)

end Client
end LspClient
