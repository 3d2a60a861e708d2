import Mathlib.Data.List.Induction
import LspClient.Proofs.Client.Intake
import LspClient.Proofs.Client.Traced
import LspClient.Proofs.Session

/-! Sessions at each level of tracing. A session asks its clients for nothing that tracing changes, so it takes the
same course at every level. -/
namespace LspClient
open Client

def Origin.atLevel (level : Trace) : Origin → Origin
  | .client => .client
  | .extension context => .extension {context with trace := level}

namespace Session

variable {s t : Session}

def atLevel (level : Trace) (s : Session) : Session :=
  {s with origin := s.origin.atLevel level, clients := s.clients.map (Client.atLevel level)}

def Report.atLevel (level : Trace) (r : Report) : Report := {r with events := retraced level r.events}

theorem actOnAtLevel (level : Trace) (index : Nat) (a : Client.Act) (s : Session) :
    (s.atLevel level).actOn index a = ((s.actOn index a).1.atLevel level, (s.actOn index a).2) := by
  have there : (s.atLevel level).clients[index]? = (s.clients[index]?).map (Client.atLevel level) :=
    List.getElem?_map
  unfold actOn
  rw [there]
  cases s.clients[index]? with
  | none => rfl
  | some c =>
    have acted := actAtLevel level a {c with nextId := s.nextId}
    simp only [Option.map_some]
    rw [show ({c.atLevel level with nextId := (s.atLevel level).nextId} : Client) =
      ({c with nextId := s.nextId} : Client).atLevel level from rfl, acted]
    simp only [atLevel, List.map_set]
    rfl

theorem actOnLastAtLevel (level : Trace) (a : Client.Act) (s : Session) :
    (s.atLevel level).actOnLast a = ((s.actOnLast a).1.atLevel level, (s.actOnLast a).2) := by
  have length : (s.atLevel level).clients.length = s.clients.length := List.length_map _
  rw [actOnLast, length, actOnAtLevel]
  rfl

theorem lastAtLevel (level : Trace) (s : Session) :
    (s.atLevel level).clients.getLast? = s.clients.getLast?.map (Client.atLevel level) := List.getLast?_map

theorem heldAtLevel (level : Trace) (s : Session) : (s.atLevel level).held? = s.held?.map (Client.atLevel level) := by
  rw [held?, lastAtLevel, Option.filter_map]
  rfl

theorem servedAtLevel (level : Trace) (s : Session) : (s.atLevel level).served? = s.served? := by
  have length : (s.atLevel level).clients.length = s.clients.length := List.length_map _
  have same (i : Nat) : ((s.atLevel level).clients[i]?).bind (·.server) = (s.clients[i]?).bind (·.server) := by
    rw [show (s.atLevel level).clients[i]? = (s.clients[i]?).map (Client.atLevel level) from List.getElem?_map]
    cases s.clients[i]? <;> rfl
  simp only [served?, length, same]

theorem startLastAtLevel (level : Trace) (s : Session) :
    (s.atLevel level).startLast = (s.startLast.1.atLevel level, s.startLast.2) := by
  unfold startLast
  rw [lastAtLevel]
  cases s.clients.getLast? with
  | none => rfl
  | some c =>
    have refused : (s.atLevel level).refused (c.atLevel level).config = s.refused c.config := rfl
    have launched (s : Session) : ((s.atLevel level).clients.getLast?.bind (·.server)).isSome =
        (s.clients.getLast?.bind (·.server)).isSome := by
      rw [lastAtLevel]
      cases s.clients.getLast? <;> rfl
    simp only [Option.map_some, refused, actOnLastAtLevel]
    rcases s.actOnLast (.host (.start (s.refused c.config))) with ⟨after, answer⟩
    cases answer with
    | nothing =>
      simp only [launched]
      split <;> rfl
    | flag | failed => rfl

theorem withHeldAtLevel (level : Trace) {f g : Client → Session × Answer} (s : Session)
    (each : ∀ c, g (c.atLevel level) = ((f c).1.atLevel level, (f c).2)) :
    (s.atLevel level).withHeld g = ((s.withHeld f).1.atLevel level, (s.withHeld f).2) := by
  unfold withHeld
  rw [heldAtLevel]
  cases s.held? with
  | none => rfl
  | some c => exact each c

theorem hostCallAtLevel (level : Trace) (call : Call) (s : Session) :
    (s.atLevel level).hostCall call = ((s.hostCall call).1.atLevel level, (s.hostCall call).2) :=
  withHeldAtLevel level s fun _ => by rw [actOnLastAtLevel]

theorem serverActsAtLevel (level : Trace) (acts : List ServerAct) (s : Session) :
    (s.atLevel level).serverActs acts = ((s.serverActs acts).1.atLevel level, (s.serverActs acts).2) := by
  unfold serverActs
  rw [servedAtLevel]
  cases s.served? with
  | none => rfl
  | some i =>
    simp only [Prod.mk.injEq, and_true]
    induction acts generalizing s with
    | nil => rfl
    | cons a acts ih =>
      rw [List.foldl_cons, List.foldl_cons, actOnAtLevel]
      exact ih (s.actOn i (.server a)).1

theorem activateAtLevel (level : Trace) (s : Session) :
    (s.atLevel level).activate = (s.activate.1.atLevel level, s.activate.2) := by
  rcases s with ⟨origin, machine, clients, nextId⟩
  cases origin with
  | client => rfl
  | extension context =>
    let session : Session := ⟨.extension context, machine, clients, nextId⟩
    let joined : Session := {session with clients := clients ++ [.new context.config nextId]}
    have held : (session.atLevel level).held?.isSome = session.held?.isSome := by
      rw [heldAtLevel, Option.isSome_map]
    have same : ({session.atLevel level with clients := clients.map (Client.atLevel level) ++
        [.new ({context with trace := level} : Context).config nextId]} : Session) = joined.atLevel level := by
      simp only [joined, atLevel, List.map_append]
      rfl
    have own : session.activate = if session.held?.isSome then (session, .failed .alreadyActive)
        else joined.startLast := rfl
    have other : (session.atLevel level).activate = if (session.atLevel level).held?.isSome then
        (session.atLevel level, .failed .alreadyActive) else (joined.atLevel level).startLast := by
      rw [← same]
      rfl
    rw [other, own, held, startLastAtLevel]
    split <;> rfl

theorem actAtLevel (level : Trace) (a : Step) (s : Session) :
    (s.atLevel level).act a = ((s.act a).1.atLevel level, (s.act a).2) := by
  cases a with
  | start => exact withHeldAtLevel level s fun _ => startLastAtLevel level s
  | activate => exact activateAtLevel level s
  | stop | drop | didOpen | didChange | didClose | pull =>
    simp only [act]
    exact hostCallAtLevel level _ s
  | didOpenPath path text =>
    cases read : TextDocument.ofPath? path text with
    | some d =>
      simp only [act, read]
      exact hostCallAtLevel level (.didOpen d) s
    | none =>
      simp only [act, read]
      exact withHeldAtLevel level s fun _ => rfl
  | diagnostics | clearOutput => exact withHeldAtLevel level s fun _ => rfl
  | snapshot => rfl
  | serverSends | serverWrites | serverMurmurs | serverEndsOutput | serverExits =>
    exact serverActsAtLevel level _ s

theorem addedAtLevel (level : Trace) (grown : Grown s t) :
    (s.atLevel level).added (t.atLevel level) = retraced level (s.added t) := by
  have flat (logs : List (List Event)) : retraced level logs.flatten = (logs.map (retraced level)).flatten := by
    induction logs with
    | nil => rfl
    | cons log logs ih => rw [List.flatten_cons, retracedAppend, ih, List.map_cons, List.flatten_cons]
  rw [added, added, flat]
  congr 1
  refine List.ext_getElem? fun i => ?_
  simp only [atLevel, List.getElem?_mapIdx, List.getElem?_map, Option.map_map]
  cases own : s.clients[i]? with
  | none =>
    cases t.clients[i]? <;> rfl
  | some c =>
    obtain ⟨d, es, there, log⟩ := grown i c own
    simp only [there, Option.map_some, Function.comp_apply, Option.getD_some, Client.atLevel, log, retracedAppend,
      List.drop_left]

theorem stepAtLevel (level : Trace) (a : Step) (s : Session) :
    (s.atLevel level).step a = ((s.step a).1.atLevel level, (s.step a).2.atLevel level) := by
  have held : ((s.act a).1.atLevel level).held?.map (·.phase) = (s.act a).1.held?.map (·.phase) := by
    rw [heldAtLevel, Option.map_map]
    rfl
  have added := addedAtLevel level (passesGrown (actPasses s a))
  simp only [step, actAtLevel, held, added]
  rfl

theorem runAtLevel (level : Trace) (steps : List Step) (s : Session) :
    (s.atLevel level).run steps = ((s.run steps).1.atLevel level, (s.run steps).2.map (Report.atLevel level)) := by
  induction steps using List.reverseRecOn with
  | nil => rfl
  | append_singleton steps a ih =>
    simp only [run, List.foldl_append, List.foldl_cons, List.foldl_nil] at ih ⊢
    rw [ih]
    simp only [stepAtLevel, List.map_append, List.map_cons, List.map_nil]

end Session

namespace Client

variable {config : Config} {nextId : Int} {c : Client}

theorem deedsUntraced {d : Client} (same : untraced d.log = c.log) : d.deeds = c.deeds := by
  rw [deeds, deeds, ← same, untraced, List.filter_filter]
  refine List.filter_congr fun e _ => ?_
  cases e <;> rfl

theorem playedBodies (played : Played c) : ∃ config nextId moves bodies, c = (new config nextId).play moves ∧
    bodies <+: Frame.texts c.growing ((new config nextId).speech moves) ∧
    hearings c.log = bodies.filterMap Message.parse? := by
  obtain ⟨config, nextId, moves, rfl⟩ := played
  obtain ⟨⟨bodies, heard, frames⟩, _⟩ := newAccounts config nextId moves
  have now := frames [] _ (expectsNothing ((new config nextId).play moves).quiet)
  rw [List.append_nil, List.append_nil] at now
  refine ⟨config, nextId, moves, bodies, rfl, ?_, (hearingsDeeds _).symm.trans heard⟩
  exact ⟨_, now.symm⟩

structure Retold (c : Client) : Prop where
  off : c.atLevel .off = c
  untraced : ∀ level, untraced (c.atLevel level).log = c.log
  deeds : ∀ level, (c.atLevel level).deeds = c.deeds
  abridged : (c.atLevel .messages).log = abridged (c.atLevel .verbose).log
  traced : traceTexts (c.atLevel .verbose).log =
    (traffic c.log).flatMap fun (direction, m) => ["[Trace] " ++ direction ++ " " ++ traceTarget m, m.body]
  -- a body that is no message is not heard, so it is not traced either
  heard : ∃ config nextId moves bodies, c = (new config nextId).play moves ∧
    bodies <+: Frame.texts c.growing ((new config nextId).speech moves) ∧
    hearings c.log = bodies.filterMap Message.parse?

theorem retoldOff (played : Played c) (off : c.atLevel .off = c) : Retold c := by
  have same (level : Trace) : Client.untraced (c.atLevel level).log = c.log :=
    calc Client.untraced (retraced level c.log)
      _ = retraced .off c.log := by rw [untracedRetraced, retracedOff]
      _ = c.log := congrArg Client.log off
  exact {
    off := off
    untraced := same
    deeds := fun level => deedsUntraced (same level)
    abridged := (retracedAbridged c.log).symm
    traced := by
      have own : Client.untraced c.log = c.log := (retracedOff c.log).symm.trans (congrArg Client.log off)
      have lines := retracedTexts .verbose c.log
      rwa [own] at lines
    heard := playedBodies played }

end Client

namespace Session

structure Retold (run : Trace → Session × List Report) : Prop where
  clients : ∀ c ∈ (run .off).1.clients, c.Retold
  -- only the level itself and the trace lines in the logs differ
  same : ∀ level, (run level).1.clients = (run .off).1.clients.map (Client.atLevel level)
  reports : ∀ level, (run level).2 = (run .off).2.map (Report.atLevel level)

theorem retoldRuns (start : Trace → Session) (alike : ∀ level, start level = (start .off).atLevel level)
    (played : ∀ steps, Calm ((start .off).run steps).1) (steps : List Step) :
    Retold fun level => (start level).run steps := by
  have runs (level : Trace) : (start level).run steps = (((start .off).run steps).1.atLevel level,
      ((start .off).run steps).2.map (Report.atLevel level)) := by
    rw [alike level, runAtLevel]
  refine ⟨fun c member => ?_, fun level => ?_, fun level => ?_⟩
  · have off : ((start .off).run steps).1.clients.map (Client.atLevel .off) =
        ((start .off).run steps).1.clients.map id := by
      have same := congrArg (fun run => run.1.clients) (runs .off)
      rw [List.map_id]
      exact same.symm
    exact retoldOff ((played steps).played c member) (List.map_inj_left.mp off c member)
  · rw [runs level]
    rfl
  · rw [runs level]

/-- Tracing changes nothing but the lines it adds: in every run of a client, moves in any order, and in every
session of a configured client or of an extension. -/
structure TracesOnly : Prop where
  runs : ∀ (config : Config) (nextId : Int) (moves : List Move) (level : Trace),
    (new {config with trace := level} nextId).play moves =
      ((new {config with trace := .off} nextId).play moves).atLevel level
  untraced : ∀ (config : Config) (nextId : Int) (moves : List Move),
    ((new {config with trace := .off} nextId).play moves).Retold
  sessions : ∀ (machine : Machine) (config : Config) (steps : List Step),
    Retold fun level => (ofConfig machine {config with trace := level}).run steps
  extensions : ∀ (machine : Machine) (context : Context) (steps : List Step),
    Retold fun level => (ofContext machine {context with trace := level}).run steps

theorem tracesOnly : TracesOnly where
  runs config nextId moves level := playAtLevel level moves (new {config with trace := .off} nextId)
  untraced config nextId moves :=
    retoldOff ⟨_, _, _, rfl⟩ (playAtLevel .off moves (new {config with trace := .off} nextId)).symm
  sessions machine config :=
    retoldRuns (fun level => ofConfig machine {config with trace := level}) (fun _ => rfl)
      (ofConfigCalm machine {config with trace := .off})
  extensions machine context :=
    retoldRuns (fun level => ofContext machine {context with trace := level}) (fun _ => rfl)
      (ofContextCalm machine {context with trace := .off})

end Session
end LspClient
