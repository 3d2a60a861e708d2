import LspClient.Session
import LspClient.Proofs.Client.Rest
import LspClient.Proofs.Client.Asked
import LspClient.Proofs.Client.Veil

/-! Sessions are runs. Each client of a session has come to where it is by moves of its own, of the host and of
its server, and rests after every step; so what holds of all runs holds of every client of every session. -/
namespace LspClient.Client

variable {config : Config} {nextId : Int} {c after : Client}

def Played (c : Client) : Prop := ∃ config nextId moves, c = (new config nextId).play moves

theorem playedOn (played : Played c) (moves : List Move) : Played (c.play moves) := by
  obtain ⟨config, nextId, before, rfl⟩ := played
  exact ⟨config, nextId, before ++ moves, (playAppend _ _ _).symm⟩

theorem askedLater (asked : Asked c after) : c.nextId ≤ after.nextId := by
  cases asked with
  | nothing _ _ next => exact next
  | introduced _ next | opened _ _ _ _ next => exact next ▸ Int.le_of_lt (Int.lt_succ _)
  | heard _ _ _ next | refused _ next | sent _ _ next | unsent _ _ next | stopping _ _ next | stoppingLost _ _ next
  | forestalled _ _ _ _ next | answered _ _ _ _ next | released _ _ next | ended _ next => exact next ▸ Int.le_refl _

theorem playLater (reached : Reached config nextId c.quiet) (moves : List Move) :
    c.nextId ≤ (c.play moves).nextId := by
  induction moves generalizing c with
  | nil => exact Int.le_refl _
  | cons move rest ih =>
    have turn := reachedTurn reached move
    have later := askedLater (reachedAsked reached turn)
    exact Int.le_trans later (ih (.turn reached turn))

theorem playedLater (played : Played c) (moves : List Move) : c.nextId ≤ (c.play moves).nextId := by
  obtain ⟨config, nextId, before, rfl⟩ := played
  exact playLater (playReached config nextId before) moves

theorem renumbered {next : Int} (later : c.nextId ≤ next) :
    ({c with nextId := next} : Client) = c.perform (.elsewhere (next - c.nextId).toNat) := by
  have number : c.nextId + ((next - c.nextId).toNat : Int) = next := by omega
  rw [perform, number]

theorem renumberedPlayed {next : Int} (played : Played c) (later : c.nextId ≤ next) :
    Played ({c with nextId := next} : Client) := by
  rw [renumbered later]
  exact playedOn played [.elsewhere _]

theorem renumberedResting (resting : c.Resting) (next : Int) : ({c with nextId := next} : Client).Resting := by
  obtain ⟨free, told, met, cleaned, taken, begun, answered, finished⟩ := restingStill.mp resting
  have taken := takeNone.mp taken
  exact restingStill.mpr ⟨free, told, met, cleaned, takeNone.mpr taken, begun, answered, finished⟩

theorem actPlayed (a : Act) {next : Int} (played : Played c) (later : c.nextId ≤ next) :
    Played (act a {c with nextId := next}).1 ∧ next ≤ (act a {c with nextId := next}).1.nextId := by
  have renewed := renumberedPlayed played later
  obtain ⟨moves, _, same⟩ := actGoes a {c with nextId := next}
  rw [same]
  exact ⟨playedOn (playedOn renewed [a.move]) moves, playedLater renewed (a.move :: moves)⟩

end LspClient.Client

namespace LspClient.Session
open Client

variable {s t u : Session}

inductive Passes (s : Session) : Session → Prop
  | same : Passes s s
  | acted {t : Session} (passed : Passes s t) (index : Nat) (a : Act) : Passes s (t.actOn index a).1
  | joined {t : Session} (passed : Passes s t) (config : Config) :
      Passes s {t with clients := t.clients ++ [.new config t.nextId]}

theorem passesOn (first : Passes s t) (then' : Passes t u) : Passes s u := by
  induction then' with
  | same => exact first
  | acted _ index a ih => exact .acted ih index a
  | joined _ config ih => exact .joined ih config

theorem startLastActs {c : Client} (last : s.clients.getLast? = some c) :
    s.startLast.1 = (s.actOnLast (.host (.start (s.refused c.config)))).1 := by
  simp only [startLast, last]
  rcases s.actOnLast (.host (.start (s.refused c.config))) with ⟨after, answer⟩
  cases answer with
  | nothing =>
    simp only
    split <;> rfl
  | flag | failed => rfl

theorem actOnLastActs {c : Client} (last : s.clients.getLast? = some c) (a : Act) :
    (s.actOnLast a).1.clients = s.clients.dropLast ++ [(Client.act a {c with nextId := s.nextId}).1] := by
  obtain ⟨rest, same⟩ := List.getLast?_eq_some_iff.mp last
  simp [actOnLast, actOn, same]

theorem startLastJoins (s : Session) (c : Client) : (startLast {s with clients := s.clients ++ [c]}).1.clients =
    s.clients ++ [(Client.act (.host (.start (s.refused c.config))) {c with nextId := s.nextId}).1] := by
  have last : (s.clients ++ [c]).getLast? = some c := List.getLast?_concat
  rw [startLastActs last, actOnLastActs last, List.dropLast_concat]
  rfl

theorem hostCallActs {c : Client} (held : s.held? = some c) (call : Call) : (s.hostCall call).1.clients =
    s.clients.dropLast ++ [(Client.act (.host call) {c with nextId := s.nextId}).1] := by
  obtain ⟨last, _⟩ := Option.filter_eq_some_iff.mp held
  rw [hostCall, withHeld, held]
  exact actOnLastActs last (.host call)

/- A property of sessions that acts on clients and new clients keep. -/
section
variable {P : Session → Prop} (acted : ∀ {t : Session} (index : Nat) (a : Act), P t → P (t.actOn index a).1)
include acted

theorem startLastKeeps (kept : P s) : P s.startLast.1 := by
  cases last : s.clients.getLast? with
  | none =>
    simp only [startLast, last]
    exact kept
  | some c =>
    rw [startLastActs last]
    exact acted _ _ kept

omit acted in
theorem withHeldKeeps {f : Client → Session × Answer} (kept : P s) (each : ∀ c, P (f c).1) :
    P (s.withHeld f).1 := by
  unfold withHeld
  split
  · exact each _
  · exact kept

theorem hostCallKeeps (kept : P s) (call : Call) : P (s.hostCall call).1 :=
  withHeldKeeps kept fun _ => acted _ (.host call) kept

theorem serverActsKeep (kept : P s) (acts : List ServerAct) : P (s.serverActs acts).1 := by
  unfold serverActs
  split
  · exact kept
  · exact List.foldlRecOn acts _ kept fun _ so a _ => acted _ (.server a) so

variable (joined : ∀ {t : Session} {context : Context}, P t → t.origin = .extension context → t.held? = none →
  P {t with clients := t.clients ++ [.new context.config t.nextId]})
include joined

theorem activateKeeps (kept : P s) : P s.activate.1 := by
  unfold activate
  split
  · exact kept
  · rename_i own origin
    split
    · exact kept
    · rename_i free
      exact startLastKeeps acted (joined kept origin (by simpa using free))

theorem actKeeps (kept : P s) (a : Step) : P (s.act a).1 := by
  cases a with
  | start => exact withHeldKeeps kept fun _ => startLastKeeps acted kept
  | activate => exact activateKeeps acted joined kept
  | stop | drop | didOpen | didChange | didClose | pull =>
    simp only [act]
    exact hostCallKeeps acted kept _
  | didOpenPath path text =>
    cases read : TextDocument.ofPath? path text with
    | some d =>
      simp only [act, read]
      exact hostCallKeeps acted kept (.didOpen d)
    | none =>
      simp only [act, read]
      exact withHeldKeeps kept fun _ => kept
  | diagnostics | clearOutput => exact withHeldKeeps kept fun _ => kept
  | snapshot => exact kept
  | serverSends | serverWrites | serverMurmurs | serverEndsOutput | serverExits => exact serverActsKeep acted kept _

end

theorem actPasses (s : Session) (a : Step) : Passes s (s.act a).1 :=
  actKeeps (fun index a passed => .acted passed index a)
    (fun {_ context} passed _ _ => .joined passed context.config) .same a

theorem runPasses (s : Session) (steps : List Step) : Passes s (s.run steps).1 :=
  List.foldlRecOn (motive := fun reached : Session × List Report => Passes s reached.1) steps _ .same
    fun _ passed a _ => passesOn passed (actPasses _ a)

structure Calm (s : Session) : Prop where
  played : ∀ c ∈ s.clients, Played c
  resting : ∀ c ∈ s.clients, c.Resting
  numbers : ∀ c ∈ s.clients, c.nextId ≤ s.nextId

theorem actOnCalm (calm : Calm s) (index : Nat) (a : Act) : Calm (s.actOn index a).1 := by
  unfold actOn
  split
  · exact calm
  · rename_i c own
    have member := List.mem_of_getElem? own
    obtain ⟨played, later⟩ := actPlayed a (calm.played c member) (calm.numbers c member)
    constructor
    · intro d among
      rcases List.mem_or_eq_of_mem_set among with old | new
      · exact calm.played d old
      · exact new ▸ played
    · intro d among
      rcases List.mem_or_eq_of_mem_set among with old | new
      · exact calm.resting d old
      · exact new ▸ actResting a _
    · intro d among
      rcases List.mem_or_eq_of_mem_set among with old | new
      · exact Int.le_trans (calm.numbers d old) later
      · exact new ▸ Int.le_refl _

theorem newPlayed (config : Config) (nextId : Int) : Played (.new config nextId) :=
  ⟨config, nextId, [], rfl⟩

theorem newResting (config : Config) (nextId : Int) : (Client.new config nextId).Resting :=
  restingStill.mpr ⟨rfl, nofun, by simp [Fallow, new], nofun, by simp [takeNone, listening, new], nofun, nofun, nofun⟩

theorem joinedCalm (calm : Calm s) (config : Config) :
    Calm {s with clients := s.clients ++ [.new config s.nextId]} := by
  refine ⟨fun c member => ?_, fun c member => ?_, fun c member => ?_⟩
  all_goals rcases List.mem_append.mp member with old | new
  · exact calm.played c old
  · exact List.mem_singleton.mp new ▸ newPlayed config s.nextId
  · exact calm.resting c old
  · exact List.mem_singleton.mp new ▸ newResting config s.nextId
  · exact calm.numbers c old
  · rw [List.mem_singleton.mp new]
    exact Int.le_refl _

theorem passesCalm (calm : Calm s) (passed : Passes s t) : Calm t := by
  induction passed with
  | same => exact calm
  | acted _ index a ih => exact actOnCalm ih index a
  | joined _ config ih => exact joinedCalm ih config

theorem ofConfigCalm (machine : Machine) (config : Config) (steps : List Step) :
    Calm ((ofConfig machine config).run steps).1 := by
  refine passesCalm ⟨fun c member => ?_, fun c member => ?_, fun c member => ?_⟩ (runPasses _ steps)
  all_goals rw [List.mem_singleton.mp member]
  · exact newPlayed config 1
  · exact newResting config 1
  · exact Int.le_refl _

theorem ofContextCalm (machine : Machine) (context : Context) (steps : List Step) :
    Calm ((ofContext machine context).run steps).1 := by
  refine passesCalm ⟨fun c member => ?_, fun c member => ?_, fun c member => ?_⟩ (runPasses _ steps)
  all_goals exact absurd member List.not_mem_nil

def Grown (s t : Session) : Prop :=
  ∀ (i : Nat) (c : Client), s.clients[i]? = some c →
    ∃ (d : Client) (es : List Event), t.clients[i]? = some d ∧ d.log = c.log ++ es

theorem actGrows (a : Act) (next : Int) (c : Client) :
    ∃ es, (Client.act a {c with nextId := next}).1.log = c.log ++ es := by
  obtain ⟨moves, _, same⟩ := actGoes a {c with nextId := next}
  rw [same]
  exact playGrows (a.move :: moves) {c with nextId := next}

theorem actOnGrown (index : Nat) (a : Act) (s : Session) : Grown s (s.actOn index a).1 := by
  intro i c own
  unfold actOn
  split
  · exact ⟨c, [], own, (List.append_nil _).symm⟩
  · rename_i d there
    by_cases here : index = i
    · subst here
      cases own.symm.trans there
      obtain ⟨es, log⟩ := actGrows a s.nextId c
      have bound : index < s.clients.length := (List.getElem?_eq_some_iff.mp own).1
      exact ⟨_, es, by simp [List.getElem?_set_self bound], log⟩
    · exact ⟨c, [], by simpa [List.getElem?_set_ne here] using own, (List.append_nil _).symm⟩

theorem passesGrown (passed : Passes s t) : Grown s t := by
  induction passed with
  | same => exact fun _ c own => ⟨c, [], own, (List.append_nil _).symm⟩
  | acted _ index a ih =>
    intro i c own
    obtain ⟨d, first, there, log⟩ := ih i c own
    obtain ⟨e, rest, after, log'⟩ := actOnGrown index a _ i d there
    exact ⟨e, first ++ rest, after, by rw [log', log, List.append_assoc]⟩
  | joined _ config ih =>
    intro i c own
    obtain ⟨d, es, there, log⟩ := ih i c own
    have bound := (List.getElem?_eq_some_iff.mp there).1
    exact ⟨d, es, by rw [List.getElem?_append_left bound, there], log⟩

end LspClient.Session
