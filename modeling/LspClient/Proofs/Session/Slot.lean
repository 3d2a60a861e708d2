import LspClient.Proofs.Session.Orphan

/-! The one client that a context holds. A new client waits until the old one was let go of, but not until its server
is gone: that takes as long as the stop does. -/
namespace LspClient

namespace Client

variable {config : Config} {nextId : Int} {c after : Client}

def LetGo (log : List Event) : Prop := .called .stop .nothing ∈ log ∨ .called .drop .nothing ∈ log

theorem turnReleases (turn : Turn c after) (free : after.held = false) : c.held = false ∨ LetGo after.log := by
  cases turn with
  | host held free' done =>
    cases done with
    | stopUnstarted | stopOver | stop => exact .inr (.inl (by simp [note]))
    | drop => exact .inr (.inr (by simp [note]))
    | _ => exact .inl free
  | taken listening server hearing =>
    cases hearing with
    | request =>
      rw [triedSame Client.held _ _ rfl rfl] at free
      exact .inl free
    | _ => exact .inl free
  | exitTold =>
    have free := (triedSame Client.held Request.exit c rfl rfl).symm.trans free
    exact .inl free
  | _ => exact .inl free

theorem reachedLetGo (reached : Reached config nextId c) (free : c.held = false) : LetGo c.log := by
  induction reached with
  | new => cases free
  | turn before turn ih =>
    obtain ⟨es, log⟩ := askedLog (reachedAsked before turn)
    rcases turnReleases turn free with earlier | now
    · rw [log]
      exact (ih earlier).imp (List.mem_append_left es) (List.mem_append_left es)
    · exact now

def Leaving (c : Client) : Prop := .called .stop .nothing ∈ c.deeds ∧ ∀ outcome, .resolved .stop outcome ∉ c.deeds

def Falling (c : Client) : Prop := .called .drop .nothing ∈ c.deeds ∧ ¬ c.Resting

theorem liveLeaving (played : Played c) (living : c.exited = false) (free : c.held = false) : c.Leaving ∨ c.Falling := by
  obtain ⟨config, nextId, moves, rfl⟩ := played
  have reached := playReached config nextId moves
  have own := orphanless config nextId moves
  generalize (new config nextId).play moves = c at *
  have gone (past : ∀ more, (c.play more).exited = true) : False := nomatch living.symm.trans (past [])
  rcases reachedLetGo (c := c.quiet) reached free with stopped | dropped
  · exact .inl ⟨stopped, fun outcome member => gone (own.stopped outcome member)⟩
  · exact .inr ⟨dropped, fun resting => gone (own.dropped dropped resting)⟩

theorem playedHeld (played : Played c) (move : Move) (held : (c.perform move).held = true) : c.held = true := by
  obtain ⟨config, nextId, before, rfl⟩ := played
  refine Decidable.byContradiction fun free => ?_
  cases held.symm.trans (heldLater (playReached config nextId before) (by simpa using free) move)

theorem unheldPlay (reached : Reached config nextId c.quiet) (free : c.held = false) (moves : List Move) :
    (c.play moves).held = false := by
  induction moves generalizing c with
  | nil => exact free
  | cons move moves ih => exact ih (performReached reached move) (heldLater reached free move)

end Client

namespace Session
open Client

variable {context : Context} {cs : List Client}

inductive Hosted (context : Context) : List Client → Prop where
  | none : Hosted context []
  | activated {cs : List Client} (before : Hosted context cs) (free : ∀ c ∈ cs, c.held = false) (nextId : Int) :
      Hosted context (cs ++ [new context.config nextId])
  | moved {cs : List Client} {i : Nat} {c : Client} (before : Hosted context cs) (own : cs[i]? = some c) (move : Move) :
      Hosted context (cs.set i (c.perform move))

structure Tenancy (cs : List Client) : Prop where
  slot : ∀ (i : Nat) (c : Client), cs[i]? = some c → c.held = true → i + 1 = cs.length
  -- a server that runs without it is about to go
  leaving : ∀ c ∈ cs, c.exited = false → c.held = true ∨ c.Leaving ∨ c.Falling
  -- where none is, there is one server at most
  single : (∀ c ∈ cs, ¬ c.Leaving ∧ ¬ c.Falling) → ∀ (i j : Nat) (c d : Client), cs[i]? = some c → cs[j]? = some d →
    c.exited = false → d.exited = false → i = j

theorem hostedPlayed (hosted : Hosted context cs) : ∀ c ∈ cs, Played c := by
  induction hosted with
  | none => exact List.forall_mem_nil _
  | activated before free nextId ih =>
    exact List.forall_mem_append.mpr ⟨ih, List.forall_mem_singleton.mpr (newPlayed context.config nextId)⟩
  | moved before own move ih =>
    intro d member
    rcases List.mem_or_eq_of_mem_set member with old | rfl
    · exact ih d old
    · exact playedOn (ih _ (List.mem_of_getElem? own)) [move]

theorem hostedSlot (hosted : Hosted context cs) : ∀ (i : Nat) (c : Client), cs[i]? = some c →
    c.held = true → i + 1 = cs.length := by
  induction hosted with
  | none => exact fun i c own => nomatch own
  | @activated cs before free nextId ih =>
    intro i c own held
    rcases Nat.lt_or_ge i cs.length with old | new
    · rw [List.getElem?_append_left old] at own
      cases held.symm.trans (free c (List.mem_of_getElem? own))
    · have bound := (List.getElem?_eq_some_iff.mp own).1
      rw [List.length_append, List.length_singleton] at bound ⊢
      omega
  | @moved cs i c before own move ih =>
    intro j d own' held
    rw [List.length_set]
    by_cases same : i = j
    · subst same
      have bound := (List.getElem?_eq_some_iff.mp own).1
      rw [List.getElem?_set_self bound] at own'
      cases own'
      exact ih i c own (playedHeld (hostedPlayed before c (List.mem_of_getElem? own)) move held)
    · rw [List.getElem?_set_ne same] at own'
      exact ih j d own' held

theorem hostedTenancy (hosted : Hosted context cs) : Tenancy cs := by
  have slot := hostedSlot hosted
  have leaving (c : Client) (member : c ∈ cs) (living : c.exited = false) : c.held = true ∨ c.Leaving ∨ c.Falling := by
    cases held : c.held with
    | true => exact .inl rfl
    | false => exact .inr (liveLeaving (hostedPlayed hosted c member) living held)
  refine ⟨slot, leaving, fun settled i j c d own own' living living' => ?_⟩
  have held {i : Nat} {c : Client} (own : cs[i]? = some c) (living : c.exited = false) : c.held = true := by
    have member := List.mem_of_getElem? own
    obtain ⟨staying, standing⟩ := settled c member
    exact (leaving c member living).resolve_right fun parting => parting.elim staying standing
  have first := slot i c own (held own living)
  have second := slot j d own' (held own' living')
  omega

theorem hostedPlay {i : Nat} {c : Client} (hosted : Hosted context cs) (own : cs[i]? = some c) (moves : List Move) :
    Hosted context (cs.set i (c.play moves)) := by
  induction moves generalizing cs c with
  | nil =>
    obtain ⟨bound, rfl⟩ := List.getElem?_eq_some_iff.mp own
    rwa [Client.play, List.foldl_nil, List.set_getElem_self]
  | cons move moves ih =>
    have bound := (List.getElem?_eq_some_iff.mp own).1
    have next := ih (hosted.moved own move) (List.getElem?_set_self bound)
    rwa [List.set_set] at next

structure Houses (context : Context) (s : Session) : Prop where
  origin : s.origin = .extension context
  hosted : Hosted context s.clients
  numbers : ∀ c ∈ s.clients, c.nextId ≤ s.nextId

variable {s : Session}

theorem actMoves {c : Client} {next : Int} (later : c.nextId ≤ next) (a : Act) :
    ∃ moves, (Client.act a {c with nextId := next}).1 = c.play (.elsewhere (next - c.nextId).toNat :: a.move :: moves) := by
  obtain ⟨moves, _, same⟩ := actGoes a {c with nextId := next}
  refine ⟨moves, ?_⟩
  rw [same, renumbered later]
  rfl

theorem actOnHouses (houses : Houses context s) (index : Nat) (a : Act) : Houses context (s.actOn index a).1 := by
  unfold actOn
  split
  · exact houses
  · rename_i c own
    have member := List.mem_of_getElem? own
    have later := houses.numbers c member
    obtain ⟨_, grown⟩ := actPlayed a (hostedPlayed houses.hosted c member) later
    obtain ⟨moves, same⟩ := actMoves later a
    refine ⟨houses.origin, ?_, fun d among => ?_⟩
    · have next := hostedPlay houses.hosted own (.elsewhere (s.nextId - c.nextId).toNat :: a.move :: moves)
      rwa [← same] at next
    · rcases List.mem_or_eq_of_mem_set among with old | rfl
      · exact Int.le_trans (houses.numbers d old) grown
      · exact Int.le_refl _

theorem slotFree (houses : Houses context s) (none : s.held? = none) : ∀ c ∈ s.clients, c.held = false := by
  intro c member
  cases held : c.held with
  | false => rfl
  | true =>
    obtain ⟨i, bound, own⟩ := List.getElem_of_mem member
    have own := List.getElem?_eq_some_iff.mpr ⟨bound, own⟩
    have last := hostedSlot houses.hosted i c own held
    have same : s.clients.getLast? = some c := by
      rw [List.getLast?_eq_getElem?, ← last, Nat.add_sub_cancel, own]
    simp [held?, same, held] at none

theorem joinedHouses {own : Context} (houses : Houses context s) (origin : s.origin = .extension own)
    (none : s.held? = none) : Houses context {s with clients := s.clients ++ [.new own.config s.nextId]} := by
  cases origin.symm.trans houses.origin
  refine ⟨houses.origin, houses.hosted.activated (slotFree houses none) s.nextId, ?_⟩
  exact List.forall_mem_append.mpr ⟨houses.numbers, List.forall_mem_singleton.mpr (Int.le_refl _)⟩

theorem runHouses (machine : Machine) (context : Context) (steps : List Step) :
    Houses context ((ofContext machine context).run steps).1 :=
  List.foldlRecOn (motive := fun reached : Session × List Report => Houses context reached.1) steps _
    ⟨rfl, .none, List.forall_mem_nil _⟩ fun _ houses a _ =>
      actKeeps (P := Houses context) (fun index a houses => actOnHouses houses index a) joinedHouses houses a

theorem heldSlot (s : Session) {c : Client} (member : c ∈ s.clients) (held : c.held = true)
    (houses : Houses context s) : s.held?.isSome = true := by
  cases slot : s.held? with
  | none => cases held.symm.trans (slotFree houses slot c member)
  | some => rfl

structure Guarded (context : Context) : Prop where
  tenancy : ∀ cs, Hosted context cs → Tenancy cs
  sessions : ∀ machine steps, Houses context ((ofContext machine context).run steps).1 ∧
    ∀ c ∈ ((ofContext machine context).run steps).1.clients, c.asking = none
  refused : ∀ s, Houses context s → (∃ c ∈ s.clients, c.held = true) → s.act .activate = (s, .failed .alreadyActive)
  accepted : ∀ s, Houses context s → (∀ c ∈ s.clients, c.held = false) →
    ∃ c : Client, (s.act .activate).1.clients = s.clients ++ [c]
  -- to deactivate lets go of the client at once, and no other is held
  released : ∀ s, Houses context s → (∀ c ∈ s.clients, c.asking = none) →
    ∀ c ∈ (s.act .stop).1.clients, c.held = false

theorem stopReleases {c : Client} (played : Played c) (free : c.asking = none) {next : Int} (later : c.nextId ≤ next) :
    (Client.act (.host .stop) {c with nextId := next}).1.held = false := by
  obtain ⟨moves, _, same⟩ := actGoes (.host .stop) {c with nextId := next}
  have stopped : ({c with nextId := next} : Client).stop.held = false := by
    unfold Client.stop
    dsimp only
    split <;> rfl
  have gone : (({c with nextId := next} : Client).hostCall .stop).1.held = false := by
    unfold Client.hostCall
    split
    · dsimp only [Client.called]
      split <;> exact stopped
    · rename_i unheld
      simpa [free] using unheld
  obtain ⟨config, nextId, before, own⟩ := renumberedPlayed played later
  have reached : Reached config nextId ({c with nextId := next} : Client).quiet :=
    own ▸ playReached config nextId before
  rw [same]
  exact unheldPlay (performReached reached (.host .stop)) gone moves

theorem guarded (context : Context) : Guarded context where
  tenancy cs := hostedTenancy
  sessions machine steps := ⟨runHouses machine context steps, fun c member =>
    (restingStill.mp ((ofContextCalm machine context steps).resting c member)).free⟩
  refused s houses := by
    rintro ⟨c, member, held⟩
    have occupied := heldSlot _ member held houses
    simp only [act, activate, houses.origin, occupied, if_true]
  accepted s houses free := by
    have none : s.held?.isSome = false := by
      cases last : s.clients.getLast? with
      | none => simp [held?, last]
      | some c => simp [held?, last, free c (List.mem_of_getLast? last)]
    have joins := startLastJoins s (.new context.config s.nextId)
    exact ⟨_, by simpa only [act, activate, houses.origin, none, Bool.false_eq_true, if_false] using joins⟩
  released s houses free := by
    cases slot : s.held? with
    | none =>
      have same : (s.act .stop).1 = s := by simp only [act, hostCall, withHeld, slot]
      rw [same]
      exact slotFree houses slot
    | some c =>
      obtain ⟨last, _⟩ := Option.filter_eq_some_iff.mp slot
      have member := List.mem_of_getLast? last
      obtain ⟨rest, whole⟩ := List.getLast?_eq_some_iff.mp last
      have stops : (s.act .stop).1.clients = _ := hostCallActs slot .stop
      rw [stops, whole, List.dropLast_concat]
      refine List.forall_mem_append.mpr ⟨fun d early => ?_, List.forall_mem_singleton.mpr ?_⟩
      · refine Bool.eq_false_iff.mpr fun held => ?_
        obtain ⟨i, bound, own⟩ := List.getElem_of_mem early
        have own' : s.clients[i]? = some d := by
          rw [whole, List.getElem?_append_left bound]
          exact List.getElem?_eq_some_iff.mpr ⟨bound, own⟩
        have count := hostedSlot houses.hosted i d own' held
        rw [whole, List.length_append, List.length_singleton] at count
        omega
      · exact stopReleases (hostedPlayed houses.hosted c member) (free c member) (houses.numbers c member)

def sampleContext : Context := ⟨Utf8.ofString "/ext", .other, false, none, .off⟩

def sampleMachine : Machine := ⟨[(["ext", "server", "lustrels"], .program "server")], []⟩

def crowded : Session := ((ofContext sampleMachine sampleContext).run [.activate, .stop, .activate]).1

theorem crowdedLive : crowded.clients.map (·.exited) = [false, false] ∧
    crowded.clients.map (·.phase) = [.starting, .starting] ∧
    crowded.clients.map (·.deeds.filter (· = .spawned [])) = [[.spawned []], [.spawned []]] := by
  decide +kernel

end Session
end LspClient
