import LspClient.Proofs.Client.Said

/-! What a turn does to the requests under way: pulls and the request to shut down. A slot is opened first and
the request is written later, so an answer can come in between. Each constructor of `Asked` names what is
added to the log, what is left of the slots, and who is about to write. -/
namespace LspClient

def asked? : Message → Option Int
  | .request id method _ =>
    if method = "textDocument/diagnostic" ∨ method = "shutdown" then some id else none
  | _ => none

def Event.isAside : Event → Bool
  | .wrote m | .lost m => (Client.requestIds [m]).isEmpty
  | .heard (.response ..) | .ended | .awaits .. | .resolved (.pull _) _ | .called (.pull ..) _ => false
  | _ => true

def Awaited.request (id : Int) : Awaited → Message
  | .pull _ uri => Request.diagnostic id uri
  | .shutdown => Request.shutdown id

namespace Client

variable {config : Config} {nextId : Int} {c after : Client}

def Aside (es : List Event) : Prop := ∀ e ∈ es, e.isAside = true

theorem asideNone : Aside [] := by simp [Aside]

theorem asideOne {e : Event} (aside : e.isAside = true) : Aside [e] := by simpa [Aside] using aside

theorem asideStart (outcome : Outcome) : Aside [.resolved .start outcome] := asideOne rfl

theorem asideAppend {first last : List Event} : Aside (first ++ last) ↔ Aside first ∧ Aside last :=
  List.forall_mem_append

def registered (c : Client) : Option Int :=
  match c.teardown with
  | .registered id => some id
  | _ => none

structure Steadfast (c after : Client) : Prop where
  pending : after.router.pending = c.router.pending
  asking : after.asking = c.asking
  registered : after.registered = c.registered

inductive Asked (c after : Client) : Prop where
  | nothing {es} (log : after.log = c.log ++ es) (aside : Aside es) (next : c.nextId ≤ after.nextId)
      (same : Steadfast c after)
  | introduced {e} (log : after.log = c.log ++ [e]) (next : after.nextId = c.nextId + 1)
      (tried : e = .wrote (Request.introduce c.nextId c.config.rootUri introducedAs 0) ∨
        e = .lost (Request.introduce c.nextId c.config.rootUri introducedAs 0))
      (idle : c.asking = none) (free : c.registered = none) (same : Steadfast c after)
  | heard {id result error es} (unknown : c.router.owner? id = none)
      (log : after.log = c.log ++ (.heard (.response id result error) :: es)) (aside : Aside es)
      (next : after.nextId = c.nextId) (same : Steadfast c after)
  | refused {name uri failure} (log : after.log = c.log ++
        [.resolved (.pull name) (.failed failure), .called (.pull name uri) .nothing])
      (next : after.nextId = c.nextId) (same : Steadfast c after)
  | opened {owner} (running : c.phase = .running) (idle : c.asking = none) (free : c.registered = none)
      (log : after.log = c.log ++ [.awaits c.nextId owner]) (next : after.nextId = c.nextId + 1)
      (pending : after.router.pending = if c.router.closed then c.router.pending
        else c.router.pending ++ [(c.nextId, owner)])
      (sends : (∃ name uri, owner = .pull name uri ∧ after.registered = none ∧ after.asking =
          some ⟨c.nextId, name, uri, if c.router.closed then some .abandoned else none⟩) ∨
        owner = .shutdown ∧ after.registered = some c.nextId ∧ after.asking = none)
  | sent {a} (asking : c.asking = some a) (log : after.log = c.log ++
        .wrote (Request.diagnostic a.id a.uri) :: (a.news ++ [.called (.pull a.name a.uri) .nothing]))
      (next : after.nextId = c.nextId) (pending : after.router.pending = c.router.pending)
      (idle : after.asking = none) (registered : after.registered = c.registered)
  | unsent {a failure} (asking : c.asking = some a)
      (log : after.log = c.log ++ [.lost (Request.diagnostic a.id a.uri),
        .resolved (.pull a.name) (.failed failure), .called (.pull a.name a.uri) .nothing])
      (next : after.nextId = c.nextId)
      (pending : after.router.pending = c.router.pending.filter fun slot => slot.1 != a.id)
      (idle : after.asking = none) (registered : after.registered = c.registered)
  | stopping {id} (registered : c.registered = some id)
      (log : after.log = c.log ++ [.wrote (Request.shutdown id)]) (next : after.nextId = c.nextId)
      (pending : after.router.pending = c.router.pending) (asking : after.asking = c.asking)
      (free : after.registered = none)
  | stoppingLost {id} (registered : c.registered = some id)
      (log : after.log = c.log ++ [.lost (Request.shutdown id)]) (next : after.nextId = c.nextId)
      (pending : after.router.pending = c.router.pending.filter fun slot => slot.1 != id)
      (asking : after.asking = c.asking) (free : after.registered = none)
  | forestalled {id result error name uri} (owner : c.router.owner? id = some (.pull name uri))
      (own : c.asks id = true) (log : after.log = c.log ++ [.heard (.response id result error)])
      (store : after.store = keep uri (Router.outcome result error) c.store)
      (next : after.nextId = c.nextId)
      (pending : after.router.pending = c.router.pending.filter fun slot => slot.1 != id)
      (asking : after.asking = (c.forestall (pullOutcome (Router.outcome result error)
        ((after.store.get? uri).getD []))).asking) (registered : after.registered = c.registered)
  | answered {id result error name uri} (owner : c.router.owner? id = some (.pull name uri))
      (apart : c.asks id = false)
      (log : after.log = c.log ++ [.heard (.response id result error), .resolved (.pull name)
        (pullOutcome (Router.outcome result error) ((after.store.get? uri).getD []))])
      (store : after.store = keep uri (Router.outcome result error) c.store)
      (next : after.nextId = c.nextId)
      (pending : after.router.pending = c.router.pending.filter fun slot => slot.1 != id)
      (asking : after.asking = c.asking) (registered : after.registered = c.registered)
  | released {id result error} (owner : c.router.owner? id = some .shutdown)
      (log : after.log = c.log ++ [.heard (.response id result error)]) (next : after.nextId = c.nextId)
      (pending : after.router.pending = c.router.pending.filter fun slot => slot.1 != id)
      (asking : after.asking = c.asking) (registered : after.registered = c.registered)
  | ended (log : after.log = c.log ++ (.ended :: c.forsaken)) (next : after.nextId = c.nextId)
      (pending : after.router.pending = []) (asking : after.asking = c.unheeded)
      (registered : after.registered = c.registered)
      (link : after.link = .closed ∨ ∃ failure, after.link = .failing failure)

-- nothing is asked before the client runs

def Waitless (c : Client) : Prop := c.link = .idle ∨ c.Opening → c.router.pending = []

theorem pumpingLate (link : c.link = .pumping ∨ c.link = .closed) : ¬ (c.link = .idle ∨ c.Opening) := by
  unfold Opening
  rcases link with link | link <;> simp [link]

theorem calledWaitless {call answer} (coherent : Coherent c) (waitless : Waitless c)
    (done : Called c call answer after) : Waitless after := by
  cases done with
  | start fresh => exact fun _ => waitless (.inl (coherent.created fresh).1)
  | _ => exact waitless

theorem waitlessTried {m} (waitless : Waitless c) : Waitless (c.tried m) := by
  rcases triedCases m c with ⟨_, same⟩ | ⟨_, same⟩ <;> exact same ▸ waitless

theorem releasedWaitless {id : Int} (waitless : Waitless c) (router : after.router = (c.router.release id).1)
    (link : after.link = c.link) : Waitless after := by
  intro early
  rw [Opening, link] at early
  simp [router, Router.release, waitless early]

theorem takenWaitless {m} (waitless : Waitless c) (taken : Taken c m after) : Waitless after := by
  cases taken with
  | request => exact waitlessTried waitless
  | pullForestalled => exact releasedWaitless waitless rfl rfl
  | pullAnswered => exact releasedWaitless waitless rfl rfl
  | shutdownAnswered => exact releasedWaitless waitless rfl rfl
  | rejected awaited | tooLate awaited | readyLost awaited =>
    exact fun _ => waitless (.inr (.inr (.inr (.inl ⟨_, awaited⟩))))
  | ready => exact fun early => absurd early (by simp [Opening])
  | _ => exact waitless

theorem turnWaitless (coherent : Coherent c) (waitless : Waitless c) (turn : Turn c after) :
    Waitless after := by
  have late (running : c.phase = .running) : ¬ (c.link = .idle ∨ c.Opening) :=
    pumpingLate (coherent.running running).2.1
  cases turn with
  | host held free done =>
    have kept := calledWaitless coherent waitless done
    exact kept
  | pullOpened held free running | shutdownOpened requested running =>
    exact fun early => absurd early (late running)
  | pullLost | shutdownLost => exact releasedWaitless waitless rfl rfl
  | spawnRefused waiting => exact fun _ => waitless (.inr (.inl ⟨_, waiting⟩))
  | spawned waiting => exact fun _ => waitless (.inr (.inl ⟨_, waiting⟩))
  | orphaned waiting | introduced waiting | introduceLost waiting =>
    exact fun _ => waitless (.inr (.inr (.inl waiting)))
  | lost awaiting => exact fun _ => waitless (.inr (.inr (.inr (.inl ⟨_, awaiting⟩))))
  | @taken s rest m after listening server hearing =>
    exact takenWaitless (c := (c.readOn s rest).note (.heard m)) waitless hearing
  | gaveUp | parted => exact fun _ => rfl
  | exitTold =>
    have kept := waitlessTried (m := Request.exit) waitless
    exact kept
  | _ => exact waitless

theorem reachedWaitless (reached : Reached config nextId c) : Waitless c := by
  induction reached with
  | new => exact fun _ => rfl
  | turn before turn ih => exact turnWaitless (reachedCoherent before) ih turn

-- all turns

theorem asideDeathNote (c : Client) : Aside c.deathNote := everyDeathNote rfl c

theorem unknownNone {id : Int} (empty : c.router.pending = []) : c.router.owner? id = none := by
  simp [Router.owner?, empty]

theorem emptyForsaken (empty : c.router.pending = []) : c.forsaken = [] := by simp [forsaken, empty]

theorem emptyUnheeded (empty : c.router.pending = []) : c.unheeded = c.asking := by simp [unheeded, empty]

theorem calledAsked {call answer} (coherent : Coherent c) (held : c.held = true)
    (done : Called c call answer after) : Asked c (after.note (.called call answer)) := by
  have loose : c.registered = none := by simp [registered, coherent.held held]
  have same : Steadfast c c := ⟨rfl, rfl, rfl⟩
  cases done with
  | pullIdle idle => exact .refused (List.append_assoc _ _ _) rfl ⟨rfl, rfl, rfl⟩
  | stop => exact .nothing rfl (asideOne rfl) (Int.le_refl _) ⟨rfl, rfl, loose.symm⟩
  | start | startAgain | openForeign | openOver | changeUnknown | closeUnknown | openAgain
    | openQueued | changeQueued | closeUnsent | changeOver =>
    exact .nothing rfl (asideOne rfl) (Int.le_refl _) ⟨rfl, rfl, rfl⟩
  | stopUnstarted | stopOver =>
    exact .nothing (List.append_assoc _ _ _) (asideAppend.mpr ⟨asideOne rfl, asideOne rfl⟩) (Int.le_refl _)
      ⟨rfl, rfl, rfl⟩
  | drop =>
    exact .nothing (List.append_assoc _ _ _) (asideAppend.mpr ⟨asideDeathNote c, asideOne rfl⟩)
      (Int.le_refl _) ⟨rfl, rfl, rfl⟩
  | openSent | changeSent | closeSent | openLost | changeLost | closeLost =>
    exact .nothing (List.append_assoc _ _ _) (asideAppend.mpr ⟨asideOne rfl, asideOne rfl⟩) (Int.le_refl _)
      ⟨rfl, rfl, rfl⟩

theorem asideWrote {ms : List Message} (unasked : requestIds ms = []) : Aside (ms.map .wrote) := by
  intro e member
  obtain ⟨m, own, same⟩ := List.mem_map.mp member
  have none : requestIds [m] = [] := by
    rw [requestIds, List.filterMap_eq_nil_iff] at unasked ⊢
    exact fun n only => unasked n (List.mem_singleton.mp only ▸ own)
  simp [← same, Event.isAside, none]

theorem openingNumbers (ds : List TextDocument) :
    requestIds (Request.initialized :: ds.map Request.didOpen) = [] := by
  simp [requestIds, Request.initialized, Request.didOpen]

theorem takenAsked {m} {s : Server} {rest} (waitless : Waitless c)
    (taken : Taken ((c.readOn s rest).note (.heard m)) m after) : Asked c after := by
  have empty {id : Int} (awaited : c.link = .handshake id) : c.router.pending = [] :=
    waitless (.inr (.inr (.inr (.inl ⟨_, awaited⟩))))
  cases taken with
  | @request id method params =>
    have reply : (requestIds [Router.replyTo id method params]).isEmpty = true := by
      obtain ⟨result, error, same⟩ := replyResponse id method params
      rw [same]
      rfl
    rcases triedCases (Router.replyTo id method params)
      ((c.readOn s rest).note (.heard (.request id method params))) with ⟨_, same⟩ | ⟨_, same⟩ <;>
    · rw [same]
      exact .nothing (List.append_assoc _ [_] [_])
        (asideAppend.mpr ⟨asideOne rfl, asideOne reply⟩) (Int.le_refl _) ⟨rfl, rfl, rfl⟩
  | published | other =>
    exact .nothing (heardLog s rest _ c) (asideOne rfl) (Int.le_refl _) ⟨rfl, rfl, rfl⟩
  | unasked foreign unknown => exact .heard unknown (heardLog s rest _ c) asideNone rfl ⟨rfl, rfl, rfl⟩
  | pullForestalled foreign owner own =>
    exact .forestalled owner own (heardLog s rest _ c) rfl rfl rfl rfl rfl
  | pullAnswered foreign owner apart =>
    exact .answered owner apart (List.append_assoc _ _ _) rfl rfl rfl rfl rfl
  | shutdownAnswered foreign owner => exact .released owner (heardLog s rest _ c) rfl rfl rfl rfl
  | rejected awaited =>
    exact .heard (unknownNone (empty awaited)) (heardLog s rest _ c) asideNone rfl ⟨rfl, rfl, rfl⟩
  | tooLate awaited =>
    exact .heard (unknownNone (empty awaited)) (heardLog s rest _ c) asideNone rfl ⟨rfl, rfl, rfl⟩
  | @readyLost id result failure first m rest' awaited starting clear split =>
    have whole := (congrArg requestIds split).symm.trans (openingNumbers c.queued)
    rw [ requestIds, List.filterMap_append, List.append_eq_nil_iff, ← List.singleton_append,
      List.filterMap_append, List.append_eq_nil_iff] at whole
    have lost : Aside [.lost m] := asideOne (List.isEmpty_iff.mpr whole.2.1)
    exact .heard (unknownNone (empty awaited)) (openedLog s rest _ c _ _)
      (asideAppend.mpr ⟨asideWrote whole.1, lost⟩) rfl ⟨rfl, rfl, rfl⟩
  | @ready id result awaited starting clear =>
    exact .heard (unknownNone (empty awaited)) (openedLog s rest _ c _ _)
      (asideAppend.mpr ⟨asideWrote (openingNumbers c.queued), asideStart _⟩) rfl ⟨rfl, rfl, rfl⟩

theorem turnAsked (coherent : Coherent c) (waitless : Waitless c) (turn : Turn c after) : Asked c after := by
  have loose (teardown : c.teardown = .none ∨ c.teardown = .requested) : c.registered = none := by
    rcases teardown with own | own <;> simp [registered, own]
  have busy (requested : c.teardown = .requested) (held : c.held = true) : False :=
    nomatch requested.symm.trans (coherent.held held)
  cases turn with
  | host held free done => exact calledAsked coherent held done
  | taken listening server hearing => exact takenAsked waitless hearing
  | idle | skipped | served => exact .nothing (List.append_nil _).symm asideNone (Int.le_refl _) ⟨rfl, rfl, rfl⟩
  | elsewhere =>
    exact .nothing (List.append_nil _).symm asideNone (Int.le_add_of_nonneg_right (by omega)) ⟨rfl, rfl, rfl⟩
  | spawned => exact .nothing rfl (asideOne rfl) (Int.le_refl _) ⟨rfl, rfl, rfl⟩
  | stopVoid requested =>
    exact .nothing rfl (asideOne rfl) (Int.le_refl _) ⟨rfl, rfl, (loose (.inr requested)).symm⟩
  | finished waiting =>
    have free : c.registered = none := by simp [registered, waiting]
    exact .nothing rfl (asideOne rfl) (Int.le_refl _) ⟨rfl, rfl, free.symm⟩
  | exitUntold waiting =>
    have free : c.registered = none := by simp [registered, waiting]
    exact .nothing (List.append_nil _).symm asideNone (Int.le_refl _) ⟨rfl, rfl, free.symm⟩
  | exitTold waiting =>
    have free : c.registered = none := by simp [registered, waiting]
    rcases triedCases Request.exit c with ⟨_, same⟩ | ⟨_, same⟩ <;>
    · rw [same]
      exact .nothing rfl (asideOne rfl) (Int.le_refl _) ⟨rfl, rfl, free.symm⟩
  | pullOpened held free running listening =>
    have teardown := loose (.inl (coherent.held held))
    exact .opened running free teardown rfl rfl (by simp [listening]) (.inl ⟨_, _, rfl, teardown, by simp [listening]⟩)
  | pullShut held free running closed =>
    have teardown := loose (.inl (coherent.held held))
    exact .opened running free teardown rfl rfl (by simp [closed]) (.inl ⟨_, _, rfl, teardown, by simp [closed]⟩)
  | shutdownOpened requested running listening =>
    have free := unaskedLoose coherent (Bool.eq_false_iff.mpr fun held => busy requested held)
    exact .opened running free (loose (.inr requested)) rfl rfl (by simp [listening]) (.inr ⟨rfl, rfl, free⟩)
  | shutdownShut requested running closed =>
    have free := unaskedLoose coherent (Bool.eq_false_iff.mpr fun held => busy requested held)
    exact .opened running free (loose (.inr requested)) rfl rfl (by simp [closed]) (.inr ⟨rfl, rfl, free⟩)
  | pullSent asking => exact .sent asking rfl rfl rfl rfl rfl
  | pullLost asking => exact .unsent asking rfl rfl rfl rfl rfl
  | shutdownSent registered => exact .stopping (by simp [Client.registered, registered]) rfl rfl rfl rfl rfl
  | shutdownLost registered => exact .stoppingLost (by simp [Client.registered, registered]) rfl rfl rfl rfl rfl
  | spawnRefused => exact .nothing (List.append_nil _).symm asideNone (Int.le_refl _) ⟨rfl, rfl, rfl⟩
  | orphaned => exact .nothing rfl (asideDeathNote _) (nextLater c) ⟨rfl, rfl, rfl⟩
  | introduced waiting =>
    have opening : c.Opening := .inr (.inl waiting)
    exact .introduced rfl rfl (.inl rfl) (openingUnasked coherent opening)
      (loose (openingUnstopped coherent opening)) ⟨rfl, rfl, rfl⟩
  | introduceLost waiting =>
    have opening : c.Opening := .inr (.inl waiting)
    exact .introduced rfl rfl (.inr rfl) (openingUnasked coherent opening)
      (loose (openingUnstopped coherent opening)) ⟨rfl, rfl, rfl⟩
  | @gaveUp failure failing =>
    have empty := waitless (.inr (.inr (.inr (.inr ⟨_, failing⟩))))
    have aside : Aside (c.failureNotes failure) := by
      rw [failureNotes, emptyForsaken empty]
      exact asideAppend.mpr ⟨asideNone, asideAppend.mpr ⟨asideDeathNote c, asideStart _⟩⟩
    exact .nothing (failureLog failure c) aside (Int.le_refl _) ⟨empty.symm, emptyUnheeded empty, rfl⟩
  | lost awaiting =>
    have empty := waitless (.inr (.inr (.inr (.inl ⟨_, awaiting⟩))))
    exact .ended (by rw [emptyForsaken empty]; rfl) rfl empty (emptyUnheeded empty).symm rfl (.inr ⟨_, rfl⟩)
  | parted pumping => exact .ended (List.append_assoc _ _ _) rfl rfl rfl rfl (.inl rfl)

theorem reachedAsked (reached : Reached config nextId c) (turn : Turn c after) : Asked c after :=
  turnAsked (reachedCoherent reached) (reachedWaitless reached) turn

end Client
end LspClient
