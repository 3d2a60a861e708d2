import LspClient.Proofs.Split
import LspClient.Proofs.Client.Asked

/-! The requests that the router waits for. A slot is there from when it was opened until it is used up, as
long as the server's output has not ended, and its request is written or about to be. -/
namespace LspClient

def Event.frees (id : Int) : Event → Bool
  | .heard (.response own _ _) => own == id
  | .lost m => asked? m == some id
  | _ => false

namespace Router
variable {κ : Type}

theorem ownerAppend (ids : List (Int × κ)) (closed : Bool) (slot : Int × κ) (id : Int) :
    (⟨ids ++ [slot], closed⟩ : Router κ).owner? id =
      ((⟨ids, closed⟩ : Router κ).owner? id).or (if id = slot.1 then some slot.2 else none) := by
  obtain ⟨own, owner⟩ := slot
  simp only [owner?, List.lookup_append]
  congr 1
  by_cases same : id = own
  · simp [same]
  · have other : (id == own) = false := by simpa using same
    simp [List.lookup_cons, same, other]

theorem ownerFilter (ids : List (Int × κ)) (closed : Bool) (gone id : Int) :
    (⟨ids.filter fun slot => slot.1 != gone, closed⟩ : Router κ).owner? id =
      if id = gone then none else (⟨ids, closed⟩ : Router κ).owner? id := by
  simp only [owner?]
  induction ids with
  | nil => simp
  | cons slot rest ih =>
    obtain ⟨own, owner⟩ := slot
    rw [List.filter_cons]
    by_cases kept : own = gone
    · rw [if_neg (by simp [kept]), ih]
      by_cases same : id = gone
      · simp [same]
      · have other : (id == own) = false := by simpa [kept] using same
        simp [same, List.lookup_cons, other]
    · rw [if_pos (by simpa using kept)]
      by_cases same : id = own
      · simp [same, kept]
      · have other : (id == own) = false := by simpa using same
        simp [List.lookup_cons, other, ih]

end Router

namespace Client

variable {config : Config} {nextId : Int} {c after : Client}

-- one more event

def Unheard (id : Int) (log : List Event) : Prop :=
  ∀ result error, .heard (.response id result error) ∉ log

theorem unheardAppend {id : Int} {log es : List Event} :
    Unheard id (log ++ es) ↔ Unheard id log ∧ Unheard id es := by
  simp only [Unheard, List.mem_append, not_or, forall_and]

/-- A slot was opened and not used up since, and the transport has not closed. -/
def Awaits (log : List Event) (id : Int) (owner : Awaited) : Prop :=
  .ended ∉ log ∧ ∃ before rest,
    log = before ++ .awaits id owner :: rest ∧ ∀ e ∈ rest, e.frees id = false

theorem awaitsLast {log : List Event} {e : Event} {id : Int} {owner : Awaited} :
    Awaits (log ++ [e]) id owner ↔ e ≠ .ended ∧
      (Awaits log id owner ∧ e.frees id = false ∨ .ended ∉ log ∧ e = .awaits id owner) := by
  constructor
  · rintro ⟨open', before, rest, split, kept⟩
    rw [List.mem_append, not_or] at open'
    refine ⟨fun same => open'.2 (by simp [same]), ?_⟩
    rcases splitLast split with ⟨_, _, same⟩ | ⟨short, same, earlier⟩
    · exact .inr ⟨open'.1, same.symm⟩
    · rw [same, List.forall_mem_append] at kept
      exact .inl ⟨⟨open'.1, before, short, earlier, kept.1⟩, kept.2 e (List.mem_singleton.mpr rfl)⟩
  · rintro ⟨other, ⟨⟨open', before, rest, split, kept⟩, last⟩ | ⟨open', same⟩⟩
    · refine ⟨by simpa [open'] using Ne.symm other, before, rest ++ [e], by simp [split], ?_⟩
      exact List.forall_mem_append.mpr ⟨kept, by simpa using last⟩
    · exact ⟨by simpa [open'] using Ne.symm other, log, [], by rw [same], nofun⟩

def Neutral (es : List Event) : Prop :=
  ∀ e ∈ es, e ≠ .ended ∧ (∀ id, e.frees id = false) ∧ ∀ id owner, e ≠ .awaits id owner

theorem awaitsNeutral {log es : List Event} {id : Int} {owner : Awaited} (neutral : Neutral es) :
    Awaits (log ++ es) id owner ↔ Awaits log id owner := by
  induction es generalizing log with
  | nil => rw [List.append_nil]
  | cons e rest ih =>
    obtain ⟨⟨other, kept, older⟩, neutral⟩ := List.forall_mem_cons.mp neutral
    rw [← List.singleton_append, ← List.append_assoc, ih neutral, awaitsLast]
    constructor
    · rintro ⟨_, ⟨awaits, _⟩ | ⟨_, same⟩⟩
      · exact awaits
      · exact absurd same (older id owner)
    · exact fun awaits => ⟨other, .inl ⟨awaits, kept id⟩⟩

theorem neutralNone : Neutral [] := by simp [Neutral]

theorem asideNeutral {es : List Event} (aside : Aside es) : Neutral es := by
  intro e member
  have quiet := aside e member
  refine ⟨fun same => ?_, fun id => ?_, fun id owner same => ?_⟩
  · simp [same, Event.isAside] at quiet
  · unfold Event.frees
    split
    · simp [Event.isAside] at quiet
    · rename_i m
      cases m <;> simp_all [Event.isAside, requestIds, asked?]
    · rfl
  · simp [same, Event.isAside] at quiet

theorem neutralSettled (name uri : String) (outcome : Outcome) :
    Neutral [.resolved (.pull name) outcome, .called (.pull name uri) .nothing] := by
  simp [Neutral, Event.frees]

theorem neutralNews (a : Pull) : Neutral (a.news ++ [.called (.pull a.name a.uri) .nothing]) := by
  rw [Pull.news]
  cases a.early <;> simp [Neutral, Event.frees]

theorem neutralWrote (m : Message) {es : List Event} (neutral : Neutral es) : Neutral (.wrote m :: es) :=
  List.forall_mem_cons.mpr ⟨⟨nofun, fun _ => rfl, nofun⟩, neutral⟩

theorem awaitsFreed {log es : List Event} {e : Event} {id gone : Int} {owner : Awaited} (other : e ≠ .ended)
    (older : ∀ owner, e ≠ .awaits id owner) (frees : e.frees id = (gone == id)) (neutral : Neutral es) :
    Awaits (log ++ e :: es) id owner ↔ Awaits log id owner ∧ id ≠ gone := by
  have kept : e.frees id = false ↔ id ≠ gone := by rw [frees, beq_eq_false_iff_ne, ne_comm]
  rw [← List.singleton_append, ← List.append_assoc, awaitsNeutral neutral, awaitsLast, kept]
  constructor
  · rintro ⟨_, old | ⟨_, same⟩⟩
    · exact old
    · exact absurd same (older owner)
  · exact fun old => ⟨other, .inl old⟩

theorem awaitsHeard {log es : List Event} {id gone : Int} {owner : Awaited} {result error} (neutral : Neutral es) :
    Awaits (log ++ .heard (.response gone result error) :: es) id owner ↔ Awaits log id owner ∧ id ≠ gone :=
  awaitsFreed nofun nofun rfl neutral

theorem awaitsLost {log es : List Event} {id gone : Int} {owner : Awaited} {m : Message}
    (asks : asked? m = some gone) (neutral : Neutral es) :
    Awaits (log ++ .lost m :: es) id owner ↔ Awaits log id owner ∧ id ≠ gone :=
  awaitsFreed nofun nofun (by simp [Event.frees, asks]) neutral

theorem awaitsEnded {log : List Event} {id : Int} {owner : Awaited} (ended : .ended ∈ log) :
    ¬ Awaits log id owner := fun awaits => awaits.1 ended

-- the end of the output

def Deafened (c : Client) : Prop := c.link = .closed ∨ ∃ failure, c.link = .failing failure

structure Closing (c : Client) : Prop where
  ended : .ended ∈ c.log → c.Deafened
  closed : c.link = .closed → c.phase = .stopped ∨ .ended ∈ c.log

theorem neutralOpen {es : List Event} (neutral : Neutral es) : .ended ∉ es :=
  fun member => (neutral _ member).1 rfl

theorem askedEnded (asked : Asked c after) (ended : .ended ∈ after.log) :
    .ended ∈ c.log ∨ after.Deafened := by
  have old {es : List Event} (log : after.log = c.log ++ es) (neutral : .ended ∉ es) : .ended ∈ c.log :=
    (List.mem_append.mp (log ▸ ended)).resolve_right neutral
  cases asked with
  | ended log next pending asking registered link => exact .inr link
  | nothing log aside => exact .inl (old log (neutralOpen (asideNeutral aside)))
  | heard unknown log aside =>
    exact .inl (old log (by simp [neutralOpen (asideNeutral aside)]))
  | introduced log next tried => exact .inl (old log (by rcases tried with rfl | rfl <;> simp))
  | sent asking log => exact .inl (old log (neutralOpen (neutralWrote _ (neutralNews _))))
  | refused log | opened running idle free log | unsent asking log | stopping registered log
    | stoppingLost registered log | forestalled owner own log | answered owner apart log
    | released owner log => exact .inl (old log (by simp))

theorem turnStopped (stopped : c.phase = .stopped) (turn : Turn c after) : after.phase = .stopped := by
  cases turn with
  | host held free done => cases done <;> simp_all [note]
  | @taken s rest m after listening server hearing =>
    cases hearing with
    | request => exact (triedPhase _ _).trans stopped
    | ready awaited starting => simp [note, readOn, stopped] at starting
    | _ => exact stopped
  | exitTold => exact (triedPhase _ _).trans stopped
  | gaveUp | finished => rfl
  | shutdownOpened requested running | shutdownShut requested running => simp [stopped] at running
  | _ => exact stopped

theorem turnClosed (coherent : Coherent c) (closed : c.link = .closed) (turn : Turn c after) :
    after.link = .closed := by
  cases turn with
  | host held free done =>
    cases done with
    | start fresh => simp [(coherent.created fresh).1] at closed
    | _ => exact closed
  | taken listening => simp [Client.listening, closed] at listening
  | exitTold => exact (triedLink _ _).trans closed
  | spawnRefused waiting | spawned waiting | orphaned waiting | introduced waiting | introduceLost waiting
    | lost waiting => simp [waiting] at closed
  | gaveUp | parted => rfl
  | _ => exact closed

theorem turnFailing {failure} (coherent : Coherent c) (failing : c.link = .failing failure)
    (turn : Turn c after) : after.link = .failing failure ∨ after = c.startFailed failure := by
  cases turn with
  | host held free done =>
    cases done with
    | start fresh => simp [(coherent.created fresh).1] at failing
    | _ => exact .inl failing
  | taken listening => simp [Client.listening, failing] at listening
  | exitTold => exact .inl ((triedLink _ _).trans failing)
  | spawnRefused waiting | spawned waiting | orphaned waiting | introduced waiting | introduceLost waiting
    | lost waiting | parted waiting => simp [waiting] at failing
  | gaveUp own =>
    cases own.symm.trans failing
    exact .inr rfl
  | _ => exact .inl failing

theorem turnDeafened (coherent : Coherent c) (shut : c.Deafened) (turn : Turn c after) : after.Deafened := by
  rcases shut with closed | ⟨failure, failing⟩
  · exact .inl (turnClosed coherent closed turn)
  · rcases turnFailing coherent failing turn with still | failed
    · exact .inr ⟨failure, still⟩
    · exact .inl (congrArg Client.link failed)

theorem turnCloses (turn : Turn c after) (closed : after.link = .closed) :
    c.link = .closed ∨ after.phase = .stopped ∨ .ended ∈ after.log := by
  cases turn with
  | host held free done => cases done <;> simp_all [note, told, bereft]
  | @taken s rest m after listening server hearing =>
    cases hearing with
    | request => exact .inl ((triedLink _ ((c.readOn s rest).note _)).symm.trans closed)
    | rejected | tooLate | readyLost | ready => simp at closed
    | _ => exact .inl closed
  | exitTold => exact .inl ((triedLink _ _).symm.trans closed)
  | spawnRefused | spawned | orphaned | introduced | introduceLost | lost => simp at closed
  | gaveUp => exact .inr (.inl rfl)
  | parted => exact .inr (.inr (by simp [note, unrouted]))
  | _ => exact .inl closed

theorem askedLog (asked : Asked c after) : ∃ es, after.log = c.log ++ es := by
  cases asked <;> exact ⟨_, ‹_›⟩

theorem reachedClosing (reached : Reached config nextId c) : Closing c := by
  induction reached with
  | new => exact ⟨nofun, nofun⟩
  | @turn c after before turn ih =>
    have asked := reachedAsked before turn
    constructor
    · intro ended
      rcases askedEnded asked ended with old | now
      · exact turnDeafened (reachedCoherent before) (ih.ended old) turn
      · exact now
    · intro closed
      obtain ⟨es, log⟩ := askedLog asked
      rcases turnCloses turn closed with old | past | ended
      · rcases ih.closed old with stopped | ended
        · exact .inl (turnStopped stopped turn)
        · exact .inr (by simp [log, ended])
      · exact .inl past
      · exact .inr ended

theorem runningEnded (reached : Reached config nextId c) (running : c.phase = .running)
    (closed : c.router.closed = true) : .ended ∈ c.log :=
  ((reachedClosing reached).closed ((reachedCoherent reached).closed.mp closed)).resolve_left
    (by simp [running])

theorem pumpingUnended (reached : Reached config nextId c) (pumping : c.link = .pumping) : .ended ∉ c.log := by
  intro ended
  rcases (reachedClosing reached).ended ended with closed | ⟨failure, failing⟩
  · exact nomatch pumping.symm.trans closed
  · exact nomatch pumping.symm.trans failing

theorem runningUnended (reached : Reached config nextId c) (running : c.phase = .running)
    (listening : c.router.closed ≠ true) : .ended ∉ c.log := by
  have coherent := reachedCoherent reached
  refine pumpingUnended reached ((coherent.running running).2.1.resolve_right fun closed => ?_)
  exact listening (coherent.closed.mpr closed)

-- slots

theorem ownerSame (pending : after.router.pending = c.router.pending) (id : Int) :
    after.router.owner? id = c.router.owner? id := by
  rw [Router.owner?, pending, Router.owner?]

theorem ownerAdded {slot : Int × Awaited} (pending : after.router.pending = c.router.pending ++ [slot])
    (id : Int) : after.router.owner? id =
      (c.router.owner? id).or (if id = slot.1 then some slot.2 else none) := by
  rw [Router.owner?, pending]
  exact Router.ownerAppend c.router.pending c.router.closed slot id

theorem ownerGone {gone : Int}
    (pending : after.router.pending = c.router.pending.filter fun slot => slot.1 != gone) (id : Int) :
    after.router.owner? id = if id = gone then none else c.router.owner? id := by
  rw [Router.owner?, pending]
  exact Router.ownerFilter c.router.pending c.router.closed gone id

theorem addedOwner {slot : Int × Awaited} (pending : after.router.pending = c.router.pending ++ [slot])
    (unknown : c.router.owner? slot.1 = none) {id : Int} {owner : Awaited}
    (owns : after.router.owner? id = some owner) : id = slot.1 ∧ owner = slot.2 ∨ c.router.owner? id = some owner := by
  rw [ownerAdded pending] at owns
  by_cases same : id = slot.1
  · refine .inl ⟨same, ?_⟩
    simpa [same, unknown, eq_comm] using owns
  · exact .inr (by simpa [same] using owns)

theorem stayedOwner {gone : Int}
    (pending : after.router.pending = c.router.pending.filter fun slot => slot.1 != gone) {id : Int}
    {owner : Awaited} (owns : after.router.owner? id = some owner) : id ≠ gone ∧ c.router.owner? id = some owner := by
  rw [ownerGone pending] at owns
  by_cases same : id = gone
  · simp [same] at owns
  · exact ⟨same, by simpa [same] using owns⟩

theorem askedAwaits (reached : Reached config nextId c) (asked : Asked c after)
    (slots : ∀ id owner, c.router.owner? id = some owner ↔ Awaits c.log id owner) (id : Int) (owner : Awaited) :
    after.router.owner? id = some owner ↔ Awaits after.log id owner := by
  have freed {gone : Int}
      (pending : after.router.pending = c.router.pending.filter fun slot => slot.1 != gone) :
      after.router.owner? id = some owner ↔ Awaits c.log id owner ∧ id ≠ gone := by
    rw [ownerGone pending, ← slots]
    by_cases same : id = gone <;> simp [same]
  cases asked with
  | nothing log aside next same =>
    rw [ownerSame same.pending, log, awaitsNeutral (asideNeutral aside), slots]
  | introduced log next tried idle free same =>
    have neutral : Neutral [.wrote (Request.introduce c.nextId c.config.rootUri introducedAs 0)] ∧
        Neutral [.lost (Request.introduce c.nextId c.config.rootUri introducedAs 0)] := by
      simp [Neutral, Event.frees, asked?, Request.introduce]
    rw [ownerSame same.pending, log, slots]
    rcases tried with rfl | rfl
    · rw [awaitsNeutral neutral.1]
    · rw [awaitsNeutral neutral.2]
  | @heard answered result error es unknown log aside next same =>
    rw [ownerSame same.pending, log, awaitsHeard (asideNeutral aside), ← slots]
    constructor
    · intro known
      refine ⟨known, fun same => ?_⟩
      simp [same, unknown] at known
    · exact And.left
  | refused log next same =>
    rw [ownerSame same.pending, log, awaitsNeutral (neutralSettled _ _ _), slots]
  | opened running idle free log next pending =>
    rw [log, awaitsLast]
    by_cases closed : c.router.closed = true
    -- what is asked for after the output has ended is never there
    · have ended := runningEnded reached running closed
      rw [if_pos closed] at pending
      rw [ownerSame pending, slots]
      simp [awaitsEnded ended, ended]
    · have open' := runningUnended reached running closed
      have unknown := unknownNext (reachedFresh reached)
      rw [if_neg closed] at pending
      rw [ownerAdded pending, ← slots]
      by_cases same : id = c.nextId
      · simp [same, unknown, open', Event.frees, eq_comm]
      · simp [same, open', Event.frees, Ne.symm same]
  | sent asking log next pending =>
    rw [ownerSame pending, log, awaitsNeutral (neutralWrote _ (neutralNews _)), slots]
  | unsent asking log next pending =>
    rw [freed pending, log, awaitsLost rfl (neutralSettled _ _ _)]
  | stopping registered log next pending =>
    rw [ownerSame pending, log, awaitsNeutral (neutralWrote _ neutralNone), slots]
  | stoppingLost registered log next pending =>
    rw [freed pending, log, awaitsLost rfl neutralNone]
  | forestalled _ own log store next pending =>
    rw [freed pending, log, awaitsHeard neutralNone]
  | answered _ apart log store next pending =>
    have neutral (name : String) (outcome : Outcome) : Neutral [.resolved (.pull name) outcome] := by
      simp [Neutral, Event.frees]
    rw [freed pending, log, awaitsHeard (neutral _ _)]
  | released _ log next pending =>
    rw [freed pending, log, awaitsHeard neutralNone]
  | ended log next pending =>
    have empty : after.router.owner? id = none := by simp [Router.owner?, pending]
    exact iff_of_false (by simp [empty]) (awaitsEnded (by simp [log]))

theorem reachedAwaits (reached : Reached config nextId c) (id : Int) (owner : Awaited) :
    c.router.owner? id = some owner ↔ Awaits c.log id owner := by
  induction reached generalizing id owner with
  | new => simp [new, Router.empty, Router.owner?, Awaits]
  | turn before turn ih => exact askedAwaits before (reachedAsked before turn) ih id owner

-- who is about to write

theorem asksIff {id : Int} : c.asks id = true ↔ ∃ a, c.asking = some a ∧ a.id = id := by
  cases asking : c.asking <;> simp [asks, asking]

theorem asksSame (asking : after.asking = c.asking) (id : Int) : after.asks id = c.asks id := by
  rw [asks, asking, asks]

theorem unasksIdle (idle : c.asking = none) (id : Int) : c.asks id = false := by simp [asks, idle]

theorem forestallSame (outcome : Outcome) (asking : after.asking = (c.forestall outcome).asking) (id : Int) :
    after.asks id = c.asks id := by
  rw [asks, asking, asks, forestall]
  cases c.asking <;> rfl

theorem heedless {a : Pull} (asking : c.asking = some a) (free : c.router.owner? a.id = none) :
    c.unheeded = c.asking := by
  rw [unheeded, if_neg]
  intro waits
  obtain ⟨slot, member, asks⟩ := List.any_eq_true.mp waits
  obtain ⟨b, own, same⟩ := asksIff.mp asks
  cases asking.symm.trans own
  have other := List.lookup_eq_none_iff.mp free slot member
  simp [same] at other

/-- A slot belongs to what is about to be written under its number, or the request was written. A pull that
was told its outcome early has no slot any more. -/
structure Sending (c : Client) : Prop where
  pull : ∀ a, c.asking = some a → ∀ owner, c.router.owner? a.id = some owner → owner = .pull a.name a.uri
  early : ∀ a, c.asking = some a → (a.early = none ↔ (c.router.owner? a.id).isSome = true)
  shutdown : ∀ id, c.registered = some id → ∀ owner, c.router.owner? id = some owner → owner = .shutdown
  written : ∀ id owner, c.router.owner? id = some owner →
    c.asks id = true ∨ c.registered = some id ∨ .wrote (owner.request id) ∈ c.log

theorem sendingSame {es : List Event} (sending : Sending c) (log : after.log = c.log ++ es)
    (pending : after.router.pending = c.router.pending) (asking : after.asking = c.asking)
    (registered : after.registered = c.registered) : Sending after := by
  have owner := ownerSame pending
  constructor
  · exact fun a own => owner a.id ▸ sending.pull a (asking ▸ own)
  · exact fun a own => owner a.id ▸ sending.early a (asking ▸ own)
  · exact fun id own => owner id ▸ sending.shutdown id (registered ▸ own)
  · intro id who known
    rw [asksSame asking, registered, log, List.mem_append]
    exact (sending.written id who (owner id ▸ known)).imp_right (.imp_right .inl)

theorem sendingGone {es : List Event} {gone : Int} (sending : Sending c) (log : after.log = c.log ++ es)
    (pending : after.router.pending = c.router.pending.filter fun slot => slot.1 != gone)
    (asking : after.asking = c.asking) (registered : after.registered = c.registered)
    (other : ∀ a, c.asking = some a → a.id ≠ gone) : Sending after := by
  constructor
  · exact fun a own who known => sending.pull a (asking ▸ own) who (stayedOwner pending known).2
  · intro a own
    rw [ownerGone pending, if_neg (other a (asking ▸ own))]
    exact sending.early a (asking ▸ own)
  · exact fun id own who known => sending.shutdown id (registered ▸ own) who (stayedOwner pending known).2
  · intro id who known
    rw [asksSame asking, registered, log, List.mem_append]
    exact (sending.written id who (stayedOwner pending known).2).imp_right (.imp_right .inl)

theorem sendingOpened {owner : Awaited} (sending : Sending c) (fresh : c.Fresh) (idle : c.asking = none)
    (free : c.registered = none) (log : after.log = c.log ++ [.awaits c.nextId owner])
    (pending : after.router.pending = if c.router.closed then c.router.pending
      else c.router.pending ++ [(c.nextId, owner)])
    (sends : (∃ name uri, owner = .pull name uri ∧ after.registered = none ∧ after.asking =
        some ⟨c.nextId, name, uri, if c.router.closed then some .abandoned else none⟩) ∨
      owner = .shutdown ∧ after.registered = some c.nextId ∧ after.asking = none) : Sending after := by
  have unknown := unknownNext fresh
  have known (id : Int) (who : Awaited) (owns : after.router.owner? id = some who) :
      id = c.nextId ∧ who = owner ∨ c.router.owner? id = some who := by
    by_cases closed : c.router.closed = true
    · rw [if_pos closed] at pending
      exact .inr (ownerSame pending id ▸ owns)
    · rw [if_neg closed] at pending
      exact addedOwner pending unknown owns
  have next (who : Awaited) (owns : after.router.owner? c.nextId = some who) : who = owner := by
    rcases known c.nextId who owns with ⟨_, same⟩ | old
    · exact same
    · simp [unknown] at old
  have early : (after.router.owner? c.nextId).isSome = true ↔ ¬ c.router.closed = true := by
    by_cases closed : c.router.closed = true
    · rw [if_pos closed] at pending
      simp [ownerSame pending, unknown, closed]
    · rw [if_neg closed] at pending
      simp [ownerAdded pending, closed]
  have written (id : Int) (who : Awaited) (owns : after.router.owner? id = some who) :
      id = c.nextId ∨ .wrote (who.request id) ∈ after.log := by
    refine (known id who owns).imp And.left fun old => ?_
    rw [log]
    have wrote := sending.written id who old
    rw [unasksIdle idle, free] at wrote
    exact List.mem_append_left _ (by simpa using wrote)
  rcases sends with ⟨name, uri, rfl, loose, asking⟩ | ⟨rfl, registered, asking⟩
  · refine ⟨fun a own who owns => ?_, fun a own => ?_, fun id own => ?_, fun id who owns => ?_⟩
    · cases asking.symm.trans own
      exact next who owns
    · cases asking.symm.trans own
      rw [early]
      by_cases closed : c.router.closed = true <;> simp [closed]
    · exact nomatch loose.symm.trans own
    · exact (written id who owns).imp (fun same => asksIff.mpr ⟨_, asking, same.symm⟩) .inr
  · refine ⟨fun a own => ?_, fun a own => ?_, fun id own who owns => ?_, fun id who owns => ?_⟩
    · exact nomatch asking.symm.trans own
    · exact nomatch asking.symm.trans own
    · cases registered.symm.trans own
      exact next who owns
    · rcases written id who owns with rfl | wrote
      · exact .inr (.inl registered)
      · exact .inr (.inr wrote)

theorem askingUnregistered (coherent : Coherent c) {a : Pull} (asking : c.asking = some a) :
    c.registered = none := by
  simp [registered, coherent.held (coherent.asking (by simp [asking])).2]

theorem registeredUnasked (coherent : Coherent c) {id : Int} (registered : c.registered = some id) :
    c.asking = none := by
  cases asking : c.asking with
  | none => rfl
  | some a => exact nomatch registered.symm.trans (askingUnregistered coherent asking)

theorem sendingReturned {a : Pull} {es : List Event} (sending : Sending c) (asking : c.asking = some a)
    (idle : after.asking = none) (registered : after.registered = c.registered) (log : after.log = c.log ++ es)
    (fewer : ∀ id who, after.router.owner? id = some who → c.router.owner? id = some who)
    (tried : after.router.owner? a.id = none ∨ .wrote (Request.diagnostic a.id a.uri) ∈ es) : Sending after := by
  refine ⟨fun b own => ?_, fun b own => ?_, fun id own who known => ?_, fun id who known => .inr ?_⟩
  · cases idle.symm.trans own
  · cases idle.symm.trans own
  · exact sending.shutdown id (registered ▸ own) who (fewer id who known)
  · have before := fewer id who known
    rw [registered, log]
    rcases sending.written id who before with asks | rest
    · obtain ⟨b, own, rfl⟩ := asksIff.mp asks
      cases asking.symm.trans own
      rcases tried with gone | wrote
      · simp [gone] at known
      · rw [sending.pull a asking who before]
        exact .inr (List.mem_append_right _ wrote)
    · exact rest.imp_right (List.mem_append_left _)

theorem sendingStopped {gone : Int} {es : List Event} (sending : Sending c) (idle : c.asking = none)
    (registered : c.registered = some gone) (asking : after.asking = c.asking) (free : after.registered = none)
    (log : after.log = c.log ++ es)
    (fewer : ∀ id who, after.router.owner? id = some who → c.router.owner? id = some who)
    (tried : after.router.owner? gone = none ∨ .wrote (Request.shutdown gone) ∈ es) : Sending after := by
  have unasked := asking.trans idle
  refine ⟨fun a own => ?_, fun a own => ?_, fun id own => ?_, fun id who known => .inr (.inr ?_)⟩
  · cases unasked.symm.trans own
  · cases unasked.symm.trans own
  · cases free.symm.trans own
  · have before := fewer id who known
    rw [log, List.mem_append]
    rcases sending.written id who before with asks | own | wrote
    · rw [unasksIdle idle] at asks
      cases asks
    · cases registered.symm.trans own
      rcases tried with none | wrote
      · simp [none] at known
      · rw [sending.shutdown gone registered who before]
        exact .inr wrote
    · exact .inl wrote

theorem sendingForestalled {a : Pull} {outcome : Outcome} {es : List Event} (sending : Sending c)
    (asked : c.asking = some a) (asking : after.asking = (c.forestall outcome).asking)
    (registered : after.registered = c.registered) (log : after.log = c.log ++ es)
    (pending : after.router.pending = c.router.pending.filter fun slot => slot.1 != a.id) : Sending after := by
  have told : after.asking = some {a with early := some outcome} := by rw [asking, forestall, asked]; rfl
  refine ⟨fun b own who known => ?_, fun b own => ?_, fun id own who known => ?_, fun id who known => ?_⟩
  · cases told.symm.trans own
    exact absurd rfl (stayedOwner pending known).1
  · cases told.symm.trans own
    simp [ownerGone pending]
  · exact sending.shutdown id (registered ▸ own) who (stayedOwner pending known).2
  · rw [forestallSame _ asking, registered, log, List.mem_append]
    exact (sending.written id who (stayedOwner pending known).2).imp_right (.imp_right .inl)

theorem unheededEarly {a : Pull} (sending : Sending c) (own : c.unheeded = some a) : a.early ≠ none := by
  intro early
  cases asks : c.asking with
  | none => simp [unheeded, forestall, asks] at own
  | some b =>
    by_cases waits : (c.router.pending.any fun slot => c.asks slot.1) = true
    · simp only [unheeded, waits, if_true, forestall, asks, Option.map_some, Option.some.injEq] at own
      simp [← own] at early
    · rw [unheeded, if_neg waits, asks, Option.some.injEq] at own
      have slot := (sending.early b asks).mp (own ▸ early)
      obtain ⟨owner, known⟩ := Option.isSome_iff_exists.mp slot
      obtain ⟨first, rest, split, _⟩ := List.lookup_eq_some_iff.mp known
      exact waits (List.any_eq_true.mpr ⟨(b.id, owner), splitMember split, asksIff.mpr ⟨b, asks, rfl⟩⟩)

theorem sendingEnded (sending : Sending c) (pending : after.router.pending = [])
    (asking : after.asking = c.unheeded) : Sending after := by
  have empty (id : Int) : after.router.owner? id = none := by simp [Router.owner?, pending]
  refine ⟨fun a own who known => ?_, fun a own => ?_, fun id own who known => ?_, fun id who known => ?_⟩
  · simp [empty] at known
  · simp [empty, unheededEarly sending (asking ▸ own)]
  · simp [empty] at known
  · simp [empty] at known

theorem askedSending (reached : Reached config nextId c) (sending : Sending c) (asked : Asked c after) :
    Sending after := by
  cases asked with
  | nothing log aside next same => exact sendingSame sending log same.pending same.asking same.registered
  | introduced log next tried idle free same => exact sendingSame sending log same.pending same.asking same.registered
  | heard unknown log aside next same =>
    exact sendingSame sending log same.pending same.asking same.registered
  | refused log next same => exact sendingSame sending log same.pending same.asking same.registered
  | opened running idle free log next pending sends =>
    exact sendingOpened sending (reachedFresh reached) idle free log pending sends
  | sent asking log next pending idle registered =>
    exact sendingReturned sending asking idle registered log (fun id _ known => ownerSame pending id ▸ known)
      (.inr List.mem_cons_self)
  | unsent asking log next pending idle registered =>
    exact sendingReturned sending asking idle registered log (fun _ _ known => (stayedOwner pending known).2)
      (.inl (by simp [ownerGone pending]))
  | stopping registered log next pending asking free =>
    have idle := registeredUnasked (reachedCoherent reached) registered
    exact sendingStopped sending idle registered asking free log (fun id _ known => ownerSame pending id ▸ known)
      (.inr List.mem_cons_self)
  | stoppingLost registered log next pending asking free =>
    have idle := registeredUnasked (reachedCoherent reached) registered
    exact sendingStopped sending idle registered asking free log (fun _ _ known => (stayedOwner pending known).2)
      (.inl (by simp [ownerGone pending]))
  | forestalled owner own log store next pending asking registered =>
    obtain ⟨a, asked, rfl⟩ := asksIff.mp own
    exact sendingForestalled sending asked asking registered log pending
  | answered owner apart log store next pending asking registered =>
    refine sendingGone sending log pending asking registered fun a own same => ?_
    cases apart.symm.trans (asksIff.mpr ⟨a, own, same⟩)
  | released owner log next pending asking registered =>
    refine sendingGone sending log pending asking registered fun a own same => ?_
    cases sending.pull a own .shutdown (same ▸ owner)
  | ended log next pending asking => exact sendingEnded sending pending asking

theorem reachedSending (reached : Reached config nextId c) : Sending c := by
  induction reached with
  | new => exact ⟨nofun, nofun, nofun, nofun⟩
  | turn before turn ih => exact askedSending before ih (reachedAsked before turn)

end Client
end LspClient
