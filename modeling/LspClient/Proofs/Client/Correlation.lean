import LspClient.Proofs.Client.Pulls

/-! Requests and responses of a whole run. The router is asked to wait before a request is written, so the
response that a server guesses counts from then on. -/
namespace LspClient.Client

variable {config : Config} {nextId : Int} {c after : Client}

structure Correlated (c : Client) : Prop where
  slots : ∀ id owner, c.router.owner? id = some owner ↔ Awaits c.deeds id owner
  -- the request of a slot was written, or its pull or stop is about to write it
  written : ∀ id owner, c.router.owner? id = some owner →
    c.asks id = true ∨ c.teardown = .registered id ∨ .wrote (owner.request id) ∈ c.deeds
  opened : ∀ before m id rest, c.deeds = before ++ .wrote m :: rest → asked? m = some id →
    ∃ owner, .awaits id owner ∈ before ∧ m = owner.request id
  increasing : (requestIds c.sent).Pairwise (· < ·)
  conserved : ∀ name, c.deeds.countP (issues (.pull name)) =
    c.deeds.countP (settles (.pull name)) + c.waiting (.pull name)
  justified : ∀ before name outcome rest, c.deeds = before ++ .resolved (.pull name) outcome :: rest →
    Justified before name rest outcome
  once : ∀ first between id result error name uri name' uri',
    first ++ .heard (.response id result error) :: between <+: c.deeds → Asking first id name uri →
      ¬ Asking (first ++ .heard (.response id result error) :: between) id name' uri'
  stored : ∀ id name uri result error, Asking c.deeds id name uri →
    (c.hear (.response id result error)).store = keep uri (Router.outcome result error) c.store
  own : ∀ id name uri result error, Asking c.deeds id name uri → c.asks id = false →
    (c.hear (.response id result error)).deeds = c.deeds ++ [.heard (.response id result error),
      .resolved (.pull name) (pullOutcome (Router.outcome result error)
        ((c.hear (.response id result error)).diagnostics uri))]
  -- if the call has not returned yet, it is kept until the request is written
  early : ∀ id name uri result error, Asking c.deeds id name uri → c.asks id = true →
    (c.hear (.response id result error)).deeds = c.deeds ++ [.heard (.response id result error)] ∧
      (c.hear (.response id result error)).asking = some ⟨id, name, uri,
        some (pullOutcome (Router.outcome result error)
          ((c.hear (.response id result error)).diagnostics uri))⟩
  returned : ∀ a, c.asking = some a → c.refusal = none → (c.perform .ask).deeds =
    c.deeds ++ .wrote (Request.diagnostic a.id a.uri) :: (a.news ++ [.called (.pull a.name a.uri) .nothing])
  -- any other response leaves the store and the pulls alone, and outside the handshake everything
  foreign : ∀ id result error, (∀ name uri, ¬ Asking c.deeds id name uri) →
    (c.hear (.response id result error)).store = c.store ∧
      (c.hear (.response id result error)).asking = c.asking ∧
      (∀ name outcome, .resolved (.pull name) outcome ∈ (c.hear (.response id result error)).deeds →
        .resolved (.pull name) outcome ∈ c.deeds) ∧
      (c.link ≠ .handshake id → (c.hear (.response id result error)).deeds =
        c.deeds ++ [.heard (.response id result error)])
  cancelled : ∀ m id, .lost m ∈ c.deeds → asked? m = some id → c.router.owner? id = none

theorem attemptedWritten (log : List Event) : (written log).Sublist (attempted log) := by
  induction log with
  | nil => exact .slnil
  | cons e rest ih => cases e <;> first | exact ih | exact ih.cons_cons _ | exact ih.cons _

theorem triedIncreasing (reached : Reached config nextId c) :
    (requestIds (attempted c.log)).Pairwise (· < ·) :=
  (reachedNumbered reached).increasing.sublist
    ((List.sublist_append_left _ _).trans (reachedNumbered reached).tried)

theorem sentIncreasing (reached : Reached config nextId c) : (requestIds (written c.log)).Pairwise (· < ·) :=
  (triedIncreasing reached).sublist ((attemptedWritten c.log).filterMap _)

theorem askedRequest {m : Message} {id : Int} (asks : asked? m = some id) : requestIds [m] = [id] := by
  cases m with
  | request own method params =>
    by_cases waits : method = "textDocument/diagnostic" ∨ method = "shutdown"
    · simpa [asked?, waits, requestIds] using asks
    · simp [asked?, waits] at asks
  | _ => simp [asked?] at asks

theorem triedMember {log : List Event} {e : Event} {m : Message} {id : Int} (member : e ∈ log)
    (tried : e = .wrote m ∨ e = .lost m) (asks : asked? m = some id) : id ∈ requestIds (attempted log) := by
  have attempted : m ∈ attempted log := by
    refine List.mem_filterMap.mpr ⟨e, member, ?_⟩
    rcases tried with rfl | rfl <;> rfl
  obtain ⟨n, only, own⟩ := List.mem_filterMap.mp (askedRequest asks ▸ List.mem_singleton.mpr rfl)
  exact List.mem_filterMap.mpr ⟨m, attempted, List.mem_singleton.mp only ▸ own⟩

theorem triedOlder (numbered : Numbered c) {e : Event} {m : Message} {id : Int} (member : e ∈ c.log)
    (tried : e = .wrote m ∨ e = .lost m) (asks : asked? m = some id) : id < c.nextId :=
  numbered.older id (numbered.tried.subset (List.mem_append_left _ (triedMember member tried asks)))

theorem onceAmong {f : List Event → List Int} (append : ∀ log es, f (log ++ es) = f log ++ f es)
    {log before rest : List Event} {e : Event} {id : Int} (increasing : (f log).Pairwise (· < ·))
    (split : log = before ++ e :: rest) (one : f [e] = [id]) : id ∉ f before ∧ id ∉ f rest := by
  rw [split, ← List.singleton_append, append, append, one, List.pairwise_append, List.singleton_append,
    List.pairwise_cons] at increasing
  obtain ⟨_, ⟨later, _⟩, earlier⟩ := increasing
  constructor
  · intro member
    have less := earlier id member id List.mem_cons_self
    omega
  · intro member
    have less := later id member
    omega

theorem numberOnce {log before rest : List Event} {e : Event} {id : Int}
    (increasing : (numbers log).Pairwise (· < ·)) (split : log = before ++ e :: rest)
    (one : numbers [e] = [id]) : id ∉ numbers before ∧ id ∉ numbers rest :=
  onceAmong numbersAppend increasing split one

theorem awaitsNumber {log : List Event} {id : Int} {owner : Awaited} (member : .awaits id owner ∈ log) :
    id ∈ numbers log := List.mem_filterMap.mpr ⟨_, member, rfl⟩

theorem awaitsOnce {log before rest before' rest' : List Event} {id : Int} {owner owner' : Awaited}
    (increasing : (numbers log).Pairwise (· < ·)) (split : log = before ++ .awaits id owner :: rest)
    (split' : log = before' ++ .awaits id owner' :: rest') :
    before = before' ∧ owner = owner' ∧ rest = rest' := by
  obtain ⟨early, late⟩ := numberOnce increasing split rfl
  rcases splitTwice (split.symm.trans split') with ⟨start, same, finish⟩ | ⟨later, _⟩ | ⟨earlier, _⟩
  · injection same with _ same
    exact ⟨start, same, finish⟩
  · exact absurd (awaitsNumber later) late
  · exact absurd (awaitsNumber earlier) early

theorem askingSame {log : List Event} (increasing : (numbers log).Pairwise (· < ·)) {id : Int}
    {name uri name' uri' : String} (asking : Asking log id name uri)
    (asking' : Asking log id name' uri') : name = name' ∧ uri = uri' := by
  obtain ⟨_, before, rest, split, _⟩ := asking
  obtain ⟨_, before', rest', split', _⟩ := asking'
  obtain ⟨_, same, _⟩ := awaitsOnce increasing split split'
  injection same with ownName ownUri
  exact ⟨ownName, ownUri⟩

theorem askingOwner (reached : Reached config nextId c) {id : Int} {name uri : String}
    (asking : Asking c.log id name uri) : c.router.owner? id = some (.pull name uri) :=
  (reachedAwaits reached id _).mpr asking

theorem answeredOnce {log first between : List Event} {id : Int} {result error}
    {name uri name' uri' : String} (increasing : (numbers log).Pairwise (· < ·))
    (part : first ++ .heard (.response id result error) :: between <+: log)
    (asking : Asking first id name uri) :
    ¬ Asking (first ++ .heard (.response id result error) :: between) id name' uri' := by
  rintro ⟨_, before', rest', split', kept⟩
  obtain ⟨_, before, rest, split, _⟩ := asking
  have increasing' : (numbers (first ++ .heard (.response id result error) :: between)).Pairwise (· < ·) := by
    obtain ⟨es, whole⟩ := part
    rw [← whole, numbersAppend] at increasing
    exact (List.pairwise_append.mp increasing).1
  have earlier : first ++ .heard (.response id result error) :: between = before ++
      .awaits id (.pull name uri) :: (rest ++ .heard (.response id result error) :: between) := by
    simp [split]
  obtain ⟨_, _, same⟩ := awaitsOnce increasing' earlier split'
  have freed := kept (.heard (.response id result error)) (by simp [← same])
  simp [Event.frees] at freed

def Cancelled (c : Client) : Prop :=
  ∀ m id, .lost m ∈ c.log → asked? m = some id → c.router.owner? id = none

theorem askedCancelled (reached : Reached config nextId c) (cancelled : Cancelled c) (asked : Asked c after) :
    Cancelled after := by
  intro m id lost asks
  have numbered := reachedNumbered reached
  have kept {es : List Event} (log : after.log = c.log ++ es) (new : .lost m ∉ es)
      (owner : c.router.owner? id = none → after.router.owner? id = none) : after.router.owner? id = none :=
    owner (cancelled m id ((List.mem_append.mp (log ▸ lost)).resolve_right new) asks)
  have gone {own : Int} (pending : after.router.pending = c.router.pending.filter fun slot => slot.1 != own)
      (absent : c.router.owner? id = none) : after.router.owner? id = none := by
    rw [ownerGone pending, absent, ite_self]
  have quiet {es : List Event} (aside : Aside es) : .lost m ∉ es := by
    intro member
    have silent := aside _ member
    simp [Event.isAside, askedRequest asks] at silent
  cases asked with
  | nothing log aside next same => exact kept log (quiet aside) (ownerSame same.pending id).trans
  | introduced log next tried idle free same =>
    refine kept log (fun member => ?_) (ownerSame same.pending id).trans
    rcases tried with rfl | rfl
    · simp at member
    · cases List.mem_singleton.mp member
      simp [asked?, Request.introduce] at asks
  | heard unknown log aside next same =>
    exact kept log (by simp [quiet aside]) (ownerSame same.pending id).trans
  | refused log next same => exact kept log (by simp) (ownerSame same.pending id).trans
  | opened running idle free log next pending =>
    have old : .lost m ∈ c.log := (List.mem_append.mp (log ▸ lost)).resolve_right (by simp)
    have older := triedOlder numbered old (.inr rfl) asks
    have other : id ≠ c.nextId := by omega
    split at pending
    · exact (ownerSame pending id).trans (cancelled m id old asks)
    · rw [ownerAdded pending, cancelled m id old asks]
      simp [other]
  | sent asking log next pending =>
    refine kept log (fun member => ?_) (ownerSame pending id).trans
    rcases List.mem_cons.mp member with same | told
    · cases same
    · rw [Pull.news] at told
      simp at told
  | @unsent a failure asking log next pending =>
    rw [log, List.mem_append] at lost
    rcases lost with old | new
    · exact gone pending (cancelled m id old asks)
    · simp only [List.mem_cons, reduceCtorEq, List.not_mem_nil, or_false, Event.lost.injEq] at new
      subst new
      cases asks
      rw [ownerGone pending, if_pos rfl]
  | stopping registered log next pending => exact kept log (by simp) (ownerSame pending id).trans
  | @stoppingLost own registered log next pending =>
    rw [log, List.mem_append, List.mem_singleton] at lost
    rcases lost with old | new
    · exact gone pending (cancelled m id old asks)
    · injection new with new
      subst new
      cases asks
      rw [ownerGone pending, if_pos rfl]
  | forestalled _ own log store next pending | answered _ apart log store next pending
    | released _ log next pending => exact kept log (by simp) (gone pending)
  | ended log next pending =>
    rw [Router.owner?, pending]
    rfl

theorem reachedCancelled (reached : Reached config nextId c) : Cancelled c := by
  induction reached with
  | new => exact nofun
  | turn before turn ih => exact askedCancelled before ih (reachedAsked before turn)

-- what a request goes back to

structure Opened (c : Client) : Prop where
  asking : ∀ a, c.asking = some a → .awaits a.id (.pull a.name a.uri) ∈ c.log
  stopping : ∀ id, c.registered = some id → .awaits id .shutdown ∈ c.log
  written : ∀ before m id rest, c.log = before ++ .wrote m :: rest → asked? m = some id →
    ∃ owner, .awaits id owner ∈ before ∧ m = owner.request id

def Unasked (es : List Event) : Prop := ∀ m, .wrote m ∈ es → asked? m = none

theorem asideUnasked {es : List Event} (aside : Aside es) : Unasked es := by
  intro m member
  rw [Option.eq_none_iff_forall_not_mem]
  intro id asks
  have silent := aside _ member
  simp [Event.isAside, askedRequest asks] at silent

theorem openedKept {es : List Event} (opened : Opened c) (log : after.log = c.log ++ es) (unasked : Unasked es)
    (asking : ∀ a, after.asking = some a → ∃ early, c.asking = some {a with early := early})
    (stopping : ∀ id, after.registered = some id → c.registered = some id) : Opened after where
  asking a own := by
    obtain ⟨early, earlier⟩ := asking a own
    exact log ▸ List.mem_append_left es (opened.asking {a with early := early} earlier)
  stopping id own := log ▸ List.mem_append_left es (opened.stopping id (stopping id own))
  written before m id rest split asks := by
    rcases splitAppend (log.symm.trans split) with ⟨short, _, old⟩ | ⟨first, _, new⟩
    · exact opened.written before m id short old asks
    · exact nomatch asks.symm.trans (unasked m (splitMember new))

theorem openedWrote {m : Message} {id : Int} {owner : Awaited} {es : List Event} (opened : Opened c)
    (log : after.log = c.log ++ .wrote m :: es) (unasked : Unasked es) (slot : .awaits id owner ∈ c.log)
    (request : m = owner.request id) (asking : ∀ a, after.asking = some a → c.asking = some a)
    (stopping : ∀ id, after.registered = some id → c.registered = some id) : Opened after where
  asking a own := log ▸ List.mem_append_left _ (opened.asking a (asking a own))
  stopping id own := log ▸ List.mem_append_left _ (opened.stopping id (stopping id own))
  written before m' id' rest split asks := by
    rcases splitAppend (log.symm.trans split) with ⟨short, _, old⟩ | ⟨first, start, new⟩
    · exact opened.written before m' id' short old asks
    cases first with
    | nil =>
      obtain ⟨same, _⟩ := List.cons.inj new
      injection same with same
      obtain rfl : id = id' := by
        subst same request
        cases owner <;> exact Option.some.inj asks
      rw [start, List.append_nil]
      exact ⟨owner, slot, same ▸ request⟩
    | cons e first =>
      obtain ⟨_, told⟩ := List.cons.inj new
      exact nomatch asks.symm.trans (unasked m' (splitMember told))

theorem forestalledAsking {outcome : Outcome} {a : Pull} (asking : (c.forestall outcome).asking = some a) :
    ∃ early, c.asking = some {a with early := early} := by
  obtain ⟨b, own, rfl⟩ := Option.map_eq_some_iff.mp asking
  exact ⟨b.early, own⟩

theorem unheededAsking {a : Pull} (asking : c.unheeded = some a) :
    ∃ early, c.asking = some {a with early := early} := by
  rw [unheeded] at asking
  split at asking
  · exact forestalledAsking asking
  · exact ⟨a.early, asking⟩

theorem newsUnasked (a : Pull) : Unasked (a.news ++ [.called (.pull a.name a.uri) .nothing]) := by
  intro m member
  rw [Pull.news] at member
  simp at member

theorem askedOpened (opened : Opened c) (asked : Asked c after) : Opened after := by
  have same (asking : after.asking = c.asking) (a : Pull) (own : after.asking = some a) :
      ∃ early, c.asking = some {a with early := early} := ⟨a.early, asking ▸ own⟩
  have none (idle : after.asking = none) (a : Pull) (own : after.asking = some a) :
      ∃ early, c.asking = some {a with early := early} := nomatch idle.symm.trans own
  have kept (registered : after.registered = c.registered) (id : Int) (own : after.registered = some id) :
      c.registered = some id := registered.symm.trans own
  have freed (free : after.registered = .none) (id : Int) (own : after.registered = some id) :
      c.registered = some id := nomatch free.symm.trans own
  cases asked with
  | nothing log aside _ still =>
    exact openedKept opened log (asideUnasked aside) (same still.asking) (kept still.registered)
  | introduced log _ tried _ _ still =>
    refine openedKept opened log (fun m member => ?_) (same still.asking) (kept still.registered)
    rcases tried with rfl | rfl
    · cases List.mem_singleton.mp member
      simp [asked?, Request.introduce]
    · cases List.mem_singleton.mp member
  | heard _ log aside _ still =>
    exact openedKept opened log (by simpa [Unasked] using asideUnasked aside) (same still.asking)
      (kept still.registered)
  | refused log _ still =>
    exact openedKept opened log (by simp [Unasked]) (same still.asking) (kept still.registered)
  | opened _ idle free log _ _ sends =>
    have slot : .awaits c.nextId _ ∈ after.log := log ▸ List.mem_append_right c.log (List.mem_singleton.mpr rfl)
    refine ⟨fun a own => ?_, fun id own => ?_, fun before m id rest split asks => ?_⟩
    · rcases sends with ⟨name, uri, rfl, _, asking⟩ | ⟨_, _, unasked⟩
      · cases asking.symm.trans own
        exact slot
      · cases unasked.symm.trans own
    · rcases sends with ⟨_, _, _, unregistered, _⟩ | ⟨rfl, registered, _⟩
      · cases unregistered.symm.trans own
      · cases registered.symm.trans own
        exact slot
    · rcases splitAppend (log.symm.trans split) with ⟨short, _, old⟩ | ⟨first, _, new⟩
      · exact opened.written before m id short old asks
      · exact absurd (splitMember new) (by simp)
  | @sent a asking log _ _ idle registered =>
    exact openedWrote opened log (newsUnasked a) (opened.asking a asking) rfl
      (fun _ own => nomatch idle.symm.trans own) (kept registered)
  | unsent _ log _ _ idle registered => exact openedKept opened log (by simp [Unasked]) (none idle) (kept registered)
  | stopping registered log _ _ asking free =>
    exact openedWrote opened log (by simp [Unasked]) (opened.stopping _ registered) rfl
      (fun _ own => asking ▸ own) (freed free)
  | stoppingLost _ log _ _ asking free =>
    exact openedKept opened log (by simp [Unasked]) (same asking) (freed free)
  | forestalled _ _ log _ _ _ asking registered =>
    exact openedKept opened log (by simp [Unasked]) (fun a own => forestalledAsking (asking ▸ own)) (kept registered)
  | answered _ _ log _ _ _ asking registered | released _ log _ _ asking registered =>
    exact openedKept opened log (by simp [Unasked]) (same asking) (kept registered)
  | ended log _ _ asking registered =>
    refine openedKept opened log (fun m member => ?_) (fun a own => unheededAsking (asking ▸ own)) (kept registered)
    rcases List.mem_cons.mp member with other | member
    · cases other
    · obtain ⟨name, other⟩ := forsakenPull member
      cases other

theorem reachedOpened (reached : Reached config nextId c) : Opened c := by
  induction reached with
  | new => exact ⟨nofun, nofun, fun before m id rest split => by simp [new] at split⟩
  | turn before turn ih => exact askedOpened ih (reachedAsked before turn)

theorem pullAwaited (reached : Reached config nextId c) (id : Int) (uri : String)
    (member : .wrote (Request.diagnostic id uri) ∈ c.log) : ∃ name, .awaits id (.pull name uri) ∈ c.log := by
  obtain ⟨before, rest, split⟩ := List.append_of_mem member
  obtain ⟨owner, early, request⟩ := (reachedOpened reached).written before _ id rest split rfl
  have slot : .awaits id owner ∈ c.log := split ▸ List.mem_append_left _ early
  cases owner with
  | pull name uri' =>
    obtain rfl : uri = uri' := by
      simpa [Awaited.request, Request.diagnostic, Json.ofFields, Json.orderFields, Json.insertField] using request
    exact ⟨name, slot⟩
  | shutdown => simp [Awaited.request, Request.diagnostic, Request.shutdown] at request

-- one response

section
variable {id : Int} {result : Option Json} {error : Option ResponseError}

theorem takenOwn {name uri : String} (waitless : Waitless c)
    (owner : c.router.owner? id = some (.pull name uri))
    (taken : Taken (c.note (.heard (.response id result error))) (.response id result error) after) :
    after.store = keep uri (Router.outcome result error) c.store ∧
      (c.asks id = false ∧ after.log = c.log ++ [.heard (.response id result error), .resolved (.pull name)
          (pullOutcome (Router.outcome result error) (after.diagnostics uri))] ∨
        c.asks id = true ∧ after.log = c.log ++ [.heard (.response id result error)] ∧
          after.asking = (c.forestall
            (pullOutcome (Router.outcome result error) (after.diagnostics uri))).asking) := by
  have handshake (awaited : c.link = .handshake id) : False := by
    have empty := waitless (.inr (.inr (.inr (.inl ⟨_, awaited⟩))))
    simp [Router.owner?, empty] at owner
  cases taken with
  | pullForestalled foreign owner' own =>
    cases owner.symm.trans owner'
    exact ⟨rfl, .inr ⟨own, rfl, rfl⟩⟩
  | pullAnswered foreign owner' apart =>
    cases owner.symm.trans owner'
    exact ⟨rfl, .inl ⟨apart, List.append_assoc _ _ _⟩⟩
  | unasked foreign unknown => cases owner.symm.trans unknown
  | shutdownAnswered foreign owner' => cases owner.symm.trans owner'
  | rejected awaited => exact (handshake awaited).elim
  | tooLate awaited => exact (handshake awaited).elim
  | readyLost awaited => exact (handshake awaited).elim
  | ready awaited => exact (handshake awaited).elim

theorem takenForeign (unknown : ∀ name uri, c.router.owner? id ≠ some (.pull name uri))
    (taken : Taken (c.note (.heard (.response id result error))) (.response id result error) after) :
    after.store = c.store ∧ after.asking = c.asking ∧
      (∀ name outcome, .resolved (.pull name) outcome ∈ after.log →
        .resolved (.pull name) outcome ∈ c.log) ∧
      (c.link ≠ .handshake id → after.log = c.log ++ [.heard (.response id result error)]) := by
  cases taken with
  | pullForestalled foreign owner => exact absurd owner (unknown _ _)
  | pullAnswered foreign owner => exact absurd owner (unknown _ _)
  | unasked | shutdownAnswered => exact ⟨rfl, rfl, by simp [note], fun _ => rfl⟩
  | rejected awaited | tooLate awaited | readyLost awaited | ready awaited =>
    exact ⟨rfl, rfl, by simp [note], fun foreign => absurd awaited foreign⟩

end

theorem earlyAsking (sending : Sending c) {id : Int} {name uri : String} {outcome : Outcome}
    (owner : c.router.owner? id = some (.pull name uri)) (asks : c.asks id = true) :
    (c.forestall outcome).asking = some ⟨id, name, uri, some outcome⟩ := by
  obtain ⟨a, asking, rfl⟩ := asksIff.mp asks
  have who := sending.pull a asking _ owner
  injection who with sameName sameUri
  subst sameName sameUri
  rw [forestall, asking]
  rfl

-- all runs

theorem correlated (config : Config) (nextId : Int) (moves : List Move) :
    Correlated ((new config nextId).play moves) := by
  have reached := playReached config nextId moves
  generalize (new config nextId).play moves = c at reached
  have owner {id name uri} (asking : Asking c.deeds id name uri) :
      c.quiet.router.owner? id = some (.pull name uri) := askingOwner reached asking
  have own {id name uri} (asking : Asking c.deeds id name uri) (result error) :=
    takenOwn (reachedWaitless reached) (owner asking) (hearTaken (.response id result error) c)
  exact {
    slots := reachedAwaits reached
    written := fun id who known => by
      refine ((reachedSending reached).written id who known).imp_right (.imp_left fun own => ?_)
      unfold registered at own
      split at own
      · rename_i teardown
        exact (Option.some.inj own) ▸ teardown
      · cases own
    opened := (reachedOpened reached).written
    increasing := by
      rw [← sentQuiet]
      exact sentIncreasing reached
    conserved := reachedSettled reached
    justified := reachedFair reached
    once := fun first between id result error name uri name' uri' part asking =>
      answeredOnce (reachedNumbered reached).increasing part asking
    stored := fun id name uri result error asking => (own asking result error).1
    own := fun id name uri result error asking apart =>
      ((own asking result error).2.resolve_right fun early => nomatch apart.symm.trans early.1).2
    early := fun id name uri result error asking asks => by
      obtain ⟨_, log, early⟩ := (own asking result error).2.resolve_left fun told =>
        nomatch asks.symm.trans told.1
      exact ⟨log, early.trans (earlyAsking (reachedSending reached) (owner asking) asks)⟩
    returned := fun a asking clear => congrArg Client.log (askSent asking clear)
    foreign := fun id result error unasked =>
      takenForeign (fun name uri owner => unasked name uri ((reachedAwaits reached id _).mp owner))
        (hearTaken _ c)
    cancelled := fun m id lost asks => reachedCancelled reached m id lost asks }

def forged : List Move := [.host (.start none), .spawn, .introduce,
  .server (.writes ((Message.response 1 (some .null) none).octets ++
    (Message.response 2 (some (.ofFields [("kind", .string "full"), ("items", .array [])])) none).octets)),
  .take, .host (.pull "p" "file:///a.lus"), .take, .ask]

def deserted : List Move := [.host (.start none), .spawn, .introduce,
  .server (.writes (Message.response 1 (some .null) none).octets), .take,
  .host (.pull "p" "file:///a.lus"), .ask, .server .endsOutput, .take]

/-- A slot is there before its request is written, so the pull is resolved by a response that came before
that; and a pull is resolved without any response when the transport closes. -/
theorem answeredBeforeSent :
    (((new sampleConfig 1).play (forged.take 6)).router.owner? 2 = some (.pull "p" "file:///a.lus") ∧
      ((new sampleConfig 1).play (forged.take 6)).sent.all (fun m => asked? m != some 2) = true) ∧
    ((new sampleConfig 1).play forged).deeds.drop 6 = [.awaits 2 (.pull "p" "file:///a.lus"),
      .heard (.response 2 (some (.ofFields [("kind", .string "full"), ("items", .array [])])) none),
      .wrote (Request.diagnostic 2 "file:///a.lus"), .resolved (.pull "p") (.items []),
      .called (.pull "p" "file:///a.lus") .nothing] ∧
    ((new sampleConfig 1).play deserted).deeds.drop 6 = [.awaits 2 (.pull "p" "file:///a.lus"),
      .wrote (Request.diagnostic 2 "file:///a.lus"), .called (.pull "p" "file:///a.lus") .nothing,
      .ended, .resolved (.pull "p") .abandoned] := by
  decide +kernel

end LspClient.Client
