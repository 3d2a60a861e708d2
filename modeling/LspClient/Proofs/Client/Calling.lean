import LspClient.Proofs.Client.Conversation
import LspClient.Proofs.Client.Shelf

/-! Calls that pull. From the opening of its slot to its return such a call keeps the host from everything
else, so the client writes no more than replies; and it returns as soon as its request was written. An answer
that comes later resolves the pull at once. -/
namespace LspClient.Client

variable {config : Config} {nextId : Int} {c after : Client} {before rest : List Event} {id : Int} {uri : String}

def Returns (before : List Event) (id : Int) (uri : String) (rest : List Event) : Prop :=
  ∃ name first early news last, before = first ++ .awaits id (.pull name uri) :: early ∧
    Replies (attempted early) ∧ rest = news ++ .called (.pull name uri) .nothing :: last ∧
    (.ended ∉ before → Unheard id early → news = [])

structure Calling (c : Client) : Prop where
  asking : ∀ a, c.asking = some a → ∃ first early,
    c.log = first ++ .awaits a.id (.pull a.name a.uri) :: early ∧ Replies (attempted early)
  returned : ∀ before id uri rest, c.log = before ++ .wrote (Request.diagnostic id uri) :: rest →
    Returns before id uri rest
  tried : ∀ before id name uri rest, c.log = before ++ .awaits id (.pull name uri) :: rest →
    (∃ early, c.asking = some ⟨id, name, uri, early⟩) ∨
      .wrote (Request.diagnostic id uri) ∈ rest ∨ .lost (Request.diagnostic id uri) ∈ rest

theorem returnsLater (returns : Returns before id uri rest) (es : List Event) : Returns before id uri (rest ++ es) := by
  obtain ⟨name, first, early, news, last, split, replies, rfl, silent⟩ := returns
  exact ⟨name, first, early, news, last ++ es, split, replies, by simp, silent⟩

theorem attemptedAppend (log es : List Event) : attempted (log ++ es) = attempted log ++ attempted es :=
  List.filterMap_append

-- what is written during a call

theorem takenReplies {m : Message} (settled : ∀ id, c.link ≠ .handshake id) (taken : Taken c m after) :
    ∃ es, after.log = c.log ++ es ∧ Replies (attempted es) := by
  cases taken with
  | @request id method params =>
    obtain ⟨result, error, reply⟩ := replyResponse id method params
    rcases triedCases (Router.replyTo id method params) c with ⟨_, same⟩ | ⟨_, same⟩ <;> rw [same, reply]
    · exact ⟨_, rfl, List.forall_mem_singleton.mpr rfl⟩
    · exact ⟨_, rfl, List.forall_mem_singleton.mpr rfl⟩
  | pullAnswered => exact ⟨_, rfl, List.forall_mem_nil _⟩
  | rejected awaited | tooLate awaited | readyLost awaited | ready awaited => exact absurd awaited (settled _)
  | _ => exact ⟨[], (List.append_nil _).symm, List.forall_mem_nil _⟩

theorem turnReplies (coherent : Coherent c) (asking : c.asking ≠ none) (still : after.asking ≠ none)
    (turn : Turn c after) : ∃ es, after.log = c.log ++ es ∧ Replies (attempted es) := by
  obtain ⟨running, held⟩ := coherent.asking asking
  obtain ⟨_, link, _⟩ := coherent.running running
  have idle := coherent.held held
  have settled (id : Int) : c.link ≠ .handshake id := by rcases link with link | link <;> simp [link]
  cases turn with
  | idle | skipped | served | elsewhere => exact ⟨[], (List.append_nil _).symm, List.forall_mem_nil _⟩
  | host _ free | pullOpened _ free | pullShut _ free => exact absurd free asking
  | pullSent | pullLost => exact absurd rfl still
  | @taken s unread m after _ _ hearing =>
    obtain ⟨es, log, replies⟩ := takenReplies (c := (c.readOn s unread).note (.heard m)) settled hearing
    exact ⟨.heard m :: es, log.trans (List.append_assoc _ _ _), replies⟩
  | parted =>
    refine ⟨.ended :: c.forsaken, List.append_assoc _ _ _, fun m member => ?_⟩
    obtain ⟨e, own, tried⟩ := List.mem_filterMap.mp member
    rcases List.mem_cons.mp own with rfl | forsaken
    · cases tried
    · obtain ⟨name, rfl⟩ := forsakenPull forsaken
      cases tried
  | spawnRefused waiting | spawned waiting | orphaned waiting | introduced waiting | introduceLost waiting
    | gaveUp waiting | lost waiting => rcases link with link | link <;> cases waiting.symm.trans link
  | stopVoid requested | shutdownOpened requested | shutdownShut requested | shutdownSent requested
    | shutdownLost requested | exitTold requested | exitUntold requested | finished requested =>
    cases requested.symm.trans idle

-- one turn

theorem callingKept {es : List Event} (calling : Calling c) (log : after.log = c.log ++ es)
    (unpulled : ∀ id uri, .wrote (Request.diagnostic id uri) ∉ es)
    (asking : ∀ a, after.asking = some a → ∃ early, c.asking = some {a with early := early})
    (unopened : ∀ id owner, .awaits id owner ∉ es)
    (kept : ∀ a, c.asking = some a → (∃ early, after.asking = some {a with early := early}) ∨
      .lost (Request.diagnostic a.id a.uri) ∈ es)
    (replies : c.asking ≠ none → after.asking ≠ none → Replies (attempted es)) : Calling after where
  asking a own := by
    obtain ⟨early, earlier⟩ := asking a own
    obtain ⟨first, kept, split, quiet⟩ := calling.asking _ earlier
    refine ⟨first, kept ++ es, by simp [log, split], ?_⟩
    rw [attemptedAppend]
    exact List.forall_mem_append.mpr ⟨quiet, replies (by simp [earlier]) (by simp [own])⟩
  returned before id uri rest split := by
    rcases splitAppend (log.symm.trans split) with ⟨short, same, old⟩ | ⟨first, _, new⟩
    · exact same ▸ returnsLater (calling.returned before id uri short old) es
    · exact absurd (splitMember new) (unpulled id uri)
  tried before id name uri rest split := by
    rcases splitAppend (log.symm.trans split) with ⟨short, same, old⟩ | ⟨first, _, new⟩
    · rcases calling.tried before id name uri short old with ⟨early, own⟩ | wrote | lost
      · exact (kept _ own).imp_right fun lost => .inr (same ▸ List.mem_append_right _ lost)
      · exact .inr (.inl (same ▸ List.mem_append_left _ wrote))
      · exact .inr (.inr (same ▸ List.mem_append_left _ lost))
    · exact absurd (splitMember new) (unopened id _)

theorem callingSent {a : Pull} (reached : Reached config nextId c) (calling : Calling c) (asking : c.asking = some a)
    (log : after.log = c.log ++ .wrote (Request.diagnostic a.id a.uri) ::
      (a.news ++ [.called (.pull a.name a.uri) .nothing])) (idle : after.asking = none) : Calling after where
  asking _ own := by cases idle.symm.trans own
  returned before id uri rest split := by
    rcases splitAppend (log.symm.trans split) with ⟨short, same, old⟩ | ⟨first, start, new⟩
    · exact same ▸ returnsLater (calling.returned before id uri short old) _
    cases first with
    | nil =>
      obtain ⟨same, rfl⟩ := List.cons.inj new
      injection same with same
      obtain ⟨rfl, rfl⟩ : a.id = id ∧ a.uri = uri := by
        simpa [Request.diagnostic, Json.ofFields, Json.orderFields, Json.insertField] using same
      rw [List.append_nil] at start
      obtain ⟨first, early, opened, replies⟩ := calling.asking a asking
      refine ⟨a.name, first, early, a.news, [], start.trans opened, replies, rfl, fun open' unheard => ?_⟩
      -- its slot is still there
      have kept : ∀ e ∈ early, e.frees a.id = false := by
        intro e member
        cases e with
        | heard m =>
          cases m with
          | response own result error =>
            exact beq_eq_false_iff_ne.mpr fun same => unheard result error (same ▸ member)
          | _ => rfl
        | lost m =>
          have reply := replies m (List.mem_filterMap.mpr ⟨_, member, rfl⟩)
          cases m with
          | response => rfl
          | _ => cases reply
        | _ => rfl
      have owner := (reachedAwaits reached a.id _).mpr ⟨start ▸ open', first, early, opened, kept⟩
      have none := ((reachedSending reached).early a asking).mpr (by simp [owner])
      rw [Pull.news, none]
      rfl
    | cons e first =>
      cases newsUnasked a _ (splitMember (List.cons.inj new).2)
  tried before id name uri rest split := by
    rcases splitAppend (log.symm.trans split) with ⟨short, same, old⟩ | ⟨first, _, new⟩
    · rcases calling.tried before id name uri short old with ⟨early, own⟩ | wrote | lost
      · cases asking.symm.trans own
        exact .inr (.inl (same ▸ List.mem_append_right _ List.mem_cons_self))
      · exact .inr (.inl (same ▸ List.mem_append_left _ wrote))
      · exact .inr (.inr (same ▸ List.mem_append_left _ lost))
    · have member := splitMember new
      rw [Pull.news] at member
      simp at member

theorem turnCalling (reached : Reached config nextId c) (calling : Calling c) (turn : Turn c after) :
    Calling after := by
  have quiet {es : List Event} (log : after.log = c.log ++ es) (asking : c.asking ≠ none)
      (still : after.asking ≠ none) : Replies (attempted es) := by
    obtain ⟨es', log', replies⟩ := turnReplies (reachedCoherent reached) asking still turn
    exact List.append_cancel_left (log'.symm.trans log) ▸ replies
  have kept {es : List Event} (log : after.log = c.log ++ es)
      (unpulled : ∀ id uri, .wrote (Request.diagnostic id uri) ∉ es) (unopened : ∀ id owner, .awaits id owner ∉ es)
      (asking : after.asking = c.asking) : Calling after :=
    callingKept calling log unpulled (fun a own => ⟨a.early, asking ▸ own⟩) unopened
      (fun a own => .inl ⟨a.early, asking ▸ own⟩) (quiet log)
  have unpulled {es : List Event} (aside : Aside es) (id : Int) (uri : String) :
      .wrote (Request.diagnostic id uri) ∉ es := fun member => by cases aside _ member
  have unopened {es : List Event} (aside : Aside es) (id : Int) (owner : Awaited) : .awaits id owner ∉ es :=
    fun member => by cases aside _ member
  cases reachedAsked reached turn with
  | nothing log aside _ still => exact kept log (unpulled aside) (unopened aside) still.asking
  | introduced log _ tried _ _ still =>
    refine kept log (fun id uri member => ?_) (fun id owner member => ?_) still.asking
    · cases List.mem_singleton.mp member
      rcases tried with other | other <;> simp [Request.introduce, Request.diagnostic] at other
    · cases List.mem_singleton.mp member
      rcases tried with other | other <;> cases other
  | heard _ log aside _ still =>
    exact kept log (by simpa using unpulled aside) (by simpa using unopened aside) still.asking
  | refused log _ still => exact kept log (by simp) (by simp) still.asking
  | opened _ idle _ log _ _ sends =>
    refine ⟨fun a own => ?_, fun before id uri rest split => ?_, fun before id name uri rest split => ?_⟩
    · rcases sends with ⟨name, uri, rfl, _, asking⟩ | ⟨_, _, unasked⟩
      · cases asking.symm.trans own
        exact ⟨c.log, [], log, List.forall_mem_nil _⟩
      · cases unasked.symm.trans own
    · rcases splitAppend (log.symm.trans split) with ⟨short, same, old⟩ | ⟨first, _, new⟩
      · exact same ▸ returnsLater (calling.returned before id uri short old) _
      · exact absurd (splitMember new) (by simp)
    · rcases splitAppend (log.symm.trans split) with ⟨short, same, old⟩ | ⟨first, _, new⟩
      · exact .inr ((calling.tried before id name uri short old).resolve_left (by simp [idle]) |>.imp
          (fun wrote => same ▸ List.mem_append_left _ wrote) fun lost => same ▸ List.mem_append_left _ lost)
      · obtain ⟨_, own, _⟩ := splitOne new
        injection own with number owner
        rcases sends with ⟨name', uri', rfl, _, asking⟩ | ⟨rfl, _⟩
        · injection owner with sameName sameUri
          subst number sameName sameUri
          exact .inl ⟨_, asking⟩
        · cases owner
  | sent asking log _ _ idle => exact callingSent reached calling asking log idle
  | unsent asking log _ _ idle =>
    refine callingKept calling log (by simp) (fun _ own => by cases idle.symm.trans own) (by simp)
      (fun b own => .inr ?_) (quiet log)
    cases asking.symm.trans own
    exact List.mem_cons_self
  | stopping _ log _ _ asking => exact kept log (by simp [Request.shutdown, Request.diagnostic]) (by simp) asking
  | stoppingLost _ log _ _ asking => exact kept log (by simp) (by simp) asking
  | forestalled _ _ log _ _ _ asking =>
    exact callingKept calling log (by simp) (fun a own => forestalledAsking (asking ▸ own)) (by simp)
      (fun a own => .inl ⟨_, asking.trans (by rw [forestall, own]; rfl)⟩) (quiet log)
  | answered _ _ log _ _ _ asking | released _ log _ _ asking => exact kept log (by simp) (by simp) asking
  | ended log _ _ asking =>
    have quieted (e : Event) (member : e ∈ .ended :: c.forsaken) :
        e = .ended ∨ ∃ name, e = .resolved (.pull name) .abandoned := (List.mem_cons.mp member).imp_right forsakenPull
    refine callingKept calling log (fun id uri member => ?_) (fun a own => unheededAsking (asking ▸ own))
      (fun id owner member => ?_) (fun a own => .inl ?_) (quiet log)
    · rcases quieted _ member with other | ⟨_, other⟩ <;> cases other
    · rcases quieted _ member with other | ⟨_, other⟩ <;> cases other
    · rw [asking, unheeded]
      split
      · exact ⟨_, by rw [forestall, own]; rfl⟩
      · exact ⟨a.early, own⟩

theorem reachedCalling (reached : Reached config nextId c) : Calling c := by
  induction reached with
  | new => exact ⟨nofun, fun before id uri rest split => by simp [new] at split,
      fun before id name uri rest split => by simp [new] at split⟩
  | turn before turn ih => exact turnCalling before ih turn

theorem writtenReturns {early : List Event} {name : String} (reached : Reached config nextId c)
    (log : c.log = before ++ .awaits id (.pull name uri) :: (early ++ .wrote (Request.diagnostic id uri) :: rest)) :
    Replies (attempted early) ∧ (.ended ∉ before ++ .awaits id (.pull name uri) :: early → Unheard id early →
      ∃ last, rest = .called (.pull name uri) .nothing :: last) := by
  have place : c.log = (before ++ .awaits id (.pull name uri) :: early) ++
      .wrote (Request.diagnostic id uri) :: rest := by simp [log]
  obtain ⟨name', first, early', news, last, same, replies, returns, silent⟩ :=
    (reachedCalling reached).returned _ id uri rest place
  have place' : c.log = first ++ .awaits id (.pull name' uri) :: (early' ++
      .wrote (Request.diagnostic id uri) :: rest) := by simp [place, same]
  obtain ⟨rfl, owner, late⟩ := awaitsOnce (reachedNumbered reached).increasing log place'
  injection owner with whose
  subst whose
  obtain rfl := List.append_cancel_right late
  refine ⟨replies, fun open' unheard => ⟨last, ?_⟩⟩
  rw [silent open' unheard] at returns
  exact returns

theorem returnedWrote {name : String} (reached : Reached config nextId c) (returned : c.asking = none)
    (lossless : Lossless c.log) (log : c.log = before ++ .awaits id (.pull name uri) :: rest) :
    .wrote (Request.diagnostic id uri) ∈ rest := by
  rcases (reachedCalling reached).tried before id name uri rest log with ⟨early, own⟩ | wrote | lost
  · cases returned.symm.trans own
  · exact wrote
  · exact absurd (log ▸ List.mem_append_right _ (List.mem_cons_of_mem _ lost)) (lossless _)

-- one answer

theorem triedOnce (reached : Reached config nextId c) {e e' : Event} {m m' : Message}
    (split : c.log = before ++ e :: rest) (tried : e = .wrote m ∨ e = .lost m) (asks : asked? m = some id)
    (tried' : e' = .wrote m' ∨ e' = .lost m') (asks' : asked? m' = some id) : e' ∉ before ∧ e' ∉ rest := by
  have one : requestIds (attempted [e]) = [id] := by
    rw [← askedRequest asks]
    rcases tried with rfl | rfl <;> rfl
  obtain ⟨early, late⟩ := onceAmong (f := fun log => requestIds (attempted log)) triedAppend
    (triedIncreasing reached) split one
  exact ⟨fun member => early (triedMember member tried' asks'), fun member => late (triedMember member tried' asks')⟩

theorem writtenAsks (reached : Reached config nextId c) {first early between : List Event} {name : String}
    (split : c.log = first ++ .awaits id (.pull name uri) :: (early ++
      .wrote (Request.diagnostic id uri) :: between) ++ rest)
    (open' : .ended ∉ first ++ .awaits id (.pull name uri) :: (early ++
      .wrote (Request.diagnostic id uri) :: between))
    (unheard : Unheard id early) (unheard' : Unheard id between) :
    Asking (first ++ .awaits id (.pull name uri) :: (early ++ .wrote (Request.diagnostic id uri) :: between))
      id name uri := by
  refine ⟨open', first, _, rfl, fun e member => Bool.eq_false_iff.mpr fun frees => ?_⟩
  have place : c.log = (first ++ .awaits id (.pull name uri) :: early) ++
      .wrote (Request.diagnostic id uri) :: (between ++ rest) := by simp [split]
  have only {m : Message} (asks : asked? m = some id) := triedOnce reached place (.inl rfl) rfl (.inr rfl) asks
  cases e with
  | heard m =>
    cases m with
    | response own result error =>
      obtain rfl : own = id := beq_iff_eq.mp frees
      rcases List.mem_append.mp member with before | later
      · exact unheard result error before
      · exact unheard' result error ((List.mem_cons.mp later).resolve_left nofun)
    | _ => cases frees
  | lost m =>
    obtain ⟨none, none'⟩ := only (beq_iff_eq.mp frees)
    rcases List.mem_append.mp member with before | later
    · exact none (List.mem_append_right _ (List.mem_cons_of_mem _ before))
    · exact none' (List.mem_append_left _ ((List.mem_cons.mp later).resolve_left nofun))
  | _ => cases frees

theorem answerTold {past : Client} {back : List Event} {result : Option Json} {error : Option ResponseError}
    {name : String} (reached : Reached config nextId c) (parts : c.log = past.log ++ back) (prompt : Prompt past)
    (returned : past.asking = none) (split : past.log = before ++ .heard (.response id result error) :: rest)
    (wrote : .wrote (Request.diagnostic id uri) ∈ before) (asking : Asking before id name uri) :
    ∃ outcome later, rest = .resolved (.pull name) outcome :: later ∧
      Yields (before ++ [.heard (.response id result error)]) uri error outcome := by
  obtain ⟨outcome, told, yields⟩ := prompt before id result error rest name uri split asking
  obtain ⟨first, last, rfl⟩ := List.append_of_mem wrote
  have place : c.log = first ++ .wrote (Request.diagnostic id uri) ::
      (last ++ .heard (.response id result error) :: (rest ++ back)) := by simp [parts, split]
  have again {e : Event} (tried : e = .wrote (Request.diagnostic id uri) ∨ e = .lost (Request.diagnostic id uri))
      (member : e ∈ rest) : False :=
    (triedOnce reached place (.inl rfl) rfl tried rfl).2
      (List.mem_append_right _ (List.mem_cons_of_mem _ (List.mem_append_left _ member)))
  cases told with
  | @atOnce later resolved => exact ⟨outcome, later, resolved, yields⟩
  | unreturned own => cases returned.symm.trans own
  | returned resolved => exact (again (.inl rfl) (splitMember resolved)).elim
  | unsent lost => exact (again (.inr rfl) (splitMember lost)).elim

end LspClient.Client
