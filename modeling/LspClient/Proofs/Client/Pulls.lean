import LspClient.Proofs.Client.Pending

/-! Pulls of diagnostics. A pull is resolved on the spot, or its slot waits until the first response under its
number or the end of the server's output resolves it. What comes before the call returns is told with its
return. -/
namespace LspClient

def Event.number? : Event → Option Int
  | .awaits id _ => some id
  | .wrote (.request id method params) | .lost (.request id method params) =>
    if (asked? (.request id method params)).isSome then none else some id
  | _ => none

namespace Client

variable {config : Config} {nextId : Int} {c after : Client}

-- numbers

def attempted (log : List Event) : List Message :=
  log.filterMap fun
    | .wrote m | .lost m => some m
    | _ => none

def numbers (log : List Event) : List Int := log.filterMap Event.number?

def sends (c : Client) : Option Int := (c.asking.map (·.id)).or c.registered

theorem numbersAppend (log es : List Event) : numbers (log ++ es) = numbers log ++ numbers es :=
  List.filterMap_append

theorem triedAppend (log es : List Event) :
    requestIds (attempted (log ++ es)) = requestIds (attempted log) ++ requestIds (attempted es) := by
  simp only [attempted, requestIds, List.filterMap_append]

theorem numbersAside {es : List Event} (aside : Aside es) : numbers es = [] := by
  rw [numbers, List.filterMap_eq_nil_iff]
  intro e member
  have quiet := aside e member
  unfold Event.number?
  split <;> simp_all [Event.isAside, requestIds]

theorem triedAside {es : List Event} (aside : Aside es) : requestIds (attempted es) = [] := by
  rw [requestIds, List.filterMap_eq_nil_iff]
  intro m member
  obtain ⟨e, own, same⟩ := List.mem_filterMap.mp member
  have quiet := aside e own
  cases e <;> simp only [Option.some.injEq, reduceCtorEq] at same <;> subst same <;>
    simpa [Event.isAside, requestIds] using quiet

/-- Numbers are taken in increasing order, and requests are tried in the order in which theirs were taken. -/
structure Numbered (c : Client) : Prop where
  increasing : (numbers c.log).Pairwise (· < ·)
  older : ∀ id ∈ numbers c.log, id < c.nextId
  tried : (requestIds (attempted c.log) ++ c.sends.toList).Sublist (numbers c.log)

theorem numberedSame {es : List Event} (numbered : Numbered c) (next : c.nextId ≤ after.nextId)
    (log : after.log = c.log ++ es) (silent : numbers es = [])
    (tried : requestIds (attempted es) ++ after.sends.toList = c.sends.toList) : Numbered after := by
  have same : numbers after.log = numbers c.log := by
    rw [log, numbersAppend, silent, List.append_nil]
  refine ⟨same ▸ numbered.increasing, fun id member => ?_, ?_⟩
  · have older := numbered.older id (same ▸ member)
    omega
  · rw [same, log, triedAppend, List.append_assoc, tried]
    exact numbered.tried

theorem numberedNext {es : List Event} (numbered : Numbered c) (next : after.nextId = c.nextId + 1)
    (log : after.log = c.log ++ es) (one : numbers es = [c.nextId]) (idle : c.sends = none)
    (tried : requestIds (attempted es) ++ after.sends.toList = [c.nextId]) : Numbered after := by
  have added : numbers after.log = numbers c.log ++ [c.nextId] := by rw [log, numbersAppend, one]
  refine ⟨?_, fun id member => ?_, ?_⟩
  · rw [added, List.pairwise_append]
    refine ⟨numbered.increasing, List.pairwise_singleton _ _, fun id member last new => ?_⟩
    rw [List.mem_singleton.mp new]
    exact numbered.older id member
  · rw [added, List.mem_append] at member
    rcases member with old | new
    · have older := numbered.older id old
      omega
    · have same := List.mem_singleton.mp new
      omega
  · rw [added, log, triedAppend, List.append_assoc, tried]
    have before := numbered.tried
    rw [idle, Option.toList_none, List.append_nil] at before
    exact before.append_right _

theorem sendsSame (asking : after.asking = c.asking) (registered : after.registered = c.registered) :
    after.sends = c.sends := by
  rw [sends, asking, registered, sends]

theorem sendsForestalled {outcome : Outcome} (asking : after.asking = (c.forestall outcome).asking)
    (registered : after.registered = c.registered) : after.sends = c.sends := by
  rw [sends, asking, registered, sends, forestall]
  cases c.asking <;> rfl

theorem sendsUnheeded (asking : after.asking = c.unheeded) (registered : after.registered = c.registered) :
    after.sends = c.sends := by
  unfold unheeded at asking
  split at asking
  · exact sendsForestalled asking registered
  · exact sendsSame asking registered

theorem forsakenNumbers (c : Client) : numbers c.forsaken = [] := by
  rw [numbers, List.filterMap_eq_nil_iff]
  intro e member
  obtain ⟨name, rfl⟩ := forsakenPull member
  rfl

theorem forsakenTried (c : Client) : attempted c.forsaken = [] := by
  rw [attempted, List.filterMap_eq_nil_iff]
  intro e member
  obtain ⟨name, rfl⟩ := forsakenPull member
  rfl

theorem askedNumbered (coherent : Coherent c) (numbered : Numbered c) (asked : Asked c after) :
    Numbered after := by
  have kept {es : List Event} (log : after.log = c.log ++ es) (next : c.nextId ≤ after.nextId)
      (silent : numbers es = []) (untried : requestIds (attempted es) = []) (sends : after.sends = c.sends) :
      Numbered after := numberedSame numbered next log silent (by rw [untried, sends, List.nil_append])
  cases asked with
  | nothing log aside next same =>
    exact kept log next (numbersAside aside) (triedAside aside) (sendsSame same.asking same.registered)
  | heard unknown log aside next same =>
    have silent := numbersAside aside
    have untried := triedAside aside
    exact kept log (Int.le_of_eq next.symm) silent untried (sendsSame same.asking same.registered)
  | introduced log next tried idle free same =>
    have idle : c.sends = none := by simp [sends, idle, free]
    have still : after.sends = none := (sendsSame same.asking same.registered).trans idle
    rcases tried with rfl | rfl
    · exact numberedNext numbered next log rfl idle (by rw [still]; rfl)
    · exact numberedNext numbered next log rfl idle (by rw [still]; rfl)
  | refused log next same =>
    exact kept log (Int.le_of_eq next.symm) rfl rfl (sendsSame same.asking same.registered)
  | opened running idle free log next pending sends =>
    refine numberedNext numbered next log rfl (by simp [Client.sends, idle, free]) ?_
    rcases sends with ⟨name, uri, _, registered, asking⟩ | ⟨_, registered, asking⟩ <;>
      simp [Client.sends, asking, registered, attempted, requestIds]
  | @sent a asking log next pending idle registered =>
    have free := askingUnregistered coherent asking
    have silent : numbers (a.news ++ [.called (.pull a.name a.uri) .nothing]) = [] ∧
        requestIds (attempted (a.news ++ [.called (.pull a.name a.uri) .nothing])) = [] := by
      rw [Pull.news]
      cases a.early <;> exact ⟨rfl, rfl⟩
    refine numberedSame numbered (Int.le_of_eq next.symm) log silent.1 ?_
    rw [← List.singleton_append, triedAppend, silent.2]
    simp [sends, idle, registered, free, asking, attempted, requestIds, Request.diagnostic]
  | @unsent a failure asking log next pending idle registered =>
    have free := askingUnregistered coherent asking
    refine numberedSame numbered (Int.le_of_eq next.symm) log rfl ?_
    simp [sends, idle, registered, free, asking, attempted, requestIds, Request.diagnostic]
  | @stopping id registered log next pending asking free =>
    have idle := registeredUnasked coherent registered
    refine numberedSame numbered (Int.le_of_eq next.symm) log rfl ?_
    simp [sends, asking, idle, registered, free, attempted, requestIds, Request.shutdown]
  | @stoppingLost id registered log next pending asking free =>
    have idle := registeredUnasked coherent registered
    refine numberedSame numbered (Int.le_of_eq next.symm) log rfl ?_
    simp [sends, asking, idle, registered, free, attempted, requestIds, Request.shutdown]
  | forestalled owner own log store next pending asking registered =>
    exact kept log (Int.le_of_eq next.symm) rfl rfl (sendsForestalled asking registered)
  | answered owner apart log store next pending asking registered =>
    exact kept log (Int.le_of_eq next.symm) rfl rfl (sendsSame asking registered)
  | released owner log next pending asking registered =>
    exact kept log (Int.le_of_eq next.symm) rfl rfl (sendsSame asking registered)
  | ended log next pending asking registered =>
    have untried := congrArg requestIds (forsakenTried c)
    exact kept log (Int.le_of_eq next.symm) (forsakenNumbers c) untried (sendsUnheeded asking registered)

theorem reachedNumbered (reached : Reached config nextId c) : Numbered c := by
  induction reached with
  | new => exact ⟨List.Pairwise.nil, nofun, .slnil⟩
  | turn before turn ih => exact askedNumbered (reachedCoherent before) ih (reachedAsked before turn)

theorem askedIncreasing (fresh : c.Fresh) (asked : Asked c after)
    (increasing : (c.router.pending.map Prod.fst).Pairwise (· < ·)) :
    (after.router.pending.map Prod.fst).Pairwise (· < ·) := by
  cases asked with
  | @opened owner running idle free log next pending =>
    rw [pending]
    split
    · exact increasing
    · rw [List.map_append, List.pairwise_append]
      refine ⟨increasing, List.pairwise_singleton _ _, fun id member last new => ?_⟩
      obtain ⟨slot, own, same⟩ := List.mem_map.mp member
      rw [List.mem_singleton.mp new, ← same]
      exact fresh slot own
  | nothing log aside next same | introduced log next tried idle free same | heard unknown log aside next same
    | refused log next same => exact same.pending ▸ increasing
  | sent asking log next pending | stopping registered log next pending => exact pending ▸ increasing
  | unsent asking log next pending | stoppingLost registered log next pending
    | forestalled owner own log store next pending | answered owner apart log store next pending
    | released owner log next pending => exact pending ▸ increasing.sublist (List.filter_sublist.map _)
  | ended log next pending => exact pending ▸ List.Pairwise.nil

theorem reachedIncreasing (reached : Reached config nextId c) :
    (c.router.pending.map Prod.fst).Pairwise (· < ·) := by
  induction reached with
  | new => exact List.Pairwise.nil
  | turn before turn ih => exact askedIncreasing (reachedFresh before) (reachedAsked before turn) ih

-- every pull is resolved or waits

def issues (t : Ticket) : Event → Bool
  | .called (.start _) .nothing => t == .start
  | .called .stop _ => t == .stop
  | .called (.pull name _) _ => t == .pull name
  | _ => false

def settles (t : Ticket) : Event → Bool
  | .resolved own _ => t == own
  | _ => false

def waitsFor (t : Ticket) (slot : Int × Awaited) : Bool :=
  match slot.2 with
  | .pull name _ => t == .pull name
  | .shutdown => false

def waiting (c : Client) (t : Ticket) : Nat :=
  c.router.pending.countP fun slot => waitsFor t slot && !c.asks slot.1

theorem countRelease {ids : List (Int × Awaited)} {id : Int} {owner : Awaited} (p : Int × Awaited → Bool)
    (increasing : (ids.map Prod.fst).Pairwise (· < ·)) (known : ids.lookup id = some owner) :
    ids.countP p = (ids.filter fun slot => slot.1 != id).countP p + if p (id, owner) then 1 else 0 := by
  -- the numbers increase, so the slot that goes is the only one of its number
  induction ids with
  | nil => simp at known
  | cons slot rest ih =>
    obtain ⟨own, held⟩ := slot
    obtain ⟨first, increasing⟩ := List.pairwise_cons.mp increasing
    rw [List.lookup_cons] at known
    rw [List.filter_cons, List.countP_cons]
    by_cases same : id = own
    · subst same
      have others : rest.filter (fun slot => slot.1 != id) = rest := by
        rw [List.filter_eq_self]
        intro slot member
        have later := first slot.1 (List.mem_map_of_mem member)
        simp only [bne_iff_ne, ne_eq]
        omega
      simp only [BEq.rfl, Option.some.injEq] at known
      simp [others, known]
    · have other : (id == own) = false := by simpa using same
      have kept : (own != id) = true := by simpa using Ne.symm same
      simp only [other] at known
      simp only [kept, if_true, List.countP_cons]
      rw [ih increasing known]
      omega

theorem asideIssues {es : List Event} (aside : Aside es) (name : String) :
    es.countP (issues (.pull name)) = 0 := by
  rw [List.countP_eq_zero]
  intro e member issued
  have quiet := aside e member
  unfold issues at issued
  split at issued <;> simp_all [Event.isAside]

theorem asideSettles {es : List Event} (aside : Aside es) (name : String) :
    es.countP (settles (.pull name)) = 0 := by
  rw [List.countP_eq_zero]
  intro e member settled
  have quiet := aside e member
  unfold settles at settled
  split at settled
  · rename_i own outcome
    cases own <;> simp_all [Event.isAside]
  · simp at settled

theorem forsakenSettles (c : Client) (name : String) :
    c.forsaken.countP (settles (.pull name)) = c.waiting (.pull name) := by
  rw [forsaken, List.countP_filterMap]
  apply List.countP_congr
  intro slot _
  obtain ⟨id, owner⟩ := slot
  cases owner with
  | pull own uri => cases c.asks id <;> simp [settles, waitsFor]
  | shutdown => simp [waitsFor]

theorem forsakenIssues (c : Client) (t : Ticket) : c.forsaken.countP (issues t) = 0 := by
  rw [List.countP_eq_zero]
  intro e member issued
  obtain ⟨name, rfl⟩ := forsakenPull member
  cases issued

def PullsSettled (c : Client) : Prop :=
  ∀ name, c.log.countP (issues (.pull name)) = c.log.countP (settles (.pull name)) + c.waiting (.pull name)

section
variable {t : Ticket}

theorem waitingSame (pending : after.router.pending = c.router.pending) (asks : ∀ id, after.asks id = c.asks id) :
    after.waiting t = c.waiting t := by
  simp only [waiting, pending, asks]

theorem waitingGone {id : Int} {owner : Awaited} (increasing : (c.router.pending.map Prod.fst).Pairwise (· < ·))
    (known : c.router.owner? id = some owner)
    (pending : after.router.pending = c.router.pending.filter fun slot => slot.1 != id)
    (asks : ∀ id, after.asks id = c.asks id) :
    c.waiting t = after.waiting t + if waitsFor t (id, owner) && !c.asks id then 1 else 0 := by
  simp only [waiting, pending, asks]
  exact countRelease (fun slot => waitsFor t slot && !c.asks slot.1) increasing known

theorem waitingAsked {a : Pull} (asking : c.asking = some a) :
    c.waiting t = (c.router.pending.filter fun slot => slot.1 != a.id).countP (waitsFor t) := by
  rw [waiting, List.countP_filter]
  apply List.countP_congr
  intro slot _
  by_cases same : slot.1 = a.id
  · simp [asks, asking, same]
  · simp [asks, asking, same, Ne.symm same]

theorem waitingIdle (idle : c.asking = none) : c.waiting t = c.router.pending.countP (waitsFor t) := by
  simp [waiting, asks, idle]

theorem waitingOpened {owner : Awaited} (fresh : c.Fresh) (idle : c.asking = none)
    (pending : after.router.pending = if c.router.closed then c.router.pending
      else c.router.pending ++ [(c.nextId, owner)])
    (sends : (∃ name uri, owner = .pull name uri ∧ after.registered = none ∧ after.asking =
        some ⟨c.nextId, name, uri, if c.router.closed then some .abandoned else none⟩) ∨
      owner = .shutdown ∧ after.registered = some c.nextId ∧ after.asking = none) :
    after.waiting t = c.waiting t := by
  have kept : c.router.pending.filter (fun slot => slot.1 != c.nextId) = c.router.pending := by
    rw [List.filter_eq_self]
    intro slot member
    have older := fresh slot member
    simp only [bne_iff_ne, ne_eq]
    omega
  rw [waitingIdle idle]
  rcases sends with ⟨name, uri, _, _, asking⟩ | ⟨rfl, _, asking⟩
  · rw [waitingAsked asking, pending]
    split <;> simp [List.filter_append, kept]
  · rw [waitingIdle asking, pending]
    split <;> simp [waitsFor]

end

theorem sentSettled {a : Pull} {name : String} (increasing : (c.router.pending.map Prod.fst).Pairwise (· < ·))
    (sending : Sending c)
    (asking : c.asking = some a) (log : after.log = c.log ++ .wrote (Request.diagnostic a.id a.uri) ::
      (a.news ++ [.called (.pull a.name a.uri) .nothing]))
    (pending : after.router.pending = c.router.pending) (idle : after.asking = none)
    (before : c.log.countP (issues (.pull name)) =
      c.log.countP (settles (.pull name)) + c.waiting (.pull name)) :
    after.log.countP (issues (.pull name)) =
      after.log.countP (settles (.pull name)) + after.waiting (.pull name) := by
  rw [waitingAsked asking] at before
  rw [waitingIdle idle, pending, log, List.countP_append, List.countP_append, before]
  cases early : a.early with
  | none =>
    obtain ⟨owner, known⟩ := Option.isSome_iff_exists.mp ((sending.early a asking).mp early)
    have own := sending.pull a asking owner known
    rw [countRelease (waitsFor (.pull name)) increasing known, own]
    simp [Pull.news, early, issues, settles, waitsFor]
    omega
  | some outcome =>
    -- what is told already has no slot any more
    have unknown : c.router.owner? a.id = none := by
      rw [← Option.not_isSome_iff_eq_none, ← sending.early a asking, early]
      simp
    have kept := congrArg Router.pending (Router.releaseUnknown unknown)
    simp only [Router.release] at kept
    rw [kept, Pull.news, early]
    simp only [issues, settles, Option.toList_some, List.map_cons, List.map_nil, List.cons_append,
      List.nil_append, List.countP_cons, List.countP_nil, Bool.false_eq_true, if_false, beq_iff_eq,
      Ticket.pull.injEq]
    omega

theorem askedSettled (reached : Reached config nextId c) (settled : PullsSettled c) (asked : Asked c after) :
    PullsSettled after := by
  intro name
  have before := settled name
  have increasing := reachedIncreasing reached
  have sending := reachedSending reached
  cases asked with
  | nothing log aside next same =>
    rw [waitingSame same.pending (asksSame same.asking), log, List.countP_append, List.countP_append,
      asideIssues aside, asideSettles aside]
    exact before
  | introduced log next tried idle free same =>
    rw [waitingSame same.pending (asksSame same.asking), log, List.countP_append, List.countP_append]
    rcases tried with rfl | rfl <;> simpa [issues, settles] using before
  | heard unknown log aside next same =>
    rw [waitingSame same.pending (asksSame same.asking), log, List.countP_append, List.countP_append,
      List.countP_cons, List.countP_cons, asideIssues aside, asideSettles aside]
    simpa [issues, settles] using before
  | @refused own uri failure log next same =>
    rw [waitingSame same.pending (asksSame same.asking), log, List.countP_append, List.countP_append, before]
    simp only [issues, settles, List.countP_cons, List.countP_nil, Bool.false_eq_true, if_false,
      beq_iff_eq, Ticket.pull.injEq]
    omega
  | opened running idle free log next pending sends =>
    rw [waitingOpened (reachedFresh reached) idle pending sends, log, List.countP_append, List.countP_append]
    simpa [issues, settles] using before
  | sent asking log next pending idle registered =>
    exact sentSettled (reachedIncreasing reached) sending asking log pending idle before
  | @unsent a failure asking log next pending idle registered =>
    rw [waitingAsked asking] at before
    rw [waitingIdle idle, pending, log, List.countP_append, List.countP_append, before]
    simp only [issues, settles, List.countP_cons, List.countP_nil, Bool.false_eq_true, if_false,
      beq_iff_eq, Ticket.pull.injEq]
    omega
  | stopping registered log next pending asking free =>
    rw [waitingSame pending (asksSame asking), log, List.countP_append, List.countP_append]
    simpa [issues, settles] using before
  | @stoppingLost id registered log next pending asking free =>
    have waits : after.waiting (.pull name) = c.waiting (.pull name) := by
      cases known : c.router.owner? id with
      | none =>
        have kept := congrArg Router.pending (Router.releaseUnknown known)
        exact waitingSame (pending.trans kept) (asksSame asking)
      | some owner =>
        rw [waitingGone increasing known pending (asksSame asking), sending.shutdown id registered owner known]
        simp [waitsFor]
    rw [waits, log, List.countP_append, List.countP_append]
    simpa [issues, settles] using before
  | @forestalled id result error own uri owner asks log store next pending asking registered =>
    have released := waitingGone (t := .pull name) increasing owner pending (forestallSame _ asking)
    rw [log, List.countP_append, List.countP_append, before, released, asks]
    simp [issues, settles]
  | @answered id result error own uri owner apart log store next pending asking registered =>
    have released := waitingGone (t := .pull name) increasing owner pending (asksSame asking)
    rw [log, List.countP_append, List.countP_append, before, released, apart]
    simp only [issues, settles, waitsFor, List.countP_cons, List.countP_nil, Bool.false_eq_true,
      if_false, beq_iff_eq, Ticket.pull.injEq, Bool.not_false, Bool.and_true]
    omega
  | @released id result error owner log next pending asking registered =>
    have released := waitingGone (t := .pull name) increasing owner pending (asksSame asking)
    rw [log, List.countP_append, List.countP_append, before, released]
    simp [issues, settles, waitsFor]
  | ended log next pending =>
    have empty : after.waiting (.pull name) = 0 := by simp [waiting, pending]
    rw [empty, log, List.countP_append, List.countP_append, List.countP_cons, List.countP_cons,
      forsakenIssues, forsakenSettles, before]
    simp [issues, settles]

theorem reachedSettled (reached : Reached config nextId c) : PullsSettled c := by
  induction reached with
  | new => exact fun name => rfl
  | turn before turn ih => exact askedSettled before ih (reachedAsked before turn)

-- what resolves a pull

def Asking (log : List Event) (id : Int) (name uri : String) : Prop := Awaits log id (.pull name uri)

/-- Why a pull is resolved where it is: it failed when it was called, its own slot was answered for the first
time, or nothing can answer any more. An answer that comes while the call has not returned is told with its
return, right after the request was written. -/
inductive Justified (before : List Event) (name : String) (rest : List Event) : Outcome → Prop where
  | refused {uri failure later} (call : rest = .called (.pull name uri) .nothing :: later) :
      Justified before name rest (.failed failure)
  | answered {earlier id uri result error stored}
      (heard : before = earlier ++ [.heard (.response id result error)])
      (asking : Asking earlier id name uri)
      (kept : ∀ items, (Router.outcome result error).toOption.bind Diagnostic.report? = some items →
        stored = items) :
      Justified before name rest (pullOutcome (Router.outcome result error) stored)
  | forestalled {earlier between id uri result error stored later}
      (heard : before = earlier ++ .heard (.response id result error) ::
        (between ++ [.wrote (Request.diagnostic id uri)]))
      (asking : Asking earlier id name uri)
      (call : rest = .called (.pull name uri) .nothing :: later)
      (kept : ∀ items, (Router.outcome result error).toOption.bind Diagnostic.report? = some items →
        stored = items) :
      Justified before name rest (pullOutcome (Router.outcome result error) stored)
  | abandoned (ended : .ended ∈ before) : Justified before name rest .abandoned

inductive Foretold (log : List Event) (a : Pull) : Outcome → Prop where
  | answered {earlier between result error stored}
      (heard : log = earlier ++ .heard (.response a.id result error) :: between)
      (asking : Asking earlier a.id a.name a.uri)
      (kept : ∀ items, (Router.outcome result error).toOption.bind Diagnostic.report? = some items →
        stored = items) :
      Foretold log a (pullOutcome (Router.outcome result error) stored)
  | abandoned (ended : .ended ∈ log) : Foretold log a .abandoned

theorem keptItems {uri : String} {result : Except ResponseError Json} {store : Table (List Diagnostic)}
    {items : List Diagnostic} (report : result.toOption.bind Diagnostic.report? = some items) :
    ((keep uri result store).get? uri).getD [] = items := by
  simp [keep, report, Table.getPut]

theorem foretoldLater {log es : List Event} {a : Pull} {outcome : Outcome} (foretold : Foretold log a outcome) :
    Foretold (log ++ es) a outcome := by
  cases foretold with
  | @answered earlier between result error stored heard asking kept =>
    have later : log ++ es = earlier ++ .heard (.response a.id result error) :: (between ++ es) := by
      simp [heard]
    exact .answered later asking kept
  | abandoned ended => exact .abandoned (List.mem_append_left es ended)

def Foreseen (c : Client) : Prop :=
  ∀ a outcome, c.asking = some a → a.early = some outcome → Foretold c.log a outcome

theorem foreseenSame {es : List Event} (foreseen : Foreseen c) (log : after.log = c.log ++ es)
    (asking : after.asking = c.asking) : Foreseen after :=
  fun a outcome own early => log ▸ foretoldLater (foreseen a outcome (asking ▸ own) early)

theorem foreseenIdle (idle : after.asking = none) : Foreseen after :=
  fun _ _ own => nomatch idle.symm.trans own

theorem askedForeseen (reached : Reached config nextId c) (foreseen : Foreseen c) (asked : Asked c after) :
    Foreseen after := by
  cases asked with
  | nothing log aside next same => exact foreseenSame foreseen log same.asking
  | introduced log next tried idle free same => exact foreseenSame foreseen log same.asking
  | heard unknown log aside next same => exact foreseenSame foreseen log same.asking
  | refused log next same => exact foreseenSame foreseen log same.asking
  | opened running idle free log next pending sends =>
    rcases sends with ⟨name, uri, rfl, registered, asking⟩ | ⟨_, _, asking⟩
    · intro a outcome own early
      cases asking.symm.trans own
      by_cases closed : c.router.closed = true
      · rw [if_pos closed] at early
        cases early
        exact .abandoned (by simp [log, runningEnded reached running closed])
      · simp [if_neg closed] at early
    · exact foreseenIdle asking
  | sent asking log next pending idle => exact foreseenIdle idle
  | unsent asking log next pending idle => exact foreseenIdle idle
  | stopping registered log next pending asking => exact foreseenSame foreseen log asking
  | stoppingLost registered log next pending asking => exact foreseenSame foreseen log asking
  | @forestalled id result error name uri owner own log store next pending asking registered =>
    obtain ⟨b, asks, rfl⟩ := asksIff.mp own
    have who := (reachedSending reached).pull b asks _ owner
    injection who with sameName sameUri
    subst sameName sameUri
    intro a outcome told early
    rw [asking, forestall, asks] at told
    cases told
    cases early
    exact .answered log ((reachedAwaits reached _ _).mp owner) fun items report => by rw [store, keptItems report]
  | answered owner apart log store next pending asking => exact foreseenSame foreseen log asking
  | released owner log next pending asking => exact foreseenSame foreseen log asking
  | ended log next pending asking =>
    intro a outcome told early
    have ended : .ended ∈ after.log := by simp [log]
    rw [asking, unheeded] at told
    split at told
    · cases asks : c.asking with
      | none => simp [forestall, asks] at told
      | some b =>
        rw [forestall, asks] at told
        cases told
        cases early
        exact .abandoned ended
    · exact log ▸ foretoldLater (foreseen a outcome told early)

theorem reachedForeseen (reached : Reached config nextId c) : Foreseen c := by
  induction reached with
  | new => exact nofun
  | turn before turn ih => exact askedForeseen before ih (reachedAsked before turn)

def Fair (c : Client) : Prop :=
  ∀ before name outcome rest, c.log = before ++ .resolved (.pull name) outcome :: rest →
    Justified before name rest outcome

theorem justifiedLater {before rest es : List Event} {name : String} {outcome : Outcome}
    (justified : Justified before name rest outcome) : Justified before name (rest ++ es) outcome := by
  cases justified with
  | refused call => exact .refused (by rw [call]; rfl)
  | answered heard asking kept => exact .answered heard asking kept
  | forestalled heard asking call kept => exact .forestalled heard asking (by rw [call]; rfl) kept
  | abandoned ended => exact .abandoned ended

theorem asideUnsettled {es : List Event} (aside : Aside es) (name : String) (outcome : Outcome) :
    .resolved (.pull name) outcome ∉ es := by
  intro member
  have quiet := aside _ member
  simp [Event.isAside] at quiet

theorem forsakenAbandoned {name : String} {outcome : Outcome}
    (member : .resolved (.pull name) outcome ∈ c.forsaken) : outcome = .abandoned := by
  obtain ⟨own, same⟩ := forsakenPull member
  injection same

theorem sentJustified {a : Pull} {before first rest : List Event} {name : String} {outcome : Outcome}
    (reached : Reached config nextId c) (asking : c.asking = some a) (same : before = c.log ++ first)
    (added : .wrote (Request.diagnostic a.id a.uri) :: (a.news ++ [.called (.pull a.name a.uri) .nothing]) =
      first ++ .resolved (.pull name) outcome :: rest) : Justified before name rest outcome := by
  cases first with
  | nil => cases (List.cons.inj added).1
  | cons e first =>
    obtain ⟨rfl, told⟩ := List.cons.inj added
    cases early : a.early with
    | none =>
      rw [Pull.news, early] at told
      obtain ⟨_, same, _⟩ := splitOne told
      cases same
    | some own =>
      rw [Pull.news, early] at told
      rcases splitPair told with ⟨rfl, resolved, call⟩ | ⟨_, resolved, _⟩
      · injection resolved with ticket resolved
        injection ticket with ticket
        subst ticket resolved
        cases reachedForeseen reached a outcome asking early with
        | @answered earlier between result error stored heard asking kept =>
          have early : c.log ++ [.wrote (Request.diagnostic a.id a.uri)] =
              earlier ++ .heard (.response a.id result error) ::
                (between ++ [.wrote (Request.diagnostic a.id a.uri)]) := by
            simp [heard]
          exact .forestalled (same ▸ early) asking call kept
        | abandoned ended => exact .abandoned (by simp [same, ended])
      · cases resolved

theorem askedFair (reached : Reached config nextId c) (fair : Fair c) (asked : Asked c after) :
    Fair after := by
  intro before name outcome rest split
  -- a resolution stood in the log before, or is one of the events that the turn adds
  have cases' {es : List Event} (log : after.log = c.log ++ es)
      (new : ∀ first, before = c.log ++ first → es = first ++ .resolved (.pull name) outcome :: rest →
        Justified before name rest outcome) : Justified before name rest outcome := by
    rw [log] at split
    rcases splitAppend split with ⟨short, same, earlier⟩ | ⟨first, same, added⟩
    · exact same ▸ justifiedLater (fair before name outcome short earlier)
    · exact new first same added
  cases asked with
  | nothing log aside =>
    exact cases' log fun first _ added =>
      absurd (splitMember added) (asideUnsettled aside name outcome)
  | introduced log next tried =>
    refine cases' log fun first _ added => absurd (splitMember added) ?_
    rcases tried with rfl | rfl <;> simp
  | heard unknown log aside =>
    exact cases' log fun first _ added =>
      absurd (splitMember added) (by simp [asideUnsettled aside name outcome])
  | refused log =>
    refine cases' log fun first _ added => ?_
    rcases splitPair added with ⟨_, same, call⟩ | ⟨_, same, _⟩
    · injection same with own failed
      injection own with own
      subst own failed
      exact .refused call
    · cases same
  | sent asking log => exact cases' log fun first same added => sentJustified reached asking same added
  | @unsent a failure asking log =>
    refine cases' log fun first same added => ?_
    cases first with
    | nil => cases (List.cons.inj added).1
    | cons e first =>
      obtain ⟨_, told⟩ := List.cons.inj added
      rcases splitPair told with ⟨_, resolved, call⟩ | ⟨_, resolved, _⟩
      · injection resolved with ticket failed
        injection ticket with ticket
        subst ticket failed
        exact .refused call
      · cases resolved
  | opened running idle free log | stopping registered log | stoppingLost registered log
    | forestalled owner own log | released owner log =>
    exact cases' log fun first _ added => absurd (splitMember added) (by simp)
  | @answered id result error own uri owner apart log store =>
    refine cases' log fun first same added => ?_
    rcases splitPair added with ⟨_, same, _⟩ | ⟨head, last, _⟩
    · cases same
    · injection last with own' resolved
      injection own' with own'
      subst own' resolved
      have asking := (reachedAwaits reached id _).mp owner
      exact .answered (by rw [same, head]) asking fun items report => by rw [store, keptItems report]
  | ended log =>
    refine cases' log fun first same added => ?_
    cases first with
    | nil => cases (List.cons.inj added).1
    | cons e first =>
      obtain ⟨rfl, forsaken⟩ := List.cons.inj added
      rw [forsakenAbandoned (splitMember forsaken)]
      exact .abandoned (by simp [same])

theorem reachedFair (reached : Reached config nextId c) : Fair c := by
  induction reached with
  | new => exact fun before name outcome rest split => by simp [new] at split
  | turn before turn ih => exact askedFair before ih (reachedAsked before turn)

end Client
end LspClient
