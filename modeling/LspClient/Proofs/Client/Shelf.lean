import LspClient.Proofs.Client.Correlation

/-! The diagnostics store of a whole run. What lies under a URI is what the last event put there, of three
kinds: a push that names the URI, a report that answers a pull of it, and a close of its document. The stop
of a client empties the store, so all this is said of the time before. -/
namespace LspClient

def Event.isInert : Event → Bool
  | .heard (.response ..) | .called (.didClose _) (.flag true) => false
  | .heard (.notification method (some _)) => method != "textDocument/publishDiagnostics"
  | _ => true

namespace Client

variable {config : Config} {nextId : Int} {c after : Client}

/-- What an event puts under a URI, after the events before it. A close leaves nothing there. -/
inductive Puts (before : List Event) (uri : String) : Event → Option (List Diagnostic) → Prop where
  | published {params items} (names : Diagnostic.published params = (uri, items)) :
      Puts before uri (.heard (.notification "textDocument/publishDiagnostics" (some params)))
        (some items)
  | answered {id name result items} (asking : Asking before id name uri)
      (report : Diagnostic.report? (result.getD .null) = some items) :
      Puts before uri (.heard (.response id result none)) (some items)
  | closed : Puts before uri (.called (.didClose uri) (.flag true)) none

def Untouched (log : List Event) (uri : String) (es : List Event) : Prop :=
  ∀ first e last entry, es = first ++ e :: last → ¬ Puts (log ++ first) uri e entry

def Latest (log : List Event) (uri : String) (entry : Option (List Diagnostic)) : Prop :=
  Untouched [] uri log ∧ entry = none ∨
    ∃ before e rest, log = before ++ e :: rest ∧ Puts before uri e entry ∧
      Untouched (before ++ [e]) uri rest

inductive Yields (log : List Event) (uri : String) : Option ResponseError → Outcome → Prop where
  | failed {e : ResponseError} : Yields log uri (some e) (.failed (.protocol e.code e.message))
  | items {entry} (latest : Latest log uri entry) : Yields log uri none (.items (entry.getD []))

def Inert (es : List Event) : Prop := ∀ e ∈ es, e.isInert = true

theorem inertNone : Inert [] := List.forall_mem_nil _

theorem inertOne {e : Event} (inert : e.isInert = true) : Inert [e] := by simpa [Inert] using inert

theorem inertAppend {first last : List Event} (before : Inert first) (after : Inert last) :
    Inert (first ++ last) := List.forall_mem_append.mpr ⟨before, after⟩

theorem inertWrote (ms : List Message) : Inert (ms.map .wrote) := by
  simp [Inert, Event.isInert]

theorem inertFailure (failure : Failure) (c : Client) : Inert (c.failureNotes failure) :=
  inertAppend (everyForsaken (fun _ => rfl) c) (inertAppend (everyDeathNote rfl c) (inertOne rfl))

theorem inertUntouched {es : List Event} (inert : Inert es) (log : List Event) (uri : String) :
    Untouched log uri es := by
  intro first e last entry split puts
  have still := inert e (splitMember split)
  cases puts <;> simp [Event.isInert] at still

theorem untouchedAppend {log es fs : List Event} {uri : String} (first : Untouched log uri es)
    (last : Untouched (log ++ es) uri fs) : Untouched log uri (es ++ fs) := by
  intro before e rest entry split puts
  rcases splitAppend split with ⟨short, _, early⟩ | ⟨late, same, split⟩
  · exact first before e short entry early puts
  · rw [same, ← List.append_assoc] at puts
    exact last late e rest entry split puts

theorem untouchedOne {log : List Event} {uri : String} {e : Event}
    (silent : ∀ entry, ¬ Puts log uri e entry) : Untouched log uri [e] := by
  intro first e' last entry split puts
  obtain ⟨none, same, _⟩ := splitOne split
  rw [none, same, List.append_nil] at puts
  exact silent entry puts

theorem untouchedCons {log es : List Event} {uri : String} {e : Event}
    (silent : ∀ entry, ¬ Puts log uri e entry) (inert : Inert es) : Untouched log uri (e :: es) :=
  untouchedAppend (untouchedOne silent) (inertUntouched inert _ uri)

def Stored (log es : List Event) (uri : String) (old new : Option (List Diagnostic)) : Prop :=
  Untouched log uri es ∧ new = old ∨
    ∃ first e last, es = first ++ e :: last ∧ Puts (log ++ first) uri e new ∧
      Untouched (log ++ first ++ [e]) uri last

theorem storedLatest {log es : List Event} {uri : String} {old new : Option (List Diagnostic)}
    (stored : Stored log es uri old new) (latest : Latest log uri old) : Latest (log ++ es) uri new := by
  rcases stored with ⟨still, rfl⟩ | ⟨first, e, last, rfl, puts, still⟩
  · rcases latest with ⟨silent, same⟩ | ⟨before, e, rest, rfl, puts, silent⟩
    · exact .inl ⟨untouchedAppend silent still, same⟩
    · refine .inr ⟨before, e, rest ++ es, by simp, puts, untouchedAppend silent ?_⟩
      simpa using still
  · exact .inr ⟨log ++ first, e, last, by simp, puts, still⟩

inductive Shelves (c after : Client) : Prop where
  | nothing {es} (log : after.log = c.log ++ es) (inert : Inert es) (store : after.store = c.store)
  | unasked {id result error es} (unknown : ∀ name uri, c.router.owner? id ≠ some (.pull name uri))
      (log : after.log = c.log ++ (.heard (.response id result error) :: es)) (inert : Inert es)
      (store : after.store = c.store)
  | published {params}
      (log : after.log = c.log ++
        [.heard (.notification "textDocument/publishDiagnostics" (some params))])
      (store : after.store =
        c.store.put (Diagnostic.published params).1 (Diagnostic.published params).2)
  | answered {id result error name uri es} (owner : c.router.owner? id = some (.pull name uri))
      (log : after.log = c.log ++ (.heard (.response id result error) :: es)) (inert : Inert es)
      (store : after.store = keep uri (Router.outcome result error) c.store)
  | closed {uri es} (log : after.log = c.log ++ (es ++ [.called (.didClose uri) (.flag true)]))
      (inert : Inert es) (store : after.store = c.store.erase uri)
  | emptied {es} (stopping : c.phase = .stopping) (log : after.log = c.log ++ es) (inert : Inert es)
      (stopped : after.phase = .stopped)

theorem calledShelves {call answer} (done : Called c call answer after) :
    Shelves c (after.note (.called call answer)) := by
  cases done with
  | start | startAgain | stop | openForeign | openOver | openAgain | openQueued | changeUnknown
    | changeOver | changeQueued | closeUnknown =>
    exact .nothing rfl (inertOne rfl) rfl
  | stopUnstarted | stopOver | openSent | openLost | changeSent | changeLost | closeLost | pullIdle =>
    exact .nothing (List.append_assoc _ _ _) (inertAppend (by simp [Inert, Event.isInert])
      (inertOne rfl)) rfl
  | drop =>
    exact .nothing (List.append_assoc _ _ _) (inertAppend (everyDeathNote rfl c) (inertOne rfl)) rfl
  | closeUnsent => exact .closed rfl inertNone rfl
  | closeSent => exact .closed (List.append_assoc _ _ _) (inertOne rfl) rfl

theorem takenShelves {m} {s : Server} {rest} (waitless : Waitless c)
    (taken : Taken ((c.readOn s rest).note (.heard m)) m after) : Shelves c after := by
  -- during the handshake no pull waits, so its response is nobody's
  have empty {id : Int} (awaited : c.link = .handshake id) : c.router.pending = [] :=
    waitless (.inr (.inr (.inr (.inl ⟨_, awaited⟩))))
  cases taken with
  | @request id method params =>
    rcases triedCases (Router.replyTo id method params)
      ((c.readOn s rest).note (.heard (.request id method params))) with ⟨_, same⟩ | ⟨_, same⟩ <;>
      rw [same]
    · exact .nothing (List.append_assoc _ [_] [_]) (by simp [Inert, Event.isInert]) rfl
    · exact .nothing (List.append_assoc _ [_] [_]) (by simp [Inert, Event.isInert]) rfl
  | published => exact .published (heardLog s rest _ c) rfl
  | @other method params silent =>
    refine .nothing (heardLog s rest _ c) (inertOne ?_) rfl
    rcases silent with other | none
    · cases params with
      | none => rfl
      | some params => simpa [Event.isInert] using other
    · rw [none]
      rfl
  | unasked foreign unknown =>
    have unknown : c.router.owner? _ = none := unknown
    exact .unasked (by simp [unknown]) (heardLog s rest _ c) inertNone rfl
  | pullForestalled foreign owner => exact .answered owner (heardLog s rest _ c) inertNone rfl
  | pullAnswered foreign owner => exact .answered owner (List.append_assoc _ _ _) (inertOne rfl) rfl
  | shutdownAnswered foreign owner =>
    have owner : c.router.owner? _ = some .shutdown := owner
    exact .unasked (by simp [owner]) (heardLog s rest _ c) inertNone rfl
  | @rejected id _ _ awaited | @tooLate id _ awaited =>
    have unknown : c.router.owner? id = none := unknownNone (empty awaited)
    exact .unasked (by simp [unknown]) (heardLog s rest _ c) inertNone rfl
  | @readyLost id result failure first m rest' awaited =>
    have unknown : c.router.owner? id = none := unknownNone (empty awaited)
    exact .unasked (by simp [unknown]) (openedLog s rest _ c _ _)
      (inertAppend (inertWrote first) (inertOne rfl)) rfl
  | @ready id result awaited starting clear =>
    have unknown : c.router.owner? id = none := unknownNone (empty awaited)
    exact .unasked (by simp [unknown]) (openedLog s rest _ c _ _)
      (inertAppend (inertWrote _) (inertOne rfl)) rfl

theorem turnShelves (coherent : Coherent c) (waitless : Waitless c) (turn : Turn c after) :
    Shelves c after := by
  cases turn with
  | host held free done => exact calledShelves done
  | taken listening server hearing => exact takenShelves waitless hearing
  | idle | skipped | exitUntold | served | elsewhere | spawnRefused =>
    exact .nothing (List.append_nil _).symm inertNone rfl
  | pullOpened | pullShut | spawned | introduced | introduceLost | lost | stopVoid | shutdownOpened
    | shutdownShut | shutdownSent | shutdownLost => exact .nothing rfl (inertOne rfl) rfl
  | @pullSent a =>
    have news : Inert a.news := everyNews (fun _ _ => rfl) a
    exact .nothing rfl (inertAppend (inertOne rfl) (inertAppend news (inertOne rfl))) rfl
  | pullLost => exact .nothing rfl (by simp [Inert, Event.isInert]) rfl
  | orphaned => exact .nothing rfl (everyDeathNote rfl _) rfl
  | gaveUp => exact .nothing (failureLog _ c) (inertFailure _ c) rfl
  | parted =>
    exact .nothing (List.append_assoc _ _ _)
      (inertAppend (inertOne rfl) (everyForsaken (fun _ => rfl) _)) rfl
  | exitTold =>
    rcases triedCases Request.exit c with ⟨_, same⟩ | ⟨_, same⟩ <;> rw [same] <;>
      exact .nothing rfl (inertOne rfl) rfl
  | finished waiting exited =>
    exact .emptied (teardownStopping coherent (.inr (.inr waiting))) rfl (inertOne rfl) rfl

theorem reachedShelves (reached : Reached config nextId c) (turn : Turn c after) : Shelves c after :=
  turnShelves (reachedCoherent reached) (reachedWaitless reached) turn

theorem putsAlone {log : List Event} (increasing : (numbers log).Pairwise (· < ·)) {e : Event}
    {uri uri' : String} {entry entry' : Option (List Diagnostic)} (puts : Puts log uri e entry)
    (puts' : Puts log uri' e entry') : uri = uri' ∧ entry = entry' := by
  cases puts with
  | published names =>
    cases puts' with
    | published names' =>
      obtain ⟨sameUri, sameItems⟩ := Prod.mk.inj (names.symm.trans names')
      exact ⟨sameUri, congrArg some sameItems⟩
  | answered asking report =>
    cases puts' with
    | answered asking' report' =>
      exact ⟨(askingSame increasing asking asking').2, report.symm.trans report'⟩
  | closed => cases puts' with | closed => exact ⟨rfl, rfl⟩

theorem increasingPart {log before rest : List Event} (increasing : (numbers log).Pairwise (· < ·))
    (split : log = before ++ rest) : (numbers before).Pairwise (· < ·) := by
  rw [split, numbersAppend] at increasing
  exact (List.pairwise_append.mp increasing).1

theorem keepNone {uri : String} {result : Except ResponseError Json} {store : Table (List Diagnostic)}
    (nothing : result.toOption.bind Diagnostic.report? = none) : keep uri result store = store := by
  simp [keep, nothing]

theorem keepOther {uri other : String} (away : other ≠ uri) (result : Except ResponseError Json)
    (store : Table (List Diagnostic)) : (keep uri result store).get? other = store.get? other := by
  unfold keep
  split
  · simp [Table.getPut, away]
  · rfl

section
variable {log : List Event} {id : Int} {name uri : String} (result : Option Json)
  (error : Option ResponseError) (increasing : (numbers log).Pairwise (· < ·))
  (asking : Asking log id name uri) (store : Table (List Diagnostic))
include increasing asking

theorem answerUntouched {other : String} (away : other ≠ uri) :
    Untouched log other [.heard (.response id result error)] := by
  refine untouchedOne fun entry puts => ?_
  cases puts with
  | answered asking' => exact away (askingSame increasing asking asking').2.symm

theorem answerStored (other : String) : Stored log [.heard (.response id result error)] other
    (store.get? other) ((keep uri (Router.outcome result error) store).get? other) := by
  by_cases own : other = uri
  · subst own
    cases error with
    | some e =>
      refine .inl ⟨untouchedOne (fun entry puts => nomatch puts), ?_⟩
      rw [keepNone rfl]
    | none =>
      cases report : Diagnostic.report? (result.getD .null) with
      | none =>
        refine .inl ⟨untouchedOne fun entry puts => ?_, ?_⟩
        · cases puts with
          | answered _ report' => simp [report] at report'
        · rw [keepNone (by simpa [Router.outcome, Except.toOption] using report)]
      | some items =>
        have kept : (keep other (Router.outcome result none) store).get? other = some items := by
          simp [keep, Router.outcome, Except.toOption, report, Table.getPut]
        refine .inr ⟨[], _, [], rfl, ?_, inertUntouched inertNone _ _⟩
        rw [kept, List.append_nil]
        exact .answered asking report
  · exact .inl ⟨answerUntouched result error increasing asking own, keepOther own _ store⟩

end

theorem shelvesStored (reached : Reached config nextId c) (shelves : Shelves c after) :
    ∃ es, after.log = c.log ++ es ∧ (c.phase = .stopping ∧ after.phase = .stopped ∨
      ∀ uri, Stored c.log es uri (c.store.get? uri) (after.store.get? uri)) := by
  cases shelves with
  | @nothing es log inert store =>
    exact ⟨es, log, .inr fun uri => .inl ⟨inertUntouched inert _ uri, by rw [store]⟩⟩
  | @unasked id result error es unknown log inert store =>
    refine ⟨_, log, .inr fun uri => .inl ⟨untouchedCons (fun entry puts => ?_) inert, by rw [store]⟩⟩
    cases puts with
    | answered asking => exact unknown _ _ (askingOwner reached asking)
  | @published params log store =>
    refine ⟨_, log, .inr fun uri => ?_⟩
    rw [store, Table.getPut]
    by_cases own : uri = (Diagnostic.published params).1
    · rw [if_pos own]
      exact .inr ⟨[], _, [], rfl, .published (by rw [own]), inertUntouched inertNone _ uri⟩
    · rw [if_neg own]
      refine .inl ⟨untouchedOne fun entry puts => ?_, rfl⟩
      cases puts with
      | published names => exact own (by rw [names])
  | @answered id result error name uri es owner log inert store =>
    refine ⟨_, log, .inr fun other => ?_⟩
    have asking := (reachedAwaits reached id _).mp owner
    have stored := answerStored result error (reachedNumbered reached).increasing asking c.store other
    rw [← store] at stored
    rcases stored with ⟨still, same⟩ | ⟨first, e, last, split, puts, still⟩
    · exact .inl ⟨untouchedAppend still (inertUntouched inert _ other), same⟩
    · obtain ⟨rfl, rfl, rfl⟩ := splitOne split
      exact .inr ⟨[], _, _, rfl, puts, inertUntouched inert _ other⟩
  | @closed uri es log inert store =>
    refine ⟨_, log, .inr fun other => ?_⟩
    rw [store, Table.getErase]
    by_cases own : other = uri
    · rw [if_pos own, own]
      exact .inr ⟨es, _, [], rfl, .closed, inertUntouched inertNone _ uri⟩
    · rw [if_neg own]
      refine .inl ⟨untouchedAppend (inertUntouched inert _ other) (untouchedOne fun entry puts => ?_), rfl⟩
      cases puts with
      | closed => exact own rfl
  | @emptied es stopping log inert stopped => exact ⟨es, log, .inl ⟨stopping, stopped⟩⟩

theorem reachedLatest (reached : Reached config nextId c) (unstopped : c.phase ≠ .stopped)
    (uri : String) : Latest c.log uri (c.store.get? uri) := by
  induction reached with
  | new => exact .inl ⟨inertUntouched inertNone _ uri, rfl⟩
  | @turn c after before turn ih =>
    have earlier : c.phase ≠ .stopped := fun stopped => unstopped (turnStopped stopped turn)
    obtain ⟨es, log, ⟨_, stopped⟩ | stored⟩ := shelvesStored before (reachedShelves before turn)
    · exact absurd stopped unstopped
    · exact log ▸ storedLatest (stored uri) (ih earlier)

-- what a pull is resolved with

inductive Told (c : Client) (id : Int) (name uri : String) (rest : List Event) (outcome : Outcome) : Prop where
  | atOnce {later} (resolved : rest = .resolved (.pull name) outcome :: later)
  | unreturned (asking : c.asking = some ⟨id, name, uri, some outcome⟩)
  | returned {between later} (resolved : rest = between ++
      .wrote (Request.diagnostic id uri) :: .resolved (.pull name) outcome :: later)
  | unsent {between later} (lost : rest = between ++ .lost (Request.diagnostic id uri) :: later)

def Prompt (c : Client) : Prop :=
  ∀ before id result error rest name uri,
    c.log = before ++ .heard (.response id result error) :: rest → Asking before id name uri →
      ∃ outcome, Told c id name uri rest outcome ∧
        Yields (before ++ [.heard (.response id result error)]) uri error outcome

theorem toldLater {id : Int} {name uri : String} {rest es : List Event} {outcome : Outcome}
    (told : Told c id name uri rest outcome) (asking : c.asking = some ⟨id, name, uri, some outcome⟩ →
      Told after id name uri (rest ++ es) outcome) : Told after id name uri (rest ++ es) outcome := by
  cases told with
  | atOnce resolved => exact .atOnce (by rw [resolved]; rfl)
  | unreturned own => exact asking own
  | @returned between later resolved =>
    have more : rest ++ es = between ++
        .wrote (Request.diagnostic id uri) :: .resolved (.pull name) outcome :: (later ++ es) := by
      simp [resolved]
    exact .returned more
  | @unsent between later lost =>
    have more : rest ++ es = between ++ .lost (Request.diagnostic id uri) :: (later ++ es) := by simp [lost]
    exact .unsent more

def KeepsAsking (c after : Client) (es : List Event) : Prop :=
  ∀ id name uri rest outcome, c.asking = some ⟨id, name, uri, some outcome⟩ →
    Told after id name uri (rest ++ es) outcome

theorem keepsAsking {es : List Event} (asking : after.asking = c.asking) : KeepsAsking c after es :=
  fun _ _ _ _ _ own => .unreturned (asking.trans own)

theorem promptLater {es : List Event} (prompt : Prompt c) (log : after.log = c.log ++ es)
    (kept : KeepsAsking c after es)
    (new : ∀ first id result error rest name uri,
      es = first ++ .heard (.response id result error) :: rest → Asking (c.log ++ first) id name uri →
        ∃ outcome, Told after id name uri rest outcome ∧
          Yields (c.log ++ first ++ [.heard (.response id result error)]) uri error outcome) :
    Prompt after := by
  intro before id result error rest name uri split asking
  rw [log] at split
  rcases splitAppend split with ⟨short, same, early⟩ | ⟨first, same, late⟩
  · obtain ⟨outcome, told, yields⟩ := prompt before id result error short name uri early asking
    exact ⟨outcome, same ▸ toldLater told (kept id name uri short outcome), yields⟩
  · subst same
    exact new first id result error rest name uri late asking

theorem promptSilent {es : List Event} (prompt : Prompt c) (log : after.log = c.log ++ es)
    (kept : KeepsAsking c after es) (silent : ∀ id, Unheard id es) : Prompt after :=
  promptLater prompt log kept fun _ id result error _ _ _ split =>
    absurd (splitMember split) (silent id result error)

theorem promptAnswer {id : Int} {result : Option Json} {error : Option ResponseError} {name uri : String}
    {es : List Event} (reached : Reached config nextId c) (prompt : Prompt c)
    (latest : Latest c.log uri (c.store.get? uri)) (owner : c.router.owner? id = some (.pull name uri))
    (log : after.log = c.log ++ .heard (.response id result error) :: es) (silent : ∀ id, Unheard id es)
    (store : after.store = keep uri (Router.outcome result error) c.store)
    (kept : KeepsAsking c after (.heard (.response id result error) :: es))
    (told : Told after id name uri es
      (pullOutcome (Router.outcome result error) ((after.store.get? uri).getD []))) : Prompt after := by
  have increasing := (reachedNumbered reached).increasing
  have asking := (reachedAwaits reached id _).mp owner
  have stored := storedLatest (answerStored result error increasing asking c.store uri) latest
  refine promptLater prompt log kept fun first id' result' error' rest name' uri' split asking' => ?_
  cases first with
  | cons e first => exact absurd (splitMember (List.cons.inj split).2) (silent id' result' error')
  | nil =>
    obtain ⟨own, rfl⟩ := List.cons.inj split
    cases own
    rw [List.append_nil] at asking' ⊢
    obtain ⟨rfl, rfl⟩ := askingSame increasing asking asking'
    refine ⟨_, told, ?_⟩
    cases error with
    | some e => exact .failed
    | none => exact .items (store ▸ stored)

theorem askedPrompt (reached : Reached config nextId c) (unstopped : c.phase ≠ .stopped)
    (prompt : Prompt c) (asked : Asked c after) : Prompt after := by
  have aside {es : List Event} (aside : Aside es) (id : Int) : Unheard id es := fun result error member =>
    by cases aside _ member
  have foreign {id result error} {es : List Event} (unknown : ∀ name uri, c.router.owner? id ≠ some (.pull name uri))
      (log : after.log = c.log ++ .heard (.response id result error) :: es) (silent : ∀ id, Unheard id es)
      (asking : after.asking = c.asking) : Prompt after := by
    refine promptLater prompt log (keepsAsking asking) fun first id' result' error' rest name uri split own => ?_
    cases first with
    | cons e first => exact absurd (splitMember (List.cons.inj split).2) (silent id' result' error')
    | nil =>
      cases (List.cons.inj split).1
      exact absurd (askingOwner reached (by simpa using own)) (unknown name uri)
  cases asked with
  | nothing log quiet next still => exact promptSilent prompt log (keepsAsking still.asking) (aside quiet)
  | introduced log next tried idle free still =>
    refine promptSilent prompt log (keepsAsking still.asking) fun id result error member => ?_
    rcases tried with rfl | rfl <;> simp at member
  | heard unknown log quiet next still => exact foreign (by simp [unknown]) log (aside quiet) still.asking
  | refused log next still => exact promptSilent prompt log (keepsAsking still.asking) (by simp [Unheard])
  | opened running idle free log =>
    exact promptSilent prompt log (fun _ _ _ _ _ own => by cases idle.symm.trans own) (by simp [Unheard])
  | @sent a asking log =>
    refine promptSilent prompt log (fun id name uri rest outcome own => ?_) fun id result error member => ?_
    · cases asking.symm.trans own
      exact .returned rfl
    · rw [Pull.news] at member
      simp at member
  | unsent asking log =>
    refine promptSilent prompt log (fun id name uri rest outcome own => ?_) (by simp [Unheard])
    cases asking.symm.trans own
    exact .unsent rfl
  | stopping registered log next pending asking | stoppingLost registered log next pending asking =>
    exact promptSilent prompt log (keepsAsking asking) (by simp [Unheard])
  | @forestalled id result error name uri owner own log store next pending asking =>
    have sending := reachedSending reached
    have told := asking.trans (earlyAsking sending owner own)
    refine promptAnswer reached prompt (reachedLatest reached unstopped uri) owner log (by simp [Unheard]) store
      (fun id' name' uri' rest outcome early => ?_) (.unreturned told)
    -- the slot is still there, so nothing came before
    obtain ⟨a, asks, rfl⟩ := asksIff.mp own
    have waits := (sending.early a asks).mpr (by simp [owner])
    cases asks.symm.trans early
    cases waits
  | @answered id result error name uri owner apart log store next pending asking =>
    exact promptAnswer reached prompt (reachedLatest reached unstopped uri) owner log (by simp [Unheard]) store
      (keepsAsking asking) (.atOnce rfl)
  | released owner log next pending asking =>
    exact foreign (by simp [owner]) log (by simp [Unheard]) asking
  | ended log next pending asking =>
    refine promptSilent prompt log (fun id name uri rest outcome own => ?_) fun id result error member => ?_
    · have free : c.router.owner? id = none := by
        rw [← Option.not_isSome_iff_eq_none, ← (reachedSending reached).early _ own]
        simp
      exact .unreturned ((asking.trans (heedless own free)).trans own)
    · rcases List.mem_cons.mp member with same | forsaken
      · cases same
      · obtain ⟨name, same⟩ := forsakenPull forsaken
        cases same

theorem reachedPrompt (reached : Reached config nextId c) (unstopped : c.phase ≠ .stopped) : Prompt c := by
  induction reached with
  | new => exact fun before id result error rest name uri split => by simp [new] at split
  | @turn c after before turn ih =>
    have earlier : c.phase ≠ .stopped := fun stopped => unstopped (turnStopped stopped turn)
    exact askedPrompt before earlier (ih earlier) (reachedAsked before turn)

structure Shelf (c : Client) : Prop where
  last : c.phase ≠ .stopped → ∀ uri, Latest c.deeds uri (c.store.get? uri)
  -- one event puts one thing in one place
  alone : ∀ before e rest uri uri' entry entry', c.deeds = before ++ e :: rest →
    Puts before uri e entry → Puts before uri' e entry' → uri = uri' ∧ entry = entry'
  -- whatever happens next, what no event touches stays, also when the start fails
  still : c.phase ≠ .stopping → ∀ move uri es, (c.perform move).deeds = c.deeds ++ es →
    Untouched c.deeds uri es → (c.perform move).store.get? uri = c.store.get? uri
  prompt : c.phase ≠ .stopped → Prompt c.quiet

theorem stillUntouched {log es : List Event} {uri : String} {old new : Option (List Diagnostic)}
    (stored : Stored log es uri old new) (still : Untouched log uri es) : new = old := by
  rcases stored with ⟨_, same⟩ | ⟨first, e, last, split, puts, _⟩
  · exact same
  · exact absurd puts (still first e last new split)

theorem shelved (config : Config) (nextId : Int) (moves : List Move) :
    Shelf ((new config nextId).play moves) := by
  have reached := playReached config nextId moves
  generalize (new config nextId).play moves = c at reached
  exact {
    last := fun unstopped uri => reachedLatest reached unstopped uri
    alone := fun before e rest uri uri' entry entry' split puts puts' =>
      putsAlone (increasingPart (reachedNumbered reached).increasing split) puts puts'
    still := fun active move uri es log untouched => by
      obtain ⟨es', log', ⟨stopping, _⟩ | stored⟩ :=
        shelvesStored reached (reachedShelves reached (reachedTurn reached move))
      · exact absurd stopping active
      · have same : es' = es := List.append_cancel_left (log'.symm.trans log)
        exact stillUntouched (same ▸ stored uri) untouched
    prompt := fun unstopped => reachedPrompt reached unstopped }

end Client
end LspClient
