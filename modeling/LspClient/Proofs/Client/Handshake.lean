import LspClient.Proofs.Client.Correlation
import LspClient.Proofs.Client.Effects
import LspClient.Proofs.Client.Intake
import LspClient.Proofs.Client.Replies

/-! Only the response to the first request decides the handshake. Until it comes the client is starting; what else
the server says meanwhile does what it would do later; and a second response under that number does nothing. -/
namespace LspClient.Client

variable {config : Config} {nextId : Int} {c after : Client} {id : Int}

theorem takenGrows {m : Message} (taken : Taken c m after) : ∃ es, after.log = c.log ++ es := by
  cases taken with
  | request => rcases triedCases _ c with ⟨_, same⟩ | ⟨_, same⟩ <;> rw [same] <;> exact ⟨_, rfl⟩
  | ready | readyLost => exact ⟨_, List.append_assoc _ _ _⟩
  | pullAnswered => exact ⟨_, rfl⟩
  | published | other | unasked | pullForestalled | shutdownAnswered | rejected | tooLate =>
    exact ⟨[], (List.append_nil _).symm⟩

theorem hearingsGrown {log es : List Event} (same : hearings (log ++ es) = hearings log) : hearings es = [] := by
  rw [hearingsAppend] at same
  exact List.append_cancel_left (same.trans (List.append_nil _).symm)

inductive Hears (c after : Client) : Prop where
  | nothing {es} (log : after.log = c.log ++ es) (deaf : hearings es = [])
  | one {m es s rest} (listening : c.listening = true) (log : after.log = c.log ++ .heard m :: es)
      (deaf : hearings es = []) (taken : Taken ((c.readOn s rest).note (.heard m)) m after)

theorem reachedHears (reached : Reached config nextId c) (turn : Turn c after) : Hears c after := by
  have hushed (same : hearings after.log = hearings c.log) : Hears c after := by
    obtain ⟨es, log⟩ := askedLog (reachedAsked reached turn)
    exact .nothing log (hearingsGrown (log ▸ same))
  cases turn with
  | @taken s rest m after listening server hearing =>
    obtain ⟨es, log⟩ := takenGrows hearing
    have deaf := hearingsGrown (log ▸ (takenHushed hearing).hearings)
    exact .one listening (log.trans (List.append_assoc _ _ _)) deaf hearing
  | host held free done => exact hushed (calledHushed done).hearings
  | orphaned => exact hushed (hearingsSame (deathHearings _))
  | gaveUp => exact hushed (failedHushed _ c).hearings
  | parted =>
    have ended : hearings (c.log ++ [.ended]) = hearings c.log := hearingsSame rfl
    exact hushed ((hearingsSame (forsakenHearings c)).trans ended)
  | exitTold => rcases triedCases Request.exit c with ⟨_, same⟩ | ⟨_, same⟩ <;> exact hushed (same ▸ hearingsSame rfl)
  | @pullSent a =>
    have silent : hearings (.wrote (Request.diagnostic a.id a.uri) ::
        (a.news ++ [.called (.pull a.name a.uri) .nothing])) = [] := by
      rw [← List.singleton_append, hearingsAppend, hearingsAppend, newsHearings]
      rfl
    exact hushed (hearingsSame silent)
  | pullOpened | pullShut | pullLost | spawned | introduced | introduceLost | lost | stopVoid | shutdownOpened
    | shutdownShut | shutdownSent | shutdownLost | finished => exact hushed (hearingsSame rfl)
  | idle | spawnRefused | skipped | exitUntold | served | elsewhere => exact hushed rfl

theorem hearsSplit {m : Message} {before rest : List Event} (hears : Hears c after)
    (split : after.log = before ++ .heard m :: rest) :
    (∃ short, c.log = before ++ .heard m :: short ∧ ∃ es, after.log = c.log ++ es) ∨
      c.log = before ∧ ∃ s left, Taken ((c.readOn s left).note (.heard m)) m after := by
  have absent {es} (deaf : hearings es = []) (heard : .heard m ∈ es) : False := by
    have member := heardMember.mpr heard
    rw [deaf] at member
    cases member
  cases hears with
  | @nothing es log deaf =>
    rcases splitAppend (log.symm.trans split) with ⟨short, _, old⟩ | ⟨first, _, new⟩
    · exact .inl ⟨short, old, es, log⟩
    · exact (absent deaf (splitMember new)).elim
  | @one own es s left listening log deaf taken =>
    rcases splitAppend (log.symm.trans split) with ⟨short, _, old⟩ | ⟨first, start, new⟩
    · exact .inl ⟨short, old, _, log⟩
    · cases first with
      | nil =>
        obtain ⟨same, _⟩ := List.cons.inj new
        cases same
        rw [List.append_nil] at start
        exact .inr ⟨start.symm, s, left, taken⟩
      | cons e first =>
        obtain ⟨_, new⟩ := List.cons.inj new
        exact (absent deaf (splitMember new)).elim

theorem reachedDeaf (reached : Reached config nextId c) (unopened : c.Unopened) : hearings c.log = [] := by
  induction reached with
  | new => rfl
  | @turn c after before turn ih =>
    have earlier := saidUnopened (reachedSaid before turn) unopened
    cases reachedHears before turn with
    | nothing log deaf => rw [log, hearingsAppend, ih earlier, deaf]; rfl
    | one listening => exact absurd earlier (listeningOpened listening)

theorem turnHandshake (turn : Turn c after) (link : after.link = .handshake id) : c.link = .handshake id ∨
    c.link = .launched ∧ after.log = c.log ++ [.wrote (introduction c.config id)] := by
  cases turn with
  | host held free done =>
    cases done with
    | start => cases link
    | _ => exact .inl link
  | taken listening server hearing =>
    cases hearing with
    | request =>
      rw [triedLink] at link
      exact .inl link
    | rejected | tooLate | readyLost | ready => cases link
    | _ => exact .inl link
  | introduced waiting =>
    cases link
    exact .inr ⟨waiting, rfl⟩
  | spawned | spawnRefused | orphaned | introduceLost | gaveUp | lost | parted => cases link
  | exitTold => exact .inl ((triedLink _ _).symm.trans link)
  | _ => exact .inl link

theorem takenLeaves {result error} (taken : Taken c (.response id result error) after)
    (awaited : c.link = .handshake id) : after.link = .pumping ∨ ∃ failure, after.link = .failing failure := by
  cases taken with
  | ready => exact .inl rfl
  | rejected | tooLate | readyLost => exact .inr ⟨_, rfl⟩
  | unasked foreign | pullForestalled foreign | pullAnswered foreign | shutdownAnswered foreign =>
    exact absurd awaited foreign

theorem reachedIntroduced (reached : Reached config nextId c) (link : c.link = .handshake id) :
    .wrote (introduction config id) ∈ c.log ∧ Unheard id c.log := by
  induction reached with
  | new => cases link
  | @turn c after before turn ih =>
    rcases turnHandshake turn link with earlier | ⟨launched, log⟩
    · obtain ⟨wrote, unheard⟩ := ih earlier
      cases reachedHears before turn with
      | nothing log deaf =>
        rw [log, unheardAppend]
        exact ⟨List.mem_append_left _ wrote, unheard, deafUnheard deaf id⟩
      | @one m es s rest listening log deaf taken =>
        -- to hear the response would have ended the handshake
        rw [log, unheardAppend]
        refine ⟨List.mem_append_left _ wrote, unheard, fun result error member => ?_⟩
        rcases List.mem_cons.mp member with same | member
        · cases same
          rcases takenLeaves taken earlier with other | ⟨_, other⟩ <;> cases other.symm.trans link
        · exact deafUnheard deaf id result error member
    · -- the number is new, yet a response with it could have come before; but nothing was heard so far
      have unheard : Unheard id c.log := deafUnheard (reachedDeaf before (.inr (.inr launched))) id
      rw [log, reachedConfig before, unheardAppend]
      exact ⟨List.mem_append_right _ (List.mem_singleton.mpr rfl), unheard, deafUnheard rfl id⟩

def Unlike (ms : List Message) : Prop := ∀ m ∈ ms, m.method? ≠ some "initialize"

theorem unlikeOpening (ds : List TextDocument) : Unlike (Request.initialized :: ds.map Request.didOpen) := by
  simp [Unlike, Request.initialized, Request.didOpen, Message.method?]

theorem unlikeTold {m es documents} (tell : Tell c m es documents) :
    Unlike (written (.wrote m :: es)) := by
  cases tell with
  | @pulled a =>
    rw [← List.singleton_append, writtenAppend, writtenAppend, muteWritten (muteNews a)]
    simp [Unlike, written, Request.diagnostic, Message.method?]
  | _ => simp [Unlike, written, Request.didOpen, Request.didChange, Request.didClose, Message.method?]

theorem saidIntroduces (said : Said c after) : (∃ es, after.log = c.log ++ es ∧ Unlike (written es)) ∨
    c.Unopened ∧ after.log = c.log ++ [.wrote (introduction c.config c.nextId)] ∧
      after.link = .handshake c.nextId := by
  have silent {es : List Event} (nothing : written es = []) : Unlike (written es) := by simp [Unlike, nothing]
  cases said with
  | nothing log mute => exact .inl ⟨_, log, silent (muteWritten mute)⟩
  | stuck log mute => exact .inl ⟨_, log, silent (lostWritten _ mute)⟩
  | edited edit log => exact .inl ⟨_, log, silent rfl⟩
  | told running pipe tell log => exact .inl ⟨_, log, unlikeTold tell⟩
  | @replied id method params pipe log =>
    obtain ⟨result, error, same⟩ := replyResponse id method params
    exact .inl ⟨_, log, by simp [Unlike, written, same, Message.method?]⟩
  | introduced unopened starting log opened phase queued documents link => exact .inr ⟨unopened, log, link⟩
  | ready starting awaited pipe log =>
    have done : written [.resolved .start .done] = [] := rfl
    exact .inl ⟨_, log, heardWritten done ▸ unlikeOpening c.queued⟩
  | @readyLost id result first m rest failure starting awaited clear split log =>
    have lost : written [.lost m] = [] := rfl
    have unlike : Unlike first := fun m' member =>
      unlikeOpening c.queued m' (split ▸ List.mem_append_left (m :: rest) member)
    exact .inl ⟨_, log, heardWritten lost ▸ unlike⟩
  | shutdown registered stopping pipe log =>
    exact .inl ⟨_, log, by simp [Unlike, written, Request.shutdown, Message.method?]⟩
  | exit waiting answered pipe log =>
    exact .inl ⟨_, log, by simp [Unlike, written, Request.exit, Message.method?]⟩

theorem reachedSole (reached : Reached config nextId c) {id' : Int}
    (wrote : .wrote (introduction config id) ∈ c.log) (wrote' : .wrote (introduction config id') ∈ c.log) :
    id = id' := by
  rw [memWritten] at wrote wrote'
  induction reached with
  | new => cases wrote
  | @turn c after before turn ih =>
    rcases saidIntroduces (reachedSaid before turn) with ⟨es, log, unlike⟩ | ⟨unopened, log, _⟩
    · rw [log, writtenAppend, List.mem_append] at wrote wrote'
      exact ih (wrote.resolve_right fun new => unlike _ new rfl) (wrote'.resolve_right fun new => unlike _ new rfl)
    · have only : written after.log = [introduction config c.nextId] := by
        rw [log, writtenAppend, ((reachedPiped before).unopened unopened).2, reachedConfig before]
        rfl
      rw [only, List.mem_singleton] at wrote wrote'
      have same := wrote.trans wrote'.symm
      rw [introduction, introduction, Request.introduce, Request.introduce] at same
      injection same

structure Unbroken (log : List Event) : Prop where
  lossless : Lossless log
  unended : .ended ∉ log
  kept : ¬ Dropped log

theorem unbrokenBefore {log es : List Event} (unbroken : Unbroken (log ++ es)) : Unbroken log where
  lossless := (losslessAppend.mp unbroken.lossless).1
  unended := fun member => unbroken.unended (List.mem_append_left es member)
  kept := fun ⟨answer, member⟩ => unbroken.kept ⟨answer, List.mem_append_left es member⟩

def Underway (c : Client) : Prop :=
  c.link = .launching none ∨ c.link = .launched ∨ ∃ id, c.link = .handshake id

def Poised (c : Client) : Prop := c.phase = .starting ∧ c.Underway

def Responded (config : Config) (log : List Event) : Prop :=
  ∃ id result error, .wrote (introduction config id) ∈ log ∧ .heard (.response id result error) ∈ log

theorem respondedLater {log : List Event} (responded : Responded config log) (es : List Event) :
    Responded config (log ++ es) := by
  obtain ⟨id, result, error, wrote, heard⟩ := responded
  exact ⟨id, result, error, List.mem_append_left es wrote, List.mem_append_left es heard⟩

theorem startPoised (coherent : Coherent c) (fresh : c.phase = .created) (turn : Turn c after)
    (log : after.log = c.log ++ [.called (.start none) .nothing]) : Poised after := by
  obtain ⟨idle, unstopped, detached⟩ := coherent.created fresh
  have deaf : c.listening ≠ true := by simp [Client.listening, idle]
  cases turn with
  | @host call answer after held free done =>
    have last : [Event.called call answer] = [.called (.start none) .nothing] := (List.append_inj' log rfl).2
    cases last
    cases done with
    | start => exact ⟨rfl, .inl rfl⟩
  | skipped listening | taken listening => exact absurd listening deaf
  | spawnRefused waiting | spawned waiting | orphaned waiting | introduced waiting | introduceLost waiting
    | gaveUp waiting | lost waiting | parted waiting => cases idle.symm.trans waiting
  | stopVoid waiting | shutdownSent waiting | shutdownLost waiting | exitTold waiting | exitUntold waiting
    | finished waiting => cases unstopped.symm.trans waiting
  | pullOpened held free running | pullShut held free running | shutdownOpened requested running
    | shutdownShut requested running => cases fresh.symm.trans running
  | pullSent asking | pullLost asking => cases (unaskedPhase coherent (by simp [fresh])).symm.trans asking
  | idle | served | elsewhere => simp at log

theorem turnStarts (reached : Reached config nextId c) (turn : Turn c after)
    (started : .called (.start none) .nothing ∈ after.log) :
    .called (.start none) .nothing ∈ c.log ∨ Poised after := by
  cases reachedTicketed reached turn with
  | @beside es log beside alike =>
    rw [log, List.mem_append] at started
    exact started.imp_right fun new => by cases beside _ new
  | @starting refused log fresh =>
    rw [log, List.mem_append, List.mem_singleton] at started
    refine started.imp_right fun new => ?_
    cases new
    exact startPoised (reachedCoherent reached) fresh turn log
  | @started es outcome log beside =>
    rw [log, List.mem_append, List.mem_append, List.mem_singleton] at started
    refine started.imp_right fun new => ?_
    rcases new with new | other
    · cases beside _ new
    · cases other
  | stopping log | stoppedAtOnce log | stopped log =>
    rw [log, List.mem_append] at started
    exact started.imp_right fun new => by simp at new

theorem poisedTaken {m : Message} (poised : Poised c) (taken : Taken c m after) : Poised after ∨
    ∃ id result error, c.link = .handshake id ∧ m = .response id result error := by
  cases taken with
  | request =>
    rw [Poised, Underway, triedPhase, triedLink]
    exact .inl poised
  | rejected awaited => exact .inr ⟨_, _, _, awaited, rfl⟩
  | tooLate awaited => exact .inr ⟨_, _, _, awaited, rfl⟩
  | readyLost awaited => exact .inr ⟨_, _, _, awaited, rfl⟩
  | ready awaited => exact .inr ⟨_, _, _, awaited, rfl⟩
  | _ => exact .inl poised

theorem noteMember (e : Event) (c : Client) : e ∈ (c.note e).log :=
  List.mem_append_right _ (List.mem_singleton.mpr rfl)

theorem poisedCalled {call answer} (poised : Poised c) (kept : ¬ Dropped (after.note (.called call answer)).log)
    (done : Called c call answer after) : Poised after := by
  cases done with
  | start fresh | stopUnstarted fresh => cases fresh.symm.trans poised.1
  | drop => exact absurd ⟨_, noteMember _ _⟩ kept
  | _ => exact poised

theorem poisedTurn (reached : Reached config nextId c) (poised : Poised c) (unbroken : Unbroken after.log)
    (turn : Turn c after) : Poised after ∨ Responded config after.log := by
  obtain ⟨starting, link⟩ := poised
  obtain ⟨lossless, unended, kept⟩ := unbroken
  have grown := askedLog (reachedAsked reached turn)
  cases turn with
  | host held free done =>
    have poised := poisedCalled ⟨starting, link⟩ kept done
    exact .inl poised
  | @taken s rest m after listening server hearing =>
    have poised : Poised ((c.readOn s rest).note (.heard m)) := ⟨starting, link⟩
    refine (poisedTaken poised hearing).imp_right ?_
    rintro ⟨id, result, error, awaited, rfl⟩
    obtain ⟨es, log⟩ := takenGrows hearing
    obtain ⟨wrote, _⟩ := reachedIntroduced reached awaited
    refine ⟨id, result, error, ?_, ?_⟩ <;> simp [log, note, readOn, wrote]
  | spawnRefused waiting | gaveUp waiting => simp [Underway, waiting] at link
  | spawned => exact .inl ⟨starting, .inr (.inl rfl)⟩
  | introduced => exact .inl ⟨starting, .inr (.inr ⟨_, rfl⟩)⟩
  | orphaned waiting gone => exact absurd starting gone
  | introduceLost => exact absurd (noteMember _ c) (lossless _)
  | lost => exact absurd (noteMember _ _) unended
  | parted pumping => simp [Underway, pumping] at link
  | pullOpened held free running | pullShut held free running | shutdownOpened requested running
    | shutdownShut requested running => cases starting.symm.trans running
  | pullSent asking | pullLost asking =>
    cases (unaskedPhase (reachedCoherent reached) (by simp [starting])).symm.trans asking
  | shutdownSent waiting | shutdownLost waiting =>
    cases starting.symm.trans (teardownStopping (reachedCoherent reached) (.inl ⟨_, waiting⟩))
  | finished waiting =>
    cases starting.symm.trans (teardownStopping (reachedCoherent reached) (.inr (.inr waiting)))
  | exitTold waiting =>
    cases starting.symm.trans (teardownStopping (reachedCoherent reached) (.inr (.inl ⟨_, waiting⟩)))
  | idle | skipped | stopVoid | exitUntold | served | elsewhere => exact .inl ⟨starting, link⟩

theorem reachedPoised (reached : Reached config nextId c) (started : .called (.start none) .nothing ∈ c.log)
    (unbroken : Unbroken c.log) : Poised c ∨ Responded config c.log := by
  induction reached with
  | new => cases started
  | @turn c after before turn ih =>
    obtain ⟨es, log⟩ := askedLog (reachedAsked before turn)
    rcases turnStarts before turn started with earlier | poised
    · rcases ih earlier (unbrokenBefore (log ▸ unbroken)) with poised | responded
      · exact poisedTurn before poised unbroken turn
      · exact .inr (log ▸ respondedLater responded es)
    · exact .inl poised

theorem turnUnderway (turn : Turn c after) (underway : after.Underway) :
    c.Underway ∨ .called (.start none) .nothing ∈ after.log := by
  cases turn with
  | host held free done =>
    cases done with
    | start =>
      rcases underway with link | link | ⟨id, link⟩ <;> cases link
      exact .inr (noteMember _ _)
    | _ => exact .inl underway
  | taken listening server hearing =>
    cases hearing with
    | request =>
      rw [Underway, triedLink] at underway
      exact .inl underway
    | rejected | tooLate | readyLost | ready => rcases underway with link | link | ⟨id, link⟩ <;> cases link
    | _ => exact .inl underway
  | spawned waiting => exact .inl (.inl waiting)
  | introduced waiting => exact .inl (.inr (.inl waiting))
  | spawnRefused | orphaned | introduceLost | gaveUp | lost | parted =>
    rcases underway with link | link | ⟨id, link⟩ <;> cases link
  | exitTold =>
    simp only [Underway, triedLink] at underway
    exact .inl underway
  | _ => exact .inl underway

theorem underwayStarted (reached : Reached config nextId c) (underway : c.Underway) :
    .called (.start none) .nothing ∈ c.log := by
  induction reached with
  | new => rcases underway with link | link | ⟨id, link⟩ <;> cases link
  | @turn c after before turn ih =>
    obtain ⟨es, log⟩ := askedLog (reachedAsked before turn)
    rcases turnUnderway turn underway with earlier | now
    · exact log ▸ List.mem_append_left es (ih earlier)
    · exact now

theorem introducedStarted (reached : Reached config nextId c) (wrote : .wrote (introduction config id) ∈ c.log) :
    .called (.start none) .nothing ∈ c.log := by
  induction reached with
  | new => cases wrote
  | @turn c after before turn ih =>
    rcases saidIntroduces (reachedSaid before turn) with ⟨es, log, unlike⟩ | ⟨_, _, handshake⟩
    · rw [log, List.mem_append] at wrote
      rw [log]
      exact List.mem_append_left es (ih (wrote.resolve_right fun new => unlike _ (memWritten.mp new) rfl))
    · exact underwayStarted (.turn before turn) (.inr (.inr ⟨_, handshake⟩))

structure Awaiting (config : Config) (id : Int) (log : List Event) : Prop where
  wrote : .wrote (introduction config id) ∈ log
  unheard : Unheard id log
  unbroken : Unbroken log

theorem awaitingLink (reached : Reached config nextId c) (awaiting : Awaiting config id c.log) :
    c.phase = .starting ∧ c.link = .handshake id := by
  obtain ⟨wrote, unheard, unbroken⟩ := awaiting
  have started := introducedStarted reached wrote
  rcases reachedPoised reached started unbroken with ⟨starting, link⟩ | ⟨id', result, error, wrote', heard⟩
  · have opened (unopened : c.Unopened) : False := by
      rw [memWritten, ((reachedPiped reached).unopened unopened).2] at wrote
      cases wrote
    rcases link with link | link | ⟨id', link⟩
    · exact (opened (.inr (.inl ⟨_, link⟩))).elim
    · exact (opened (.inr (.inr link))).elim
    · exact ⟨starting, reachedSole reached wrote (reachedIntroduced reached link).1 ▸ link⟩
  · cases reachedSole reached wrote wrote'
    exact absurd heard (unheard result error)

structure Condemned (failure : Failure) (c : Client) : Prop where
  only : ∀ more outcome, .resolved .start outcome ∈ (c.play more).deeds → outcome = .failed failure
  told : ∀ more, (c.play more).Resting → .resolved .start (.failed failure) ∈ (c.play more).deeds
  idle : ∀ more, (c.play more).phase ≠ .running

theorem onlyOne {es : List Event} {p : Event → Bool} {e e' : Event} (one : es.countP p ≤ 1) (member : e ∈ es)
    (member' : e' ∈ es) (own : p e = true) (own' : p e' = true) : e = e' := by
  rw [List.countP_eq_length_filter] at one
  have filtered : e ∈ es.filter p := List.mem_filter.mpr ⟨member, own⟩
  have filtered' : e' ∈ es.filter p := List.mem_filter.mpr ⟨member', own'⟩
  generalize es.filter p = same at one filtered filtered'
  cases same with
  | nil => cases filtered
  | cons _ rest =>
    obtain rfl : rest = [] := List.length_eq_zero_iff.mp (by simpa using one)
    exact (List.mem_singleton.mp filtered).trans (List.mem_singleton.mp filtered').symm

theorem failingResolves {failure : Failure} (reached : Reached config nextId c.quiet)
    (failing : c.link = .failing failure) (more : List Move) :
    (c.play more).link = .failing failure ∨ .resolved .start (.failed failure) ∈ (c.play more).deeds := by
  induction more generalizing c with
  | nil => exact .inl failing
  | cons move more ih =>
    have turn := reachedTurn reached move
    rcases turnFailing (c := c.quiet) (reachedCoherent reached) failing turn with still | failed
    · exact ih (performReached reached move) still
    · obtain ⟨es, log⟩ := deedsGrow more (c.perform move)
      have told : (c.perform move).deeds = c.deeds ++ failureNotes failure c.quiet :=
        (congrArg Client.log failed).trans (failureLog failure c.quiet)
      have grown : (c.play (move :: more)).deeds = (c.perform move).deeds ++ es := log
      exact .inr (by simp [grown, told, failureNotes])

theorem failingCondemned {failure : Failure} (reached : Reached config nextId c.quiet)
    (failing : c.link = .failing failure) : Condemned failure c where
  only more outcome member := by
    have later := playOn reached more
    have balanced := reachedBalanced later .start
    have single : (c.play more).deeds.countP (issues .start) ≤ 1 := (reachedSingle later).start
    have owed : (c.play more).deeds.countP (issues .start) =
      (c.play more).deeds.countP (settles .start) + (c.play more).link.owed := balanced
    have settled : 0 < (c.play more).deeds.countP (settles .start) := List.countP_pos_iff.mpr ⟨_, member, rfl⟩
    rcases failingResolves reached failing more with still | told
    · rw [still, Link.owed] at owed
      omega
    · have once : (c.play more).deeds.countP (settles .start) ≤ 1 := by omega
      have same := onlyOne once member told rfl rfl
      injection same
  told more resting := by
    refine (failingResolves reached failing more).resolve_left fun still => ?_
    have kept := congrArg Client.link (resting .giveUp rfl)
    rw [still, perform, giveUp, still] at kept
    cases kept
  idle := by
    refine deafenedIdle reached (.inr ⟨failure, failing⟩) fun running => ?_
    have coherent := quietCoherent (reachedCoherent reached)
    rcases (coherent.running running).2.1 with link | link <;> cases failing.symm.trans link

def Ruled (result : Option Json) : Option ResponseError → Client → Prop
  | some e, c => Condemned (.handshake e.code e.message) c
  | none, c =>
    c.phase = .running ∧ c.capabilities = .ofResult (result.getD .null) ∧ .resolved .start .done ∈ c.log

theorem takenFails {result} {e : ResponseError} (awaited : c.link = .handshake id)
    (taken : Taken c (.response id result (some e)) after) :
    after.link = .failing (.handshake e.code e.message) := by
  cases taken with
  | unasked foreign | pullForestalled foreign | pullAnswered foreign | shutdownAnswered foreign =>
    exact absurd awaited foreign
  | rejected => rfl

theorem takenReadies {result} (awaited : c.link = .handshake id) (starting : c.phase = .starting)
    (lossless : Lossless after.log) (taken : Taken c (.response id result none) after) :
    Ruled result none after := by
  cases taken with
  | unasked foreign | pullForestalled foreign | pullAnswered foreign | shutdownAnswered foreign =>
    exact absurd awaited foreign
  | tooLate _ gone => exact absurd starting gone
  | @readyLost _ _ _ first m => exact absurd (by simp) (lossless m)
  | ready => exact ⟨rfl, rfl, List.mem_append_right _ (List.mem_singleton.mpr rfl)⟩

theorem ruledQuiet {result} (ruled : Ruled result none c.quiet) : Ruled result none c :=
  ⟨ruled.1, ruled.2.1, (List.mem_filter.mp ruled.2.2).1⟩

theorem takenRules {s : Server} {left : Utf8.Octets} {result error} (reached : Reached config nextId after.quiet)
    (awaited : c.link = .handshake id) (starting : c.phase = .starting) (lossless : Lossless after.quiet.log)
    (taken : Taken ((c.readOn s left).note (.heard (.response id result error))) (.response id result error)
      after.quiet) : Ruled result error after := by
  cases error with
  | some e =>
    have link : after.quiet.link = .failing (.handshake e.code e.message) :=
      takenFails (c := (c.readOn s left).note _) awaited taken
    exact failingCondemned reached link
  | none => exact ruledQuiet (takenReadies (c := (c.readOn s left).note _) awaited starting lossless taken)

/-- The moves up to here bring the first response, and the last of them makes of the client what it says. -/
def Ruling (config : Config) (nextId : Int) (moves : List Move) (before : List Event) (result : Option Json)
    (error : Option ResponseError) : Prop :=
  ∃ earlier move later, moves = earlier ++ move :: later ∧
    ((new config nextId).play earlier).deeds = before ∧ ((new config nextId).play earlier).phase = .starting ∧
      Ruled result error ((new config nextId).play (earlier ++ [move]))

theorem playRules {moves : List Move} {before rest : List Event} {result error}
    (split : ((new config nextId).play moves).deeds = before ++ .heard (.response id result error) :: rest)
    (awaiting : Awaiting config id before) (unbroken : Unbroken ((new config nextId).play moves).deeds) :
    Ruling config nextId moves before result error := by
  induction moves using List.reverseRecOn generalizing rest with
  | nil =>
    have member := splitMember split
    cases member
  | append_singleton moves move ih =>
    have reached := playReached config nextId moves
    rcases hearsSplit (reachedHears reached (playTurn config nextId moves move)) split with
      ⟨short, old, es, log⟩ | ⟨rfl, s, left, taken⟩
    · rw [← quietLog, log] at unbroken
      obtain ⟨first, own, later, rfl, found⟩ := ih old (unbrokenBefore unbroken)
      exact ⟨first, own, later ++ [move], by simp, found⟩
    · obtain ⟨starting, awaited⟩ := awaitingLink reached awaiting
      have ruled := takenRules (playReached config nextId (moves ++ [move])) awaited starting unbroken.lossless taken
      exact ⟨moves, move, [], rfl, rfl, starting, ruled⟩

theorem introducedUnowned (reached : Reached config nextId c) (wrote : .wrote (introduction config id) ∈ c.log) :
    c.router.owner? id = none := by
  cases owner : c.router.owner? id with
  | none => rfl
  | some waiting =>
    -- the slot that waits would have taken the same number as the first request
    obtain ⟨_, before, rest, split, _⟩ := (reachedAwaits reached id waiting).mp owner
    obtain ⟨earlier, later⟩ := numberOnce (reachedNumbered reached).increasing split rfl
    have own : id ∈ numbers [.wrote (introduction config id)] := by
      simp [numbers, introduction, Request.introduce, Event.number?, asked?]
    obtain ⟨e, only, number⟩ := List.mem_filterMap.mp own
    cases List.mem_singleton.mp only
    rw [split, List.mem_append, List.mem_cons] at wrote
    rcases wrote with member | other | member
    · exact absurd (List.mem_filterMap.mpr ⟨_, member, number⟩) earlier
    · cases other
    · exact absurd (List.mem_filterMap.mpr ⟨_, member, number⟩) later

theorem reachedLate (reached : Reached config nextId c.quiet) (wrote : .wrote (introduction config id) ∈ c.deeds)
    (heard : ¬ Unheard id c.deeds) (result : Option Json) (error : Option ResponseError) :
    c.hear (.response id result error) =
      (c.note (.heard (.response id result error))).traceMessage "Received" (.response id result error) := by
  have foreign : c.link ≠ .handshake id := fun awaited => heard (reachedIntroduced reached awaited).2
  have unknown : c.quiet.router.owner? id = none := introducedUnowned reached wrote
  rw [hearForeign]
  · exact dispatchUnknown (c := c.note (.heard (.response id result error))) unknown result error
  · rintro own result' error' ⟨⟩
    exact foreign

structure Decisive (config : Config) (nextId : Int) (moves : List Move) (c : Client) : Prop where
  waits : .called (.start none) .nothing ∈ c.deeds → Unbroken c.deeds →
    (∀ id, .wrote (introduction config id) ∈ c.deeds → Unheard id c.deeds) →
      c.phase = .starting ∧ ∀ outcome, .resolved .start outcome ∉ c.deeds
  decides : ∀ id before result error rest, c.deeds = before ++ .heard (.response id result error) :: rest →
    Awaiting config id before → Unbroken c.deeds → Ruling config nextId moves before result error
  -- messages have the same effect before the response as after it
  swaps : ∀ id answer result bodies, Awaiting config id c.deeds →
    Message.parse? answer = some (.response id result none) → (∀ body ∈ bodies, Foreign id body) →
      Lossless ((c.receive answer).receiveAll bodies).deeds →
        ∃ e : Effect, c.receiveAll bodies = e.on c ∧
          (c.receive answer).receiveAll bodies = e.on (c.receive answer) ∧
          ∃ ruling, (c.receive answer).log = c.log ++ ruling ∧ (c.receiveAll bodies).receive answer =
            {(c.receive answer).receiveAll bodies with log := c.log ++ (e.events ++ ruling)}
  late : ∀ id result error, .wrote (introduction config id) ∈ c.deeds → ¬ Unheard id c.deeds →
    c.hear (.response id result error) =
      (c.note (.heard (.response id result error))).traceMessage "Received" (.response id result error)

theorem decisive (config : Config) (nextId : Int) (moves : List Move) :
    Decisive config nextId moves ((new config nextId).play moves) := by
  have reached := playReached config nextId moves
  have decided := reachedDecided reached
  exact {
    waits := fun started unbroken unheard => by
      rcases reachedPoised reached started unbroken with poised | ⟨id, result, error, wrote, heard⟩
      · exact ⟨poised.1, decided.undecided (.inr poised.1)⟩
      · exact absurd heard (unheard id wrote result error)
    decides := fun id before result error rest split awaiting unbroken => playRules split awaiting unbroken
    swaps := fun id answer result bodies awaiting answers foreign lossless => by
      obtain ⟨starting, awaited⟩ := awaitingLink reached awaiting
      have free := unaskedPhase (reachedCoherent reached) (by simp [starting])
      exact receiveSwaps awaited starting free answers foreign (losslessDeeds.mp lossless)
    late := fun id result error wrote heard => reachedLate reached wrote heard result error }

-- a request under the number of the first request is no response to it
example : let c := (new default 1).play [.host (.start none), .spawn, .introduce]
    (c.hear (.request 1 "initialize" none)).phase = .starting ∧ (c.hear (.response 1 none none)).phase = .running := by
  decide

end LspClient.Client
