import LspClient.Proofs.Client.Pulls

/-! Tickets. Work that was taken on is finished once or still owed: a start while the link opens, a stop while
there is a teardown, a pull that has returned while a slot waits for it. `Ticketed` says what a turn does to the start and
to the stop. -/
namespace LspClient

def Link.owed : Link → Nat
  | .launching _ | .launched | .handshake _ | .failing _ => 1
  | .idle | .pumping | .closed => 0

def Teardown.owed : Teardown → Nat
  | .none => 0
  | _ => 1

def Event.isBeside : Event → Bool
  | .resolved .start _ | .resolved .stop _ | .called (.start _) .nothing | .called .stop _ => false
  | _ => true

namespace Client

variable {config : Config} {nextId : Int} {c after : Client}

def owes (c : Client) : Ticket → Nat
  | .start => c.link.owed
  | .stop => c.teardown.owed
  | .pull name => c.waiting (.pull name)

def Beside (es : List Event) : Prop := ∀ e ∈ es, e.isBeside = true

theorem besideNone : Beside [] := by simp [Beside]

theorem besideOne {e : Event} (beside : e.isBeside = true) : Beside [e] := by simpa [Beside] using beside

theorem besideAppend {first last : List Event} :
    Beside (first ++ last) ↔ Beside first ∧ Beside last := List.forall_mem_append

theorem besideCons {e : Event} {rest : List Event} (beside : e.isBeside = true) (others : Beside rest) :
    Beside (e :: rest) := List.forall_mem_cons.mpr ⟨beside, others⟩

theorem besideWrote (ms : List Message) : Beside (ms.map .wrote) := by
  intro e member
  obtain ⟨m, _, same⟩ := List.mem_map.mp member
  exact same ▸ rfl

theorem besideForsaken (c : Client) : Beside c.forsaken := everyForsaken (fun _ => rfl) c

theorem besideDeathNote (c : Client) : Beside c.deathNote := everyDeathNote rfl c

theorem openingOwed (opening : c.Opening) : c.link.owed = 1 := by
  rcases opening with ⟨refused, link⟩ | link | ⟨id, link⟩ | ⟨failure, link⟩ <;> rw [link] <;> rfl

theorem teardownOwed (busy : c.teardown ≠ .none) : c.teardown.owed = 1 := by
  cases h : c.teardown <;> simp_all [Teardown.owed]

structure Alike (c after : Client) : Prop where
  link : after.link.owed = c.link.owed
  teardown : after.teardown.owed = c.teardown.owed
  held : after.held = true → c.held = true
  phase : after.phase = .created → c.phase = .created

inductive Ticketed (c after : Client) : Prop where
  | beside {es} (log : after.log = c.log ++ es) (beside : Beside es) (alike : Alike c after)
  | starting {refused} (log : after.log = c.log ++ [.called (.start refused) .nothing])
      (fresh : c.phase = .created) (phase : after.phase ≠ .created) (free : c.link.owed = 0)
      (link : after.link.owed = 1) (teardown : after.teardown.owed = c.teardown.owed)
      (held : after.held = true → c.held = true)
  | started {es outcome} (log : after.log = c.log ++ (es ++ [.resolved .start outcome])) (beside : Beside es)
      (opening : c.link.owed = 1) (link : after.link.owed = 0)
      (teardown : after.teardown.owed = c.teardown.owed) (held : after.held = true → c.held = true)
      (phase : after.phase ≠ .created)
  | stopping (log : after.log = c.log ++ [.called .stop .nothing]) (holding : c.held = true)
      (held : after.held = false) (free : c.teardown.owed = 0) (teardown : after.teardown.owed = 1)
      (link : after.link.owed = c.link.owed) (phase : after.phase = .created → c.phase = .created)
  | stoppedAtOnce (log : after.log = c.log ++ [.resolved .stop .done, .called .stop .nothing])
      (holding : c.held = true) (held : after.held = false)
      (teardown : after.teardown.owed = c.teardown.owed) (link : after.link.owed = c.link.owed)
      (phase : after.phase = .created → c.phase = .created)
  | stopped (log : after.log = c.log ++ [.resolved .stop .done]) (waiting : c.teardown.owed = 1)
      (teardown : after.teardown.owed = 0) (link : after.link.owed = c.link.owed)
      (held : after.held = true → c.held = true) (phase : after.phase = .created → c.phase = .created)

theorem alikeSame (link : after.link = c.link) (teardown : after.teardown = c.teardown)
    (held : after.held = true → c.held = true) (phase : after.phase = .created → c.phase = .created) :
    Alike c after := ⟨by rw [link], by rw [teardown], held, phase⟩

theorem calledTicketed {call answer} (coherent : Coherent c) (holding : c.held = true)
    (done : Called c call answer after) : Ticketed c (after.note (.called call answer)) := by
  cases done with
  | start fresh =>
    have free : c.link.owed = 0 := by rw [(coherent.created fresh).1]; rfl
    exact .starting rfl fresh nofun free rfl rfl id
  | stop active =>
    have free : c.teardown.owed = 0 := by rw [coherent.held holding]; rfl
    exact .stopping rfl holding rfl free rfl rfl id
  | stopUnstarted => exact .stoppedAtOnce (List.append_assoc _ _ _) holding rfl rfl rfl nofun
  | stopOver => exact .stoppedAtOnce (List.append_assoc _ _ _) holding rfl rfl rfl id
  | drop =>
    exact .beside (List.append_assoc _ _ _) (besideAppend.mpr ⟨besideDeathNote c, besideOne rfl⟩)
      (alikeSame rfl rfl nofun nofun)
  | startAgain | openForeign | openOver | openAgain | openQueued | changeUnknown | changeOver | changeQueued
    | closeUnknown | closeUnsent => exact .beside rfl (besideOne rfl) (alikeSame rfl rfl id id)
  | openSent | openLost | changeSent | changeLost | closeSent | closeLost | pullIdle =>
    exact .beside (List.append_assoc _ _ _) (besideAppend.mpr ⟨besideOne rfl, besideOne rfl⟩)
      (alikeSame rfl rfl id id)

theorem takenTicketed {m} {s : Server} {rest}
    (taken : Taken ((c.readOn s rest).note (.heard m)) m after) : Ticketed c after := by
  have opening {id : Int} (awaited : c.link = .handshake id) : c.link.owed = 1 :=
    openingOwed (.inr (.inr (.inl ⟨id, awaited⟩)))
  cases taken with
  | @request asked method params =>
    rcases triedCases (Router.replyTo asked method params)
      ((c.readOn s rest).note (.heard (.request asked method params))) with ⟨_, same⟩ | ⟨_, same⟩ <;>
    · rw [same]
      exact .beside (List.append_assoc _ [_] [_]) (besideAppend.mpr ⟨besideOne rfl, besideOne rfl⟩)
        (alikeSame rfl rfl id id)
  | published | other | unasked | pullForestalled | shutdownAnswered =>
    exact .beside (heardLog s rest _ c) (besideOne rfl) (alikeSame rfl rfl id id)
  | pullAnswered =>
    exact .beside (List.append_assoc _ [_] [_]) (besideAppend.mpr ⟨besideOne rfl, besideOne rfl⟩)
      (alikeSame rfl rfl id id)
  | rejected awaited | tooLate awaited =>
    exact .beside (heardLog s rest _ c) (besideOne rfl) ⟨(opening awaited).symm, rfl, id, id⟩
  | @readyLost asked result failure first m rest' awaited =>
    exact .beside (openedLog s rest _ c _ _)
      (besideAppend.mpr ⟨besideCons rfl (besideWrote first), besideOne rfl⟩) ⟨(opening awaited).symm, rfl, id, id⟩
  | @ready asked result awaited starting clear =>
    exact .started (openedLog s rest _ c _ _) (besideCons rfl (besideWrote _)) (opening awaited) rfl rfl id
      (by simp)

theorem turnTicketed (coherent : Coherent c) (turn : Turn c after) : Ticketed c after := by
  cases turn with
  | host holding free done => exact calledTicketed coherent holding done
  | taken listening server hearing => exact takenTicketed hearing
  | idle | skipped | served | elsewhere =>
    exact .beside (List.append_nil _).symm besideNone (alikeSame rfl rfl id id)
  | spawnRefused waiting =>
    have opening := openingOwed (.inl ⟨_, waiting⟩)
    exact .beside (List.append_nil _).symm besideNone ⟨opening.symm, rfl, id, id⟩
  | spawned waiting =>
    have opening := openingOwed (.inl ⟨_, waiting⟩)
    exact .beside rfl (besideOne rfl) ⟨opening.symm, rfl, id, id⟩
  | orphaned waiting =>
    have opening := openingOwed (.inr (.inl waiting))
    exact .beside rfl (besideDeathNote _) ⟨opening.symm, rfl, id, id⟩
  | introduced waiting =>
    have opening := openingOwed (.inr (.inl waiting))
    exact .beside rfl (besideOne rfl) ⟨opening.symm, rfl, id, id⟩
  | introduceLost waiting =>
    have opening := openingOwed (.inr (.inl waiting))
    exact .beside rfl (besideOne rfl) ⟨opening.symm, rfl, id, id⟩
  | lost awaiting =>
    have opening := openingOwed (.inr (.inr (.inl ⟨_, awaiting⟩)))
    exact .beside rfl (besideOne rfl) ⟨opening.symm, rfl, id, id⟩
  | @gaveUp failure failing =>
    have opening := openingOwed (.inr (.inr (.inr ⟨_, failing⟩)))
    have notes : Beside (c.forsaken ++ c.deathNote) := besideAppend.mpr ⟨besideForsaken c, besideDeathNote c⟩
    have log : (c.startFailed failure).log = c.log ++ (c.forsaken ++ c.deathNote ++
        [.resolved .start (.failed failure)]) := by simp [startFailed]
    exact .started log notes opening rfl rfl id fun created => by cases created
  | parted pumping =>
    have log : (c.log ++ [.ended]) ++ c.forsaken = c.log ++ (.ended :: c.forsaken) := by simp
    have open' : c.link.owed = 0 := by rw [pumping]; rfl
    exact .beside log (besideCons rfl (besideForsaken c)) ⟨open'.symm, rfl, id, id⟩
  | stopVoid requested =>
    have waiting := teardownOwed (by simp [requested] : c.teardown ≠ .none)
    exact .stopped rfl waiting rfl rfl id id
  | shutdownOpened requested | shutdownShut requested =>
    have waiting := teardownOwed (by simp [requested] : c.teardown ≠ .none)
    exact .beside rfl (besideOne rfl) ⟨rfl, waiting.symm, id, fun created => by cases created⟩
  | shutdownSent registered | shutdownLost registered =>
    have waiting := teardownOwed (by simp [registered] : c.teardown ≠ .none)
    exact .beside rfl (besideOne rfl) ⟨rfl, waiting.symm, id, id⟩
  | pullOpened | pullShut => exact .beside rfl (besideOne rfl) (alikeSame rfl rfl id id)
  | @pullSent a =>
    have news : Beside a.news := everyNews (fun _ _ => rfl) a
    exact .beside rfl (besideCons rfl (besideAppend.mpr ⟨news, besideOne rfl⟩)) (alikeSame rfl rfl id id)
  | pullLost => exact .beside rfl (by simp [Beside, Event.isBeside]) (alikeSame rfl rfl id id)
  | exitTold waiting =>
    have waiting := teardownOwed (by simp [waiting] : c.teardown ≠ .none)
    rcases triedCases Request.exit c with ⟨_, same⟩ | ⟨_, same⟩ <;>
    · rw [same]
      exact .beside rfl (besideOne rfl) ⟨rfl, waiting.symm, id, id⟩
  | exitUntold waiting =>
    have waiting := teardownOwed (by simp [waiting] : c.teardown ≠ .none)
    exact .beside (List.append_nil _).symm besideNone ⟨rfl, waiting.symm, id, id⟩
  | finished waiting =>
    have waiting := teardownOwed (by simp [waiting] : c.teardown ≠ .none)
    exact .stopped rfl waiting rfl rfl id fun created => by cases created

theorem reachedTicketed (reached : Reached config nextId c) (turn : Turn c after) : Ticketed c after :=
  turnTicketed (reachedCoherent reached) turn

def Balanced (t : Ticket) (c : Client) : Prop :=
  c.log.countP (issues t) = c.log.countP (settles t) + c.owes t

section
variable {es : List Event} (beside : Beside es) {t : Ticket} (own : t = .start ∨ t = .stop)
include beside own

theorem besideIssues : es.countP (issues t) = 0 := by
  rw [List.countP_eq_zero]
  intro e member issued
  have quiet := beside e member
  unfold issues at issued
  split at issued
  · simp [Event.isBeside] at quiet
  · simp [Event.isBeside] at quiet
  · rcases own with rfl | rfl <;> simp at issued
  · simp at issued

theorem besideSettles : es.countP (settles t) = 0 := by
  rw [List.countP_eq_zero]
  intro e member settled
  have quiet := beside e member
  unfold settles at settled
  split at settled
  · rcases own with rfl | rfl <;> simp only [beq_iff_eq] at settled <;> subst settled <;>
      simp [Event.isBeside] at quiet
  · simp at settled

end

theorem ticketedStart (balanced : Balanced .start c) (ticketed : Ticketed c after) :
    Balanced .start after := by
  unfold Balanced owes at balanced ⊢
  cases ticketed with
  | beside log beside alike =>
    rw [log, List.countP_append, List.countP_append, besideIssues beside (.inl rfl),
      besideSettles beside (.inl rfl), alike.link]
    exact balanced
  | starting log fresh phase free link =>
    rw [log, List.countP_append, List.countP_append, balanced, free, link]
    simp [issues, settles]
  | started log beside opening link =>
    rw [log, List.countP_append, List.countP_append, List.countP_append, List.countP_append,
      besideIssues beside (.inl rfl), besideSettles beside (.inl rfl), balanced, opening, link]
    simp [issues, settles]
  | stopping log _ _ _ _ link | stoppedAtOnce log _ _ _ link | stopped log _ _ link =>
    rw [log, List.countP_append, List.countP_append, balanced, link]
    simp [issues, settles]

theorem ticketedStop (balanced : Balanced .stop c) (ticketed : Ticketed c after) :
    Balanced .stop after := by
  unfold Balanced owes at balanced ⊢
  cases ticketed with
  | beside log beside alike =>
    rw [log, List.countP_append, List.countP_append, besideIssues beside (.inr rfl),
      besideSettles beside (.inr rfl), alike.teardown]
    exact balanced
  | starting log _ _ _ _ teardown =>
    rw [log, List.countP_append, List.countP_append, balanced, teardown]
    simp [issues, settles]
  | started log beside _ _ teardown =>
    rw [log, List.countP_append, List.countP_append, List.countP_append, List.countP_append,
      besideIssues beside (.inr rfl), besideSettles beside (.inr rfl), balanced, teardown]
    simp [issues, settles]
  | stopping log _ _ free teardown =>
    rw [log, List.countP_append, List.countP_append, balanced, free, teardown]
    simp [issues, settles]
  | stoppedAtOnce log _ _ teardown =>
    rw [log, List.countP_append, List.countP_append, balanced, teardown]
    simp only [issues, settles, List.countP_cons, List.countP_nil, BEq.rfl, if_true, Bool.false_eq_true,
      if_false]
    omega
  | stopped log waiting teardown =>
    rw [log, List.countP_append, List.countP_append, balanced, waiting, teardown]
    simp [issues, settles]

theorem reachedBalanced (reached : Reached config nextId c) (t : Ticket) : Balanced t c := by
  cases t with
  | pull name => exact reachedSettled reached name
  | start =>
    induction reached with
    | new => rfl
    | turn before turn ih => exact ticketedStart ih (reachedTicketed before turn)
  | stop =>
    induction reached with
    | new => rfl
    | turn before turn ih => exact ticketedStop ih (reachedTicketed before turn)

structure Single (c : Client) : Prop where
  unstarted : c.phase = .created → c.log.countP (issues .start) = 0
  start : c.log.countP (issues .start) ≤ 1
  unstopped : c.held = true → c.log.countP (issues .stop) = 0
  stop : c.log.countP (issues .stop) ≤ 1
  done : ∀ outcome, .resolved .stop outcome ∈ c.log → outcome = .done

theorem besideDone {es : List Event} (beside : Beside es) (outcome : Outcome) :
    .resolved .stop outcome ∉ es := fun member => nomatch beside _ member

section
variable {es : List Event} (single : Single c) (log : after.log = c.log ++ es)
  (done : ∀ outcome, .resolved .stop outcome ∈ es → outcome = .done)
  (phase : after.phase = .created → c.phase = .created) (starts : es.countP (issues .start) = 0)
include single log done phase starts

theorem singleStill (held : after.held = true → c.held = true)
    (stops : es.countP (issues .stop) = 0) : Single after := by
  have starts : after.log.countP (issues .start) = c.log.countP (issues .start) := by
    rw [log, List.countP_append, starts, Nat.add_zero]
  have stops : after.log.countP (issues .stop) = c.log.countP (issues .stop) := by
    rw [log, List.countP_append, stops, Nat.add_zero]
  refine ⟨fun fresh => starts ▸ single.unstarted (phase fresh), starts ▸ single.start,
    fun holding => stops ▸ single.unstopped (held holding), stops ▸ single.stop, fun outcome member => ?_⟩
  rw [log, List.mem_append] at member
  exact member.elim (single.done outcome) (done outcome)

theorem singleStopped (holding : c.held = true) (held : after.held = false)
    (stops : es.countP (issues .stop) = 1) : Single after := by
  have starts : after.log.countP (issues .start) = c.log.countP (issues .start) := by
    rw [log, List.countP_append, starts, Nat.add_zero]
  have stops : after.log.countP (issues .stop) = 1 := by
    rw [log, List.countP_append, stops, single.unstopped holding]
  refine ⟨fun fresh => starts ▸ single.unstarted (phase fresh), starts ▸ single.start,
    fun holding => by simp [held] at holding, Nat.le_of_eq stops, fun outcome member => ?_⟩
  rw [log, List.mem_append] at member
  exact member.elim (single.done outcome) (done outcome)

end

theorem ticketedSingle (single : Single c) (ticketed : Ticketed c after) : Single after := by
  cases ticketed with
  | beside log beside alike =>
    exact singleStill single log (fun outcome member => absurd member (besideDone beside outcome))
      alike.phase (besideIssues beside (.inl rfl)) alike.held (besideIssues beside (.inr rfl))
  | starting log fresh phase free link teardown held =>
    have starts : after.log.countP (issues .start) = 1 := by
      rw [log, List.countP_append, single.unstarted fresh]
      rfl
    have stops : after.log.countP (issues .stop) = c.log.countP (issues .stop) := by
      rw [log, List.countP_append]
      rfl
    refine ⟨fun fresh => absurd fresh phase, Nat.le_of_eq starts,
      fun holding => stops ▸ single.unstopped (held holding), stops ▸ single.stop, fun outcome member => ?_⟩
    exact single.done outcome (by simpa [log] using member)
  | started log beside opening link teardown held phase =>
    refine singleStill single log (fun outcome member => ?_) (fun fresh => absurd fresh phase) ?_ held ?_
    · rcases List.mem_append.mp member with early | last
      · exact absurd early (besideDone beside outcome)
      · simp at last
    · rw [List.countP_append, besideIssues beside (.inl rfl)]
      rfl
    · rw [List.countP_append, besideIssues beside (.inr rfl)]
      rfl
  | stopping log holding held free teardown link phase =>
    exact singleStopped single log (by simp) phase rfl holding held rfl
  | stoppedAtOnce log holding held teardown link phase =>
    exact singleStopped single log (by simp) phase rfl holding held rfl
  | stopped log waiting teardown link held phase =>
    exact singleStill single log (by simp) phase rfl held rfl

theorem reachedSingle (reached : Reached config nextId c) : Single c := by
  induction reached with
  | new => exact ⟨fun _ => rfl, Nat.zero_le 1, fun _ => rfl, Nat.zero_le 1, nofun⟩
  | turn before turn ih => exact ticketedSingle ih (reachedTicketed before turn)

end Client
end LspClient
