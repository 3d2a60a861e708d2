import LspClient.Proofs.Client.Attended

/-! The server process of a client. It is there from its launch on, and what is closed of it stays closed. -/
namespace LspClient.Client

variable {config : Config} {nextId : Int} {c after : Client}

def Lessened (server later : Option Server) : Prop :=
  ∃ f : Server → Server, later = server.map f ∧ ∀ s, server = some s →
    ((f s).reads = true → s.reads = true) ∧ ((f s).writes = true → s.writes = true)

theorem lessenedSame (server : Option Server) : Lessened server server :=
  ⟨id, by simp, fun _ _ => ⟨id, id⟩⟩

theorem lessenedThen {server between later : Option Server} (first : Lessened server between)
    (second : Lessened between later) : Lessened server later := by
  obtain ⟨f, rfl, less⟩ := first
  obtain ⟨g, rfl, less'⟩ := second
  refine ⟨g ∘ f, by simp, fun s own => ?_⟩
  have before := less s own
  have after := less' (f s) (by simp [own])
  exact ⟨before.1 ∘ after.1, before.2 ∘ after.2⟩

theorem lessenedNone {server later : Option Server} (less : Lessened server later) :
    later = none ↔ server = none := by
  obtain ⟨f, rfl, _⟩ := less
  exact Option.map_eq_none_iff

theorem fedLess (count : Nat) (s : Server) : (s.fed count).reads = true → s.reads = true := by
  cases room : s.room with
  | none => simp [Server.reads, Server.fed, room]
  | some n =>
    simp only [Server.reads, Server.fed, room, Option.map_some, Bool.and_eq_true, bne_iff_ne, ne_eq,
      Option.some.injEq]
    rintro ⟨alive, left⟩
    exact ⟨alive, by omega⟩

theorem toldLessened (ms : List Message) (c : Client) : Lessened c.server (c.told ms).server :=
  ⟨Server.fed ms.length, rfl, fun s _ => ⟨fedLess ms.length s, id⟩⟩

theorem triedLessened (m : Message) (c : Client) : Lessened c.server (c.tried m).server := by
  rcases triedCases m c with ⟨_, same⟩ | ⟨_, same⟩ <;> rw [same]
  · exact toldLessened [m] c
  · exact lessenedSame c.server

theorem bereftLessened (c : Client) : Lessened c.server c.bereft.server := by
  unfold bereft widow
  split
  · exact ⟨Server.gone, rfl, fun s _ => by simp [Server.gone, Server.reads]⟩
  · exact lessenedSame c.server

theorem failedLessened (failure : Failure) (c : Client) : Lessened c.server (c.startFailed failure).server :=
  bereftLessened c.unrouted

theorem calledLessened {call answer} (done : Called c call answer after) :
    Lessened c.server after.server := by
  cases done with
  | drop => exact bereftLessened c
  | openSent | changeSent | closeSent => exact toldLessened _ c
  | _ => exact lessenedSame c.server

theorem takenLessened {m} (taken : Taken c m after) : Lessened c.server after.server := by
  cases taken with
  | request => exact triedLessened _ c
  | ready | readyLost => exact toldLessened _ c
  | _ => exact lessenedSame c.server

theorem turnLessened (turn : Turn c after) : Lessened c.server after.server ∨
    c.link = .launching none ∧ after.link = .launched ∧ after.attached = c.attached := by
  cases turn with
  | spawned waiting => exact .inr ⟨waiting, rfl, rfl⟩
  | host held free done =>
    have less := calledLessened done
    exact .inl less
  | gaveUp => exact .inl (failedLessened _ c)
  | orphaned => exact .inl (bereftLessened {c with attached := true})
  | introduced | pullSent | shutdownSent => exact .inl (toldLessened _ c)
  | @skipped s rest listening server =>
    exact .inl ⟨fun s => {s with unread := rest}, by simp [readOn, server], fun _ _ => ⟨id, id⟩⟩
  | @taken s rest m _ listening server hearing =>
    have own : Lessened c.server (c.readOn s rest).server :=
      ⟨fun s => {s with unread := rest}, by simp [readOn, server], fun _ _ => ⟨id, id⟩⟩
    have less := takenLessened hearing
    exact .inl (lessenedThen own less)
  | exitTold => exact .inl (triedLessened _ c)
  | @served s s' server alive less =>
    refine .inl ⟨fun _ => s', by simp [server], fun own same => ?_⟩
    cases server.symm.trans same
    exact less
  | _ => exact .inl (lessenedSame c.server)

structure Housed (c : Client) : Prop where
  bare : (c.link = .idle ∨ ∃ refused, c.link = .launching refused) → c.server = none
  attached : c.attached = true → c.server ≠ none
  refused : c.phase = .starting → (∃ failure, c.link = .failing failure) → c.attached = false → c.server = none

theorem triedAttached (m : Message) (c : Client) : (c.tried m).attached = c.attached :=
  triedSame Client.attached m c rfl rfl

theorem calledUnlinked {call answer} (coherent : Coherent c) (done : Called c call answer after)
    (bare : after.link = .idle ∨ ∃ refused, after.link = .launching refused) :
    c.link = .idle ∨ ∃ refused, c.link = .launching refused := by
  cases done with
  | start fresh => exact .inl (coherent.created fresh).1
  | _ => exact bare

theorem turnUnlinked (coherent : Coherent c) (turn : Turn c after)
    (bare : after.link = .idle ∨ ∃ refused, after.link = .launching refused) :
    c.link = .idle ∨ ∃ refused, c.link = .launching refused := by
  cases turn with
  | host held free done => exact calledUnlinked coherent done bare
  | taken listening server hearing =>
    rcases takenLink hearing with same | link | link | ⟨_, failure, link⟩
    · rw [same] at bare
      exact bare
    all_goals simp [link] at bare
  | exitTold => exact .imp (triedLink _ _ ▸ ·) (triedLink _ _ ▸ ·) bare
  | spawned | spawnRefused | orphaned | introduced | introduceLost | gaveUp | lost | parted =>
    simp [startFailed] at bare
  | _ => exact bare

theorem turnAttached (turn : Turn c after) (attached : after.attached = true) :
    c.attached = true ∨ c.link = .launched := by
  cases turn with
  | host held free done =>
    cases done with
    | drop => cases attached
    | _ => exact .inl attached
  | taken listening server hearing =>
    cases hearing with
    | request =>
      rw [triedAttached] at attached
      exact .inl attached
    | _ => exact .inl attached
  | introduced waiting | introduceLost waiting => exact .inr waiting
  | orphaned | gaveUp | exitTold => cases attached
  | _ => exact .inl attached

theorem turnRefused (coherent : Coherent c) (turn : Turn c after) (starting : after.phase = .starting)
    (failing : ∃ failure, after.link = .failing failure) (loose : after.attached = false) :
    (c.phase = .starting ∧ (∃ failure, c.link = .failing failure) ∧ c.attached = false) ∨
      ∃ refused, c.link = .launching refused := by
  have unawaited {id : Int} (phase : c.phase = .starting) (loose : c.attached = false) :
      c.link ≠ .handshake id := by
    intro awaited
    rcases (coherent.starting phase).2 with ⟨launch, _⟩ | ⟨_, attached⟩ | ⟨_, link⟩
    · simp [awaited] at launch
    · cases loose.symm.trans attached
    · cases awaited.symm.trans link
  cases turn with
  | host held free done =>
    cases done with
    | start => simp [note] at failing
    | stopUnstarted | drop => cases starting
    | _ => exact .inl ⟨starting, failing, loose⟩
  | taken listening server hearing =>
    cases hearing with
    | request =>
      rw [triedPhase] at starting
      rw [triedLink] at failing
      rw [triedAttached] at loose
      exact .inl ⟨starting, failing, loose⟩
    | rejected awaited | tooLate awaited | readyLost awaited => exact absurd awaited (unawaited starting loose)
    | ready => cases starting
    | _ => exact .inl ⟨starting, failing, loose⟩
  | spawnRefused waiting => exact .inr ⟨_, waiting⟩
  | orphaned waiting gone => exact absurd starting gone
  | introduceLost => cases loose
  | lost awaiting => exact absurd awaiting (unawaited starting loose)
  | spawned | introduced | parted => simp at failing
  | gaveUp | finished | shutdownOpened | shutdownShut => cases starting
  | exitTold waiting =>
    rw [triedPhase] at starting
    cases starting.symm.trans (teardownStopping coherent (.inr (.inl ⟨_, waiting⟩)))
  | _ => exact .inl ⟨starting, failing, loose⟩

theorem turnHoused (reached : Reached config nextId c) (turn : Turn c after) (housed : Housed c) :
    Housed after := by
  rcases turnLessened turn with less | ⟨waiting, link, attached⟩
  · have same := lessenedNone less
    have coherent := reachedCoherent reached
    refine ⟨fun bare => same.mpr (housed.bare (turnUnlinked coherent turn bare)), ?_, ?_⟩
    · refine fun attached => mt same.mp ?_
      -- an attached client has come through a launch, and the launch brought the server
      rcases turnAttached turn attached with before | launched
      · exact housed.attached before
      · exact reachedServed reached (.inl launched)
    · intro starting failing loose
      rcases turnRefused coherent turn starting failing loose with ⟨starting, failing, loose⟩ | launching
      · exact same.mpr (housed.refused starting failing loose)
      · exact same.mpr (housed.bare (.inr launching))
  · have loose := unopenedDetached (reachedCoherent reached) (.inr (.inl ⟨_, waiting⟩))
    exact ⟨by simp [link], by simp [attached, loose], by simp [link]⟩

theorem reachedHoused (reached : Reached config nextId c) : Housed c := by
  induction reached with
  | new => exact ⟨fun _ => rfl, nofun, nofun⟩
  | turn before turn ih => exact turnHoused before turn ih

theorem bareUnwritten (reached : Reached config nextId c) (bare : c.server = none) : written c.log = [] := by
  induction reached with
  | new => rfl
  | @turn c after before turn ih =>
    have later : Reached config nextId after := .turn before turn
    rcases turnLessened turn with less | ⟨_, launched, _⟩
    · have earlier := (lessenedNone less).mp bare
      have loose : c.attached ≠ true := fun attached => (reachedHoused before).attached attached earlier
      have shut : c.refusal ≠ none := detached (Bool.eq_false_iff.mpr loose)
      cases reachedSaid before turn with
      | nothing log mute => rw [log, writtenAppend, ih earlier, muteWritten mute, List.append_nil]
      | stuck log mute => rw [log, writtenAppend, ih earlier, lostWritten _ mute, List.append_nil]
      | edited edit log => rw [log, writtenAppend, ih earlier]; rfl
      | introduced _ _ _ _ starting _ _ link =>
        rcases ((reachedCoherent later).starting starting).2 with ⟨launch, _⟩ | ⟨_, attached⟩ | ⟨_, failing⟩
        · simp [link] at launch
        · exact absurd bare ((reachedHoused later).attached attached)
        · cases link.symm.trans failing
      | readyLost starting awaited =>
        rcases ((reachedCoherent before).starting starting).2 with ⟨launch, _⟩ | ⟨_, attached⟩ | ⟨_, failing⟩
        · simp [awaited] at launch
        · exact absurd attached loose
        · cases awaited.symm.trans failing
      | told _ pipe | replied pipe | ready _ _ pipe | shutdown _ _ pipe | exit _ _ pipe => exact absurd pipe shut
    · exact absurd bare (reachedServed later (.inl launched))

end LspClient.Client
