import LspClient.Proofs.Client.Course
import LspClient.Proofs.Client.Intake

/-! A server that stays: it lives, reads whatever it is sent and closes nothing. Until the client begins to
stop, no move of the client takes that from it, and then no message can be lost. -/
namespace LspClient
open Utf8 (Octets)

structure Server.Sound (s : Server) : Prop where
  alive : s.alive = true
  writes : s.writes = true
  room : s.room = none

namespace Client
variable {config : Config} {nextId : Int} {c after : Client}

theorem courseOver (past : c.Over) (course : Course c after) : after.Over := by
  have late (early : c.Early) : False := by
    rcases past, early with ⟨past | past, now | now⟩ <;> exact nomatch past.symm.trans now
  cases course with
  | level _ _ level => rwa [Over, level.phase]
  | begun _ fresh => exact (late (.inl fresh)).elim
  | spawned _ _ _ phase => rwa [Over, phase]
  | failed _ _ _ phase | ceased _ _ phase => exact .inr phase
  | ready _ _ starting => exact (late (.inr starting)).elim
  | leaving _ _ _ phase | farewell _ _ _ _ phase => exact .inl phase

theorem performOver (reached : Reached config nextId c.quiet) (past : c.Over) (move : Move) :
    (c.perform move).Over := by
  have before : c.quiet.Over := past
  have later : (c.perform move).quiet.Over := courseOver before (reachedCourse reached (reachedTurn reached move))
  exact later

theorem runningGoing (running : c.phase = .running) : ¬ c.Over := by
  rintro (past | past) <;> exact nomatch running.symm.trans past

def Lodged (c : Client) : Prop := ∀ s, c.server = some s → s.Sound

theorem mapLodged {f : Server → Server} (lodged : Lodged c) (server : after.server = c.server.map f)
    (sound : ∀ s, s.Sound → (f s).Sound) : Lodged after := by
  intro s same
  obtain ⟨old, present, rfl⟩ := Option.map_eq_some_iff.mp (server.symm.trans same)
  exact sound old (lodged old present)

theorem readLodged (lodged : Lodged c) (rest : Octets) :
    Lodged (c.updateServer fun s => {s with unread := rest}) :=
  mapLodged lodged rfl fun _ sound => ⟨sound.alive, sound.writes, sound.room⟩

theorem updatePresent {f : Server → Server} (present : c.server ≠ none) : (c.updateServer f).server ≠ none := by
  simpa [updateServer] using present

theorem fedSound (count : Nat) (s : Server) (sound : s.Sound) : (s.fed count).Sound :=
  ⟨sound.alive, sound.writes, by simp [Server.fed, sound.room]⟩

theorem toldLodged (ms : List Message) (lodged : Lodged c) : Lodged (c.told ms) :=
  mapLodged lodged rfl (fedSound ms.length)

theorem triedLodged (m : Message) (lodged : Lodged c) : Lodged (c.tried m) := by
  rcases triedCases m c with ⟨_, same⟩ | ⟨_, same⟩ <;> rw [same]
  · exact toldLodged [m] lodged
  · exact lodged

theorem calledLodged {call answer} (lodged : Lodged c) (done : Called c call answer after)
    (going : ¬ after.Over) : Lodged after := by
  cases done with
  | drop => exact absurd (.inr rfl) going
  | openSent | changeSent | closeSent => exact toldLodged _ lodged
  | _ => exact lodged

theorem takenLodged {m} (lodged : Lodged c) (taken : Taken c m after) : Lodged after := by
  cases taken with
  | request => exact triedLodged _ lodged
  | readyLost | ready => exact toldLodged _ lodged
  | _ => exact lodged

theorem sendLodged (m : Message) (lodged : Lodged c) : Lodged (c.send m).1 := by
  have before : Lodged c.quiet := lodged
  have tried : Lodged (c.send m).1.quiet := by
    rw [quietSend]
    exact triedLodged m before
  exact tried

theorem askLodged (lodged : Lodged c) : Lodged c.ask := by
  suffices quiet : Lodged c.ask.quiet from quiet
  cases asking : c.asking with
  | none =>
    rw [askStill asking]
    exact lodged
  | some a =>
    cases refused : c.refusal with
    | none =>
      rw [askSent asking refused]
      exact mapLodged (c := c.quiet) lodged rfl (fedSound 1)
    | some failure =>
      rw [askLost asking refused]
      exact lodged

theorem spawnLodged (lodged : Lodged c) : Lodged c.spawn := by
  suffices quiet : Lodged c.spawn.quiet from quiet
  have spawns := spawnSpawns c
  generalize c.spawn.quiet = after at *
  cases spawns with
  | idle | refused => exact lodged
  | spawned =>
    rintro s ⟨⟩
    exact ⟨rfl, rfl, rfl⟩

theorem introduceLodged (coherent : Coherent c.quiet) (lodged : Lodged c) (going : ¬ c.introduce.Over) :
    Lodged c.introduce := by
  suffices quiet : Lodged c.introduce.quiet from quiet
  have introduces := introduceIntroduces c
  have going : ¬ c.introduce.quiet.Over := going
  generalize c.introduce.quiet = after at *
  cases introduces with
  | idle | lost => exact lodged
  | sent => exact mapLodged (c := c.quiet) lodged rfl (fedSound 1)
  | orphaned waiting gone =>
    exact absurd (.inr ((openingPhase coherent (.inr (.inl waiting))).resolve_left gone)) going

theorem giveUpLodged (lodged : Lodged c) (going : ¬ c.giveUp.Over) : Lodged c.giveUp := by
  cases link : c.link with
  | failing failure =>
    simp only [giveUp, link] at going
    exact absurd (.inr rfl) going
  | _ =>
    simp only [giveUp, link]
    exact lodged

theorem hostLodged (lodged : Lodged c) (call : Call) (going : ¬ (c.hostCall call).1.Over) :
    Lodged (c.hostCall call).1 := by
  rcases hostCases c call with void | ⟨after, done, same⟩ | ⟨name, uri, rfl, free, running, same⟩
  · rwa [void]
  · have server := congrArg Client.server same
    have phase := congrArg Client.phase same
    simp only [quiet, note] at server phase
    rw [Over, phase] at going
    rw [Lodged, server]
    exact calledLodged (c := c.quiet) lodged done going
  · rw [same, pull, if_pos running]
    exact lodged

def Move.isGentle : Move → Bool
  | .server .endsOutput | .server (.endsInput _) | .server .exits => false
  | _ => true

theorem murmursLodged (octets : Octets) (lodged : Lodged c) : Lodged (c.serverAct (.murmurs octets)) := by
  unfold serverAct
  split
  · exact lodged
  simp only [serverMurmurs]
  split
  · exact lodged
  · rename_i s server
    generalize murmured (s.murmur ++ octets) = heard
    have same := congrArg Client.server
      (quietDisplays heard.1 (c.updateServer fun s => {s with murmur := heard.2}))
    exact mapLodged lodged same fun s sound => ⟨sound.alive, sound.writes, sound.room⟩

theorem writesLodged (octets : Octets) (lodged : Lodged c) : Lodged (c.serverAct (.writes octets)) := by
  unfold serverAct
  split
  · exact lodged
  · refine mapLodged lodged rfl fun s sound => ?_
    rw [if_pos sound.writes]
    exact ⟨sound.alive, sound.writes, sound.room⟩

theorem hearLodged (m : Message) (lodged : Lodged c) : Lodged (c.hear m) := by
  have before : Lodged (c.quiet.note (.heard m)) := lodged
  have kept : Lodged (c.hear m).quiet := takenLodged before (hearTaken m c)
  exact kept

theorem beginTeardownLodged (lodged : Lodged c) : Lodged c.beginTeardown := by
  unfold beginTeardown
  split
  · exact lodged
  split <;> exact lodged

theorem askToShutDownLodged (lodged : Lodged c) : Lodged c.askToShutDown := by
  cases teardown : c.teardown with
  | registered id =>
    have kept := sendLodged (Request.shutdown id) lodged
    exact askToShutDownKeeps (P := Lodged) teardown kept fun _ _ _ lodged => lodged
  | _ =>
    simp only [askToShutDown, teardown]
    exact lodged

theorem sendExitLodged (lodged : Lodged c) : Lodged c.sendExit := by
  unfold sendExit
  split
  · split
    · exact lodged
    · simp only
      split
      · exact sendLodged Request.exit lodged
      · exact lodged
  · exact lodged

theorem finishTeardownLodged (lodged : Lodged c) : Lodged c.finishTeardown := by
  unfold finishTeardown
  split <;> exact lodged

theorem gentleLodged (reached : Reached config nextId c.quiet) (lodged : Lodged c) {move : Move}
    (gentle : move.isGentle = true) (hushed : move.isIntake = false) (going : ¬ (c.perform move).Over) :
    Lodged (c.perform move) := by
  cases move with
  | host call => exact hostLodged lodged call going
  | ask => exact askLodged lodged
  | spawn => exact spawnLodged lodged
  | introduce => exact introduceLodged (reachedCoherent reached) lodged going
  | take => cases hushed
  | giveUp => exact giveUpLodged lodged going
  | beginTeardown => exact beginTeardownLodged lodged
  | askToShutDown => exact askToShutDownLodged lodged
  | sendExit => exact sendExitLodged lodged
  | finishTeardown => exact finishTeardownLodged lodged
  | server act =>
    cases act with
    | murmurs octets => exact murmursLodged octets lodged
    | writes => cases hushed
    | endsOutput | endsInput | exits => cases gentle
  | elsewhere taken => exact lodged

theorem lodgedLives (lodged : Lodged c) (present : c.server ≠ none) : c.exited = false := by
  obtain ⟨s, server⟩ := Option.ne_none_iff_exists'.mp present
  simp [exited, server, (lodged s server).alive]

theorem lodgedReads (lodged : Lodged c) (present : c.server ≠ none) (attached : c.attached = true) :
    c.refusal = none := by
  obtain ⟨s, server⟩ := Option.ne_none_iff_exists'.mp present
  have sound := lodged s server
  exact refusalClear.mpr ⟨attached, by simp [writable, server, Server.reads, sound.alive, sound.room]⟩

theorem lodgedClear (lodged : Lodged c) (housed : Housed c) (attached : c.attached = true) :
    c.refusal = none := lodgedReads lodged (housed.attached attached) attached

end Client
end LspClient
