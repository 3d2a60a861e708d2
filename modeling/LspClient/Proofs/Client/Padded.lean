import LspClient.Proofs.Client.Intake
import LspClient.Proofs.Client.Veil
import LspClient.Proofs.Frame.Woven

/-! Two clients of which one reads an output with insertions. An inserted frame is taken off and leaves nothing
behind, so the two never differ in more than the output that they have not read. -/
namespace LspClient.Client
open Utf8 (Octets)
open Weave

variable {config : Config} {nextId : Int} {c after : Client} {u rest : Octets} {text : String} {w more : Weave}

def reread (u : Octets) (c : Client) : Client := {c with server := c.server.map (Server.reread fun _ => u)}

def Veil.output (u : Octets) : Veil := {Veil.past [] with unread := fun _ => u}

theorem outputFree (u : Octets) : (Veil.output u).Free := ⟨fun _ => rfl, fun _ => rfl⟩

theorem rereadTwice (u v : Octets) (c : Client) : (c.reread u).reread v = c.reread v := by
  simp only [reread, Option.map_map]
  rfl

theorem rereadSelf (c : Client) : c.reread c.unread = c := by
  have same : c.server.map (Server.reread fun _ => c.unread) = c.server := by
    cases server : c.server with
    | none => rfl
    | some s => simp [unread, server, Server.reread]
  rw [reread, same]

theorem rereadBare (bare : c.server = none) (u : Octets) : c.reread u = c := by
  have same : c.server.map (Server.reread fun _ => u) = c.server := by simp [bare]
  rw [reread, same]

theorem rereadUnread (present : c.server ≠ none) (u : Octets) : (c.reread u).unread = u := by
  obtain ⟨s, server⟩ := Option.ne_none_iff_exists'.mp present
  simp [reread, unread, server, Server.reread]

theorem rereadVeiled (u : Octets) (c : Client) : c.reread u = c.veiled (.output u) := rfl

theorem settleReread (u : Octets) (c : Client) : (c.reread u).settle = c.settle.reread u := by
  rw [rereadVeiled, rereadVeiled, settleVeiled (outputFree u)]

theorem askReread (u : Octets) (c : Client) : (c.reread u).ask = c.ask.reread u :=
  askVeiled (v := .output u)

theorem receiveReread (u : Octets) (text : String) (c : Client) :
    (c.reread u).receive text = (c.receive text).reread u := receiveVeiled (v := .output u) text

theorem hostReread (u : Octets) (call : Call) (c : Client) :
    (c.reread u).hostCall call = ((c.hostCall call).1.reread u, (c.hostCall call).2) := hostVeiled (outputFree u) call

theorem serverActReread (u : Octets) {act : ServerAct} (silent : ∀ octets, act ≠ .writes octets) (c : Client) :
    (c.reread u).serverAct act = (c.serverAct act).reread u := serverActVeiled (v := .output u) (.inl silent)

theorem takeBody {s : Server} (listening : c.listening = true) (server : c.server = some s)
    (frame : Frame.read s.writes s.unread = .body text rest) :
    c.take? = some ((c.reread rest).receive text) := by
  simp only [take?, listening, server, frame]
  rfl

theorem takeStarved {s : Server} (server : c.server = some s)
    (frame : Frame.read s.writes s.unread = .starved) : c.take? = none := by
  cases listening : c.listening <;> simp [take?, listening, server, frame]

theorem receiveUnparsed (mute : Message.parse? text = none) (c : Client) : c.receive text = c := by
  simp only [receive, mute]

theorem takeDeaf (deaf : c.listening = false) : c.take? = none := by
  simp [take?, deaf]

theorem drainNone (none : c.take? = none) (bound : Nat) : c.drain bound = c := by
  cases bound with
  | zero => rfl
  | succ bound => simp only [drain, none]

theorem drainSome (took : c.take? = some after) (bound : Nat) : c.drain (bound + 1) = drain bound after.settle := by
  simp only [drain, took]

theorem deafenedListening (shut : c.Deafened) : c.listening = false := by
  rcases shut with link | ⟨failure, link⟩ <;> simp [listening, link]

theorem listeningOpen (listening : c.listening = true) : ¬ c.Deafened := by
  intro shut
  cases (deafenedListening shut).symm.trans listening

theorem keptDeafened (kept : Kept c after) (shut : c.Deafened) : after.Deafened := by
  rcases kept.link with same | ⟨_, closed⟩
  · rwa [Deafened, same]
  · exact .inl closed

theorem settledStill (told : ∀ id, c.teardown ≠ .registered id) (cleaned : ∀ failure, c.link ≠ .failing failure)
    (begun : c.teardown = .requested → c.phase = .starting)
    (answered : ∀ id, c.teardown = .awaitingReply id → (c.router.owner? id).isSome = true)
    (finished : c.teardown = .awaitingExit → c.exited = false) : c.settle = c := by
  rw [settle, giveUpStill cleaned, beginStill begun, askToShutDownStill told, sendExitStill answered,
    finishStill finished]

theorem stillSettled (still : Still c) : c.settle = c :=
  settledStill still.told still.cleaned still.begun still.answered still.finished

theorem settleSettled (c : Client) : c.settle.settle = c.settle := by
  have begun := sendExitBegun (askToShutDownBegun (beginBegun c.giveUp))
  have answered := sendExitAnswered c.giveUp.beginTeardown.askToShutDown
  have told := settleTold c
  have cleaned := settleCleaned c
  rcases finishCases c.giveUp.beginTeardown.askToShutDown.sendExit with ⟨same, finished⟩ | past
  · have own : c.settle = c.giveUp.beginTeardown.askToShutDown.sendExit := same
    rw [own] at told cleaned ⊢
    exact settledStill told cleaned begun answered finished
  · have past : c.settle.teardown = .none := past
    exact settledStill told cleaned (by simp [past]) (by simp [past]) (by simp [past])

theorem takenExpects {m : Message} {more : Octets} {later : Bool} (taken : Taken c m after)
    (expects : c.Expects more later) : after.Expects more later := by
  have fed {ms : List Message} {s : Server} (own : c.server.map (Server.fed ms.length) = some s) :
      Frame.MayFollow s.writes more later := by
    obtain ⟨s', server, rfl⟩ := Option.map_eq_some_iff.mp own
    exact expects s' server
  cases taken with
  | request =>
    rcases triedCases (Router.replyTo _ _ _) c with ⟨_, same⟩ | ⟨_, same⟩ <;> rw [same]
    · exact fun s => fed
    · exact expects
  | ready | readyLost => exact fun s => fed
  | _ => exact expects

theorem receivePresent (present : c.server ≠ none) (text : String) : (c.receive text).server ≠ none := by
  unfold receive
  split
  · exact present
  · rename_i m _
    have less := takenLessened (hearTaken m c)
    exact mt (lessenedNone less).mp present

theorem receiveExpects {more : Octets} {later : Bool} (text : String) (expects : c.Expects more later) :
    (c.receive text).Expects more later := by
  unfold receive
  split
  · exact expects
  · rename_i m _
    have before : (c.quiet.note (.heard m)).Expects more later := expects
    have taken := takenExpects (hearTaken m c) before
    exact taken

theorem receiveDeafened (listening : c.listening = true) (text : String) :
    (c.receive text).Deafened ∨ (c.receive text).listening = true := by
  rcases receiveLink text c with same | pumping | closed | ⟨_, failing⟩
  · exact .inr ((congrArg (fun link => ({c with link := link} : Client).listening) same).trans listening)
  · exact .inr (by simp [Client.listening, pumping])
  · exact .inl (.inl closed)
  · exact .inl (.inr failing)

theorem expectsKept {more : Octets} {later : Bool} (kept : Kept c after) (listening : c.listening = true)
    (expects : c.Expects more later) : after.Expects more later := by
  intro s server
  have output := kept.output listening
  cases own : c.server with
  | none => simp [Client.output, server, own] at output
  | some s' =>
    simp only [Client.output, server, own, Option.map_some, Option.some.injEq, Prod.mk.injEq] at output
    rw [output.1]
    exact expects s' own

theorem expectsReread {more : Octets} {later : Bool} (expects : c.Expects more later) (u : Octets) :
    (c.reread u).Expects more later := by
  intro s server
  obtain ⟨s', own, rfl⟩ := Option.map_eq_some_iff.mp server
  exact expects s' own

theorem readSettled (listening : c.listening = true) (present : c.server ≠ none)
    (expects : c.Expects (whole more) false) (rest : Octets) (text : String) :
    ((c.reread rest).receive text).settle.server ≠ none ∧
      ((c.reread rest).receive text).settle.unread = rest ∧
      (((c.reread rest).receive text).settle.Deafened ∨
        ((c.reread rest).receive text).settle.Expects (whole more) false) := by
  have kept := settleKept ((c.reread rest).receive text)
  have present' : (c.reread rest).server ≠ none := by simpa [reread] using present
  refine ⟨kept.present (receivePresent present' text), ?_, ?_⟩
  · rw [kept.unread, receiveUnread, rereadUnread present]
  · rcases receiveDeafened (c := c.reread rest) listening text with shut | listening
    · exact .inl (keptDeafened kept shut)
    · exact .inr (expectsKept kept listening (receiveExpects text (expectsReread expects rest)))

/-- The second client stands at the same place of its output, which has insertions. The unread octets of both
are one weave. -/
structure Padded (more w : Weave) (c d : Client) : Prop where
  unread : c.unread = kept w
  same : d = c.reread (whole w)
  woven : c.Deafened ∨ Woven (w ++ more)
  bare : c.server = none → w = []

theorem paddedSelf (c : Client) (woven : c.Deafened ∨ Woven (thread false c.unread ++ more)) :
    Padded more (thread false c.unread) c c where
  unread := (keptThread _).symm
  same := by rw [wholeThread, rereadSelf]
  woven := woven
  bare none := by simp [unread, none, thread]

theorem readWoven {growing : Bool} (woven : Woven (thread false u ++ more))
    (follows : Frame.MayFollow growing (whole more) false) (frame : Frame.read growing u = .body text rest) :
    Woven (thread false rest ++ more) := by
  cases growing with
  | true => exact wovenRead woven frame
  | false =>
    rw [List.map_eq_nil_iff.mp (follows rfl).1, List.append_nil]
    exact .rest rest

inductive Next (more w : Weave) (c d : Client) : Prop
  | rest (nothing : c.take? = none) (nothing' : d.take? = none)
  | read {after after' : Client} {w' : Weave} (took : c.take? = some after) (took' : d.take? = some after')
      (padded : Padded more w' after.settle after'.settle)
      (expects : after.settle.Deafened ∨ after.settle.Expects (whole more) false)
      (less : after.settle.unread.length < c.unread.length) (less' : (whole w').length < (whole w).length)
  | skipped {after' : Client} {w' : Weave} (took' : d.take? = some after') (padded : Padded more w' c after'.settle)
      (less' : (whole w').length < (whole w).length)
  | lost {after : Client} (same : d = c) (took : c.take? = some after) (shut : after.settle.Deafened)

section
variable {s : Server} (listening : c.listening = true) (server : c.server = some s)
  (expects : c.Expects (whole more) false)
include listening server expects

theorem ownNext (woven : Woven (thread false c.unread ++ more)) : Next more (thread false c.unread) c c := by
  have present : c.server ≠ none := by simp [server]
  have front : c.unread = s.unread := by simp [unread, server]
  cases took : c.take? with
  | none => exact .rest took took
  | some after =>
    obtain ⟨_, s', own, ⟨text, rest, frame, same⟩ | ⟨_, _, same⟩⟩ := takeCases took
    · cases server.symm.trans own
      obtain ⟨_, left, onward⟩ := readSettled listening present expects rest text
      have same : after = (c.reread rest).receive text := same
      have less := Frame.readRest frame
      have later := readWoven woven (expects s server) (front ▸ frame)
      rw [← same] at left onward
      refine .read took took (paddedSelf after.settle (.inr ?_)) onward ?_ ?_
      · rwa [left]
      · rwa [left, front]
      · rwa [wholeThread, wholeThread, left, front]
    · refine .lost rfl took (keptDeafened (settleKept after) (same ▸ ?_))
      exact (loseLink listening).imp_right fun failing => ⟨_, failing.2⟩

theorem frameNext {frame : Octets} (framed : Framed frame text) (unread : c.unread = frame ++ kept w)
    (woven : Woven (w ++ more)) : Next more (thread false frame ++ w) c (c.reread (frame ++ whole w)) := by
  have present : c.server ≠ none := by simp [server]
  have front : s.unread = frame ++ kept w := by simpa [Client.unread, server] using unread
  have long : 0 < frame.length := List.length_pos_iff.mpr (framedSome framed)
  have took : c.take? = some ((c.reread (kept w)).receive text) :=
    takeBody listening server (front ▸ framedRead framed s.writes (kept w))
  have took' : (c.reread (frame ++ whole w)).take? =
      some (((c.reread (kept w)).receive text).reread (whole w)) := by
    have server' : (c.reread (frame ++ whole w)).server = some (s.reread fun _ => frame ++ whole w) := by
      simp [reread, server]
    rw [takeBody (c := c.reread _) listening server' (framedRead framed s.writes (whole w)), rereadTwice,
      ← receiveReread, rereadTwice]
  obtain ⟨present', left, onward⟩ := readSettled listening present expects (kept w) text
  refine .read took took' ⟨left, settleReread _ _, .inr woven, (absurd · present')⟩ onward ?_ ?_
  · rw [left, unread, List.length_append]
    omega
  · rw [wholeAppend, wholeThread, List.length_append]
    omega

omit expects in
theorem insertedNext {frame : Octets} (settled : c.settle = c) (framed : Framed frame text)
    (mute : Message.parse? text = none) (unread : c.unread = kept w) (woven : Woven (w ++ more)) :
    Next more (thread true frame ++ w) c (c.reread (frame ++ whole w)) := by
  have present : c.server ≠ none := by simp [server]
  have long : 0 < frame.length := List.length_pos_iff.mpr (framedSome framed)
  have took' : (c.reread (frame ++ whole w)).take? = some (c.reread (whole w)) := by
    have server' : (c.reread (frame ++ whole w)).server = some (s.reread fun _ => frame ++ whole w) := by
      simp [reread, server]
    rw [takeBody (c := c.reread _) listening server' (framedRead framed s.writes (whole w)), rereadTwice,
      receiveUnparsed mute]
  refine .skipped took' ⟨unread, ?_, .inr woven, (absurd · present)⟩ ?_
  · rw [settleReread, settled]
  · rw [wholeAppend, wholeThread, List.length_append]
    omega

omit listening in
theorem partStarved {first last : Octets} {later : Weave} (framed : Framed (first ++ last) text) (left : last ≠ [])
    (rest : more = thread true last ++ later) (unread : c.unread = []) :
    c.take? = none ∧ (c.reread first).take? = none := by
  have front : s.unread = [] := by simpa [Client.unread, server] using unread
  have writes : s.writes = true := by
    refine Decidable.byContradiction fun silent => left ?_
    have nothing := (expects s server (Bool.eq_false_iff.mpr silent)).1
    rw [rest, wholeAppend, wholeThread] at nothing
    exact (List.append_eq_nil_iff.mp nothing).1
  have server' : (c.reread first).server = some (s.reread fun _ => first) := by simp [reread, server]
  have starved : Frame.read s.writes first = .starved := writes ▸ framedPart framed left
  refine ⟨takeStarved server ?_, takeStarved server' starved⟩
  rw [front, writes]
  rfl

end

theorem paddedNext {d : Client} (settled : c.settle = c) (padded : Padded more w c d)
    (expects : c.Deafened ∨ c.Expects (whole more) false) : Next more w c d := by
  obtain ⟨unread, rfl, woven, _⟩ := padded
  cases listening : c.listening with
  | false => exact .rest (takeDeaf listening) (takeDeaf listening)
  | true =>
    have woven := woven.resolve_left (listeningOpen listening)
    have expects := expects.resolve_left (listeningOpen listening)
    cases server : c.server with
    | none =>
      have nothing : c.take? = none := by simp [take?, server]
      exact .rest nothing (by rwa [rereadBare server])
    | some s =>
      cases wovenFront woven with
      | own octets =>
        rw [keptThread] at unread
        rw [wholeThread, ← unread, rereadSelf]
        exact ownNext listening server expects (unread ▸ woven)
      | frame framed later =>
        rw [keptAppend, keptThread] at unread
        rw [wholeAppend, wholeThread]
        exact frameNext listening server expects framed unread later
      | inserted framed mute later =>
        rw [keptAppend, keptInserted, List.nil_append] at unread
        rw [wholeAppend, wholeThread]
        exact insertedNext listening server settled framed mute unread later
      | part framed mute left begun rest later =>
        rw [keptInserted] at unread
        rw [wholeThread]
        exact .rest (partStarved server expects framed left rest unread).1
          (partStarved server expects framed left rest unread).2

theorem drainPadded {d : Client} {own bound : Nat} (settled : c.settle = c) (padded : Padded more w c d)
    (expects : c.Deafened ∨ c.Expects (whole more) false) (enough : c.unread.length < own)
    (enough' : (whole w).length < bound) : ∃ w', Padded more w' (c.drain own) (d.drain bound) := by
  -- the second client takes at least as many frames, so its bound is what falls
  induction bound generalizing c d w own with
  | zero => exact absurd enough' (Nat.not_lt_zero _)
  | succ bound ih =>
    obtain ⟨own, rfl⟩ := Nat.exists_eq_succ_of_ne_zero (Nat.ne_zero_of_lt enough)
    cases paddedNext settled padded expects with
    | rest nothing nothing' =>
      rw [drainNone nothing, drainNone nothing']
      exact ⟨w, padded⟩
    | read took took' padded expects less less' =>
      rw [drainSome took, drainSome took']
      exact ih (settleSettled _) padded expects (by omega) (by omega)
    | skipped took' padded less' =>
      rw [drainSome took']
      exact ih settled padded expects enough (by omega)
    | lost same took shut =>
      have deaf := takeDeaf (deafenedListening shut)
      rw [same, drainSome took, drainSome took, drainNone deaf, drainNone deaf]
      exact ⟨_, paddedSelf _ (.inl shut)⟩

theorem movedPadded {d d' : Client} (padded : Padded more w c d) (kept : Kept c after)
    (same : d' = after.reread (whole w)) : Padded more w after d' where
  unread := kept.unread.trans padded.unread
  same := same
  woven := padded.woven.imp_left (keptDeafened kept)
  bare none := padded.bare (Decidable.byContradiction fun present => kept.present present none)

theorem settlePadded {d : Client} (padded : Padded more w c d) : Padded more w c.settle d.settle :=
  movedPadded padded (settleKept c) (by rw [padded.same, settleReread])

theorem askPadded {d : Client} (padded : Padded more w c d) : Padded more w c.ask d.ask :=
  movedPadded padded (askKept c) (by rw [padded.same, askReread])

theorem pumpDrain (c : Client) : c.pump = (c.drain (c.unread.length + 2)).settle := by
  cases server : c.server <;> simp [pump, unread, server]

theorem restPumps (met : ¬ c.Fallow) : c.comeToRest = c.ask.pump := by
  have met : ¬ c.ask.Fallow := keptMet (askKept c) met
  rw [comeToRest, spawnStill met]
  exact congrArg pump (if_pos fun link => met (.inr link))

theorem restSettles (met : ¬ c.Fallow) (nothing : c.take? = none) : c.comeToRest = c.ask.settle := by
  rw [restPumps met, pumpDrain, drainNone (takeKept (askKept c) nothing)]

theorem restPadded {d : Client} (free : c.asking = none) (met : ¬ c.Fallow) (settled : c.settle = c)
    (padded : Padded more w c d) (expects : c.Deafened ∨ c.Expects (whole more) false) :
    ∃ w', Padded more w' c.comeToRest d.comeToRest := by
  have bare := padded.bare
  obtain rfl := padded.same
  have free' : (c.reread (whole w)).asking = none := free
  rw [restPumps met, restPumps (c := c.reread _) met, askStill free, askStill free', pumpDrain, pumpDrain]
  have longer : (whole w).length < (c.reread (whole w)).unread.length + 2 := by
    cases server : c.server with
    | none => simp [bare server, whole]
    | some s => simp [rereadUnread (c := c) (by simp [server])]
  obtain ⟨w', drained⟩ := drainPadded settled padded expects (Nat.lt_add_of_pos_right (Nat.succ_pos 1)) longer
  exact ⟨w', settlePadded drained⟩

theorem performExpects {more : Octets} {later : Bool} (reached : Reached config nextId c.quiet) (move : Move)
    (expects : (c.perform move).Expects more later) : c.Expects more later := by
  have earlier := turnExpects (reachedHoused reached) (reachedTurn reached move) expects
  exact earlier

theorem playExpects {more : Octets} {later : Bool} (reached : Reached config nextId c.quiet) (moves : List Move)
    (expects : (c.play moves).Expects more later) : c.Expects more later := by
  induction moves generalizing c with
  | nil => exact expects
  | cons move moves ih => exact performExpects reached move (ih (performReached reached move) expects)

def Move.isWrite : Move → Bool
  | .server (.writes _) => true
  | _ => false

theorem performWoven (reached : Reached config nextId c.quiet) {move : Move} (silent : move.isWrite = false)
    (expects : (c.perform move).Expects (whole more) false)
    (woven : c.Deafened ∨ Woven (thread false c.unread ++ more)) :
    (c.perform move).Deafened ∨ Woven (thread false (c.perform move).unread ++ more) := by
  rcases woven with shut | woven
  · have later := turnDeafened (c := c.quiet) (reachedCoherent reached) shut (reachedTurn reached move)
    exact .inl later
  cases intake : move.isIntake with
  | false =>
    have same : (c.perform move).unread = c.unread := (performHushed reached intake).unread
    exact .inr (by rwa [same])
  | true =>
    cases move with
    | take =>
      have expects := performExpects reached .take expects
      rw [perform]
      cases took : c.take? with
      | none => exact .inr woven
      | some after =>
        obtain ⟨listening, s, server, ⟨text, rest, frame, same⟩ | ⟨_, _, same⟩⟩ := takeCases took
        · have front : c.unread = s.unread := by simp [unread, server]
          have same : after = (c.reread rest).receive text := same
          have left : after.unread = rest := by
            rw [same, receiveUnread, rereadUnread (by simp [server])]
          refine .inr ?_
          rw [Option.getD_some, left]
          exact readWoven woven (expects s server) (front ▸ frame)
        · refine .inl ?_
          rw [Option.getD_some, same]
          exact (loseLink listening).imp_right fun failing => ⟨_, failing.2⟩
    | server act =>
      cases act with
      | writes octets => cases silent
      | _ => cases intake
    | _ => cases intake

theorem playWoven (reached : Reached config nextId c.quiet) (moves : List Move)
    (silent : ∀ move ∈ moves, move.isWrite = false) (expects : (c.play moves).Expects (whole more) false)
    (woven : c.Deafened ∨ Woven (thread false c.unread ++ more)) :
    (c.play moves).Deafened ∨ Woven (thread false (c.play moves).unread ++ more) := by
  induction moves generalizing c with
  | nil => exact woven
  | cons move moves ih =>
    have next := performReached reached move
    have now := playExpects next moves expects
    exact ih next (fun move member => silent move (.tail _ member)) expects
      (performWoven reached (silent move (.head _)) now woven)

theorem hostLink (reached : Reached config nextId c.quiet) (present : c.server ≠ none) (call : Call) :
    (c.hostCall call).1.link = c.link := by
  rcases hostCases c call with void | ⟨after, done, same⟩ | ⟨name, uri, rfl, free, running, same⟩
  · rw [void]
  · refine (congrArg Client.link same).trans ?_
    generalize (c.hostCall call).2 = answer at done
    cases done with
    | start fresh =>
      have idle := ((reachedCoherent reached).created fresh).1
      exact absurd ((reachedHoused reached).bare (.inl idle)) present
    | _ => rfl
  · rw [same, pull, if_pos running]
    rfl

theorem actLink (reached : Reached config nextId c.quiet) (present : c.server ≠ none) (a : Act) :
    (c.perform a.move).link = c.link := by
  cases a with
  | host call => exact hostLink reached present call
  | server act =>
    obtain ⟨server, same⟩ := serverOnly act c
    have link := congrArg Client.link same
    exact link

theorem moveReread {a : Act} (silent : a.move.isWrite = false) (u : Octets) (c : Client) :
    (c.reread u).perform a.move = (c.perform a.move).reread u := by
  cases a with
  | host call => exact congrArg Prod.fst (hostReread u call c)
  | server act =>
    refine serverActReread u (fun octets same => ?_) c
    rw [same] at silent
    cases silent

theorem actRests (a : Act) (c : Client) : (act a c).1 = (c.perform a.move).comeToRest := by
  cases a <;> rfl

theorem actAnswer {a : Act} (u : Octets) (c : Client) : (act a (c.reread u)).2 = (act a c).2 := by
  cases a with
  | host call =>
    have answer := congrArg Prod.snd (hostReread u call c)
    exact answer
  | server act => rfl

inductive Restful (more w : Weave) (c d : Client) : Prop
  | same (same : d = c) (woven : c.Deafened ∨ Woven (thread false c.unread ++ more))
  | deaf (present : c.server ≠ none) (closed : c.link = .closed)
  | part (present : c.server ≠ none) {first last : Octets} {text : String} {later : Weave} (front : w = thread true first)
      (framed : Framed (first ++ last) text) (left : last ≠ []) (rest : more = thread true last ++ later)

theorem restingLink (reached : Reached config nextId c.quiet) (resting : c.Resting) (present : c.server ≠ none) :
    c.link = .closed ∨ c.listening = true := by
  have still := restingStill.mp resting
  have met := still.met
  cases link : c.link with
  | idle => exact absurd ((reachedHoused reached).bare (.inl link)) present
  | launching refused => exact absurd (.inl ⟨refused, link⟩) met
  | launched => exact absurd (.inr link) met
  | failing failure => exact absurd link (still.cleaned failure)
  | closed => exact .inl rfl
  | handshake | pumping => exact .inr (by simp [listening, link])

theorem restfulPadded {d : Client} (reached : Reached config nextId c.quiet) (resting : c.Resting)
    (resting' : d.Resting) (padded : Padded more w c d) : Restful more w c d := by
  obtain ⟨unread, rfl, woven, bare⟩ := padded
  have still := restingStill.mp resting
  cases server : c.server with
  | none =>
    obtain rfl := bare server
    refine .same (rereadBare server _) ?_
    rwa [unread]
  | some s =>
    have present : c.server ≠ none := by simp [server]
    have front : c.unread = s.unread := by simp [Client.unread, server]
    have server' : (c.reread (whole w)).server = some (s.reread fun _ => whole w) := by simp [reread, server]
    rcases restingLink reached resting present with closed | listening
    · exact .deaf present closed
    have woven := woven.resolve_left (listeningOpen listening)
    cases wovenFront woven with
    | own octets =>
      rw [keptThread] at unread
      refine .same ?_ (.inr (unread ▸ woven))
      rw [wholeThread, ← unread, rereadSelf]
    | @frame frame text w framed _ =>
      rw [keptAppend, keptThread] at unread
      have read := framedRead framed s.writes (kept w)
      rw [← unread, front] at read
      have taken := still.taken.symm.trans (takeBody listening server read)
      cases taken
    | @inserted frame text w framed _ _ =>
      have read := framedRead framed s.writes (whole w)
      rw [← wholeThread true frame, ← wholeAppend] at read
      have taken := (restingStill.mp resting').taken.symm.trans (takeBody listening server' read)
      cases taken
    | part framed _ left _ rest _ => exact .part present rfl framed left rest

theorem movePresent (reached : Reached config nextId c.quiet) (present : c.server ≠ none) (move : Move) :
    (c.perform move).server ≠ none := by
  rcases turnLessened (reachedTurn reached move) with less | ⟨waiting, _⟩
  · exact mt (lessenedNone less).mp present
  · exact absurd ((reachedHoused reached).bare (.inr ⟨_, waiting⟩)) present

theorem actUnread (reached : Reached config nextId c.quiet) {a : Act} (silent : a.move.isWrite = false) :
    (c.perform a.move).unread = c.unread := by
  have other : a.move.isIntake = false := by
    cases a with
    | host call => rfl
    | server act => cases act <;> first | rfl | cases silent
  have same := (performHushed reached other).unread
  exact same

theorem quietPadded {d : Client} (reached : Reached config nextId c.quiet) (present : c.server ≠ none)
    (met : ¬ c.Fallow) (padded : Padded more w c d) {a : Act} (silent : a.move.isWrite = false)
    (nothing : (c.perform a.move).take? = none) (nothing' : (d.perform a.move).take? = none) :
    Padded more w (act a c).1 (act a d).1 := by
  obtain ⟨unread, rfl, woven, _⟩ := padded
  have link := actLink reached present a
  have same := actUnread reached silent
  have moved : Padded more w (c.perform a.move) ((c.reread (whole w)).perform a.move) :=
    ⟨same.trans unread, moveReread silent _ c, by rwa [Deafened, link],
      (absurd · (movePresent reached present a.move))⟩
  have met : ¬ (c.perform a.move).Fallow := by rwa [Fallow, link]
  have met' : ¬ ((c.reread (whole w)).perform a.move).Fallow := by rwa [moveReread silent]
  rw [actRests, actRests, restSettles met nothing, restSettles met' nothing']
  exact settlePadded (askPadded moved)

theorem silentPadded {d : Client} (reached : Reached config nextId c.quiet) (resting : c.Resting)
    (resting' : d.Resting) (padded : Padded more w c d) {a : Act} (silent : a.move.isWrite = false)
    (expects : (act a c).1.Expects (whole more) false) : ∃ w', Padded more w' (act a c).1 (act a d).1 := by
  have met := (restingStill.mp resting).met
  obtain ⟨moves, own, goes⟩ := actGoes a c
  have next := performReached reached a.move
  rw [goes] at expects
  have expects' := playExpects next moves expects
  cases restfulPadded reached resting resting' padded with
  | same same woven =>
    have silent (move : Move) (member : move ∈ a.move :: moves) : move.isWrite = false := by
      rcases List.mem_cons.mp member with rfl | member
      · exact silent
      · have own := own move member
        cases move <;> first | rfl | cases own
    rw [same, goes]
    exact ⟨_, paddedSelf _ (playWoven reached (a.move :: moves) silent expects woven)⟩
  | deaf present closed =>
    have deaf : (c.perform a.move).listening = false := deafenedListening (.inl ((actLink reached present a).trans closed))
    refine ⟨w, quietPadded reached present met padded silent (takeDeaf deaf) ?_⟩
    rw [padded.same, moveReread silent]
    exact takeDeaf deaf
  | @part present first last text later front framed left rest =>
    subst front
    obtain ⟨s, server⟩ := Option.ne_none_iff_exists'.mp (movePresent reached present a.move)
    have unread : (c.perform a.move).unread = [] := by
      rw [actUnread reached silent, padded.unread, keptInserted]
    obtain ⟨nothing, nothing'⟩ := partStarved server expects' framed left rest unread
    refine ⟨_, quietPadded reached present met padded silent nothing ?_⟩
    rwa [padded.same, moveReread silent, wholeThread]

theorem writesReread {s : Server} (server : c.server = some s) (alive : s.alive = true) (writes : s.writes = true)
    (octets : Octets) : c.serverAct (.writes octets) = c.reread (c.unread ++ octets) := by
  have living : c.exited ≠ true := by simp [exited, server, alive]
  rw [serverAct, if_neg living]
  simp [updateServer, reread, unread, server, writes, Server.reread]

theorem writesPadded {d : Client} {s : Server} {chunk : Weave} (resting : c.Resting)
    (padded : Padded (chunk ++ more) w c d) (server : c.server = some s) (alive : s.alive = true)
    (writes : s.writes = true) : ∃ w', Padded more w' (act (.server (.writes (kept chunk))) c).1
      (act (.server (.writes (whole chunk))) d).1 := by
  obtain ⟨unread, rfl, woven, _⟩ := padded
  have present : c.server ≠ none := by simp [server]
  have still := restingStill.mp resting
  have server' : (c.reread (whole w)).server = some (s.reread fun _ => whole w) := by simp [reread, server]
  have longer : Padded more (w ++ chunk) (c.reread (kept (w ++ chunk))) (c.reread (whole (w ++ chunk))) := by
    refine ⟨rereadUnread present _, (rereadTwice _ _ c).symm, ?_, ?_⟩
    · rwa [List.append_assoc]
    · exact fun none => absurd (Option.map_eq_none_iff.mp none) present
  have settled : (c.reread (kept (w ++ chunk))).settle = c.reread (kept (w ++ chunk)) := by
    rw [settleReread, stillSettled still]
  have expects : (c.reread (kept (w ++ chunk))).Expects (whole more) false := by
    refine expectsReread (fun s' own silent => ?_) _
    cases server.symm.trans own
    cases writes.symm.trans silent
  have step : (act (.server (.writes (kept chunk))) c).1 = (c.reread (kept (w ++ chunk))).comeToRest := by
    rw [keptAppend, ← unread, ← writesReread server alive writes]
    rfl
  have step' : (act (.server (.writes (whole chunk))) (c.reread (whole w))).1 =
      (c.reread (whole (w ++ chunk))).comeToRest := by
    have written := writesReread server' alive writes (whole chunk)
    rw [rereadTwice, rereadUnread present, ← wholeAppend] at written
    rw [← written]
    rfl
  rw [step, step']
  exact restPadded (c := c.reread _) still.free still.met settled longer (.inr expects)

theorem writesIdle (resting : c.Resting)
    (shut : ∀ s, c.server = some s → ¬ (s.alive = true ∧ s.writes = true)) (octets : Octets) :
    act (.server (.writes octets)) c = (c, .nothing) := by
  have still := restingStill.mp resting
  have nothing := (writesShut octets shut).2
  simp only [act, nothing]
  rw [restSettles still.met still.taken, askStill still.free, stillSettled still]

end LspClient.Client
