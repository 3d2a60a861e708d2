import LspClient.Proofs.Frame
import LspClient.Proofs.Client.Reached

/-! Rest. A client rests when none of its own moves has anything left to do, and it always comes to rest:
what it reads of its server's output only gets shorter. -/
namespace LspClient.Client

def Move.own : Move → Bool
  | .host _ | .server _ | .elsewhere _ => false
  | _ => true

def Resting (c : Client) : Prop := ∀ move : Move, move.own = true → c.perform move = c

variable {c after : Client}

-- what a stop leaves alone

def output (c : Client) : Option (Bool × Utf8.Octets) := c.server.map fun s => (s.writes, s.unread)

def unread (c : Client) : Utf8.Octets := (c.server.map Server.unread).getD []

structure Kept (c after : Client) : Prop where
  link : after.link = c.link ∨ (∃ failure, c.link = .failing failure) ∧ after.link = .closed
  output : c.listening = true → after.output = c.output
  unread : after.unread = c.unread
  present : c.server ≠ none → after.server ≠ none
  asking : c.asking = none → after.asking = none

theorem keptLink (kept : Kept c after) (cleaned : ∀ failure, c.link ≠ .failing failure) : after.link = c.link :=
  kept.link.resolve_right fun ⟨⟨failure, failing⟩, _⟩ => cleaned failure failing

theorem listeningKept (kept : Kept c after) : after.listening = c.listening := by
  rcases kept.link with same | ⟨⟨failure, failing⟩, closed⟩
  · rw [listening, listening, same]
  · simp [listening, failing, closed]

theorem keptSame (c : Client) : Kept c c := ⟨.inl rfl, fun _ => rfl, rfl, id, id⟩

theorem keptThen {later : Client} (first : Kept c after) (second : Kept after later) : Kept c later := by
  refine ⟨?_, fun listens => ?_, second.unread.trans first.unread, second.present ∘ first.present,
    second.asking ∘ first.asking⟩
  · rcases first.link with same | ⟨failing, closed⟩
    · simpa [same] using second.link
    · refine .inr ⟨failing, second.link.elim (·.trans closed) ?_⟩
      rintro ⟨⟨failure, link⟩, _⟩
      exact nomatch closed.symm.trans link
  · exact (second.output ((listeningKept first).trans listens)).trans (first.output listens)

theorem unreadOutput (c : Client) : c.unread = (c.output.map Prod.snd).getD [] := by
  cases server : c.server <;> simp [unread, output, server]

theorem keptOutput (link : after.link = c.link) (output : after.output = c.output)
    (asking : c.asking = none → after.asking = none) : Kept c after where
  link := .inl link
  output _ := output
  unread := by rw [unreadOutput, unreadOutput, output]
  present own none := own (Option.map_eq_none_iff.mp (output.symm.trans (Option.map_eq_none_iff.mpr none)))
  asking := asking

theorem fedUnread (count : Nat) (server : Option Server) :
    (server.map (Server.fed count)).map Server.unread = server.map Server.unread := by
  cases server <;> rfl

theorem bereftUnread (c : Client) : c.bereft.unread = c.unread := by
  unfold bereft unread widow
  split
  · cases c.server <;> rfl
  · rfl

theorem toldUnread (ms : List Message) (c : Client) : (c.told ms).unread = c.unread := by
  rw [unread, told, fedUnread, unread]

theorem failedUnread (failure : Failure) (c : Client) : (c.startFailed failure).unread = c.unread :=
  bereftUnread c.unrouted

theorem failedFree (failure : Failure) (free : c.asking = none) : (c.startFailed failure).asking = none :=
  Decidable.not_not.mp fun some => absurd free ((unheededAsks c).mp some)

theorem toldOutput (ms : List Message) (c : Client) : (c.told ms).output = c.output := by
  cases server : c.server <;> simp [output, told, server, Server.fed]

theorem sendKept (m : Message) (c : Client) : Kept c (c.send m).1 := by
  have sent := quietSend m c
  have asking := (congrArg Client.asking sent).trans (triedSame Client.asking m c.quiet rfl rfl)
  refine keptOutput ((congrArg Client.link sent).trans (triedLink m c.quiet)) ?_ asking.trans
  exact (congrArg output sent).trans (triedSame output m c.quiet (toldOutput [m] c.quiet) rfl)

theorem giveUpKept (c : Client) : Kept c c.giveUp := by
  cases link : c.link with
  | failing failure =>
    simp only [giveUp, link]
    have failed := quietFailStart failure c
    constructor
    · exact .inr ⟨⟨failure, link⟩, rfl⟩
    · simp [listening, link]
    · exact (congrArg unread failed).trans (failedUnread failure c.quiet)
    · intro own
      have server := congrArg Client.server failed
      have widow : c.widow ≠ none := by
        unfold Client.widow
        split
        · simpa using own
        · exact own
      exact fun none => widow (server.symm.trans none)
    · exact fun free => (congrArg Client.asking failed).trans (failedFree failure (c := c.quiet) free)
  | _ =>
    simp only [giveUp, link]
    exact keptSame c

theorem askToShutDownKept (c : Client) : Kept c c.askToShutDown := by
  cases teardown : c.teardown with
  | registered id =>
    refine askToShutDownKeeps (P := Kept c) teardown (sendKept (Request.shutdown id) c) ?_
    exact fun d router teardown kept => ⟨kept.link, kept.output, kept.unread, kept.present, kept.asking⟩
  | _ =>
    simp only [askToShutDown, teardown]
    exact keptSame c

theorem beginTeardownKept (c : Client) : Kept c c.beginTeardown := by
  unfold beginTeardown
  split
  · exact keptSame c
  · split <;> exact keptOutput rfl rfl id

theorem sendExitKept (c : Client) : Kept c c.sendExit := by
  unfold sendExit
  split
  · split
    · exact keptSame c
    · split
      · have kept := sendKept Request.exit c
        exact ⟨kept.link, kept.output, kept.unread, kept.present, kept.asking⟩
      · exact keptOutput rfl rfl id
  · exact keptSame c

theorem finishTeardownKept (c : Client) : Kept c c.finishTeardown := by
  unfold finishTeardown
  split <;> exact keptOutput rfl rfl id

theorem settleKept (c : Client) : Kept c c.settle := by
  have begun := keptThen (giveUpKept c) (beginTeardownKept _)
  have told := keptThen (keptThen begun (askToShutDownKept _)) (sendExitKept _)
  exact keptThen told (finishTeardownKept _)

-- reading on

theorem takeNone : c.take? = none ↔ (c.listening = true → ∀ growing stream,
    c.output = some (growing, stream) → Frame.read growing stream = .starved) := by
  cases listening : c.listening with
  | false => simp [take?, listening]
  | true =>
    cases server : c.server with
    | none => simp [take?, listening, server, output]
    | some s =>
      cases frame : Frame.read s.writes s.unread <;>
        simp [take?, listening, server, output, frame]

theorem takeKept (kept : Kept c after) (nothing : c.take? = none) : after.take? = none := by
  rw [takeNone] at nothing ⊢
  intro listens
  rw [listeningKept kept] at listens
  rw [kept.output listens]
  exact nothing listens

theorem takenUnread {m : Message} (taken : Taken c m after) : after.unread = c.unread := by
  cases taken with
  | request => exact triedSame unread _ c (toldUnread _ c) rfl
  | readyLost => exact toldUnread _ c
  | ready => exact toldUnread _ c
  | _ => rfl

theorem takenFree {m : Message} (free : c.asking = none) (taken : Taken c m after) : after.asking = none := by
  cases taken with
  | request => exact (triedSame Client.asking _ c rfl rfl).trans free
  | pullForestalled => exact Decidable.not_not.mp fun some => absurd free ((forestallAsks _ c).mp some)
  | _ => exact free

def Fallow (c : Client) : Prop := (∃ refused, c.link = .launching refused) ∨ c.link = .launched

def Onwards (before after : Link) : Prop :=
  after = before ∨ after = .pumping ∨ after = .closed ∨
    (∃ id, before = .handshake id) ∧ ∃ failure, after = .failing failure

theorem takenLink {m : Message} (taken : Taken c m after) : Onwards c.link after.link := by
  cases taken with
  | request => exact .inl (triedLink _ c)
  | ready => exact .inr (.inl rfl)
  | readyLost awaited | rejected awaited | tooLate awaited =>
    exact .inr (.inr (.inr ⟨⟨_, awaited⟩, _, rfl⟩))
  | _ => exact .inl rfl

theorem loseLink (listening : c.listening = true) :
    c.lose.link = .closed ∨ (∃ id, c.link = .handshake id) ∧ c.lose.link = .failing .transportClosed := by
  cases link : c.link with
  | handshake id =>
    refine .inr ⟨⟨id, rfl⟩, ?_⟩
    simp only [lose, note, link]
  | pumping =>
    left
    simp only [lose, note, link]
    split <;> rfl
  | _ => simp [Client.listening, link] at listening

theorem loseFree (listening : c.listening = true) (free : c.asking = none) : c.lose.asking = none := by
  cases link : c.link with
  | handshake id => exact (congrArg Client.asking (loseHandshake link)).trans free
  | pumping =>
    refine (congrArg Client.asking (losePumping link)).trans (Decidable.not_not.mp fun some => ?_)
    exact (unheededAsks (c.quiet.note .ended)).mp some free
  | _ => simp [Client.listening, link] at listening

theorem hearUnread (m : Message) (c : Client) : (c.hear m).unread = c.unread := by
  have same := takenUnread (hearTaken m c)
  exact same

theorem hearLink (m : Message) (c : Client) : Onwards c.link (c.hear m).link := by
  have link := takenLink (hearTaken m c)
  exact link

theorem hearFree (m : Message) (free : c.asking = none) : (c.hear m).asking = none := by
  have kept := takenFree (c := c.quiet.note (.heard m)) free (hearTaken m c)
  exact kept

theorem receiveUnread (body : String) (c : Client) : (c.receive body).unread = c.unread := by
  unfold receive
  split
  · rfl
  · exact hearUnread _ c

theorem receiveLink (body : String) (c : Client) : Onwards c.link (c.receive body).link := by
  unfold receive
  split
  · exact .inl rfl
  · exact hearLink _ c

theorem receiveFree (body : String) (free : c.asking = none) : (c.receive body).asking = none := by
  unfold receive
  split
  · exact free
  · exact hearFree _ free

theorem listeningMet (listening : c.listening = true) : ¬ c.Fallow := by
  rintro (⟨refused, link⟩ | link) <;> simp [Client.listening, link] at listening

theorem linkMet (link : Onwards c.link after.link) (met : ¬ c.Fallow) : ¬ after.Fallow := by
  rcases link with same | same | same | ⟨_, failure, same⟩
  · rwa [Fallow, same]
  all_goals simp [Fallow, same]

structure Took (c after : Client) : Prop where
  met : ¬ after.Fallow
  less : after.unread.length < c.unread.length ∨ after.listening = false
  free : c.asking = none → after.asking = none

theorem takeTook (took : c.take? = some after) : Took c after := by
  obtain ⟨listening, s, server, ⟨text, rest, frame, same⟩ | ⟨_, _, same⟩⟩ := takeCases took
  · have link := receiveLink text (c.updateServer fun s => {s with unread := rest})
    have left := receiveUnread text (c.updateServer fun s => {s with unread := rest})
    have own : (c.updateServer fun s => {s with unread := rest}).unread = rest := by
      simp [unread, updateServer, server]
    refine ⟨same ▸ linkMet link (listeningMet listening), .inl ?_, fun free => same ▸ receiveFree text free⟩
    rw [same, left, own, unread, server]
    exact Frame.readRest frame
  · rw [same]
    have deaf : c.lose.listening = false ∧ ¬ c.lose.Fallow := by
      rcases loseLink listening with link | ⟨_, link⟩ <;> simp [Client.listening, Fallow, link]
    exact ⟨deaf.2, .inr deaf.1, loseFree listening⟩

theorem drainTaken (bound : Nat) (c : Client) (enough : c.listening = true → c.unread.length < bound) :
    (c.drain bound).take? = none := by
  -- a stop after each frame leaves link and output alone, so the bound only pays for reading
  induction bound generalizing c with
  | zero =>
    rw [drain, takeNone]
    exact fun listening => absurd (enough listening) (Nat.not_lt_zero _)
  | succ bound ih =>
    unfold drain
    split
    · assumption
    · rename_i after took
      refine ih after.settle fun listening => ?_
      have kept := settleKept after
      rw [listeningKept kept] at listening
      rw [kept.unread]
      rcases (takeTook took).less with less | deaf
      · have bounded := enough (takeCases took).1
        omega
      · exact nomatch deaf.symm.trans listening

theorem keptMet (kept : Kept c after) (met : ¬ c.Fallow) : ¬ after.Fallow :=
  linkMet (kept.link.imp_right fun failed => .inr (.inl failed.2)) met

theorem drainMet (bound : Nat) (c : Client) (met : ¬ c.Fallow) : ¬ (c.drain bound).Fallow := by
  induction bound generalizing c with
  | zero => exact met
  | succ bound ih =>
    unfold drain
    split
    · exact met
    · rename_i after took
      exact ih after.settle (keptMet (settleKept after) (takeTook took).met)

-- what rest is

structure Still (c : Client) : Prop where
  free : c.asking = none
  told : ∀ id, c.teardown ≠ .registered id
  met : ¬ c.Fallow
  cleaned : ∀ failure, c.link ≠ .failing failure
  taken : c.take? = none
  begun : c.teardown = .requested → c.phase = .starting
  answered : ∀ id, c.teardown = .awaitingReply id → (c.router.owner? id).isSome = true
  finished : c.teardown = .awaitingExit → c.exited = false

theorem askFree (c : Client) : c.ask.asking = none := by
  cases asking : c.asking with
  | none => simp [ask, asking]
  | some a =>
    cases refused : c.refusal with
    | none => exact congrArg Client.asking (askSent asking refused)
    | some failure => exact congrArg Client.asking (askLost asking refused)

theorem askToShutDownTold (c : Client) (id : Int) : c.askToShutDown.teardown ≠ .registered id := by
  cases teardown : c.teardown with
  | registered own =>
    rw [askToShutDownStep teardown]
    split <;> simp
  | _ => simp [askToShutDown, teardown]

theorem giveUpCleaned (c : Client) (failure : Failure) : c.giveUp.link ≠ .failing failure := by
  cases link : c.link with
  | failing own =>
    have closed : (failStart own c).link = .closed := rfl
    simp [giveUp, link, closed]
  | _ => simp [giveUp, link]

theorem spawnUnmoved (same : c.spawn = c) (refused : Option Refusal) : c.link ≠ .launching refused := by
  intro waiting
  have link := congrArg Client.link same
  rw [waiting] at link
  cases refused <;> simp only [spawn, waiting] at link <;> cases link

theorem introduceUnmoved (same : c.introduce = c) : c.link ≠ .launched := by
  intro waiting
  have link := congrArg Client.link same
  rw [waiting, introduce, if_neg (not_not_intro waiting)] at link
  simp only at link
  split at link
  · cases link
  · split at link <;> cases link

theorem takeUnmoved (same : c.take?.getD c = c) : c.take? = none := by
  cases took : c.take? with
  | none => rfl
  | some after =>
    have own : after = c := by simpa [took] using same
    have listening : c.listening = true := (takeCases took).1
    rcases own ▸ (takeTook took).less with less | deaf
    · exact absurd less (Nat.lt_irrefl _)
    · exact nomatch deaf.symm.trans listening

theorem beginUnmoved (same : c.beginTeardown = c) (requested : c.teardown = .requested) :
    c.phase = .starting := by
  refine Decidable.byContradiction fun settled => ?_
  have teardown := congrArg Client.teardown same
  rw [requested, beginTeardown, if_neg (by simp [requested, settled])] at teardown
  split at teardown <;> cases teardown

theorem sendExitUnmoved (same : c.sendExit = c) {id : Int} (waiting : c.teardown = .awaitingReply id) :
    (c.router.owner? id).isSome = true := by
  refine Decidable.byContradiction fun answered => ?_
  have teardown := congrArg Client.teardown same
  simp only [sendExit, waiting, if_neg answered] at teardown
  cases teardown

theorem finishUnmoved (same : c.finishTeardown = c) (waiting : c.teardown = .awaitingExit) :
    c.exited = false := by
  refine Decidable.byContradiction fun exited => ?_
  have teardown := congrArg Client.teardown same
  rw [finishTeardown, if_pos ⟨waiting, by simpa using exited⟩, waiting] at teardown
  cases teardown

theorem spawnStill (met : ¬ c.Fallow) : c.spawn = c := by
  unfold spawn
  split
  · exact absurd (.inl ⟨_, ‹_›⟩) met
  · exact absurd (.inl ⟨_, ‹_›⟩) met
  · rfl

theorem beginStill (begun : c.teardown = .requested → c.phase = .starting) : c.beginTeardown = c := by
  unfold beginTeardown
  split
  · rfl
  · rename_i due
    rw [not_or] at due
    exact absurd (begun (Decidable.not_not.mp due.1)) due.2

theorem sendExitStill (answered : ∀ id, c.teardown = .awaitingReply id →
    (c.router.owner? id).isSome = true) : c.sendExit = c := by
  unfold sendExit
  split
  · rename_i id waiting
    rw [if_pos (answered id waiting)]
  · rfl

theorem finishStill (finished : c.teardown = .awaitingExit → c.exited = false) :
    c.finishTeardown = c := by
  refine if_neg fun ⟨waiting, exited⟩ => ?_
  rw [finished waiting] at exited
  cases exited

theorem askToShutDownStill (told : ∀ id, c.teardown ≠ .registered id) : c.askToShutDown = c := by
  unfold askToShutDown
  split
  · exact absurd ‹_› (told _)
  · rfl

theorem askStill (free : c.asking = none) : c.ask = c := by
  simp [ask, free]

theorem askKept (c : Client) : Kept c c.ask := by
  suffices quiet : c.ask.quiet.link = c.link ∧ c.ask.quiet.output = c.output from
    keptOutput quiet.1 quiet.2 fun _ => askFree c
  cases asking : c.asking with
  | none =>
    rw [askStill asking]
    exact ⟨rfl, rfl⟩
  | some a =>
    cases refused : c.refusal with
    | none =>
      rw [askSent asking refused]
      exact ⟨rfl, toldOutput _ c.quiet⟩
    | some failure =>
      rw [askLost asking refused]
      exact ⟨rfl, rfl⟩

theorem giveUpStill (cleaned : ∀ failure, c.link ≠ .failing failure) : c.giveUp = c := by
  unfold giveUp
  split
  · exact absurd ‹_› (cleaned _)
  · rfl

theorem restingStill : c.Resting ↔ Still c := by
  constructor
  · intro resting
    have asked : c.ask = c := resting .ask rfl
    have told : c.askToShutDown = c := resting .askToShutDown rfl
    have cleaned : c.giveUp = c := resting .giveUp rfl
    constructor
    · exact asked ▸ askFree c
    · exact fun id => by simpa [told] using askToShutDownTold c id
    · rintro (⟨refused, link⟩ | link)
      · exact spawnUnmoved (resting .spawn rfl) refused link
      · exact introduceUnmoved (resting .introduce rfl) link
    · exact fun failure => by simpa [cleaned] using giveUpCleaned c failure
    · exact takeUnmoved (resting .take rfl)
    · exact beginUnmoved (resting .beginTeardown rfl)
    · exact fun id => sendExitUnmoved (resting .sendExit rfl)
    · exact finishUnmoved (resting .finishTeardown rfl)
  · rintro ⟨free, told, met, cleaned, taken, begun, answered, finished⟩ move own
    cases move with
    | host | server | elsewhere => cases own
    | ask => exact askStill free
    | spawn => exact spawnStill met
    | introduce => exact if_pos fun link => met (.inr link)
    | take => simp [perform, taken]
    | giveUp => exact giveUpStill cleaned
    | beginTeardown => exact beginStill begun
    | askToShutDown => exact askToShutDownStill told
    | sendExit => exact sendExitStill answered
    | finishTeardown => exact finishStill finished

-- coming to rest

theorem spawnMet (c : Client) (refused : Option Refusal) : c.spawn.link ≠ .launching refused := by
  cases link : c.link with
  | launching cause => cases cause <;> simp [spawn, link, note]
  | _ => simp [spawn, link]

theorem introduceMet (waiting : ∀ refused, c.link ≠ .launching refused) : ¬ c.introduce.Fallow := by
  unfold introduce
  split
  · rename_i link
    rintro (⟨refused, same⟩ | same)
    · exact waiting refused same
    · exact link same
  · simp only
    split
    · simp [Fallow]
    · split <;> simp [Fallow]

theorem beginBegun (c : Client) (requested : c.beginTeardown.teardown = .requested) :
    c.beginTeardown.phase = .starting := by
  unfold beginTeardown at requested ⊢
  split at requested
  · rename_i due
    rw [if_pos due]
    exact due.resolve_left (not_not_intro requested)
  · split at requested <;> cases requested

theorem askToShutDownBegun (begun : c.teardown = .requested → c.phase = .starting) :
    c.askToShutDown.teardown = .requested → c.askToShutDown.phase = .starting := by
  cases teardown : c.teardown with
  | registered id =>
    rw [askToShutDownStep teardown]
    split <;> nofun
  | _ =>
    have still : c.askToShutDown = c := askToShutDownStill fun id => by simp [teardown]
    rwa [still]

theorem sendExitBegun (begun : c.teardown = .requested → c.phase = .starting) :
    c.sendExit.teardown = .requested → c.sendExit.phase = .starting := by
  unfold sendExit
  split
  · split
    · exact begun
    · nofun
  · exact begun

theorem sendExitAnswered (c : Client) (id : Int) (waiting : c.sendExit.teardown = .awaitingReply id) :
    (c.sendExit.router.owner? id).isSome = true := by
  cases same : c.teardown with
  | awaitingReply own =>
    by_cases known : (c.router.owner? own).isSome = true
    · have still : c.sendExit = c := by simp [sendExit, same, known]
      rw [still] at waiting ⊢
      cases same.symm.trans waiting
      exact known
    · simp [sendExit, same, known] at waiting
  | _ => simp [sendExit, same] at waiting

theorem finishCases (c : Client) :
    c.finishTeardown = c ∧ (c.teardown = .awaitingExit → c.exited = false) ∨
      c.finishTeardown.teardown = .none := by
  by_cases due : c.teardown = .awaitingExit ∧ c.exited = true
  · exact .inr (by rw [finishTeardown, if_pos due]; rfl)
  · exact .inl ⟨if_neg due, fun waiting => by simpa [waiting] using due⟩

theorem sendExitTold (told : ∀ id, c.teardown ≠ .registered id) (id : Int) :
    c.sendExit.teardown ≠ .registered id := by
  unfold sendExit
  split
  · split
    · exact told id
    · nofun
  · exact told id

theorem finishTold (told : ∀ id, c.teardown ≠ .registered id) (id : Int) :
    c.finishTeardown.teardown ≠ .registered id := by
  unfold finishTeardown
  split
  · nofun
  · exact told id

theorem settleTold (c : Client) (id : Int) : c.settle.teardown ≠ .registered id :=
  finishTold (sendExitTold (askToShutDownTold c.giveUp.beginTeardown)) id

theorem settleCleaned (c : Client) (failure : Failure) : c.settle.link ≠ .failing failure := by
  have told := keptThen (beginTeardownKept c.giveUp) (askToShutDownKept _)
  have kept := keptThen (keptThen told (sendExitKept _)) (finishTeardownKept _)
  intro failing
  have link : c.settle.link = c.giveUp.link ∨ _ := kept.link
  rcases link with same | ⟨_, closed⟩
  · exact giveUpCleaned c failure (same.symm.trans failing)
  · exact nomatch failing.symm.trans closed

theorem settleStill (free : c.asking = none) (met : ¬ c.Fallow) (taken : c.take? = none) :
    Still c.settle := by
  have kept := settleKept c
  have begun := sendExitBegun (askToShutDownBegun (beginBegun c.giveUp))
  have answered := sendExitAnswered c.giveUp.beginTeardown.askToShutDown
  have free := kept.asking free
  have told := settleTold c
  have cleaned := settleCleaned c
  have met := keptMet kept met
  have taken := takeKept kept taken
  rcases finishCases c.giveUp.beginTeardown.askToShutDown.sendExit with ⟨same, finished⟩ | past
  · rw [settle, same] at free told cleaned met taken ⊢
    exact ⟨free, told, met, cleaned, taken, begun, answered, finished⟩
  · have past : c.settle.teardown = .none := past
    exact ⟨free, told, met, cleaned, taken, by simp [past], by simp [past], by simp [past]⟩

theorem drainFree (bound : Nat) (c : Client) (free : c.asking = none) : (c.drain bound).asking = none := by
  induction bound generalizing c with
  | zero => exact free
  | succ bound ih =>
    unfold drain
    split
    · exact free
    · rename_i after took
      exact ih after.settle ((settleKept after).asking ((takeTook took).free free))

theorem pumpStill (free : c.asking = none) (met : ¬ c.Fallow) : Still c.pump := by
  refine settleStill (drainFree _ c free) (drainMet _ c met) (drainTaken _ c fun _ => ?_)
  cases server : c.server <;> simp [unread, server]

theorem spawnAsks (c : Client) : c.spawn.asking = c.asking := by
  unfold spawn
  split <;> rfl

theorem introduceAsks (c : Client) : c.introduce.asking = c.asking := by
  have introduces := introduceIntroduces c
  have kept : c.introduce.quiet.asking = c.quiet.asking := by
    generalize c.introduce.quiet = after at introduces
    cases introduces <;> rfl
  exact kept

theorem comeToRestResting (c : Client) : c.comeToRest.Resting := by
  have free : c.ask.spawn.introduce.asking = none := by rw [introduceAsks, spawnAsks, askFree]
  exact restingStill.mpr (pumpStill free (introduceMet (spawnMet _)))

-- by its own moves

def Goes (c after : Client) : Prop :=
  ∃ moves : List Move, (∀ move ∈ moves, move.own = true) ∧ after = c.play moves

theorem goesNowhere (c : Client) : Goes c c := ⟨[], List.forall_mem_nil _, rfl⟩

theorem goesThen {later : Client} (first : Goes c after) (second : Goes after later) : Goes c later := by
  obtain ⟨moves, own, rfl⟩ := first
  obtain ⟨more, own', rfl⟩ := second
  refine ⟨moves ++ more, fun move member => ?_, (List.foldl_append).symm⟩
  exact (List.mem_append.mp member).elim (own move) (own' move)

theorem goesOnce (move : Move) (own : move.own = true) (c : Client) : Goes c (c.perform move) :=
  ⟨[move], by simpa using own, rfl⟩

theorem settleGoes (c : Client) : Goes c c.settle := by
  have begun := goesThen (goesOnce .giveUp rfl c) (goesOnce .beginTeardown rfl _)
  have told := goesThen (goesThen begun (goesOnce .askToShutDown rfl _)) (goesOnce .sendExit rfl _)
  exact goesThen told (goesOnce .finishTeardown rfl _)

theorem takeGoes (took : c.take? = some after) : Goes c after := by
  have moved := goesOnce .take rfl c
  rwa [perform, took] at moved

theorem drainGoes (bound : Nat) (c : Client) : Goes c (c.drain bound) := by
  induction bound generalizing c with
  | zero => exact goesNowhere c
  | succ bound ih =>
    unfold drain
    split
    · exact goesNowhere c
    · rename_i after took
      exact goesThen (goesThen (takeGoes took) (settleGoes after)) (ih after.settle)

theorem comeToRestGoes (c : Client) : Goes c c.comeToRest := by
  have spawned := goesThen (goesOnce .ask rfl c) (goesOnce .spawn rfl _)
  have introduced := goesThen spawned (goesOnce .introduce rfl _)
  exact goesThen (goesThen introduced (drainGoes _ _)) (settleGoes _)

def Act.move : Act → Move
  | .host call => .host call
  | .server a => .server a

theorem actGoes (a : Act) (c : Client) : Goes (c.perform a.move) (act a c).1 := by
  cases a <;> exact comeToRestGoes _

theorem actResting (a : Act) (c : Client) : (act a c).1.Resting := by
  cases a <;> exact comeToRestResting _

end LspClient.Client
