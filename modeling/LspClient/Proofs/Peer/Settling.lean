import LspClient.Proofs.Peer.Joined

/-! A client and the stand-in at rest, and how they come to rest while the client runs: the stand-in reads what was
written, the pipe lets all through, the client takes what was said, and the stand-in reads the replies. -/
namespace LspClient

namespace Client
variable {c after : Client} {m : Message}

def answers : Message → List Message
  | .request id method params => [Router.replyTo id method params]
  | _ => []

structure Continues (c after : Client) : Prop where
  phase : after.phase = c.phase
  link : after.link = c.link
  held : after.held = c.held
  teardown : after.teardown = c.teardown
  asking : c.asking = none → after.asking = none

theorem serverContinues (act : ServerAct) (c : Client) : Continues c (c.serverAct act) := by
  obtain ⟨server, same⟩ := serverOnly act c
  have phase := congrArg Client.phase same
  have link := congrArg Client.link same
  have held := congrArg Client.held same
  have teardown := congrArg Client.teardown same
  have asking := congrArg Client.asking same
  exact ⟨phase, link, held, teardown, asking.trans⟩

theorem takenAnswers (foreign : ∀ id result error, m = .response id result error → c.link ≠ .handshake id)
    (clear : c.refusal = none) (taken : Taken c m after) :
    Continues c after ∧ written after.log = written c.log ++ answers m := by
  cases taken with
  | @request id method params =>
    have told : c.tried (Router.replyTo id method params) = c.told [Router.replyTo id method params] := by
      simp [tried, clear]
    rw [told]
    exact ⟨⟨rfl, rfl, rfl, rfl, fun free => free⟩, writtenAppend _ _⟩
  | pullForestalled =>
    have free := forestallAsks (c := c)
    exact ⟨⟨rfl, rfl, rfl, rfl, fun none => Decidable.not_not.mp fun some => (free _).mp some none⟩,
      (List.append_nil _).symm⟩
  | pullAnswered => exact ⟨⟨rfl, rfl, rfl, rfl, id⟩, writtenAppend _ _⟩
  | published | other | unasked | shutdownAnswered =>
    exact ⟨⟨rfl, rfl, rfl, rfl, id⟩, (List.append_nil _).symm⟩
  | rejected awaited | tooLate awaited | readyLost awaited | ready awaited =>
    exact absurd awaited (foreign _ _ _ rfl)

end Client

namespace Dialogue
open Client (hearings written answers Continues)
open StandIn (echo hearing attend Fair)

variable {config : Config} {nextId : Int} {d : Dialogue} {attended waiting coming : List Message}

def Move.own : Move → Bool
  | .client move => move.own
  | .hear | .pass _ | .leave => true
  | .murmur _ => false

def Resting (d : Dialogue) : Prop := ∀ move : Move, move.own = true → d.perform move = d

theorem clientResting (resting : Resting d) : d.client.Resting := by
  intro move own
  have same := congrArg Dialogue.client (resting (.client move) own)
  cases move with
  | server => cases own
  | _ => exact same

theorem performOwn {move : Client.Move} (own : move.own = true) (d : Dialogue) :
    d.perform (.client move) = {d with client := d.client.perform move} := by
  cases move with
  | host | server | elsewhere => cases own
  | _ => rfl

theorem performStill {move : Client.Move} (own : move.own = true) (same : d.client.perform move = d.client) :
    d.perform (.client move) = d := by rw [performOwn own, same]

theorem messageLong (m : Message) : 0 < m.octets.length := by
  have whole : m.octets = _ := Frame.writeOctets m.body
  rw [whole]
  simp

structure Runs (d : Dialogue) : Prop where
  phase : d.client.phase = .running
  link : d.client.link = .pumping

theorem runsGoing (runs : Runs d) : ¬ d.client.Over := Client.runningGoing runs.phase

theorem joinedRuns (reached : Client.Reached config nextId d.client.quiet)
    (joined : Joined d attended waiting coming) (running : d.client.phase = .running) : Runs d :=
  ⟨running, ((Client.reachedCoherent reached).running running).2.1.resolve_right joined.link⟩

theorem runsListening (runs : Runs d) : d.client.listening = true := by
  rw [Client.listening, runs.link]

theorem runsPresent (reached : Client.Reached config nextId d.client.quiet) (runs : Runs d) :
    d.client.server ≠ none :=
  Client.reachedServed (c := d.client.quiet) reached (.inr (runsListening runs))

theorem takeReady {x : Message} (joined : Joined d attended waiting (x :: coming))
    (present : d.client.server ≠ none) (listening : d.client.listening = true) (passed : d.unpassed = [])
    (sendable : Message.Sendable x) :
    d.client.take? ≠ none := by
  intro none
  obtain ⟨s, server⟩ := Option.ne_none_iff_exists'.mp present
  have whole : Frame.read true (x.octets ++ coming.flatMap Message.octets) =
      .body x.body (coming.flatMap Message.octets) := Frame.readWritten sendable.small
  have own : d.client.unread = s.unread := by simp [Client.unread, server]
  have pipe := joined.pipe
  rw [passed, List.append_nil, own] at pipe
  have starved := Client.takeNone.mp none listening s.writes s.unread (by simp [Client.output, server])
  rw [(joined.lodged s server).writes, pipe] at starved
  cases starved.symm.trans whole

theorem restEmpty (joined : Joined d attended waiting coming) (resting : Resting d)
    (present : d.client.server ≠ none) (listening : d.client.listening = true)
    (stays : waiting ≠ [] → (hearing attended).exitCode = none) (heard : ∀ m ∈ waiting, Message.Sendable m)
    (said : ∀ x ∈ coming, Message.Sendable x) : waiting = [] ∧ coming = [] ∧ d.unpassed = [] := by
  have read : waiting = [] := by
    cases waiting with
    | nil => rfl
    | cons m waiting =>
      have next := hearNext joined (servedLiving joined present) (heard m List.mem_cons_self) (stays nofun)
      have read := congrArg Dialogue.read ((resting .hear rfl).symm.trans next)
      have long := messageLong m
      dsimp only at read
      omega
  have passed : d.unpassed = [] := by
    have same := congrArg Dialogue.passed (resting (.pass d.unpassed.length) rfl)
    simp only [perform, pass, List.take_length] at same
    exact List.eq_nil_of_length_eq_zero (by omega)
  refine ⟨read, ?_, passed⟩
  cases coming with
  | nil => rfl
  | cons x later =>
    have none := Client.takeUnmoved (clientResting resting .take rfl)
    exact absurd none (takeReady joined present listening passed (said x List.mem_cons_self))

theorem restJoined (reached : Client.Reached config nextId d.client.quiet)
    (joined : Joined d attended waiting coming) (resting : Resting d) (running : d.client.phase = .running)
    (fit : Fit d) : waiting = [] ∧ coming = [] ∧ d.unpassed = [] := by
  have runs := joinedRuns reached joined running
  have fair := joinedFair reached joined (.inl (runsGoing runs)) fit
  have attendedFair := StandIn.fairFirst fair
  have sendable := waitingSendable reached joined fair
  exact restEmpty joined resting (runsPresent reached runs) (runsListening runs)
    (fun _ => (StandIn.fairServes attendedFair).stays) (fun m member => sendable m (List.mem_append_right _ member))
    fun x member => (comingSendable joined attendedFair fit x member).1

theorem joinedResting (reached : Client.Reached config nextId d.client.quiet) (joined : Joined d attended [] [])
    (runs : Runs d) (held : d.client.held = true) (free : d.client.asking = none) (passed : d.unpassed = [])
    (stays : (hearing attended).exitCode = none) : Resting d := by
  obtain ⟨s, server⟩ := Option.ne_none_iff_exists'.mp (runsPresent reached runs)
  have idle : d.client.teardown = .none := (Client.reachedCoherent reached).held held
  have still : Client.Still d.client := {
    free := free
    told := fun id registered => by cases idle.symm.trans registered
    met := by
      rintro (⟨refused, link⟩ | link) <;> cases runs.link.symm.trans link
    cleaned := fun failure link => by cases runs.link.symm.trans link
    taken := by
      refine Client.takeNone.mpr fun _ growing stream output => ?_
      have pipe := joined.pipe
      rw [passed, List.append_nil] at pipe
      simp only [Client.output, server, Option.map_some, Option.some.injEq, Prod.mk.injEq] at output
      obtain ⟨rfl, rfl⟩ := output
      have none : s.unread = [] := by simpa [Client.unread, server] using pipe
      rw [(joined.lodged s server).writes, none]
      rfl
    begun := fun requested => by cases idle.symm.trans requested
    answered := fun id waiting => by cases idle.symm.trans waiting
    finished := fun waiting => by cases idle.symm.trans waiting }
  have resting : d.client.Resting := Client.restingStill.mpr still
  intro move own
  cases move with
  | client move => exact performStill own (resting move own)
  | hear => exact hearNothing joined
  | pass count => exact passEmpty passed count
  | murmur => cases own
  | leave => simp [perform, leave, joined.peer, Peer.exited, stays]

def saying (attended waiting coming : List Message) : List Message :=
  coming ++ (attend (hearing attended) waiting).2

theorem hearVoiced {m : Message} (joined : Joined d attended (m :: waiting) coming)
    (present : d.client.server ≠ none) (voiced : ∀ n ∈ attended ++ m :: waiting, Client.Voiced config n)
    (sendable : ∀ n ∈ m :: waiting, Message.Sendable n) :
    Joined d.hear (attended ++ [m]) waiting (coming ++ ((hearing attended).handle m).2) :=
  have stays := (StandIn.hearingServes fun n member => voiced n (List.mem_append_left _ member)).stays
  hearStep joined (servedLiving joined present) (sendable m List.mem_cons_self) stays

theorem hearsAll (joined : Joined d attended waiting coming) (present : d.client.server ≠ none)
    (voiced : ∀ m ∈ attended ++ waiting, Client.Voiced config m)
    (sendable : ∀ m ∈ waiting, Message.Sendable m) :
    Joined (d.play (List.replicate waiting.length .hear)) (attended ++ waiting) []
      (saying attended waiting coming) ∧ (d.play (List.replicate waiting.length .hear)).client = d.client := by
  induction waiting generalizing d attended coming with
  | nil => exact ⟨by simpa [saying, attend, play] using joined, rfl⟩
  | cons m waiting ih =>
    have next := hearVoiced joined present voiced sendable
    have same := hearClient d
    rw [← same] at present
    have later := ih next present (by simpa using voiced) fun n member =>
      sendable n (List.mem_cons_of_mem m member)
    rw [saying, StandIn.hearingAppend, same] at later
    simpa [saying, attend, play, perform, List.replicate_succ] using later

theorem unpassedFew (joined : Joined d attended waiting coming) :
    d.unpassed.length ≤ ((echo attended).flatMap Message.octets).length := by
  rw [unpassedSaid joined, List.length_drop]
  exact Nat.sub_le _ _

theorem passAll (joined : Joined d attended waiting coming) (present : d.client.server ≠ none) {count : Nat}
    (enough : d.unpassed.length ≤ count) :
    Joined (d.pass count) attended waiting coming ∧ (d.pass count).unpassed = [] := by
  refine ⟨passStep joined present count, ?_⟩
  have left : (d.pass count).unpassed = d.unpassed.drop d.unpassed.length := by
    rw [pass, List.take_of_length_le enough]
    simp only [unpassed, List.drop_drop]
  rw [left, List.drop_length]

theorem takeAnswers {after : Client} {x : Message} (reached : Client.Reached config nextId d.client.quiet)
    (joined : Joined d attended waiting (x :: coming))
    (sendable : ∀ y ∈ x :: coming, Message.Sendable y ∧ y.normal = y) (attached : d.client.attached = true)
    (foreign : ∀ id result error, x = .response id result error → d.client.link ≠ .handshake id)
    (took : d.client.take? = some after) :
    Joined {d with client := after} attended (waiting ++ answers x) coming ∧ Continues d.client after := by
  have present : d.client.server ≠ none :=
    Client.reachedServed (c := d.client.quiet) reached (.inr (Client.takeCases took).1)
  obtain ⟨x', later', rest, same', _, same⟩ := takeHears joined (fun y member => (sendable y member).1) took
  obtain ⟨rfl, rfl⟩ := List.cons.inj same'
  rw [(sendable x List.mem_cons_self).2] at same
  let c := d.client.updateServer fun s => {s with unread := rest}
  have lodged : c.Lodged := Client.readLodged joined.lodged rest
  have present' : c.server ≠ none := Client.updatePresent present
  have clear : (c.quiet.note (.heard x)).refusal = none := Client.lodgedReads lodged present' attached
  have taken := Client.hearTaken x c
  rw [(same.symm : c.hear x = after)] at taken
  obtain ⟨⟨phase, link, held, teardown, asking⟩, wrote⟩ :=
    Client.takenAnswers (c := c.quiet.note (.heard x)) foreign clear taken
  have open' : after.link ≠ .closed := fun closed => joined.link (link.symm.trans closed)
  obtain ⟨_, _, more, split, step⟩ := takeKeeps reached joined sendable took open'
  obtain ⟨rfl, rfl⟩ := List.cons.inj split
  have exact' : more = answers x := by
    have heard : written (c.quiet.note (.heard x)).log = attended ++ waiting := by
      rw [← joined.written]
      exact (Client.writtenAppend _ _).trans (List.append_nil _)
    have wire := step.written
    rw [← List.append_assoc, ← heard] at wire
    exact List.append_cancel_left (wire.symm.trans wrote)
  exact ⟨exact' ▸ step, phase, link, held, teardown, asking⟩

section
variable (reached : Client.Reached config nextId d.client.quiet) (runs : Runs d) (passed : d.unpassed = [])
include reached runs passed

theorem takeNext {x : Message} (joined : Joined d attended waiting (x :: coming))
    (sendable : ∀ y ∈ x :: coming, Message.Sendable y ∧ y.normal = y) :
    let later := d.perform (.client .take)
    Joined later attended (waiting ++ answers x) coming ∧ Runs later ∧ later.unpassed = [] ∧
      later.client.held = d.client.held ∧ (d.client.asking = none → later.client.asking = none) := by
  obtain ⟨after, took⟩ := Option.ne_none_iff_exists'.mp (takeReady joined (runsPresent reached runs)
    (runsListening runs) passed (sendable x List.mem_cons_self).1)
  have attached : d.client.attached = true := ((Client.reachedCoherent reached).running runs.phase).2.2
  obtain ⟨step, continues⟩ := takeAnswers reached joined sendable attached
    (fun id _ _ _ awaited => nomatch runs.link.symm.trans awaited) took
  have performed : d.perform (.client .take) = {d with client := after} := by
    simp [perform, Client.perform, took]
  rw [performed]
  exact ⟨step, ⟨continues.phase.trans runs.phase, continues.link.trans runs.link⟩, passed, continues.held,
    continues.asking⟩

end

theorem takesAll (reached : Client.Reached config nextId d.client.quiet)
    (joined : Joined d attended waiting coming) (runs : Runs d) (passed : d.unpassed = [])
    (sendable : ∀ x ∈ coming, Message.Sendable x ∧ x.normal = x) :
    let later := d.play (List.replicate coming.length (.client .take))
    Joined later attended (waiting ++ coming.flatMap answers) [] ∧ Runs later ∧ later.unpassed = [] ∧
      later.client.held = d.client.held ∧ (d.client.asking = none → later.client.asking = none) := by
  induction coming generalizing d waiting with
  | nil => exact ⟨by simpa [play] using joined, runs, passed, rfl, id⟩
  | cons x coming ih =>
    obtain ⟨next, runs', passed', held, free⟩ := takeNext reached runs passed joined sendable
    have later := ih (performReached reached _) next runs' passed' fun y member =>
      sendable y (List.mem_cons_of_mem x member)
    rw [held, List.append_assoc] at later
    obtain ⟨joined', runs', passed', held', free'⟩ := later
    exact ⟨joined', runs', passed', held', free' ∘ free⟩

def settings : Message := .response 1 (some (.array [.null])) none

theorem settingsSendable : Message.Sendable settings where
  ranged := ⟨by decide, nofun⟩
  plain := Message.resultPlain (by decide) (.array (List.forall_mem_singleton.mpr .null))
  small := by decide +kernel

theorem carriedAnswers {xs : List Message} (carried : ∀ x ∈ xs, StandIn.Carried x) :
    ∀ m ∈ xs.flatMap answers, m = settings := by
  intro m member
  obtain ⟨x, own, answer⟩ := List.mem_flatMap.mp member
  cases x with
  | request id method params =>
    rw [List.mem_singleton.mp answer]
    exact settingsReply ((carried _ own).asks id method params rfl)
  | response | notification => cases answer

theorem settingsSilent (s : StandIn) {ms : List Message} (replies : ∀ m ∈ ms, m = settings) :
    (attend s ms).2 = [] := by
  have all : Client.Replies ms := fun m member => replies m member ▸ rfl
  rw [StandIn.attendReplies s all]

def settling (attended waiting coming : List Message) : List Move :=
  List.replicate waiting.length .hear ++
    .pass ((echo (attended ++ waiting)).flatMap Message.octets).length ::
      (List.replicate (saying attended waiting coming).length (.client .take) ++
        List.replicate ((saying attended waiting coming).flatMap answers).length .hear)

theorem settlingOwn : ∀ move ∈ settling attended waiting coming, move.own = true := by
  simp only [settling, List.forall_mem_append, List.forall_mem_cons]
  refine ⟨fun move member => ?_, rfl, fun move member => ?_, fun move member => ?_⟩ <;>
    rw [List.eq_of_mem_replicate member] <;> rfl

theorem playAppend (d : Dialogue) (moves more : List Move) : d.play (moves ++ more) = (d.play moves).play more :=
  List.foldl_append

theorem playCons (d : Dialogue) (move : Move) (moves : List Move) :
    d.play (move :: moves) = (d.perform move).play moves := rfl

theorem passContinues (d : Dialogue) (count : Nat) : Continues d.client (d.pass count).client :=
  Client.serverContinues (.writes (d.unpassed.take count)) d.client

theorem runsContinues {later : Dialogue} (runs : Runs d) (continues : Continues d.client later.client) :
    Runs later :=
  ⟨continues.phase.trans runs.phase, continues.link.trans runs.link⟩

theorem settled (reached : Client.Reached config nextId d.client.quiet)
    (joined : Joined d attended waiting coming) (runs : Runs d) (held : d.client.held = true)
    (free : d.client.asking = none) (voiced : ∀ m ∈ attended ++ waiting, Client.Voiced config m)
    (heard : ∀ m ∈ waiting, Message.Sendable m)
    (said : ∀ x ∈ saying attended waiting coming, StandIn.Carried x ∧ Message.Sendable x) :
    let later := d.play (settling attended waiting coming)
    Joined later (attended ++ waiting ++ (saying attended waiting coming).flatMap answers) [] [] ∧
      Runs later ∧ Resting later := by
  have replies := carriedAnswers fun x member => (said x member).1
  have sendable : ∀ m ∈ (saying attended waiting coming).flatMap answers, Message.Sendable m := fun m member =>
    replies m member ▸ settingsSendable
  have voicedAll : ∀ m ∈ attended ++ waiting ++ (saying attended waiting coming).flatMap answers,
      Client.Voiced config m :=
    List.forall_mem_append.mpr ⟨voiced, fun m member => replies m member ▸ .reply rfl⟩
  obtain ⟨joined₁, same₁⟩ := hearsAll joined (runsPresent reached runs) voiced heard
  generalize first : d.play (List.replicate waiting.length .hear) = d₁ at joined₁ same₁
  have reached₁ : Client.Reached config nextId d₁.client.quiet := same₁ ▸ reached
  have runs₁ : Runs d₁ := ⟨same₁ ▸ runs.phase, same₁ ▸ runs.link⟩
  let count := ((echo (attended ++ waiting)).flatMap Message.octets).length
  obtain ⟨joined₂, passed₂⟩ := passAll joined₁ (runsPresent reached₁ runs₁) (unpassedFew joined₁)
  have continues := passContinues d₁ count
  generalize second : d₁.pass count = d₂ at joined₂ passed₂ continues
  have reached₂ : Client.Reached config nextId d₂.client.quiet := second ▸ performReached reached₁ (.pass _)
  obtain ⟨joined₃, runs₃, _, held₃, free₃⟩ := takesAll reached₂ joined₂ (runsContinues runs₁ continues) passed₂
    fun x member => ⟨(said x member).2, (said x member).1.same⟩
  generalize third : d₂.play (List.replicate (saying attended waiting coming).length (.client .take)) = d₃
    at joined₃ runs₃ held₃ free₃
  have reached₃ : Client.Reached config nextId d₃.client.quiet := third ▸ playReached reached₂ _
  obtain ⟨joined₄, same₄⟩ := hearsAll joined₃ (runsPresent reached₃ runs₃) voicedAll sendable
  have last : d.play (settling attended waiting coming) =
      d₃.play (List.replicate ((saying attended waiting coming).flatMap answers).length .hear) := by
    rw [settling, playAppend, first, playCons, perform, second, playAppend, third]
  have silent : saying (attended ++ waiting) ((saying attended waiting coming).flatMap answers) [] = [] :=
    settingsSilent _ replies
  rw [List.nil_append, silent, ← last] at joined₄
  rw [List.nil_append, ← last] at same₄
  have runs₄ : Runs (d.play (settling attended waiting coming)) :=
    ⟨same₄ ▸ runs₃.phase, same₄ ▸ runs₃.link⟩
  have held₄ : (d.play (settling attended waiting coming)).client.held = true :=
    same₄ ▸ held₃.trans (continues.held.trans (same₁ ▸ held))
  have free₄ : (d.play (settling attended waiting coming)).client.asking = none :=
    same₄ ▸ free₃ (continues.asking (same₁ ▸ free))
  have passed₄ := (List.append_eq_nil_iff.mp joined₄.pipe).2
  have stays := (StandIn.hearingServes voicedAll).stays
  exact ⟨joined₄, runs₄, joinedResting (playReached reached _) joined₄ runs₄ held₄ free₄ passed₄ stays⟩

theorem fitEarlier (reached : Client.Reached config nextId d.client.quiet) {moves more : List Move}
    (fit : Fit (d.play (moves ++ more))) : Fit (d.play moves) := by
  induction more using List.reverseRecOn with
  | nil => rwa [List.append_nil] at fit
  | append_singleton more move ih =>
    rw [← List.append_assoc, playAppend] at fit
    have earlier : Client.Reached config nextId (d.play (moves ++ more)).client.quiet := playReached reached _
    exact ih (fitBefore earlier move fit)

theorem settles (reached : Client.Reached config nextId d.client.quiet)
    (joined : Joined d attended waiting coming) (runs : Runs d) (held : d.client.held = true)
    (free : d.client.asking = none) (fit : Fit (d.play (settling attended waiting coming))) :
    Runs (d.play (settling attended waiting coming)) ∧ Resting (d.play (settling attended waiting coming)) := by
  have first : Fit (d.play []) := fitEarlier reached fit
  have fair := joinedFair reached joined (.inl (runsGoing runs)) first
  have sendable := waitingSendable reached joined fair
  have waits : ∀ m ∈ waiting, Message.Sendable m := fun m member => sendable m (List.mem_append_right _ member)
  obtain ⟨next, _⟩ := hearsAll joined (runsPresent reached runs) (fun m member => (fair m member).1) waits
  have said : ∀ x ∈ saying attended waiting coming, StandIn.Carried x ∧ Message.Sendable x := by
    intro x member
    have told : x ∈ echo (attended ++ waiting) := next.heard ▸ List.mem_append_right _ member
    exact ⟨StandIn.echoCarried fair x told, (comingSendable next fair (fitEarlier reached fit) x member).1⟩
  exact (settled reached joined runs held free (fun m member => (fair m member).1) waits said).2

theorem freshEmptied {c : Client} (fresh : c.server = some .fresh) (octets : Utf8.Octets) :
    (c.serverAct (.writes octets)).updateServer (fun s => {s with unread := []}) = c := by
  cases c
  cases fresh
  simp [Client.serverAct, Client.exited, Client.updateServer, Server.fresh]

theorem passTake {x : Message} {count : Nat} (joined : Joined d attended waiting [x])
    (fresh : d.client.server = some .fresh) (listening : d.client.listening = true) (sendable : Message.Sendable x)
    (same : x.normal = x) (enough : d.unpassed.length ≤ count) :
    (d.pass count).client.take? = some (d.client.hear x) := by
  have present : d.client.server ≠ none := by simp [fresh]
  obtain ⟨joined', passed⟩ := passAll joined present enough
  have kept := (passContinues d count).link
  have listening' : (d.pass count).client.listening = true := by rwa [Client.listening, kept]
  have present' : (d.pass count).client.server ≠ none := by
    simp [pass, Client.perform, Client.serverAct, Client.exited, Client.updateServer, fresh, Server.fresh]
  obtain ⟨after, took⟩ := Option.ne_none_iff_exists'.mp (takeReady joined' present' listening' passed sendable)
  obtain ⟨y, later, rest, split, pipe, heard⟩ :=
    takeHears joined' (fun y member => List.mem_singleton.mp member ▸ sendable) took
  obtain ⟨rfl, rfl⟩ := List.cons.inj split
  obtain ⟨rfl, _⟩ := List.append_eq_nil_iff.mp pipe
  rw [took, heard, same]
  exact congrArg (fun c => some (Client.hear x c)) (freshEmptied fresh (d.unpassed.take count))

theorem exchange {m x : Message} {more : List Message} (reached : Client.Reached config nextId d.client.quiet)
    (joined : Joined d [] [m] []) (fresh : d.client.server = some .fresh) (listening : d.client.listening = true)
    (sendable : Message.Sendable m) (answer : ((hearing []).handle m).2 = [x]) (sendable' : Message.Sendable x)
    (same : x.normal = x) (running : (d.client.hear x).phase = .running)
    (wrote : written (d.client.hear x).deeds = m :: more) :
    let later := d.play [.hear, .pass ((echo [m]).flatMap Message.octets).length, .client .take]
    Joined later [m] more [] ∧ later.client = d.client.hear x := by
  have present : d.client.server ≠ none := by simp [fresh]
  have living := servedLiving joined present
  have heard := hearStep joined living sendable rfl
  have client := hearClient d
  rw [answer] at heard
  rw [← client] at fresh listening present running wrote
  let count := ((echo [m]).flatMap Message.octets).length
  have took : (d.hear.pass count).client.take? = some (d.hear.client.hear x) :=
    passTake heard fresh listening sendable' same (unpassedFew heard)
  have going : ¬ (d.hear.client.hear x).Over := Client.runningGoing running
  have reached' := performReached (performReached reached .hear) (.pass count)
  obtain ⟨_, later, more', split, next⟩ := takeStep reached' (passStep heard present count)
    (fun y member => List.mem_singleton.mp member ▸ ⟨sendable', same⟩) took going
  obtain ⟨rfl, rfl⟩ := List.cons.inj split
  have wire : more' = more := by
    have whole := next.written.symm.trans wrote
    exact (List.cons.inj whole).2
  have last : d.play [.hear, .pass count, .client .take] =
      {d.hear.pass count with client := d.hear.client.hear x} := by
    simp [play, perform, Client.perform, took]
  rw [last, ← client]
  exact ⟨wire ▸ next, rfl⟩

end Dialogue
end LspClient
