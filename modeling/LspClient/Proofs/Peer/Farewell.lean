import LspClient.Proofs.Client.Correlation
import LspClient.Proofs.Peer.Settling

/-! What the stand-in makes of all that a client says, up to its exit: it answers the request to shut down, says
nothing to what follows, and leaves when it is told to. -/
namespace LspClient

namespace Message

theorem shutdownPlain {id : Int} (range : IsId id) : Json.Plain Json.depthLimit (Request.shutdown id).toJson := by
  refine Json.plainFields ?_
  simp only [optional, Option.toList_none, List.map_nil, List.append_nil, List.forall_mem_cons, List.not_mem_nil,
    false_imp_iff, implies_true, and_true]
  exact ⟨.string _, idPlain range, .string _⟩

theorem exitSendable : Sendable Request.exit where
  ranged := trivial
  plain := by
    refine Json.plainFields ?_
    simp [optional, Json.Plain.string]
  small := by decide +kernel

end Message

namespace StandIn
open Client (Voiced Replies Stopping Left written)

variable {config : Config} {s : StandIn} {m : Message} {ms first replies : List Message}

inductive Civil (config : Config) : Message → Prop where
  | voiced {m : Message} (voiced : Voiced config m) : Civil config m
  | shutdown {id} : Civil config (Request.shutdown id)

def farewell (id : Int) : Message := .response id (some .null) none

theorem handleShutdown (s : StandIn) (id : Int) :
    s.handle (Request.shutdown id) = ({s with shutdownAsked := true}, [farewell id]) := by
  simp [Request.shutdown, handle, answer, farewell]

theorem handleExit (s : StandIn) :
    s.handle Request.exit = ({s with exitCode := some (if s.shutdownAsked then 0 else 1)}, []) := by
  simp [Request.exit, handle, notice]

theorem noticeSilent {s : StandIn} {method : String} {params : Json} {id : Int} {result error} :
    .response id result error ∉ (s.notice method params).2 := by
  unfold notice
  dsimp only
  repeat' split
  all_goals simp [publish, afterInitialized]

theorem handleAnswers {id : Int} {result error} (said : .response id result error ∈ (s.handle m).2) :
    ∃ method params, m = .request id method params := by
  cases m with
  | request asked method params =>
    refine ⟨method, params, ?_⟩
    have reply : Message.response id result error = (s.answer asked method (params.getD .null)).2 :=
      List.mem_singleton.mp said
    unfold answer at reply
    dsimp only at reply
    repeat' split at reply
    all_goals
      cases reply
      rfl
  | notification => exact absurd said noticeSilent
  | response => cases said

theorem echoAnswers {id : Int} {result error} (told : .response id result error ∈ echo ms) :
    ∃ method params, .request id method params ∈ ms := by
  obtain ⟨first, last, split⟩ := List.append_of_mem told
  obtain ⟨before, m, after, pre, post, rfl, here, _⟩ := attendOrigin split
  obtain ⟨method, params, rfl⟩ := handleAnswers (here ▸ List.mem_append_right pre List.mem_cons_self)
  exact ⟨method, params, by simp⟩

theorem handleAsked (s : StandIn) (id : Int) (method : String) (params : Option Json) :
    ∃ result error, (s.handle (.request id method params)).2 = [.response id result error] := by
  simp only [handle, answer]
  repeat' split
  all_goals exact ⟨_, _, rfl⟩

theorem echoAsked {id : Int} {method : String} {params : Option Json} (asked : .request id method params ∈ ms) :
    ∃ result error, .response id result error ∈ echo ms := by
  obtain ⟨first, last, rfl⟩ := List.append_of_mem asked
  obtain ⟨result, error, answers⟩ := handleAsked (hearing first) id method params
  refine ⟨result, error, ?_⟩
  rw [echoAppend, attend, answers]
  simp

theorem farewellCarried {id : Int} (range : Message.IsId id) : Carried (farewell id) where
  asks := nofun
  right _ _ _ same := by cases same; rfl
  same := rfl
  ranged := ⟨range, nofun⟩
  plain := Message.resultPlain range .null

def Seemly (config : Config) (ms : List Message) : Prop :=
  ∀ m ∈ ms, Civil config m ∧ m.Ranged ∧ (Utf8.ofString m.body).length ≤ Frame.limit

structure Ready (s : StandIn) : Prop where
  serves : Serves s
  narrow : NarrowTexts s

theorem handleReady (ready : Ready s) (civil : Civil config m) (ranged : m.Ranged)
    (small : (Utf8.ofString m.body).length ≤ Frame.limit) :
    Ready (s.handle m).1 ∧ ∀ x ∈ (s.handle m).2, Carried x := by
  obtain ⟨serves, narrow⟩ := ready
  cases civil with
  | voiced voiced =>
    have attends := handleVoiced serves.accepts voiced
    exact ⟨⟨attendsServes serves attends, attendsNarrow attends small narrow⟩,
      attendsCarried attends ranged small narrow⟩
  | shutdown =>
    rw [handleShutdown]
    exact ⟨⟨⟨serves.accepts, serves.stays⟩, narrow⟩, List.forall_mem_singleton.mpr (farewellCarried ranged)⟩

theorem attendReady (ready : Ready s) (seemly : Seemly config ms) :
    Ready (attend s ms).1 ∧ ∀ x ∈ (attend s ms).2, Carried x := by
  induction ms generalizing s with
  | nil => exact ⟨ready, nofun⟩
  | cons m ms ih =>
    obtain ⟨⟨civil, ranged, small⟩, others⟩ := List.forall_mem_cons.mp seemly
    obtain ⟨next, now⟩ := handleReady ready civil ranged small
    obtain ⟨last, later⟩ := ih next others
    exact ⟨last, List.forall_mem_append.mpr ⟨now, later⟩⟩

theorem freshReady : Ready (fresh false) := ⟨freshServes, fun _ => narrowEmpty⟩

theorem attendCivil (serves : Serves s) (civil : ∀ m ∈ ms, Civil config m) : Serves (attend s ms).1 := by
  induction ms generalizing s with
  | nil => exact serves
  | cons m ms ih =>
    obtain ⟨first, others⟩ := List.forall_mem_cons.mp civil
    refine ih ?_ others
    cases first with
    | voiced voiced => exact handleServes serves voiced
    | shutdown =>
      rw [handleShutdown]
      exact ⟨serves.accepts, serves.stays⟩

theorem echoExit (ms : List Message) : echo (ms ++ [Request.exit]) = echo ms := by
  rw [echoAppend, attend, handleExit]
  exact List.append_nil _

theorem attendFarewell (s : StandIn) (id : Int) (all : Replies replies) :
    attend s (Request.shutdown id :: replies) = ({s with shutdownAsked := true}, [farewell id]) := by
  rw [attend, handleShutdown, attendReplies _ all]
  rfl

theorem echoFarewell (first : List Message) (id : Int) (all : Replies replies) :
    echo (first ++ Request.shutdown id :: replies) = echo first ++ [farewell id] := by
  rw [echoAppend, attendFarewell _ id all]

theorem hearingFarewell (first : List Message) (id : Int) (all : Replies replies) :
    hearing (first ++ Request.shutdown id :: replies ++ [Request.exit]) =
      {hearing first with shutdownAsked := true, exitCode := some 0} := by
  rw [hearingAppend, hearingAppend, attendFarewell _ id all, attend, handleExit]
  rfl

theorem voicedStays (voiced : Voiced config m) : m.method? ≠ some "shutdown" := by
  cases voiced with
  | reply reply =>
    cases m with
    | response => nofun
    | request | notification => cases reply
  | _ => simp [Client.introduction, Request.introduce, Request.initialized, Request.didOpen, Request.didChange,
      Request.didClose, Request.diagnostic, Message.method?]

structure Parting (config : Config) (wire first replies : List Message) (id : Int) : Prop where
  wire : wire = first ++ Request.shutdown id :: replies
  voiced : ∀ m ∈ first, Voiced config m
  replies : Replies replies

theorem stoppingParting {log : List Event} (stopping : Stopping config log) :
    ∃ first replies id, Parting config (written log) first replies id := by
  obtain ⟨before, rest, id, rfl, talking, replies⟩ := stopping
  refine ⟨written before, written rest, id, ?_, Client.talkingVoiced talking, replies⟩
  rw [Client.writtenAppend]
  rfl

theorem leftParting {log : List Event} (left : Left config log) :
    ∃ wire first replies id, written log = wire ++ [Request.exit] ∧ Parting config wire first replies id := by
  obtain ⟨before, rest, rfl, stopping, silent⟩ := left
  obtain ⟨first, replies, id, parting⟩ := stoppingParting stopping
  refine ⟨written before, first, replies, id, ?_, parting⟩
  rw [Client.writtenAppend]
  exact congrArg (written before ++ Request.exit :: ·) silent

theorem partingCivil {wire : List Message} {id : Int} (parting : Parting config wire first replies id) :
    ∀ m ∈ wire, Civil config m := by
  obtain ⟨rfl, voiced, all⟩ := parting
  refine List.forall_mem_append.mpr ⟨fun m member => .voiced (voiced m member), ?_⟩
  exact List.forall_mem_cons.mpr ⟨.shutdown, fun m member => .voiced (.reply (all m member))⟩

end StandIn

namespace Client

variable {config : Config} {nextId : Int} {c : Client}

theorem laterUnanswered {first last : List Message} {id : Int} {method : String} {params : Option Json}
    (increasing : (requestIds (first ++ .request id method params :: last)).Pairwise (· < ·)) (result error) :
    .response id result error ∉ StandIn.echo first := by
  intro told
  obtain ⟨method', params', asked⟩ := StandIn.echoAnswers told
  have early : id ∈ requestIds first := List.mem_filterMap.mpr ⟨_, asked, rfl⟩
  simp only [requestIds, List.filterMap_append, List.pairwise_append] at increasing
  exact Int.lt_irrefl id (increasing.2.2 id early id List.mem_cons_self)

theorem earlyUnheard {log before rest : List Event} {id : Int} {method : String} {params : Option Json}
    (increasing : (requestIds (written log)).Pairwise (· < ·)) (heeds : Heeds log)
    (split : log = before ++ .wrote (.request id method params) :: rest) : Unheard id before := by
  intro result error member
  have heard := (heeds before ⟨_, split.symm⟩).subset (heardMember.mpr member)
  rw [split, writtenAppend] at increasing
  exact laterUnanswered increasing result error heard

theorem awaitedRequest (owner : Awaited) (id : Int) :
    ∃ method params, owner.request id = .request id method params := by
  cases owner <;> exact ⟨_, _, rfl⟩

theorem awaitedUnheard {id : Int} {owner : Awaited} (reached : Reached config nextId c) (heeds : Heeds c.log)
    (known : c.router.owner? id = some owner) (free : c.asks id = false) (told : c.registered ≠ some id) :
    .wrote (owner.request id) ∈ c.log ∧ Unheard id c.log := by
  have wrote := ((reachedSending reached).written id owner known).resolve_left (by simp [free]) |>.resolve_left told
  refine ⟨wrote, ?_⟩
  obtain ⟨_, before, rest, split, kept⟩ := (reachedAwaits reached id owner).mp known
  obtain ⟨first, last, place⟩ := List.append_of_mem wrote
  obtain ⟨method, params, request⟩ := awaitedRequest owner id
  have early : Unheard id first :=
    earlyUnheard (sentIncreasing reached) heeds (place.trans (by rw [request]))
  -- the slot was opened before, and no response has taken it since
  obtain ⟨owner', slot, _⟩ := (reachedOpened reached).written first _ id last place (by cases owner <;> rfl)
  obtain ⟨start, middle, rfl⟩ := List.append_of_mem slot
  have place' : c.log = start ++ .awaits id owner' :: (middle ++ .wrote (owner.request id) :: last) := by
    simp [place]
  obtain ⟨_, _, rfl⟩ := awaitsOnce (reachedNumbered reached).increasing split place'
  have late : Unheard id (.wrote (owner.request id) :: last) := fun result error member => by
    simpa [Event.frees] using kept _ (List.mem_append_right _ member)
  rw [place]
  exact unheardAppend.mpr ⟨early, late⟩

end Client

namespace Dialogue
open Client (hearings written)
open StandIn (echo hearing Carried Civil Seemly)

variable {config : Config} {nextId : Int} {d : Dialogue} {attended waiting coming : List Message}

def Polite (config : Config) (wire : List Message) : Prop :=
  ∃ said, (∀ m ∈ said, Civil config m) ∧ (wire = said ∨ wire = said ++ [Request.exit])

structure Flows (config : Config) (attended waiting coming : List Message) : Prop where
  ready : waiting ≠ [] → StandIn.Ready (hearing attended)
  sendable : ∀ m ∈ waiting, Message.Sendable m
  known : ∀ m ∈ waiting, Civil config m ∨ m = Request.exit
  said : ∀ x ∈ coming, Carried x ∧ Message.Sendable x

theorem civilSendable {m : Message} (reached : Client.Reached config nextId d.client.quiet)
    (joined : Joined d attended waiting coming) (carried : ∀ x ∈ echo attended, Carried x) (civil : Civil config m)
    (ranged : m.Ranged) (small : (Utf8.ofString m.body).length ≤ Frame.limit) (wrote : m ∈ attended ++ waiting) :
    Message.Sendable m := by
  refine ⟨ranged, ?_, small⟩
  cases civil with
  | voiced voiced =>
    cases reply : m.isReply with
    | true => exact replyPlain reached joined carried wrote reply
    | false => exact Client.voicedPlain voiced ranged reply
  | shutdown => exact Message.shutdownPlain ranged

theorem politeSeemly (polite : Polite config (written d.client.deeds)) (fit : Fit d) : ∃ said, Seemly config said ∧
    (written d.client.deeds = said ∨ written d.client.deeds = said ++ [Request.exit]) := by
  obtain ⟨ranged, small, _⟩ := fit
  rw [sentWritten] at ranged small
  obtain ⟨said, civil, wire⟩ := polite
  have part : said ⊆ written d.client.deeds := by
    rcases wire with same | same <;> rw [same]
    · exact List.Subset.refl _
    · exact List.subset_append_left _ _
  exact ⟨said, fun m member => ⟨civil m member, ranged m (part member), small m (part member)⟩, wire⟩

theorem politeCarried (polite : Polite config (written d.client.deeds)) (fit : Fit d) :
    ∀ x ∈ echo (written d.client.deeds), Carried x := by
  obtain ⟨said, seemly, wire⟩ := politeSeemly polite fit
  have same : echo (written d.client.deeds) = echo said := by
    rcases wire with wire | wire <;> rw [wire]
    exact StandIn.echoExit said
  rw [same]
  exact (StandIn.attendReady StandIn.freshReady seemly).2

theorem politeFlows (reached : Client.Reached config nextId d.client.quiet)
    (joined : Joined d attended waiting coming) (polite : Polite config (written d.client.deeds)) (fit : Fit d) :
    Flows config attended waiting coming := by
  have carried : ∀ x ∈ echo attended, Carried x := by
    have part : echo attended <+: echo (written d.client.deeds) :=
      StandIn.echoPrefix (joined.written ▸ List.prefix_append _ _)
    exact fun x member => politeCarried polite fit x (part.subset member)
  obtain ⟨said, seemly, wire⟩ := politeSeemly polite fit
  rw [joined.written] at wire
  have known : ∀ m ∈ attended ++ waiting, Seemly config [m] ∨ m = Request.exit := by
    have one (m) (member : m ∈ said) : Seemly config [m] := List.forall_mem_singleton.mpr (seemly m member)
    intro m member
    rcases wire with same | same <;> rw [same] at member
    · exact .inl (one m member)
    · exact (List.mem_append.mp member).imp (one m) List.mem_singleton.mp
  refine ⟨fun more => ?_, fun m member => ?_, fun m member => ?_, ?_⟩
  · have early : attended <+: said := by
      rcases wire with same | same
      · exact ⟨waiting, same⟩
      · obtain ⟨rest, last, rfl⟩ := (List.eq_nil_or_concat waiting).resolve_left more
        rw [List.concat_eq_append, ← List.append_assoc] at same
        exact ⟨rest, (List.append_inj' same rfl).1⟩
    exact (StandIn.attendReady StandIn.freshReady fun m member => seemly m (early.subset member)).1
  · have among := List.mem_append_right attended member
    rcases known m among with own | rfl
    · obtain ⟨civil, ranged, small⟩ := own m List.mem_cons_self
      exact civilSendable reached joined carried civil ranged small among
    · exact Message.exitSendable
  · exact (known m (List.mem_append_right _ member)).imp_left fun own => (own m List.mem_cons_self).1
  · intro x member
    have told : x ∈ echo attended := joined.heard ▸ List.mem_append_right _ member
    exact ⟨carried x told, (carriedSendable joined carried fit x member).1⟩

end Dialogue
end LspClient
