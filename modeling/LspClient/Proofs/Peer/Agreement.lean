import Mathlib.Data.List.Induction
import LspClient.Proofs.Split
import LspClient.Proofs.Peer.Echo

/-! The stand-in among messages of any kind, whoever sends them. What it answers to a pull is what it pushed last;
each request has one response; the exit code tells whether it was asked to shut down; and it goes on reading until
it is told to exit or can read no more. -/
namespace LspClient.StandIn
open Utf8 (Octets)

variable {s : StandIn} {m : Message} {ms : List Message} {uri : String}

def exits : Message → Bool
  | .notification method _ => method == "exit"
  | _ => false

def shutsDown : Message → Bool
  | .request _ method _ => method == "shutdown"
  | _ => false

def requestId? : Message → Option Int
  | .request id _ _ => some id
  | _ => none

def responseId? : Message → Option Int
  | .response id _ _ => some id
  | _ => none

def pushed? (uri : String) : Message → Option Json
  | .notification "textDocument/publishDiagnostics" (some params) =>
    if (params.field? "uri").bind Json.string? = some uri then params.field? "diagnostics" else none
  | _ => none

def pushed (uri : String) (said : List Message) : Json :=
  (said.filterMap (pushed? uri)).getLast?.getD (.array [])

inductive Handles (s : StandIn) : Message → StandIn → List Message → Prop where
  | answered {id method params result error} (other : method ≠ "shutdown") :
      Handles s (.request id method params) s [.response id result error]
  | shutDown {id params} :
      Handles s (.request id "shutdown" params) {s with shutdownAsked := true} [.response id (some .null) none]
  | ready {params} : Handles s (.notification "initialized" params) s afterInitialized
  | taught {method params} (uri text : String) (other : method ≠ "exit") :
      Handles s (.notification method params) (s.setText uri text) [publishing uri text]
  | repeated {method params} (uri : String) (other : method ≠ "exit") :
      Handles s (.notification method params) s [publishing uri (s.textOf uri)]
  | closed {method params} (uri : String) (other : method ≠ "exit") :
      Handles s (.notification method params) (s.forget uri) [publishing uri ""]
  | exit {params} : Handles s (.notification "exit" params)
      {s with exitCode := some (if s.shutdownAsked then 0 else 1)} []
  | ignored {method params} (other : method ≠ "exit") : Handles s (.notification method params) s []
  | reply {id result error} : Handles s (.response id result error) s []

theorem answerHandles (s : StandIn) (id : Int) (method : String) (params : Option Json) :
    Handles s (.request id method params) (s.handle (.request id method params)).1
      (s.handle (.request id method params)).2 := by
  rw [handle, answer]
  by_cases introduction : method = "initialize"
  · subst introduction
    cases accepts : s.rejects <;> exact .answered (by decide)
  by_cases shutdown : method = "shutdown"
  · subst shutdown
    exact .shutDown
  by_cases pull : method = "textDocument/diagnostic"
  · subst pull
    exact .answered shutdown
  simp only [introduction, shutdown, pull, if_false]
  exact .answered shutdown

theorem noticeHandles (s : StandIn) (method : String) (params : Option Json) :
    Handles s (.notification method params) (s.handle (.notification method params)).1
      (s.handle (.notification method params)).2 := by
  let uri := (documentUri? (params.getD .null)).getD ""
  by_cases ready : method = "initialized"
  · subst ready
    exact .ready
  by_cases opened : method = "textDocument/didOpen"
  · let text := (openedText? (params.getD .null)).getD ""
    have said : s.handle (.notification method params) = (s.setText uri text, [publishing uri text]) := by
      simp [opened, handle, notice, publishText, textOfSet, uri, text]
    rw [said]
    exact .taught uri text (by rw [opened]; decide)
  by_cases changed : method = "textDocument/didChange"
  · cases new : changedText? (params.getD .null) with
    | none =>
      have said : s.handle (.notification method params) = (s, [publishing uri (s.textOf uri)]) := by
        simp [changed, handle, notice, publishText, new, uri]
      rw [said]
      exact .repeated uri (by rw [changed]; decide)
    | some text =>
      have said : s.handle (.notification method params) = (s.setText uri text, [publishing uri text]) := by
        simp [changed, handle, notice, publishText, textOfSet, new, uri]
      rw [said]
      exact .taught uri text (by rw [changed]; decide)
  by_cases closed : method = "textDocument/didClose"
  · have said : s.handle (.notification method params) = (s.forget uri, [publishing uri ""]) := by
      simp [closed, handle, notice, publishText, textOfForget, uri]
    rw [said]
    exact .closed uri (by rw [closed]; decide)
  by_cases exit : method = "exit"
  · subst exit
    exact .exit
  · have said : s.handle (.notification method params) = (s, []) := by
      simp only [handle, notice, ready, opened, changed, closed, exit, if_false]
    rw [said]
    exact .ignored exit

theorem handleHandles (s : StandIn) (m : Message) : Handles s m (s.handle m).1 (s.handle m).2 := by
  cases m with
  | request id method params => exact answerHandles s id method params
  | notification method params => exact noticeHandles s method params
  | response => exact .reply

theorem pushedPublishing (uri other text : String) : pushed? uri (publishing other text) =
    if other = uri then some (diagnosticsJson text) else none := by
  simp [publishing, pushed?, Json.ofFields, Json.field?, Json.lookupOrder, Json.lookupCons, Json.string?]

theorem pushedSilent {replies : List Message} (said : List Message)
    (silent : replies.filterMap (pushed? uri) = []) : pushed uri (said ++ replies) = pushed uri said := by
  rw [pushed, List.filterMap_append, silent, List.append_nil, pushed]

theorem pushedLast (said : List Message) (other text : String) : pushed uri (said ++ [publishing other text]) =
    if other = uri then diagnosticsJson text else pushed uri said := by
  by_cases same : other = uri
  · have last : pushed? uri (publishing other text) = some (diagnosticsJson text) := by
      rw [pushedPublishing, if_pos same]
    rw [if_pos same, pushed, List.filterMap_append, List.filterMap_cons_some last, List.getLast?_append]
    rfl
  · have silent : pushed? uri (publishing other text) = none := by rw [pushedPublishing, if_neg same]
    rw [if_neg same, pushedSilent said (List.filterMap_cons_none silent)]

theorem handlesPushed {after : StandIn} {replies : List Message} (handles : Handles s m after replies)
    (said : List Message) (own : pushed uri said = diagnosticsJson (s.textOf uri)) :
    pushed uri (said ++ replies) = diagnosticsJson (after.textOf uri) := by
  cases handles with
  | taught other text =>
    rw [pushedLast, textOfSet, own]
    by_cases same : other = uri
    · rw [if_pos same, if_pos same.symm]
    · rw [if_neg same, if_neg (Ne.symm same)]
  | repeated other =>
    rw [pushedLast, own]
    split
    · rename_i same
      rw [same]
    · rfl
  | closed other =>
    rw [pushedLast, textOfForget, own]
    by_cases same : other = uri
    · rw [if_pos same, if_pos same.symm]
    · rw [if_neg same, if_neg (Ne.symm same)]
  | answered | shutDown | ready | exit | ignored | reply =>
    rw [pushedSilent said rfl]
    exact own

theorem attendLast (s : StandIn) (ms : List Message) (m : Message) : attend s (ms ++ [m]) =
    (((attend s ms).1.handle m).1, (attend s ms).2 ++ ((attend s ms).1.handle m).2) := by
  rw [attendAppend, attend, attend, List.append_nil]

theorem attendPushed (rejects : Bool) (ms : List Message) (uri : String) :
    pushed uri (attend (fresh rejects) ms).2 = diagnosticsJson ((attend (fresh rejects) ms).1.textOf uri) := by
  induction ms using List.reverseRecOn with
  | nil => rfl
  | append_singleton ms m ih =>
    rw [attendLast]
    exact handlesPushed (handleHandles _ m) _ ih

theorem pullAnswer (s : StandIn) (id : Int) {params : Option Json} (named : documentUri? (params.getD .null) = some uri) :
    (s.handle (.request id "textDocument/diagnostic" params)).2 = [reporting id (s.textOf uri)] := by
  simp [handle, answer, named, reporting]

theorem reportItems (text : String) :
    (Json.ofFields [("kind", .string "full"), ("items", diagnosticsJson text)]).field? "items" =
      some (diagnosticsJson text) := by
  simp [Json.ofFields, Json.field?, Json.lookupOrder]

theorem handlesResponses {after : StandIn} {replies : List Message} (handles : Handles s m after replies) :
    replies.filterMap responseId? = (requestId? m).toList := by
  cases handles <;> rfl

theorem attendResponses (s : StandIn) (ms : List Message) :
    (attend s ms).2.filterMap responseId? = ms.filterMap requestId? := by
  induction ms generalizing s with
  | nil => rfl
  | cons m ms ih =>
    rw [attend, List.filterMap_append, ih, handlesResponses (handleHandles s m), List.filterMap_cons]
    cases requestId? m <;> rfl

theorem handlesShutdown {after : StandIn} {replies : List Message} (handles : Handles s m after replies) :
    after.shutdownAsked = (s.shutdownAsked || shutsDown m) := by
  cases handles with
  | answered other => simp [shutsDown, other]
  | shutDown => simp [shutsDown]
  | ready | taught | repeated | closed | exit | ignored | reply => exact (Bool.or_false _).symm

theorem attendShutdown (s : StandIn) (ms : List Message) :
    (attend s ms).1.shutdownAsked = (s.shutdownAsked || ms.any shutsDown) := by
  induction ms generalizing s with
  | nil => exact (Bool.or_false _).symm
  | cons m ms ih => rw [attend, ih, handlesShutdown (handleHandles s m), List.any_cons, Bool.or_assoc]

theorem handlesStays {after : StandIn} {replies : List Message} (handles : Handles s m after replies)
    (stays : exits m = false) : after.exitCode = s.exitCode := by
  cases handles with
  | exit => cases stays
  | _ => rfl

theorem attendStays (s : StandIn) (stay : ∀ m ∈ ms, exits m = false) : (attend s ms).1.exitCode = s.exitCode := by
  induction ms generalizing s with
  | nil => rfl
  | cons m ms ih =>
    rw [List.forall_mem_cons] at stay
    exact (ih _ stay.2).trans (handlesStays (handleHandles s m) stay.1)

theorem anyShutsDown (ms : List Message) :
    ms.any shutsDown = true ↔ ∃ id params, .request id "shutdown" params ∈ ms := by
  rw [List.any_eq_true]
  constructor
  · rintro ⟨m, member, shuts⟩
    cases m with
    | request id method params =>
      obtain rfl : method = "shutdown" := by simpa [shutsDown] using shuts
      exact ⟨id, params, member⟩
    | response | notification => cases shuts
  · rintro ⟨id, params, member⟩
    exact ⟨_, member, by simp [shutsDown]⟩

def heard (texts : List String) : List Message := texts.filterMap Message.parse?

theorem heardCons (body : String) (texts : List String) : heard (body :: texts) = heard [body] ++ heard texts :=
  List.filterMap_append (l := [body])

theorem hearAttend (s : StandIn) (body : String) : s.hear body = attend s (heard [body]) := by
  rw [hear, heard, List.filterMap_cons]
  cases Message.parse? body with
  | none => rfl
  | some m => simp [attend]

theorem serveNext (s : StandIn) (written : List Message) (body : String) (rest : List String) :
    s.serve written (body :: rest) =
      if (s.hear body).1.exitCode.isSome then ((s.hear body).1, written ++ (s.hear body).2)
      else (s.hear body).1.serve (written ++ (s.hear body).2) rest := rfl

theorem serveOn {before : List String} (unended : s.exitCode = none) (stay : ∀ m ∈ heard before, exits m = false)
    (written : List Message) (rest : List String) : s.serve written (before ++ rest) =
      (attend s (heard before)).1.serve (written ++ (attend s (heard before)).2) rest := by
  induction before generalizing s written with
  | nil => simp [heard, attend]
  | cons body before ih =>
    rw [heardCons, List.forall_mem_append] at stay
    have still : (attend s (heard [body])).1.exitCode = none := (attendStays s stay.1).trans unended
    rw [List.cons_append, serveNext, hearAttend, still, Option.isSome_none, if_neg Bool.false_ne_true,
      ih still stay.2, heardCons body before, attendAppend, List.append_assoc]

def started (processId : String) : String := name ++ ": started (pid " ++ processId ++ ")"

inductive Ran (rejects : Bool) (processId : String) (texts : List String) (fault : Option Frame.Fault) :
    Transcript → Prop where
  | told {before body after params code} (split : texts = before ++ body :: after)
      (exit : Message.parse? body = some (.notification "exit" params))
      (first : ∀ m ∈ heard before, exits m = false)
      (coded : code = if (heard before).any shutsDown then 0 else 1) :
      Ran rejects processId texts fault ⟨code, (attend (fresh rejects) (heard before)).2,
        [started processId, name ++ ": exiting with " ++ toString code]⟩
  | ended (never : ∀ m ∈ heard texts, exits m = false) :
      Ran rejects processId texts fault ⟨1, (attend (fresh rejects) (heard texts)).2,
        started processId :: fault.toList.map fun f => "Error: " ++ f.message⟩

theorem firstExit (texts : List String) : (∀ m ∈ heard texts, exits m = false) ∨
    ∃ before body after params, texts = before ++ body :: after ∧
      Message.parse? body = some (.notification "exit" params) ∧ ∀ m ∈ heard before, exits m = false := by
  induction texts with
  | nil => exact .inl nofun
  | cons body texts ih =>
    cases exit : (heard [body]).any exits with
    | true =>
      obtain ⟨m, member, leaves⟩ := List.any_eq_true.mp exit
      have parsed : Message.parse? body = some m := by simpa [heard] using member
      cases m with
      | notification method params =>
        obtain rfl : method = "exit" := by simpa [exits] using leaves
        exact .inr ⟨[], body, texts, params, rfl, parsed, nofun⟩
      | request | response => cases leaves
    | false =>
      have stays : ∀ m ∈ heard [body], exits m = false := fun m member =>
        Bool.eq_false_iff.mpr fun leaves => Bool.false_ne_true (exit.symm.trans (List.any_eq_true.mpr ⟨m, member, leaves⟩))
      rcases ih with never | ⟨before, found, after, params, rfl, parsed, first⟩
      · exact .inl (heardCons body texts ▸ List.forall_mem_append.mpr ⟨stays, never⟩)
      · exact .inr ⟨body :: before, found, after, params, rfl, parsed,
          heardCons body before ▸ List.forall_mem_append.mpr ⟨stays, first⟩⟩

theorem runRan (rejects : Bool) (processId : String) (input : Octets) :
    Ran rejects processId (Frame.bodies input).1 (Frame.bodies input).2 (run rejects processId input) := by
  rw [run]
  generalize Frame.bodies input = read
  obtain ⟨texts, fault⟩ := read
  dsimp only
  rcases firstExit texts with never | ⟨before, body, after, params, rfl, parsed, first⟩
  · have served := serveOn (s := fresh rejects) rfl never [] []
    rw [List.append_nil, List.nil_append, serve] at served
    rw [served, attendStays (fresh rejects) never]
    cases fault <;> exact .ended never
  · have served := serveOn (s := fresh rejects) rfl first [] (body :: after)
    have leaves (s : StandIn) :
        s.hear body = ({s with exitCode := some (if s.shutdownAsked then 0 else 1)}, []) := by
      rw [hear, parsed]
      rfl
    rw [serveNext, leaves, Option.isSome_some, if_pos rfl, List.nil_append, List.append_nil, attendShutdown] at served
    rw [served]
    exact .told rfl parsed first rfl

structure Agreement (rejects : Bool) (ms : List Message) : Prop where
  agrees : ∀ id params uri, documentUri? (params.getD .null) = some uri →
    ∃ report, ((attend (fresh rejects) ms).1.handle (.request id "textDocument/diagnostic" params)).2 =
      [.response id (some report) none] ∧ report.field? "items" = some (pushed uri (attend (fresh rejects) ms).2)
  responses : (attend (fresh rejects) ms).2.filterMap responseId? = ms.filterMap requestId?
  request : ∀ id method params, ∃ result error,
    ((attend (fresh rejects) ms).1.handle (.request id method params)).2 = [.response id result error]
  response : ∀ id result error, (attend (fresh rejects) ms).1.handle (.response id result error) =
    ((attend (fresh rejects) ms).1, [])
  exit : ∀ params, ∃ code, ((attend (fresh rejects) ms).1.handle (.notification "exit" params)).1.exitCode =
    some code ∧ (code = 0 ↔ ∃ id params, .request id "shutdown" params ∈ ms)

theorem agreement (rejects : Bool) : (∀ ms, Agreement rejects ms) ∧ ∀ processId input,
    Ran rejects processId (Frame.bodies input).1 (Frame.bodies input).2 (run rejects processId input) := by
  refine ⟨fun ms => ?_, runRan rejects⟩
  exact {
    agrees := fun id params uri named => by
      refine ⟨_, pullAnswer _ id named, ?_⟩
      rw [attendPushed]
      exact reportItems _
    responses := attendResponses _ ms
    request := fun id method params => by
      have handles := answerHandles (attend (fresh rejects) ms).1 id method params
      generalize (attend (fresh rejects) ms).1.handle (.request id method params) = left at handles
      obtain ⟨after, replies⟩ := left
      cases handles <;> exact ⟨_, _, rfl⟩
    response := fun _ _ _ => rfl
    exit := fun params => by
      refine ⟨_, rfl, ?_⟩
      rw [attendShutdown, ← anyShutsDown, fresh, Bool.false_or]
      cases ms.any shutsDown <;> decide }

end LspClient.StandIn
