import LspClient.Client.Run

/-! The deeds of a client: its log without the lines it shows. A client with only its deeds in the log is
quiet. What sending, closing and killing leave of a client is said here of the quiet one, so that no later
argument meets a traced or shown line. -/
namespace LspClient

def Event.isDeed : Event → Bool
  | .shown _ | .traced _ => false
  | _ => true

namespace Client

def deeds (c : Client) : List Event := c.log.filter Event.isDeed

def quiet (c : Client) : Client := {c with log := c.deeds}

theorem quietLog (c : Client) : c.quiet.log = c.deeds := rfl

theorem quietNote {e : Event} (deed : e.isDeed = true) (c : Client) :
    (c.note e).quiet = c.quiet.note e := by
  simp [quiet, deeds, note, deed]

theorem quietResolve (ticket : Ticket) (outcome : Outcome) (c : Client) :
    (c.resolve ticket outcome).quiet = c.quiet.resolve ticket outcome := quietNote rfl c

theorem quietDisplay (line : String) (c : Client) : (c.display line).quiet = c.quiet := by
  simp [quiet, deeds, display, note, Event.isDeed]

theorem quietDisplays (lines : List String) (c : Client) :
    (lines.foldl (fun c line => c.display line) c).quiet = c.quiet := by
  induction lines generalizing c with
  | nil => rfl
  | cons line rest ih => exact (ih _).trans (quietDisplay line c)

theorem quietTrace (direction : String) (m : Message) (c : Client) :
    (c.traceMessage direction m).quiet = c.quiet := by
  have none : ((traceLines c.config.trace direction m).map Event.traced).filter Event.isDeed = [] := by
    simp [List.filter_eq_nil_iff, Event.isDeed]
  simp [quiet, deeds, traceMessage, none]

theorem sentQuiet (c : Client) : c.quiet.sent = c.sent := by
  simp only [sent, quietLog, deeds, List.filterMap_filter]
  congr 1
  funext e
  cases e <;> rfl

def told (ms : List Message) (c : Client) : Client :=
  {c with server := c.server.map (Server.fed ms.length), log := c.log ++ ms.map .wrote}

theorem sendClear {c : Client} (clear : c.refusal = none) (m : Message) :
    ∃ after, c.send m = (after, none) ∧ after.quiet = c.quiet.told [m] := by
  have same : (c.traceMessage "Sending" m).refusal = none := clear
  have traced := quietTrace "Sending" m c
  refine ⟨((c.traceMessage "Sending" m).updateServer (Server.fed 1)).note (.wrote m),
    by simp only [send, same], ?_⟩
  calc (((c.traceMessage "Sending" m).updateServer (Server.fed 1)).note (.wrote m)).quiet
      = ((c.traceMessage "Sending" m).quiet.updateServer (Server.fed 1)).note (.wrote m) :=
        quietNote rfl _
    _ = c.quiet.told [m] := by rw [traced]; rfl

theorem sendStuck {c : Client} {failure} (stuck : c.refusal = some failure) (m : Message) :
    ∃ after, c.send m = (after, some failure) ∧ after.quiet = c.quiet.note (.lost m) := by
  have same : (c.traceMessage "Sending" m).refusal = some failure := stuck
  refine ⟨(c.traceMessage "Sending" m).note (.lost m), by simp only [send, same], ?_⟩
  rw [quietNote rfl, quietTrace]

theorem tellClear {c : Client} (clear : c.refusal = none) (m : Message) :
    ∃ after, c.tell m = (after, .ok true) ∧ after.quiet = c.quiet.told [m] := by
  obtain ⟨after, sent, quiet⟩ := sendClear clear m
  exact ⟨after, by simp [tell, sent], quiet⟩

theorem tellStuck {c : Client} {failure} (stuck : c.refusal = some failure) (m : Message) :
    ∃ after, c.tell m = (after, .error failure) ∧ after.quiet = c.quiet.note (.lost m) := by
  obtain ⟨after, sent, quiet⟩ := sendStuck stuck m
  exact ⟨after, by simp [tell, sent], quiet⟩

def tried (m : Message) (c : Client) : Client :=
  match c.refusal with
  | none => c.told [m]
  | some _ => c.note (.lost m)

theorem quietSend (m : Message) (c : Client) : (c.send m).1.quiet = c.quiet.tried m := by
  have same : c.quiet.refusal = c.refusal := rfl
  cases h : c.refusal with
  | none =>
    obtain ⟨after, sent, quiet⟩ := sendClear h m
    simp [sent, quiet, tried, same, h]
  | some failure =>
    obtain ⟨after, sent, quiet⟩ := sendStuck h m
    simp [sent, quiet, tried, same, h]

theorem fedNothing (s : Server) : s.fed 0 = s := by
  cases s with
  | mk alive room => cases room <;> rfl

theorem fedTwice (m n : Nat) (s : Server) : (s.fed m).fed n = s.fed (m + n) := by
  cases s with
  | mk alive room =>
    cases room with
    | none => rfl
    | some room => simp [Server.fed, Nat.sub_sub]

theorem toldNothing (c : Client) : c.told [] = c := by
  have same : c.server.map (Server.fed 0) = c.server := by
    cases c.server <;> simp [fedNothing]
  simp only [told, List.length_nil, List.map_nil, List.append_nil, same]

theorem toldTwice (ms ns : List Message) (c : Client) :
    (c.told ms).told ns = c.told (ms ++ ns) := by
  have same : (c.server.map (Server.fed ms.length)).map (Server.fed ns.length) =
      c.server.map (Server.fed (ms ++ ns).length) := by
    cases c.server <;> simp [fedTwice]
  simp [told, same]

theorem quietSendAll (ms : List Message) (c : Client) :
    ((ms ≠ [] → c.refusal = none) ∧
      ∃ after, c.sendAll ms = (after, none) ∧ after.quiet = c.quiet.told ms) ∨
    ∃ first m rest after failure, ms = first ++ m :: rest ∧ (first ≠ [] → c.refusal = none) ∧
      (c.told first).refusal = some failure ∧
      c.sendAll ms = (after, some failure) ∧ after.quiet = (c.quiet.told first).note (.lost m) := by
  induction ms generalizing c with
  | nil => exact .inl ⟨by simp, c, rfl, (toldNothing _).symm⟩
  | cons m rest ih =>
    cases h : c.refusal with
    | some failure =>
      obtain ⟨after, sent, quiet⟩ := sendStuck h m
      exact .inr ⟨[], m, rest, after, failure, rfl, by simp, (toldNothing c).symm ▸ h, by simp [sendAll, sent],
        by rw [toldNothing, quiet]⟩
    | none =>
      obtain ⟨next, sent, quiet⟩ := sendClear h m
      rcases ih next with ⟨_, after, all, same⟩ | ⟨first, n, later, after, failure, split, _, stuck, cut, same⟩
      · refine .inl ⟨fun _ => rfl, after, by simp [sendAll, sent, all], ?_⟩
        rw [same, quiet, toldTwice, List.singleton_append]
      · have told : next.quiet.told first = c.quiet.told (m :: first) := by
          rw [quiet, toldTwice, List.singleton_append]
        have pipe := congrArg refusal told
        refine .inr ⟨m :: first, n, later, after, failure, by simp [split], fun _ => rfl, pipe.symm.trans stuck,
          by simp [sendAll, sent, cut], ?_⟩
        rw [same, quiet, toldTwice, List.singleton_append]

theorem forsakenPull {c : Client} {e : Event} (member : e ∈ c.forsaken) :
    ∃ name, e = .resolved (.pull name) .abandoned := by
  obtain ⟨slot, _, owner⟩ := List.mem_filterMap.mp member
  cases held : slot.2 with
  | pull name uri =>
    simp only [held, Option.ite_none_left_eq_some, Option.some.injEq] at owner
    exact ⟨name, owner.2.symm⟩
  | shutdown => simp [held] at owner

def unheeded (c : Client) : Option Pull :=
  if c.router.pending.any fun slot => c.asks slot.1 then (c.forestall .abandoned).asking else c.asking

def unrouted (c : Client) : Client :=
  {c with router := ⟨[], true⟩, asking := c.unheeded, log := c.log ++ c.forsaken}

theorem quietCloseRouter (c : Client) : c.closeRouter.quiet = c.quiet.unrouted := by
  have deed : c.forsaken.filter Event.isDeed = c.forsaken := by
    rw [List.filter_eq_self]
    intro e member
    obtain ⟨name, rfl⟩ := forsakenPull member
    rfl
  have closed : c.closeRouter =
      {c with router := ⟨[], true⟩, asking := c.unheeded, log := c.log ++ c.forsaken} := by
    simp only [closeRouter, Router.close, unheeded]
    split <;> rfl
  rw [closed]
  simp only [quiet, deeds, unrouted, List.filter_append, deed]
  rfl

def widow (c : Client) : Option Server := if c.attached then c.server.map Server.gone else c.server

def deathNote (c : Client) : List Event := if c.attached then [.killed] else []

theorem quietVanish (c : Client) :
    c.vanish.quiet = {c.quiet with server := c.server.map Server.gone} := by
  have lines := quietDisplays c.lastMurmur c
  simp only [vanish, updateServer, quiet, Client.mk.injEq, deeds] at lines ⊢
  simp [lines]

def bereft (c : Client) : Client :=
  {c with attached := false, server := c.widow, log := c.log ++ c.deathNote}

theorem quietKill (c : Client) : c.kill.quiet = c.quiet.bereft := by
  cases h : c.attached with
  | false => simp [kill, bereft, widow, deathNote, quiet, h]
  | true =>
    simp only [kill, h, if_true, quietVanish, bereft, widow, deathNote]
    simp [quiet, deeds, note, Event.isDeed, h]

def startFailed (failure : Failure) (c : Client) : Client :=
  {c.unrouted.bereft with
    queued := [], phase := .stopped, link := .closed
    log := c.log ++ c.forsaken ++ c.deathNote ++ [.resolved .start (.failed failure)]}

theorem quietFailStart (failure : Failure) (c : Client) :
    (c.failStart failure).quiet = c.quiet.startFailed failure := by
  let shut := (c.display ("Starting client failed: " ++ failure.message)).closeRouter
  have killed : shut.kill.quiet = c.quiet.unrouted.bereft := by
    rw [quietKill, quietCloseRouter, quietDisplay]
  calc (c.failStart failure).quiet
      = ({shut.kill.quiet with queued := [], phase := .stopped, link := .closed} : Client).note
          (.resolved .start (.failed failure)) := quietNote rfl _
    _ = c.quiet.startFailed failure := by
      rw [killed]
      rfl

end Client
end LspClient
