import LspClient.Proofs.Client.Veil

/-! What the receiving side and the server do depends neither on who holds the client, nor on its stop, nor on
what stands in its log: they do the same to a client in which these are replaced. -/
namespace LspClient.Client

def under (held : Bool) (teardown : Teardown) (past : List Event) (c : Client) : Client :=
  {c with held := held, teardown := teardown, log := past ++ c.log}

def Veil.under (held : Bool) (teardown : Teardown) (past : List Event) : Veil :=
  {Veil.past past with held := fun _ => held, teardown := fun _ => teardown}

variable {held : Bool} {teardown : Teardown} {past : List Event}

theorem underVeiled (c : Client) : c.under held teardown past = c.veiled (.under held teardown past) := by
  simp [under, veiled, Veil.under, Veil.past, Server.rereadSame]

theorem performUnder {move : Move} (apart : move.isApart = true) (c : Client) :
    (c.under held teardown past).perform move = (c.perform move).under held teardown past := by
  rw [underVeiled, underVeiled, apartVeiled (fun _ => rfl) apart]

end LspClient.Client
