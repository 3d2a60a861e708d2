import LspClient.Proofs.Session
import LspClient.Proofs.Client.Orphan

/-! Sessions leave no server behind: a client whose start has failed, that was dropped or whose stop has resolved
has none that runs. -/
namespace LspClient.Session
open Client

variable {s : Session}

structure Orphanless (s : Session) : Prop where
  clients : ∀ c ∈ s.clients, Client.Orphanless c
  gone : ∀ c ∈ s.clients, ∀ e ∈ c.deeds, e.isParting = true → c.exited = true

theorem calmOrphanless (calm : Calm s) : Orphanless s := by
  refine ⟨fun c member => ?_, fun c member e done parting => ?_⟩
  · obtain ⟨config, nextId, moves, rfl⟩ := calm.played c member
    exact orphanless config nextId moves
  · obtain ⟨config, nextId, moves, rfl⟩ := calm.played c member
    exact restingExited (playReached config nextId moves) (calm.resting _ member) done parting

/-- No run of a client leaves a server behind, moves in any order, and no session of a configured client or of
an extension does. -/
structure NoOrphan : Prop where
  runs : ∀ (config : Config) (nextId : Int) (moves : List Move),
    Client.Orphanless ((new config nextId).play moves)
  sessions : ∀ (machine : Machine) (config : Config) (steps : List Step),
    Orphanless ((ofConfig machine config).run steps).1
  extensions : ∀ (machine : Machine) (context : Context) (steps : List Step),
    Orphanless ((ofContext machine context).run steps).1

theorem noOrphan : NoOrphan where
  runs := orphanless
  sessions machine config steps := calmOrphanless (ofConfigCalm machine config steps)
  extensions machine context steps := calmOrphanless (ofContextCalm machine context steps)

end LspClient.Session
