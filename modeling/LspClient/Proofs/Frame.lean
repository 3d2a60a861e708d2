import LspClient.Frame

/-! What is left of a stream after a frame, and which streams are never starved. -/
namespace LspClient.Frame
open Utf8 (Octets)

variable {growing : Bool} {n : Nat} {announced : Option Nat} {line stream rest : Octets} {text : String}

theorem takeBodyRest (taken : takeBody growing n stream = .body text rest) :
    rest.length ≤ stream.length := by
  unfold takeBody at taken
  split at taken
  · cases taken
  · split at taken
    · split at taken <;> cases taken
    · split at taken
      · cases taken
        exact List.length_drop ▸ Nat.sub_le _ _
      · cases taken

theorem takeBodyEnded (n : Nat) (stream : Octets) : takeBody false n stream ≠ .starved := by
  unfold takeBody
  split
  · nofun
  · split
    · nofun
    · split <;> nofun

theorem finishHeadRest (taken : finishHead announced line = .body text rest) :
    rest.length < line.length := by
  unfold finishHead at taken
  split at taken
  · cases taken
  · rename_i filled
    split at taken
    · cases taken
    · have empty := takeBodyRest taken
      have some : line ≠ [] := fun none => filled (by simp [none])
      have long := List.length_pos_iff.mpr some
      simp only [List.length_nil] at empty
      omega
    · cases taken

theorem finishHeadEnded (announced : Option Nat) (line : Octets) :
    finishHead announced line ≠ .starved := by
  unfold finishHead
  split
  · nofun
  · split
    · nofun
    · exact takeBodyEnded _ []
    · nofun

theorem readHeadRest (taken : readHead growing announced line stream = .body text rest) :
    rest.length < line.length + stream.length := by
  induction stream generalizing announced line with
  | nil =>
    unfold readHead at taken
    split at taken
    · cases taken
    · simpa using finishHeadRest taken
  | cons b stream ih =>
    unfold readHead at taken
    rw [List.length_cons]
    split at taken
    · split at taken
      · cases taken
      · have short := takeBodyRest taken
        omega
      all_goals
        have short := ih taken
        simp only [List.length_nil] at short
        omega
    · have short := ih taken
      rw [List.length_cons] at short
      omega

theorem readHeadEnded (announced : Option Nat) (line stream : Octets) :
    readHead false announced line stream ≠ .starved := by
  induction stream generalizing announced line with
  | nil =>
    unfold readHead
    exact finishHeadEnded announced line.reverse
  | cons b stream ih =>
    unfold readHead
    split
    · split
      · nofun
      · exact takeBodyEnded _ stream
      · exact ih _ []
      · exact ih _ []
      · exact ih _ []
    · exact ih announced _

theorem readRest (taken : read growing stream = .body text rest) : rest.length < stream.length := by
  simpa using readHeadRest taken

theorem readEnded (stream : Octets) : read false stream ≠ .starved := readHeadEnded none [] stream

end LspClient.Frame
