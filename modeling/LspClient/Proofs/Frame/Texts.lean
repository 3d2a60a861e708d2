import LspClient.Proofs.Frame.Grammar

/-! The bodies of the frames that stand one after another in front of a stream. More of the stream only adds
to them. -/
namespace LspClient.Frame
open Utf8 (Octets)

variable {growing later : Bool} {stream more rest : Octets} {text : String}

def texts (growing : Bool) (stream : Octets) : List String :=
  match _taken : read growing stream with
  | .body text rest => text :: texts growing rest
  | _ => []
termination_by stream.length
decreasing_by exact readRest _taken

theorem textsBody (taken : read growing stream = .body text rest) :
    texts growing stream = text :: texts growing rest := by
  rw [texts]
  split
  · rename_i taken'
    cases taken.symm.trans taken'
    rfl
  · rename_i other
    exact absurd taken (other text rest)

theorem textsNone (none : ∀ text rest, read growing stream ≠ .body text rest) :
    texts growing stream = [] := by
  rw [texts]
  split
  · exact absurd ‹_› (none _ _)
  · rfl

theorem readAllTexts (bound : Nat) (stream : Octets) (enough : stream.length < bound) :
    (readAll bound stream).1 = texts false stream := by
  induction bound generalizing stream with
  | zero => exact absurd enough (Nat.not_lt_zero _)
  | succ bound ih =>
    unfold readAll
    split
    · rename_i text rest taken
      have short := readRest taken
      rw [textsBody taken, ← ih rest (by omega)]
    all_goals
      rename_i other
      rw [textsNone (by simp [other])]

def MayFollow (growing : Bool) (more : Octets) (later : Bool) : Prop :=
  growing = false → more = [] ∧ later = false

theorem readFollowed (decided : read growing stream ≠ .starved) (follows : MayFollow growing more later) :
    read later (stream ++ more) = (read growing stream).followed more := by
  cases growing with
  | true => exact readMore decided
  | false =>
    obtain ⟨rfl, rfl⟩ := follows rfl
    rw [List.append_nil]
    cases read false stream <;> simp [Outcome.followed]

theorem textsFollowed (taken : read growing stream = .body text rest)
    (follows : MayFollow growing more later) : texts later (stream ++ more) = text :: texts later (rest ++ more) := by
  refine textsBody ?_
  rw [readFollowed (by simp [taken]) follows, taken]
  rfl

theorem textsOver (decided : read growing stream ≠ .starved)
    (none : ∀ text rest, read growing stream ≠ .body text rest) (follows : MayFollow growing more later) :
    texts later (stream ++ more) = [] := by
  refine textsNone fun text rest => ?_
  rw [readFollowed decided follows]
  cases front : read growing stream with
  | body text' rest' => exact absurd front (none text' rest')
  | ended | fault | starved => nofun

end LspClient.Frame
