import LspClient.Frame
import LspClient.Proofs.Text.Trim
import LspClient.Proofs.Decimal

/-! Header lines as text. A line announces a length if it starts with the name in any case; what follows the
name, trimmed, then has to be a numeral. A line of blanks only ends the head. -/
namespace LspClient.Frame
open Text (Blank isBlank)

def IsLength (line : List Char) : Prop := Text.lower (line.take lengthName.length) = lengthName

structure Announces (line : List Char) (n : Nat) : Prop where
  name : IsLength line
  value : Decimal.Numeral n (Text.trim (line.drop lengthName.length))

variable {line : List Char} {n : Nat}

theorem lowerColon {c : Char} (lower : c.toLower = ':') : c = ':' := by
  unfold Char.toLower at lower
  split at lower
  · rename_i upper
    have value := congrArg (fun c => c.val.toNat) lower
    have low := UInt32.le_iff_toNat_le.mp upper.1
    have high := UInt32.le_iff_toNat_le.mp upper.2
    simp [UInt32.toNat_add] at value low high
    omega
  · exact lower

theorem lengthColon (name : IsLength line) : ∃ before after, line = before ++ ':' :: after ∧
    (before ++ [':']).length = lengthName.length := by
  have long : (line.take lengthName.length).length = lengthName.length := by
    simpa [Text.lower] using congrArg List.length name
  have split : lengthName = lengthName.dropLast ++ [':'] := rfl
  have lowered : (line.take lengthName.length).map Char.toLower = lengthName.dropLast ++ [':'] :=
    name.trans split
  obtain ⟨before, last, whole, _, colon⟩ := List.map_eq_append_iff.mp lowered
  obtain ⟨c, rfl, lower⟩ := List.map_eq_singleton_iff.mp colon
  rw [lowerColon lower] at whole
  refine ⟨before, line.drop lengthName.length, ?_, by rw [← whole, long]⟩
  rw [List.append_cons, ← whole, List.take_append_drop]

theorem lengthTrimmed (name : IsLength line) :
    ∃ front after, front.length = lengthName.length ∧ line = front ++ after ∧
      Text.trimEnd line = front ++ Text.trimEnd after := by
  obtain ⟨before, after, rfl, long⟩ := lengthColon name
  refine ⟨before ++ [':'], after, long, by simp, ?_⟩
  rw [Text.trimEndSolid rfl]
  simp

theorem isLengthTrimmed : IsLength (Text.trimEnd line) ↔ IsLength line := by
  constructor
  · intro name
    obtain ⟨tail, whole, _⟩ := Text.trimEndSplit line
    obtain ⟨front, after, long, same, _⟩ := lengthTrimmed name
    rw [IsLength, whole, same, ← long, List.append_assoc, List.take_left]
    rwa [IsLength, same, ← long, List.take_left] at name
  · intro name
    obtain ⟨front, after, long, same, trimmed⟩ := lengthTrimmed name
    rw [IsLength, trimmed, ← long, List.take_left]
    rwa [IsLength, same, ← long, List.take_left] at name

theorem announcementTrimmed (name : IsLength line) :
    Text.trim ((Text.trimEnd line).drop lengthName.length) = Text.trim (line.drop lengthName.length) := by
  obtain ⟨front, after, long, same, trimmed⟩ := lengthTrimmed name
  obtain ⟨tail, whole, blank⟩ := Text.trimEndSplit after
  rw [trimmed, ← long, List.drop_left, same, List.drop_left]
  conv => rhs; rw [whole]
  exact (Text.trimBlank blank _).symm

theorem blankAnonymous (blank : Blank line) : ¬ IsLength line := by
  intro name
  obtain ⟨before, after, rfl, _⟩ := lengthColon name
  have colon := blank ':' (by simp)
  cases colon

theorem ofCharsBlank (blank : Blank line) : Line.ofChars line = .ok .blank := by
  simp only [Line.ofChars, Text.trimEndEmpty.mpr blank, List.isEmpty_nil, if_true]

theorem ofCharsLength (name : IsLength line) : Line.ofChars line =
    match Decimal.nat64? (Text.trim (line.drop lengthName.length)) with
    | some n => .ok (.length n)
    | none => .error (.length (String.ofList (Text.trim (line.drop lengthName.length)))) := by
  have filled : ¬ (Text.trimEnd line).isEmpty = true := by
    rw [List.isEmpty_iff, Text.trimEndEmpty]
    exact fun blank => blankAnonymous blank name
  have own : Text.lower ((Text.trimEnd line).take lengthName.length) = lengthName :=
    isLengthTrimmed.mpr name
  refine (if_neg filled).trans ((if_pos own).trans ?_)
  rewrite [announcementTrimmed name]
  rfl

theorem ofCharsAnnounces (announces : Announces line n) : Line.ofChars line = .ok (.length n) := by
  rw [ofCharsLength announces.name, Decimal.nat64Numeral.mpr announces.value]

theorem ofCharsOther (filled : ¬ Blank line) (anonymous : ¬ IsLength line) :
    Line.ofChars line = .ok .other := by
  have filled : ¬ (Text.trimEnd line).isEmpty = true := by rwa [List.isEmpty_iff, Text.trimEndEmpty]
  have other : ¬ Text.lower ((Text.trimEnd line).take lengthName.length) = lengthName :=
    fun name => anonymous (isLengthTrimmed.mp name)
  simp only [Line.ofChars, filled, other, if_false, Bool.false_eq_true]

theorem ofCharsCases (line : List Char) :
    Blank line ∧ Line.ofChars line = .ok .blank ∨
      (∃ n, Announces line n ∧ Line.ofChars line = .ok (.length n)) ∨
      (IsLength line ∧ (∀ n, ¬ Announces line n) ∧ ∃ fault, Line.ofChars line = .error fault) ∨
      ¬ Blank line ∧ ¬ IsLength line ∧ Line.ofChars line = .ok .other := by
  by_cases blank : Blank line
  · exact .inl ⟨blank, ofCharsBlank blank⟩
  by_cases name : IsLength line
  · cases value : Decimal.nat64? (Text.trim (line.drop lengthName.length)) with
    | some n =>
      have announces : Announces line n := ⟨name, Decimal.nat64Numeral.mp value⟩
      exact .inr (.inl ⟨n, announces, ofCharsAnnounces announces⟩)
    | none =>
      refine .inr (.inr (.inl ⟨name, fun n announces => ?_, _, by rw [ofCharsLength name, value]⟩))
      simp [Decimal.nat64Numeral.mpr announces.value] at value
  · exact .inr (.inr (.inr ⟨blank, name, ofCharsOther blank name⟩))

end LspClient.Frame
