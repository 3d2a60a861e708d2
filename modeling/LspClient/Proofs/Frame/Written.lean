import LspClient.Proofs.Frame.Grammar

/-! A frame that was written is read back, whatever follows it, and a row of them up to its end. -/
namespace LspClient.Frame
open Utf8 (Octets encode ofString)

def lengthLine (n : Nat) : List Char := "Content-Length: ".toList ++ Nat.toDigits 10 n ++ ['\r']

theorem lengthLineAnnounces {n : Nat} (small : n ≤ limit) : Announces (lengthLine n) n := by
  constructor
  · rfl
  · have value : (lengthLine n).drop lengthName.length = ' ' :: (Nat.toDigits 10 n ++ ['\r']) := rfl
    have space : Text.trim (' ' :: (Nat.toDigits 10 n ++ ['\r'])) =
        Text.trim (Nat.toDigits 10 n ++ ['\r']) := rfl
    rw [value, space, Text.trimBlank Text.blankReturn,
      Text.trimSolidAll fun c member => Text.digitSolid (Decimal.digitPrinted member)]
    have fits : limit < Nat.pow 2 64 := by decide
    exact Decimal.numeralPrinted (Nat.lt_of_le_of_lt small fits)

theorem lengthLineUnbroken (n : Nat) : '\n' ∉ lengthLine n := by
  intro member
  rcases List.mem_append.mp member with member | member
  · rcases List.mem_append.mp member with member | digit
    · revert member
      decide
    · cases Decimal.digitPrinted digit
  · revert member
    decide

theorem readLengthLine (growing : Bool) {n : Nat} (small : n ≤ limit) (rest : Octets) :
    read growing (lined [lengthLine n] ++ rest) = readHead growing (some n) [] rest := by
  have heads : Heads none [lengthLine n] n := .length (lengthLineAnnounces small) .done
  exact readHeads growing heads (List.forall_mem_singleton.mpr (lengthLineUnbroken n)) rest

theorem encodeLine (line rest : List Char) :
    encode (line ++ '\n' :: rest) = encode line ++ 0x0A :: encode rest := by
  have own : String.utf8EncodeChar '\n' = [0x0A] := by decide
  rw [Utf8.encodeAppend, Utf8.encodeCons, own, List.singleton_append]

theorem writeLines {body : List Char} {n : Nat} (size : Utf8.size body = n) :
    writeChars body = lengthLine n ++ '\n' :: (['\r'] ++ '\n' :: body) := by
  unfold writeChars lengthLine
  rw [size]
  -- The name as a literal would be evaluated at every step.
  generalize "Content-Length: ".toList = name
  simp

theorem writeOctets (body : String) : ofString (write body) =
    lined [lengthLine (ofString body).length] ++ (encode ['\r'] ++ 0x0A :: ofString body) := by
  have size : Utf8.size body.toList = (ofString body).length := (Utf8.encodeLength body.toList).symm
  rw [ofString, write, String.toList_ofList, writeLines size, encodeLine, encodeLine, lined,
    List.flatMap_singleton, List.append_assoc, List.singleton_append, ofString]

variable {growing : Bool} {rest : Octets} {body : String}

theorem readWritten (small : (ofString body).length ≤ limit) :
    read growing (ofString (write body) ++ rest) = .body body rest := by
  rw [writeOctets, List.append_assoc, List.append_assoc, readLengthLine growing small, List.cons_append,
    readHeadText growing _ (by decide), ofCharsBlank Text.blankReturn]
  exact takeBodyText.mpr ⟨small, rfl, rfl⟩

theorem readAllWritten {texts : List String} (small : ∀ body ∈ texts, (ofString body).length ≤ limit)
    {bound : Nat} (enough : texts.length < bound) :
    readAll bound (texts.flatMap fun body => ofString (write body)) = (texts, none) := by
  induction texts generalizing bound with
  | nil =>
    cases bound with
    | zero => cases enough
    | succ bound => rfl
  | cons body texts ih =>
    rw [List.forall_mem_cons] at small
    cases bound with
    | zero => cases enough
    | succ bound =>
      rw [List.flatMap_cons, readAll, readWritten small.1]
      simp only [ih small.2 (Nat.lt_of_succ_lt_succ enough)]

theorem bodiesWritten {texts : List String} (small : ∀ body ∈ texts, (ofString body).length ≤ limit) :
    bodies (texts.flatMap fun body => ofString (write body)) = (texts, none) := by
  refine readAllWritten small (Nat.lt_succ_of_le ?_)
  clear small
  induction texts with
  | nil => exact Nat.zero_le _
  | cons body texts ih =>
    rw [List.flatMap_cons, List.length_append, List.length_cons, writeOctets]
    simp only [List.length_append, List.length_cons]
    omega

end LspClient.Frame
