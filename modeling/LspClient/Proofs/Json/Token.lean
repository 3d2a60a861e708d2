import Mathlib.Data.List.TakeDrop
import LspClient.Json.Printer
import LspClient.Json.Token
import LspClient.Proofs.Decimal

/-! Strings and integers of 64 bits are read back as they were printed. A number ends where no digit,
fraction or power follows. -/
namespace LspClient.Json

variable {c : Char} {cs rest : List Char} {n : Nat}

theorem hexValueDigit (small : n < 16) : hexValue? (hexDigit n) = some n := by
  have all : ∀ n < 16, hexValue? (hexDigit n) = some n := by decide
  exact all n small

theorem scanEscape (plain : c ≠ 'u') {d : Char} (short : shortEscape? c = some d) (read rest : List Char) :
    scanString true .plain read ('\\' :: c :: rest) = scanString true .plain (d :: read) rest := by
  simp [scanString, plain, short]

theorem fourOctetsFour (a b c d : Char) (rest : List Char) : fourOctets (a :: b :: c :: d :: rest) = true := by
  have one := a.utf8Size_pos
  have two := b.utf8Size_pos
  have three := c.utf8Size_pos
  have four := d.utf8Size_pos
  simp only [fourOctets, decide_eq_true_eq]
  omega

theorem scanControl (control : c.toNat < 0x20) (read rest : List Char) :
    scanString true .plain read
      (['\\', 'u', '0', '0', hexDigit (c.toNat / 16), hexDigit (c.toNat % 16)] ++ rest) =
      scanString true .plain (c :: read) rest := by
  have zero : hexValue? '0' = some 0 := rfl
  have value : c.toNat / 16 * 16 + c.toNat % 16 = c.toNat := by omega
  have own : Char.ofNat c.toNat = c := Char.ofNat_toNat c
  have high : isHighHalf c.toNat = false := by
    simp only [isHighHalf, Bool.and_eq_false_iff, decide_eq_false_iff_not]
    omega
  have low : isLowHalf c.toNat = false := by
    simp only [isLowHalf, Bool.and_eq_false_iff, decide_eq_false_iff_not]
    omega
  simp [scanString, fourOctetsFour, zero, hexValueDigit (by omega : c.toNat / 16 < 16),
    hexValueDigit (by omega : c.toNat % 16 < 16), value, closeEscape, high, low, own]

theorem scanEscaped (c : Char) (read rest : List Char) :
    scanString true .plain read (escaped c ++ rest) = scanString true .plain (c :: read) rest := by
  unfold escaped
  split
  · rename_i quote
    subst quote
    exact scanEscape (by decide) rfl read rest
  split
  · rename_i slash
    subst slash
    exact scanEscape (by decide) rfl read rest
  split
  · rename_i back
    subst back
    exact scanEscape (by decide) rfl read rest
  split
  · rename_i tab
    subst tab
    exact scanEscape (by decide) rfl read rest
  split
  · rename_i line
    subst line
    exact scanEscape (by decide) rfl read rest
  split
  · rename_i form
    subst form
    exact scanEscape (by decide) rfl read rest
  split
  · rename_i carriage
    subst carriage
    exact scanEscape (by decide) rfl read rest
  split
  · rename_i control
    exact scanControl control read rest
  · rename_i quote slash _ _ _ _ _ printed
    simp [scanString, quote, slash, printed]

theorem scanFlat (cs read rest : List Char) :
    scanString true .plain read (cs.flatMap escaped ++ '"' :: rest) = .ok (read.reverse ++ cs, rest) := by
  induction cs generalizing read with
  | nil => simp [scanString]
  | cons c cs ih =>
    rw [List.flatMap_cons, List.append_assoc, scanEscaped, ih]
    simp

theorem textQuoted (s : String) (rest : List Char) :
    text (s.toList.flatMap escaped ++ '"' :: rest) = .ok (s, rest) := by
  rw [text, scanFlat]
  simp [Except.map]

def Stops (rest : List Char) : Prop :=
  ∀ c ∈ rest.head?, c.isDigit = false ∧ c ≠ '.' ∧ c ≠ 'e' ∧ c ≠ 'E'

theorem stopsNil : Stops [] := nofun

theorem stopsCons (solid : c.isDigit = false ∧ c ≠ '.' ∧ c ≠ 'e' ∧ c ≠ 'E') (rest : List Char) :
    Stops (c :: rest) := by
  rintro d ⟨⟩
  exact solid

theorem spanDigits {digits : List Char} (all : ∀ c ∈ digits, c.isDigit = true) (stops : Stops rest) :
    (digits ++ rest).span Char.isDigit = (digits, rest) := by
  have first : rest.takeWhile Char.isDigit = [] := by
    cases rest with
    | nil => rfl
    | cons c rest => simp [(stops c rfl).1]
  have later : rest.dropWhile Char.isDigit = rest := by
    cases rest with
    | nil => rfl
    | cons c rest => simp [(stops c rfl).1]
  rw [List.span_eq_takeWhile_dropWhile, List.takeWhile_append_of_pos all, List.dropWhile_append_of_pos all,
    first, later, List.append_nil]

theorem digitsValue (n : Nat) : ofDigits (digitsOf (Nat.toDigits 10 n)) = n := by
  rw [ofDigits, digitsOf, List.foldl_map]
  exact Decimal.ofDigitsPrinted n

theorem foldDigits (ds : List Nat) (n : Nat) : n ≤ ds.foldl (fun n d => n * 10 + d) n := by
  induction ds generalizing n with
  | nil => exact Nat.le_refl n
  | cons d ds ih =>
    have step := ih (n * 10 + d)
    rw [List.foldl_cons]
    omega

theorem fillSmall {ds : List Nat} {n : Nat} (small : ds.foldl (fun n d => n * 10 + d) n < Nat.pow 2 64) :
    fill n ds = (ds.foldl (fun n d => n * 10 + d) n, []) := by
  induction ds generalizing n with
  | nil => rfl
  | cons d ds ih =>
    have step := foldDigits ds (n * 10 + d)
    rw [List.foldl_cons] at small ⊢
    rw [fill, if_pos (by omega), ih small]

theorem digitsLead (n d : Nat) (ds : List Nat) : digitsOf (Nat.toDigits 10 n) ≠ 0 :: d :: ds := by
  induction n using Nat.strongRecOn generalizing d ds with
  | ind n ih =>
    intro same
    by_cases small : n < 10
    · simp [Nat.toDigits_of_lt_base small, digitsOf] at same
    rw [Nat.toDigits_of_base_le (by decide) (Nat.le_of_not_lt small), digitsOf, List.map_append] at same
    have front := ih (n / 10) (by omega)
    have value := digitsValue (n / 10)
    rw [digitsOf] at front value
    match lead : (Nat.toDigits 10 (n / 10)).map fun c => c.toNat - '0'.toNat with
    | [] =>
      rw [lead] at same
      simp at same
    | [first] =>
      rw [lead] at same value
      obtain ⟨rfl, -⟩ := List.cons.inj same
      rw [ofDigits] at value
      simp at value
      omega
    | first :: second :: more =>
      rw [lead] at same
      obtain ⟨rfl, -⟩ := List.cons.inj same
      exact front second more lead

theorem wholePrinted (n : Nat) (stops : Stops rest) :
    wholePart (Nat.toDigits 10 n ++ rest) = .ok (digitsOf (Nat.toDigits 10 n), rest) := by
  have all : ∀ c ∈ Nat.toDigits 10 n, c.isDigit = true := fun _ => Decimal.digitPrinted
  have some : someDigits (Nat.toDigits 10 n ++ rest) = .ok (digitsOf (Nat.toDigits 10 n), rest) := by
    unfold someDigits
    rw [spanDigits all stops]
    split
    · rename_i none
      simp at none
    · rename_i none
      simp at none
    · rename_i same
      cases same
      rfl
  rw [wholePart, some]
  simp only [bind, Except.bind]
  split
  · rename_i lead
    exact absurd lead (digitsLead n _ _)
  · rfl

theorem partsStop (stops : Stops rest) :
    fractionPart rest = .ok (none, rest) ∧ powerPart rest = .ok (none, rest) := by
  cases rest with
  | nil => exact ⟨rfl, rfl⟩
  | cons c rest =>
    obtain ⟨_, point, lower, upper⟩ := stops c rfl
    constructor
    · unfold fractionPart
      split
      · rename_i same
        exact absurd (List.cons.inj same).1 point
      · rfl
    · unfold powerPart
      simp [lower, upper]

theorem digitsFirst (n : Nat) : ∃ c cs, Nat.toDigits 10 n = c :: cs ∧ c.isDigit = true := by
  cases digits : Nat.toDigits 10 n with
  | nil => simp at digits
  | cons c cs =>
    exact ⟨c, cs, rfl, Decimal.digitPrinted (digits ▸ List.mem_cons_self)⟩

theorem numeralPrinted (value : Int) (stops : Stops rest) : numeral (intChars value ++ rest) =
    .ok (⟨decide (value < 0), digitsOf (Nat.toDigits 10 value.natAbs), none, none⟩, rest) := by
  obtain ⟨fraction, power⟩ := partsStop stops
  cases value with
  | ofNat n =>
    obtain ⟨c, cs, digits, digit⟩ := digitsFirst n
    have whole := wholePrinted n stops
    have unsigned : c ≠ '-' := by
      rintro rfl
      cases digit
    unfold numeral
    simp only [intChars, digits, List.cons_append] at whole ⊢
    split
    · rename_i same
      exact absurd (List.cons.inj same).1 unsigned
    · simp [bind, Except.bind, whole, fraction, power, digits]
  | negSucc n =>
    have whole := wholePrinted (n + 1) stops
    simp [numeral, intChars, bind, Except.bind, whole, fraction, power, Int.negSucc_lt_zero]

theorem numberPrinted {value : Int} (low : -Int.pow 2 63 ≤ value) (high : value < Int.pow 2 64)
    (stops : Stops rest) : number (intChars value ++ rest) = .ok (.integer value, rest) := by
  have least : Int.pow 2 63 = 9223372036854775808 := rfl
  have greatest : Int.pow 2 64 = 18446744073709551616 := rfl
  rw [least] at low
  rw [greatest] at high
  have whole := digitsValue value.natAbs
  have small : ofDigits (digitsOf (Nat.toDigits 10 value.natAbs)) < Nat.pow 2 64 := by
    rw [whole, show Nat.pow 2 64 = 18446744073709551616 from rfl]
    omega
  have filled : fill 0 (digitsOf (Nat.toDigits 10 value.natAbs)) = (value.natAbs, []) := by
    rw [fillSmall small]
    exact congrArg (·, []) whole
  rw [number, numeralPrinted value stops]
  simp only [bind, Except.bind, Numeral.value?, filled]
  by_cases negative : value < 0
  · have some : 0 < value.natAbs := by omega
    have held : value.natAbs ≤ Nat.pow 2 63 := by
      rw [show Nat.pow 2 63 = 9223372036854775808 from rfl]
      omega
    have own : -(value.natAbs : Int) = value := by omega
    simp only [negative, some, held, decide_true, Option.isNone_none, List.isEmpty_nil, Bool.and_true,
      Bool.not_true, Bool.and_false, Bool.false_eq_true, if_false, if_true, own]
  · have own : (value.natAbs : Int) = value := by omega
    simp [negative, own]

end LspClient.Json
