import Mathlib.Logic.Basic
import LspClient.Text.Utf8

/-! Decoding accepts the encodings of texts and nothing else. The octets of an unfinished sequence are read
off its scan, so what completes the sequence is the encoding of the scalar value that the scan yields. -/
namespace LspClient.Utf8

theorem valueOfNat {n : Nat} (valid : n < 0xD800 ∨ 0xDFFF < n ∧ n < 0x110000) :
    (Char.ofNat n).val.toNat = n := by
  have valid : n.isValidChar := valid
  rw [Char.ofNat, dif_pos valid]
  rfl

theorem octetOfNat {b : UInt8} {n : Nat} (value : b.toNat = n) : UInt8.ofNat n = b := by
  rw [← value]
  exact UInt8.ofNat_toNat

theorem octetValue {n : Nat} (small : n < 256) : (UInt8.ofNat n).toNat = n :=
  UInt8.toNat_ofNat_of_lt' small

section
variable {c : Char} {v : Nat} (value : c.val.toNat = v)
include value

theorem encodeOne (high : v < 0x80) : String.utf8EncodeChar c = [UInt8.ofNat v] := by
  simp only [String.utf8EncodeChar, value]
  rw [if_pos (by omega)]

theorem encodeTwo (low : 0x80 ≤ v) (high : v < 0x800) : String.utf8EncodeChar c =
    [UInt8.ofNat (v / 64 + 0xC0), UInt8.ofNat (v % 64 + 0x80)] := by
  simp only [String.utf8EncodeChar, value]
  rw [if_neg (by omega), if_pos (by omega), Nat.mod_eq_of_lt (by omega : v / 64 < 32)]

theorem encodeThree (low : 0x800 ≤ v) (high : v < 0x10000) : String.utf8EncodeChar c =
    [UInt8.ofNat (v / 4096 + 0xE0), UInt8.ofNat (v / 64 % 64 + 0x80), UInt8.ofNat (v % 64 + 0x80)] := by
  simp only [String.utf8EncodeChar, value]
  rw [if_neg (by omega), if_neg (by omega), if_pos (by omega),
    Nat.mod_eq_of_lt (by omega : v / 4096 < 16)]

theorem encodeFour (low : 0x10000 ≤ v) (high : v < 0x110000) : String.utf8EncodeChar c =
    [UInt8.ofNat (v / 262144 + 0xF0), UInt8.ofNat (v / 4096 % 64 + 0x80),
      UInt8.ofNat (v / 64 % 64 + 0x80), UInt8.ofNat (v % 64 + 0x80)] := by
  simp only [String.utf8EncodeChar, value]
  rw [if_neg (by omega), if_neg (by omega), if_neg (by omega),
    Nat.mod_eq_of_lt (by omega : v / 262144 < 8)]

end

inductive Lead : Nat → Partial → Prop where
  | two {bits} (low : 2 ≤ bits) (high : bits < 32) : Lead (bits + 0xC0) ⟨1, 1, 0x80, 0xBF, bits⟩
  | three {bits} (low : 0 < bits) (high : bits < 16) (other : bits ≠ 13) :
      Lead (bits + 0xE0) ⟨1, 2, 0x80, 0xBF, bits⟩
  | threeLow : Lead 0xE0 ⟨1, 2, 0xA0, 0xBF, 0⟩
  | threeHigh : Lead 0xED ⟨1, 2, 0x80, 0x9F, 13⟩
  | four {bits} (low : 0 < bits) (high : bits < 4) : Lead (bits + 0xF0) ⟨1, 3, 0x80, 0xBF, bits⟩
  | fourLow : Lead 0xF0 ⟨1, 3, 0x90, 0xBF, 0⟩
  | fourHigh : Lead 0xF4 ⟨1, 3, 0x80, 0x8F, 4⟩

theorem maskFive (b : UInt8) : (b &&& 0x1F).toNat = b.toNat % 32 :=
  Nat.and_two_pow_sub_one_eq_mod b.toNat 5

theorem maskFour (b : UInt8) : (b &&& 0x0F).toNat = b.toNat % 16 :=
  Nat.and_two_pow_sub_one_eq_mod b.toNat 4

theorem maskThree (b : UInt8) : (b &&& 0x07).toNat = b.toNat % 8 :=
  Nat.and_two_pow_sub_one_eq_mod b.toNat 3

theorem maskSix (b : UInt8) : (b &&& 0x3F).toNat = b.toNat % 64 :=
  Nat.and_two_pow_sub_one_eq_mod b.toNat 6

section
variable {b : UInt8}

theorem beginLead {p : Partial} (begun : begin b = .inr p) : Lead b.toNat p := by
  simp only [begin, maskFive, maskFour, maskThree, UInt8.lt_iff_toNat_lt, ← UInt8.toNat_inj,
    UInt8.reduceToNat] at begun
  generalize b.toNat = a at begun
  rcases ite_eq_iff.mp begun with ⟨_, begun⟩ | ⟨_, begun⟩
  · cases begun
  rcases ite_eq_iff.mp begun with ⟨_, begun⟩ | ⟨_, begun⟩
  · cases begun
  rcases ite_eq_iff.mp begun with ⟨_, begun⟩ | ⟨_, begun⟩
  · obtain ⟨bits, rfl⟩ : ∃ bits, a = bits + 0xC0 := ⟨a - 0xC0, by omega⟩
    have payload : (bits + 0xC0) % 32 = bits := by omega
    cases payload ▸ begun
    exact .two (by omega) (by omega)
  rcases ite_eq_iff.mp begun with ⟨_, begun⟩ | ⟨_, begun⟩
  · subst a
    cases begun
    exact .threeLow
  rcases ite_eq_iff.mp begun with ⟨_, begun⟩ | ⟨_, begun⟩
  · subst a
    cases begun
    exact .threeHigh
  rcases ite_eq_iff.mp begun with ⟨_, begun⟩ | ⟨_, begun⟩
  · obtain ⟨bits, rfl⟩ : ∃ bits, a = bits + 0xE0 := ⟨a - 0xE0, by omega⟩
    have payload : (bits + 0xE0) % 16 = bits := by omega
    cases payload ▸ begun
    exact .three (by omega) (by omega) (by omega)
  rcases ite_eq_iff.mp begun with ⟨_, begun⟩ | ⟨_, begun⟩
  · subst a
    cases begun
    exact .fourLow
  rcases ite_eq_iff.mp begun with ⟨_, begun⟩ | ⟨_, begun⟩
  · obtain ⟨bits, rfl⟩ : ∃ bits, a = bits + 0xF0 := ⟨a - 0xF0, by omega⟩
    have payload : (bits + 0xF0) % 8 = bits := by omega
    cases payload ▸ begun
    exact .four (by omega) (by omega)
  rcases ite_eq_iff.mp begun with ⟨_, begun⟩ | ⟨_, begun⟩
  · subst a
    cases begun
    exact .fourHigh
  · cases begun

theorem leadBegin {p : Partial} (lead : Lead b.toNat p) : begin b = .inr p := by
  simp only [begin, maskFive, maskFour, maskThree, UInt8.lt_iff_toNat_lt, ← UInt8.toNat_inj,
    UInt8.reduceToNat]
  generalize b.toNat = a at lead
  cases lead with
  | @two bits low high =>
    have payload : (bits + 0xC0) % 32 = bits := by omega
    rw [if_neg (by omega), if_neg (by omega), if_pos (by omega), payload]
  | @three bits low high other =>
    have payload : (bits + 0xE0) % 16 = bits := by omega
    rw [if_neg (by omega), if_neg (by omega), if_neg (by omega), if_neg (by omega), if_neg (by omega),
      if_pos (by omega), payload]
  | @four bits low high =>
    have payload : (bits + 0xF0) % 8 = bits := by omega
    rw [if_neg (by omega), if_neg (by omega), if_neg (by omega), if_neg (by omega), if_neg (by omega),
      if_neg (by omega), if_neg (by omega), if_pos (by omega), payload]
  | threeLow | threeHigh | fourLow | fourHigh => rfl

theorem beginScalar {c : Char} (begun : begin b = .inl (.scalar c)) : String.utf8EncodeChar c = [b] := by
  by_cases low : b < 0x80
  · have small : b.toNat < 0x80 := UInt8.lt_iff_toNat_lt.mp low
    simp only [begin, low, if_true, Sum.inl.injEq, Piece.scalar.injEq] at begun
    rw [← begun, encodeOne (valueOfNat (by omega)) small, UInt8.ofNat_toNat]
  · simp only [begin, low, if_false, ite_eq_iff, Sum.inl.injEq, reduceCtorEq, and_false, or_self] at begun

end

theorem leadThree {a : Nat} {p : Partial} {b : UInt8} (lead : Lead a p) (owed : p.owed = 2)
    (within : p.low ≤ b ∧ b ≤ p.high) : p.payload + 0xE0 = a ∧ a < 0xF0 ∧ 0x80 ≤ b.toNat ∧ b.toNat < 0xC0 ∧
      (a = 0xE0 → 0xA0 ≤ b.toNat) ∧ (a = 0xED → b.toNat < 0xA0) := by
  rw [UInt8.le_iff_toNat_le, UInt8.le_iff_toNat_le] at within
  cases lead <;> simp only [UInt8.reduceToNat, Nat.reduceEqDiff] at within owed <;> dsimp only <;>
    exact ⟨by omega, by omega, by omega, by omega, fun _ => by omega, fun _ => by omega⟩

theorem leadFour {a : Nat} {p : Partial} {b : UInt8} (lead : Lead a p) (owed : p.owed = 3)
    (within : p.low ≤ b ∧ b ≤ p.high) : p.payload + 0xF0 = a ∧ a < 0xF5 ∧ 0x80 ≤ b.toNat ∧ b.toNat < 0xC0 ∧
      (a = 0xF0 → 0x90 ≤ b.toNat) ∧ (a = 0xF4 → b.toNat < 0x90) := by
  rw [UInt8.le_iff_toNat_le, UInt8.le_iff_toNat_le] at within
  cases lead <;> simp only [UInt8.reduceToNat, Nat.reduceEqDiff] at within owed <;> dsimp only <;>
    exact ⟨by omega, by omega, by omega, by omega, fun _ => by omega, fun _ => by omega⟩

inductive Begun : Partial → Octets → Prop where
  | first {p b} (lead : Lead b.toNat p) : Begun p [b]
  | next {p tail b} (begun : Begun p tail) (more : 1 < p.owed) (within : p.low ≤ b ∧ b ≤ p.high) :
      Begun ⟨p.seen + 1, p.owed - 1, 0x80, 0xBF, p.payload * 64 + (b &&& 0x3F).toNat⟩ (tail ++ [b])

def completed (p : Partial) (b : UInt8) : Nat := p.payload * 64 + (b &&& 0x3F).toNat

theorem finishTwo {a b : UInt8} {p : Partial} (lead : Lead a.toNat p) (owed : p.owed = 1)
    (within : p.low ≤ b ∧ b ≤ p.high) : String.utf8EncodeChar (Char.ofNat (completed p b)) = [a, b] := by
  rw [UInt8.le_iff_toNat_le, UInt8.le_iff_toNat_le] at within
  rw [completed, maskSix]
  generalize same : a.toNat = n at lead
  cases lead with
  | two low high =>
    simp only [UInt8.reduceToNat] at within ⊢
    rw [encodeTwo (valueOfNat (by omega)) (by omega) (by omega), octetOfNat (b := a) (by omega),
      octetOfNat (b := b) (by omega)]
  | _ => cases owed

theorem finishThree {a b c : UInt8} {p : Partial} (lead : Lead a.toNat p) (owed : p.owed = 2)
    (first : p.low ≤ b ∧ b ≤ p.high) (last : 0x80 ≤ c.toNat ∧ c.toNat ≤ 0xBF) :
    String.utf8EncodeChar (Char.ofNat (completed p b * 64 + (c &&& 0x3F).toNat)) = [a, b, c] := by
  obtain ⟨payload, top, low, high, overlong, surrogate⟩ := leadThree lead owed first
  rw [completed, maskSix, maskSix, encodeThree (valueOfNat (by omega)) (by omega) (by omega),
    octetOfNat (b := a) (by omega), octetOfNat (b := b) (by omega), octetOfNat (b := c) (by omega)]

theorem finishFour {a b c d : UInt8} {p : Partial} (lead : Lead a.toNat p) (owed : p.owed = 3)
    (first : p.low ≤ b ∧ b ≤ p.high) (second : 0x80 ≤ c.toNat ∧ c.toNat ≤ 0xBF)
    (last : 0x80 ≤ d.toNat ∧ d.toNat ≤ 0xBF) :
    String.utf8EncodeChar (Char.ofNat ((completed p b * 64 + (c &&& 0x3F).toNat) * 64 +
      (d &&& 0x3F).toNat)) = [a, b, c, d] := by
  obtain ⟨payload, top, low, high, overlong, beyond⟩ := leadFour lead owed first
  rw [completed, maskSix, maskSix, maskSix, encodeFour (valueOfNat (by omega)) (by omega) (by omega),
    octetOfNat (b := a) (by omega), octetOfNat (b := b) (by omega), octetOfNat (b := c) (by omega),
    octetOfNat (b := d) (by omega)]

theorem leadOwed {a : Nat} {p : Partial} (lead : Lead a p) : p.owed = 1 ∨ p.owed = 2 ∨ p.owed = 3 := by
  cases lead <;> simp

theorem begunOwed {p : Partial} {tail : Octets} (begun : Begun p tail) : p.owed ≤ 3 := by
  induction begun with
  | first lead =>
    have owed := leadOwed lead
    omega
  | next begun more within ih =>
    dsimp only
    omega

theorem begunFinish {p : Partial} {tail : Octets} {b : UInt8} (begun : Begun p tail) (last : p.owed ≤ 1)
    (within : p.low ≤ b ∧ b ≤ p.high) :
    String.utf8EncodeChar (Char.ofNat (completed p b)) = tail ++ [b] := by
  cases begun with
  | first lead =>
    have owed := leadOwed lead
    exact finishTwo lead (by omega) within
  | next begun more earlier =>
    cases begun with
    | first lead =>
      have owed := leadOwed lead
      dsimp only at last
      exact finishThree lead (by omega) earlier
        ⟨UInt8.le_iff_toNat_le.mp within.1, UInt8.le_iff_toNat_le.mp within.2⟩
    | next begun more' first =>
      cases begun with
      | first lead =>
        have owed := leadOwed lead
        dsimp only at last more
        exact finishFour lead (by omega) first
          ⟨UInt8.le_iff_toNat_le.mp earlier.1, UInt8.le_iff_toNat_le.mp earlier.2⟩
          ⟨UInt8.le_iff_toNat_le.mp within.1, UInt8.le_iff_toNat_le.mp within.2⟩
      | next begun more'' first' =>
        have owed := begunOwed begun
        dsimp only at more more'
        omega

def Owing : Option Partial → Octets → Prop
  | none, tail => tail = []
  | some p, tail => Begun p tail

def Scanned (s : Scan) (bytes : Octets) : Prop :=
  ∀ cs : List Char, s.pieces = (cs.map Piece.scalar).reverse →
    ∃ tail, bytes = encode cs ++ tail ∧ Owing s.under tail

theorem encodeAppend (cs ds : List Char) : encode (cs ++ ds) = encode cs ++ encode ds := by
  simp [encode]

theorem encodeCons (c : Char) (cs : List Char) : encode (c :: cs) = String.utf8EncodeChar c ++ encode cs := rfl

theorem scalarLast {c : Char} {pieces : List Piece} {cs : List Char}
    (same : .scalar c :: pieces = (cs.map Piece.scalar).reverse) :
    ∃ before, cs = before ++ [c] ∧ pieces = (before.map Piece.scalar).reverse := by
  rcases List.eq_nil_or_concat cs with rfl | ⟨before, last, rfl⟩
  · cases same
  · simp only [List.concat_eq_append, List.map_append, List.map_cons, List.map_nil, List.reverse_append,
      List.reverse_cons, List.reverse_nil, List.nil_append, List.singleton_append, List.cons.injEq,
      Piece.scalar.injEq] at same
    exact ⟨before, by simp [same.1], same.2⟩

section
variable {pieces : List Piece} {under : Option Partial} {bytes : Octets} {b : UInt8}

theorem scannedScalar {c : Char} (scanned : Scanned ⟨pieces, under⟩ bytes)
    (whole : ∀ tail, Owing under tail → String.utf8EncodeChar c = tail ++ [b]) :
    Scanned ⟨.scalar c :: pieces, none⟩ (bytes ++ [b]) := by
  intro cs same
  obtain ⟨before, rfl, earlier⟩ := scalarLast same
  obtain ⟨tail, read, owing⟩ := scanned before earlier
  refine ⟨[], ?_, rfl⟩
  rw [read, encodeAppend, encodeCons, whole tail owing]
  simp [encode]

theorem scannedUnder {later : Partial} (scanned : Scanned ⟨pieces, under⟩ bytes)
    (more : ∀ tail, Owing under tail → Begun later (tail ++ [b])) :
    Scanned ⟨pieces, some later⟩ (bytes ++ [b]) := by
  intro cs same
  obtain ⟨tail, read, owing⟩ := scanned cs same
  exact ⟨tail ++ [b], by rw [read, List.append_assoc], more tail owing⟩

theorem scannedBroken {n : Nat} (broken : .malformed n ∈ pieces) : Scanned ⟨pieces, under⟩ bytes := by
  intro cs same
  simp only at same
  simp [same] at broken

theorem startBroken {n : Nat} (broken : .malformed n ∈ pieces) : Scanned (start pieces b) bytes := by
  unfold start
  split
  · exact scannedBroken (List.mem_cons_of_mem _ broken)
  · exact scannedBroken broken

theorem startScanned (scanned : Scanned ⟨pieces, none⟩ bytes) : Scanned (start pieces b) (bytes ++ [b]) := by
  unfold start
  split
  · rename_i piece begun
    cases piece with
    | scalar c =>
      refine scannedScalar scanned fun tail none => ?_
      rw [(none : tail = []), List.nil_append, beginScalar begun]
    | malformed n => exact scannedBroken List.mem_cons_self
    | unfinished n =>
      intro cs same
      have member : Piece.unfinished n ∈ (cs.map Piece.scalar).reverse := same ▸ List.mem_cons_self
      simp at member
  · rename_i later begun
    refine scannedUnder scanned fun tail none => ?_
    rw [(none : tail = [])]
    exact .first (beginLead begun)

theorem feedScanned (s : Scan) (scanned : Scanned s bytes) : Scanned (s.feed b) (bytes ++ [b]) := by
  obtain ⟨pieces, under⟩ := s
  cases under with
  | none => exact startScanned scanned
  | some p =>
    unfold Scan.feed
    dsimp only
    split
    · rename_i within
      split
      · rename_i last
        exact scannedScalar scanned fun tail begun => begunFinish begun last within
      · rename_i more
        exact scannedUnder scanned fun tail begun => .next begun (by omega) within
    · exact startBroken List.mem_cons_self

theorem foldScanned (s : Scan) (scanned : Scanned s bytes) (more : Octets) :
    Scanned (more.foldl Scan.feed s) (bytes ++ more) := by
  induction more generalizing s bytes with
  | nil => rwa [List.append_nil]
  | cons b more ih =>
    rw [List.append_cons]
    exact ih _ (feedScanned s scanned)

end

theorem decodePiecesScalars {before cs : List Char} {pieces : List Piece}
    (decoded : decodePieces before pieces = .ok cs) :
    ∃ more, cs = before.reverse ++ more ∧ pieces = more.map Piece.scalar := by
  induction pieces generalizing before with
  | nil =>
    cases decoded
    exact ⟨[], (List.append_nil _).symm, rfl⟩
  | cons piece pieces ih =>
    cases piece with
    | scalar c =>
      obtain ⟨more, rfl, rfl⟩ := ih decoded
      exact ⟨c :: more, by simp, rfl⟩
    | malformed | unfinished => cases decoded

theorem decodeSound {bytes : Octets} {cs : List Char} (decoded : decode bytes = .ok cs) :
    bytes = encode cs := by
  obtain ⟨more, same, scalars⟩ := decodePiecesScalars decoded
  rw [List.reverse_nil, List.nil_append] at same
  subst same
  have scanned : Scanned (bytes.foldl Scan.feed ⟨[], none⟩) ([] ++ bytes) :=
    foldScanned ⟨[], none⟩ (fun cs none => ⟨[], by simp_all [encode], rfl⟩) bytes
  unfold pieces Scan.finish at scalars
  split at scalars
  · rename_i ended
    obtain ⟨tail, read, owing⟩ := scanned cs (List.reverse_eq_iff.mp scalars)
    rw [ended] at owing
    rw [(owing : tail = []), List.append_nil, List.nil_append] at read
    exact read
  · rename_i p under
    have member : Piece.unfinished p.seen ∈ cs.map Piece.scalar := by simp [← scalars]
    simp at member

section
variable {pieces : List Piece} {p : Partial} {b : UInt8}

theorem feedFirst (lead : Lead b.toNat p) : (⟨pieces, none⟩ : Scan).feed b = ⟨pieces, some p⟩ := by
  simp only [Scan.feed, start, leadBegin lead]

theorem feedNext (more : 1 < p.owed) (within : p.low ≤ b ∧ b ≤ p.high) :
    (⟨pieces, some p⟩ : Scan).feed b =
      ⟨pieces, some ⟨p.seen + 1, p.owed - 1, 0x80, 0xBF, completed p b⟩⟩ := by
  have more : ¬ p.owed ≤ 1 := by omega
  simp only [Scan.feed, within, more, and_self, if_true, if_false, completed]

theorem feedLast (last : p.owed = 1) (within : p.low ≤ b ∧ b ≤ p.high) :
    (⟨pieces, some p⟩ : Scan).feed b = ⟨.scalar (Char.ofNat (completed p b)) :: pieces, none⟩ := by
  have last : p.owed ≤ 1 := by omega
  simp only [Scan.feed, within, last, and_self, if_true, completed]

end

theorem threeLead {v : Nat} (low : 0x800 ≤ v) (high : v < 0x10000) (valid : v < 0xD800 ∨ 0xDFFF < v) :
    ∃ least greatest : UInt8, Lead (v / 4096 + 0xE0) ⟨1, 2, least, greatest, v / 4096⟩ ∧
      least.toNat ≤ v / 64 % 64 + 0x80 ∧ v / 64 % 64 + 0x80 ≤ greatest.toNat := by
  by_cases first : v / 4096 = 0
  · refine ⟨0xA0, 0xBF, ?_, ?_, ?_⟩
    · rw [first]
      exact .threeLow
    · simp only [UInt8.reduceToNat]; omega
    · simp only [UInt8.reduceToNat]; omega
  by_cases before : v / 4096 = 13
  · refine ⟨0x80, 0x9F, ?_, ?_, ?_⟩
    · rw [before]
      exact .threeHigh
    · simp only [UInt8.reduceToNat]; omega
    · simp only [UInt8.reduceToNat]; omega
  · refine ⟨0x80, 0xBF, ?_, ?_, ?_⟩
    · exact .three (by omega) (by omega) before
    · simp only [UInt8.reduceToNat]; omega
    · simp only [UInt8.reduceToNat]; omega

theorem fourLead {v : Nat} (low : 0x10000 ≤ v) (high : v < 0x110000) :
    ∃ least greatest : UInt8, Lead (v / 262144 + 0xF0) ⟨1, 3, least, greatest, v / 262144⟩ ∧
      least.toNat ≤ v / 4096 % 64 + 0x80 ∧ v / 4096 % 64 + 0x80 ≤ greatest.toNat := by
  by_cases first : v / 262144 = 0
  · refine ⟨0x90, 0xBF, ?_, ?_, ?_⟩
    · rw [first]
      exact .fourLow
    · simp only [UInt8.reduceToNat]; omega
    · simp only [UInt8.reduceToNat]; omega
  by_cases last : v / 262144 = 4
  · refine ⟨0x80, 0x8F, ?_, ?_, ?_⟩
    · rw [last]
      exact .fourHigh
    · simp only [UInt8.reduceToNat]; omega
    · simp only [UInt8.reduceToNat]; omega
  · refine ⟨0x80, 0xBF, ?_, ?_, ?_⟩
    · exact .four (by omega) (by omega)
    · simp only [UInt8.reduceToNat]; omega
    · simp only [UInt8.reduceToNat]; omega

theorem tailWithin {n : Nat} (small : n < 64) :
    (0x80 : UInt8) ≤ UInt8.ofNat (n + 0x80) ∧ UInt8.ofNat (n + 0x80) ≤ 0xBF := by
  rw [UInt8.le_iff_toNat_le, UInt8.le_iff_toNat_le, octetValue (by omega)]
  simp only [UInt8.reduceToNat]
  omega

theorem tailBits {n : Nat} (small : n < 64) : (UInt8.ofNat (n + 0x80) &&& 0x3F).toNat = n := by
  rw [maskSix, octetValue (by omega)]
  omega

theorem leadOctet {n : Nat} {p : Partial} (lead : Lead n p) : Lead (UInt8.ofNat n).toNat p := by
  have small : n < 256 := by cases lead <;> omega
  rwa [octetValue small]

theorem octetWithin {least greatest : UInt8} {n : Nat} (small : n < 256) (low : least.toNat ≤ n)
    (high : n ≤ greatest.toNat) : least ≤ UInt8.ofNat n ∧ UInt8.ofNat n ≤ greatest := by
  rw [UInt8.le_iff_toNat_le, UInt8.le_iff_toNat_le, octetValue small]
  exact ⟨low, high⟩

theorem feedCharacter (pieces : List Piece) (c : Char) :
    (String.utf8EncodeChar c).foldl Scan.feed ⟨pieces, none⟩ = ⟨.scalar c :: pieces, none⟩ := by
  obtain ⟨v, value⟩ : ∃ v, c.val.toNat = v := ⟨_, rfl⟩
  have valid : v < 0xD800 ∨ 0xDFFF < v ∧ v < 0x110000 := value ▸ c.valid
  have own : Char.ofNat v = c := value ▸ Char.ofNat_toNat c
  by_cases one : v < 0x80
  · have single : UInt8.ofNat v < 0x80 := by
      rw [UInt8.lt_iff_toNat_lt, octetValue (by omega)]
      exact one
    rw [encodeOne value one, List.foldl_cons, List.foldl_nil]
    simp only [Scan.feed, start, begin, single, if_true, octetValue (by omega : v < 256), own]
  by_cases two : v < 0x800
  · have lead : Lead (v / 64 + 0xC0) ⟨1, 1, 0x80, 0xBF, v / 64⟩ := .two (by omega) (by omega)
    have whole : v / 64 * 64 + v % 64 = v := by omega
    rw [encodeTwo value (by omega) two, List.foldl_cons, feedFirst (leadOctet lead), List.foldl_cons,
      feedLast rfl (tailWithin (by omega)), completed, tailBits (by omega)]
    simp only [whole, own, List.foldl_nil]
  by_cases three : v < 0x10000
  · obtain ⟨least, greatest, lead, low, high⟩ := threeLead (by omega : 0x800 ≤ v) three (by omega)
    have whole : (v / 4096 * 64 + v / 64 % 64) * 64 + v % 64 = v := by omega
    rw [encodeThree value (by omega) three, List.foldl_cons, feedFirst (leadOctet lead), List.foldl_cons,
      feedNext (by simp) (octetWithin (by omega) low high), List.foldl_cons,
      feedLast rfl (tailWithin (by omega)), completed, completed, tailBits (by omega), tailBits (by omega)]
    simp only [whole, own, List.foldl_nil]
  · obtain ⟨least, greatest, lead, low, high⟩ := fourLead (by omega : 0x10000 ≤ v) (by omega)
    have whole : ((v / 262144 * 64 + v / 4096 % 64) * 64 + v / 64 % 64) * 64 + v % 64 = v := by omega
    rw [encodeFour value (by omega) (by omega), List.foldl_cons, feedFirst (leadOctet lead),
      List.foldl_cons, feedNext (by simp) (octetWithin (by omega) low high), List.foldl_cons,
      feedNext (by simp) (tailWithin (by omega)), List.foldl_cons, feedLast rfl (tailWithin (by omega)),
      completed, completed, completed, tailBits (by omega), tailBits (by omega), tailBits (by omega)]
    simp only [whole, own, List.foldl_nil]

theorem foldEncode (cs : List Char) (pieces : List Piece) : (encode cs).foldl Scan.feed ⟨pieces, none⟩ =
    ⟨(cs.map Piece.scalar).reverse ++ pieces, none⟩ := by
  induction cs generalizing pieces with
  | nil => rfl
  | cons c cs ih =>
    rw [encodeCons, List.foldl_append, feedCharacter, ih]
    simp

theorem decodePiecesMap (before cs : List Char) :
    decodePieces before (cs.map Piece.scalar) = .ok (before.reverse ++ cs) := by
  induction cs generalizing before with
  | nil => simp [decodePieces]
  | cons c cs ih =>
    rw [List.map_cons, decodePieces, ih]
    simp

theorem decodeEncode (cs : List Char) : decode (encode cs) = .ok cs := by
  rw [decode, pieces, foldEncode, Scan.finish]
  simpa using decodePiecesMap [] cs

theorem decodeText (bytes : Octets) (cs : List Char) : decode bytes = .ok cs ↔ bytes = encode cs :=
  ⟨decodeSound, fun same => same ▸ decodeEncode cs⟩

theorem lossyEncode (cs : List Char) : lossy (encode cs) = cs := by
  simp [lossy, pieces, foldEncode, Scan.finish, Function.comp_def, Piece.shown]

theorem encodeInjective {cs ds : List Char} (same : encode cs = encode ds) : cs = ds := by
  have both := decodeEncode cs
  rw [same, decodeEncode] at both
  exact (Except.ok.inj both).symm

theorem encodeLength (cs : List Char) : (encode cs).length = size cs := by
  suffices all : ∀ n, n + (encode cs).length = cs.foldl (fun n c => n + c.utf8Size) n by
    simpa [size] using all 0
  induction cs with
  | nil => simp [encode]
  | cons c cs ih =>
    intro n
    rw [encodeCons, List.length_append, String.length_utf8EncodeChar, List.foldl_cons, ← ih]
    omega

theorem newlineOther {n : Nat} (small : n < 256) (different : n ≠ 10) :
    ((0x0A : UInt8) = UInt8.ofNat n) = False :=
  eq_false fun same => different (by simpa [octetValue small] using (congrArg UInt8.toNat same).symm)

theorem newlineOctet {c : Char} : 0x0A ∈ String.utf8EncodeChar c ↔ c = '\n' := by
  obtain ⟨v, value⟩ : ∃ v, c.val.toNat = v := ⟨_, rfl⟩
  have valid : v < 0xD800 ∨ 0xDFFF < v ∧ v < 0x110000 := value ▸ c.valid
  have newline : c = '\n' ↔ v = 10 := by
    constructor
    · rintro rfl
      exact value.symm
    · rintro rfl
      exact Char.ofNat_toNat c ▸ congrArg Char.ofNat value
  rw [newline]
  by_cases ten : v = 10
  · subst ten
    exact iff_of_true (encodeOne value (by omega) ▸ List.mem_singleton.mpr rfl) rfl
  refine iff_of_false ?_ ten
  by_cases one : v < 0x80
  · rw [encodeOne value one, List.mem_singleton, newlineOther (by omega) ten]
    exact not_false
  by_cases two : v < 0x800
  · simp only [encodeTwo value (by omega) two, List.mem_cons, List.not_mem_nil, or_false, not_false_iff,
      newlineOther (by omega : v / 64 + 0xC0 < 256) (by omega),
      newlineOther (by omega : v % 64 + 0x80 < 256) (by omega)]
  by_cases three : v < 0x10000
  · simp only [encodeThree value (by omega) three, List.mem_cons, List.not_mem_nil, or_false, not_false_iff,
      newlineOther (by omega : v / 4096 + 0xE0 < 256) (by omega),
      newlineOther (by omega : v / 64 % 64 + 0x80 < 256) (by omega),
      newlineOther (by omega : v % 64 + 0x80 < 256) (by omega)]
  · simp only [encodeFour value (by omega) (by omega), List.mem_cons, List.not_mem_nil, or_false,
      not_false_iff, newlineOther (by omega : v / 262144 + 0xF0 < 256) (by omega),
      newlineOther (by omega : v / 4096 % 64 + 0x80 < 256) (by omega),
      newlineOther (by omega : v / 64 % 64 + 0x80 < 256) (by omega),
      newlineOther (by omega : v % 64 + 0x80 < 256) (by omega)]

theorem newlineEncode {cs : List Char} : 0x0A ∈ encode cs ↔ '\n' ∈ cs := by
  simp [encode, newlineOctet]

theorem encodeEmpty {cs : List Char} : encode cs = [] ↔ cs = [] := by
  constructor
  · exact fun none => encodeInjective none
  · rintro rfl
    rfl

end LspClient.Utf8
