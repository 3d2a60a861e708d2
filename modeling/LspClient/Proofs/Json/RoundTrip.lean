import LspClient.Json.Parser
import LspClient.Proofs.Json.Token
import LspClient.Proofs.Json.Fields

/-! Printed values are read back. Numbers that are no integers of 64 bits are left out. -/
namespace LspClient.Json

inductive Plain : Nat → Json → Prop where
  | null {depth} : Plain depth .null
  | bool {depth} (value : Bool) : Plain depth (.bool value)
  | integer {depth value} (low : -Int.pow 2 63 ≤ value) (high : value < Int.pow 2 64) :
      Plain depth (.integer value)
  | string {depth} (value : String) : Plain depth (.string value)
  | array {depth items} (each : ∀ item ∈ items, Plain depth item) : Plain (depth + 1) (.array items)
  | object {depth fields} (ordered : Ordered fields) (each : ∀ field ∈ fields, Plain depth field.2) :
      Plain (depth + 1) (.object fields)

def joined (close : Char) : List (List Char) → List Char
  | [] => [close]
  | [item] => item ++ [close]
  | item :: next :: rest => item ++ ',' :: joined close (next :: rest)

theorem itemsJoined (items : List Json) : itemChars items = joined ']' (items.map chars) := by
  induction items with
  | nil => rfl
  | cons item items ih =>
    cases items with
    | nil => rfl
    | cons next rest => simpa [itemChars, joined] using ih

def fieldText (field : String × Json) : List Char := quoted field.1.toList ++ ':' :: chars field.2

theorem fieldsJoined (fields : List (String × Json)) :
    fieldChars fields = joined '\x7d' (fields.map fieldText) := by
  induction fields with
  | nil => rfl
  | cons field fields ih =>
    obtain ⟨name, value⟩ := field
    cases fields with
    | nil => simp [fieldChars, joined, fieldText]
    | cons next rest => simpa [fieldChars, joined, fieldText] using ih

section
variable {α : Type} {close : Char} {item : List Char → Read (α × List Char)} {printed : α → List Char}
  {xs : List α} {bound : Nat}

theorem joinedLength (some : ∀ x ∈ xs, printed x ≠ []) (rest : List Char) :
    xs.length ≤ (joined close (xs.map printed) ++ rest).length := by
  induction xs with
  | nil => exact Nat.zero_le _
  | cons x xs ih =>
    rw [List.forall_mem_cons] at some
    have first := List.length_pos_iff.mpr some.1
    have later := ih some.2
    cases xs with
    | nil =>
      simp only [List.map_cons, List.map_nil, joined, List.length_append, List.length_cons, List.length_nil]
      omega
    | cons y ys =>
      simp only [List.map_cons, joined, List.length_append, List.length_cons] at later ⊢
      omega

theorem sequenceJoined (closes : isBlank close = false) (stops : ∀ rest, Stops (close :: rest))
    (each : ∀ x ∈ xs, ∀ rest, Stops rest → item (printed x ++ rest) = .ok (x, rest)) (some : xs ≠ [])
    (separate : close ≠ ',') (enough : xs.length ≤ bound) (rest : List Char) :
    sequence close item bound (joined close (xs.map printed) ++ rest) = .ok (xs, rest) := by
  induction xs generalizing bound with
  | nil => exact absurd rfl some
  | cons x xs ih =>
    rw [List.forall_mem_cons] at each
    cases bound with
    | zero => cases enough
    | succ bound =>
      cases xs with
      | nil =>
        have first := each.1 (close :: rest) (stops rest)
        simp [joined, sequence, first, bind, Except.bind, skipBlank, closes]
      | cons y ys =>
        have comma : Stops (',' :: (joined close ((y :: ys).map printed) ++ rest)) := stopsCons (by decide) _
        have first := each.1 _ comma
        have later := ih each.2 (by simp) (Nat.le_of_succ_le_succ enough)
        simp only [List.map_cons, joined, List.append_assoc, List.cons_append] at first later ⊢
        have solid : isBlank ',' = false := rfl
        simp [sequence, first, later, bind, Except.bind, skipBlank, solid, Ne.symm separate]

theorem bracketedJoined (closes : isBlank close = false) (stops : ∀ rest, Stops (close :: rest))
    (each : ∀ x ∈ xs, ∀ rest, Stops rest → item (printed x ++ rest) = .ok (x, rest))
    (starts : ∀ x ∈ xs, ∃ c cs, printed x = c :: cs ∧ isBlank c = false ∧ c ≠ close)
    (separate : close ≠ ',') (rest : List Char) :
    bracketed close item (joined close (xs.map printed) ++ rest) = .ok (xs, rest) := by
  have filled : ∀ x ∈ xs, printed x ≠ [] := by
    intro x member none
    obtain ⟨c, cs, same, _⟩ := starts x member
    simp [none] at same
  cases xs with
  | nil => simp [joined, bracketed, skipBlank, closes]
  | cons x xs =>
    obtain ⟨c, cs, same, solid, different⟩ := starts x List.mem_cons_self
    -- the first item begins with a sign of its own, so the reader does not take the sequence for empty
    obtain ⟨tail, whole⟩ : ∃ tail, joined close ((x :: xs).map printed) ++ rest = c :: tail := by
      cases xs <;> simp [joined, same]
    have long : (x :: xs).length ≤ (joined close ((x :: xs).map printed) ++ rest).length :=
      joinedLength filled rest
    have all := sequenceJoined closes stops each (by simp) separate long rest
    rw [whole] at all ⊢
    simpa [bracketed, skipBlank, solid, different] using all

end

variable {depth : Nat} {v : Json} {rest : List Char}

theorem valueSimple {c : Char} (solid : isBlank c = false) (list : c ≠ '[') (fields : c ≠ '\x7b')
    (cs : List Char) : value depth (c :: cs) = simple c cs := by
  cases depth <;> simp [value, skipBlank, solid, list, fields]

theorem simpleNumber {c : Char} (begins : startsNumber c = true) (cs : List Char) :
    simple c cs = number (c :: cs) := by
  have other : c ≠ 'n' ∧ c ≠ 't' ∧ c ≠ 'f' ∧ c ≠ '"' := by
    refine ⟨?_, ?_, ?_, ?_⟩
    all_goals
      rintro rfl
      cases begins
  simp [simple, other, begins]

theorem intFirst (n : Int) : ∃ c cs, intChars n = c :: cs ∧ startsNumber c = true := by
  cases n with
  | ofNat n =>
    obtain ⟨c, cs, same, digit⟩ := digitsFirst n
    exact ⟨c, cs, same, by simp [startsNumber, digit]⟩
  | negSucc n => exact ⟨'-', _, rfl, rfl⟩

theorem startsSolid {c : Char} (begins : startsNumber c = true) :
    isBlank c = false ∧ c ≠ '[' ∧ c ≠ '\x7b' ∧ c ≠ ']' := by
  have other (d : Char) (never : startsNumber d = false) : c ≠ d := fun same => by
    rw [same, never] at begins
    cases begins
  refine ⟨?_, other '[' rfl, other '\x7b' rfl, other ']' rfl⟩
  simp [isBlank, other ' ' rfl, other '\t' rfl, other '\n' rfl, other '\r' rfl]

theorem charsFirst (v : Json) (plain : Plain depth v) :
    ∃ c cs, chars v = c :: cs ∧ isBlank c = false ∧ c ≠ ']' := by
  cases plain with
  | null => exact ⟨_, _, rfl, rfl, by decide⟩
  | bool value => cases value <;> exact ⟨_, _, rfl, rfl, by decide⟩
  | integer =>
    rename_i n _ _
    obtain ⟨c, cs, same, begins⟩ := intFirst n
    obtain ⟨solid, _, _, different⟩ := startsSolid begins
    exact ⟨c, cs, same, solid, different⟩
  | string s => exact ⟨_, _, rfl, rfl, by decide⟩
  | array each => exact ⟨_, _, by rw [chars], rfl, by decide⟩
  | object ordered each => exact ⟨_, _, by rw [chars], rfl, by decide⟩

theorem memberText {field : String × Json} {read : List Char → Read (Json × List Char)}
    (printed : read (chars field.2 ++ rest) = .ok (field.2, rest)) :
    member read (fieldText field ++ rest) = .ok (field, rest) := by
  have quote : isBlank '"' = false := rfl
  have colon : isBlank ':' = false := rfl
  simp [member, fieldText, quoted, skipBlank, quote, colon, textQuoted, printed, bind, Except.bind]

theorem valueChars (plain : Plain depth v) (stops : Stops rest) :
    value depth (chars v ++ rest) = .ok (v, rest) := by
  induction plain generalizing rest with
  | null =>
    rw [chars, List.cons_append, valueSimple rfl (by decide) (by decide)]
    rfl
  | bool b =>
    cases b
    all_goals
      rw [chars, List.cons_append, valueSimple rfl (by decide) (by decide)]
      rfl
  | integer low high =>
    rename_i n
    obtain ⟨c, cs, same, begins⟩ := intFirst n
    obtain ⟨solid, list, fields, _⟩ := startsSolid begins
    rw [chars, same, List.cons_append, valueSimple solid list fields, simpleNumber begins, ← List.cons_append,
      ← same, numberPrinted low high stops]
  | string s =>
    rw [chars, quoted, List.cons_append, List.cons_append, valueSimple rfl (by decide) (by decide),
      List.append_assoc, List.singleton_append]
    have own := textQuoted s rest
    simp [simple, own, Except.map]
  | array each ih =>
    have closes : isBlank ']' = false := rfl
    have items := bracketedJoined closes (stopsCons (by decide))
      (fun item member rest stops => ih item member stops)
      (fun item member => charsFirst item (each item member)) (by decide) rest
    rw [← itemsJoined] at items
    have solid : isBlank '[' = false := rfl
    simp [chars, value, skipBlank, solid, items, Except.map]
  | object ordered each ih =>
    have closes : isBlank '\x7d' = false := rfl
    have fields := bracketedJoined closes (stopsCons (by decide))
      (fun field member rest stops => memberText (ih field member stops))
      (fun field member => ⟨'"', _, rfl, rfl, by decide⟩) (by decide) rest
    rw [← fieldsJoined] at fields
    have solid : isBlank '\x7b' = false := rfl
    simp [chars, value, skipBlank, solid, fields, Except.map, ofFields, orderOrdered ordered]

theorem parseCompact (plain : Plain depthLimit v) : parse? v.compact = some v := by
  have own := valueChars plain stopsNil
  rw [List.append_nil] at own
  simp [parse?, compact, parseChars, own, bind, Except.bind, skipBlank, Except.toOption]

end LspClient.Json
