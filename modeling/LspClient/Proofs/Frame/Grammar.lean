import LspClient.Proofs.Frame.Lines
import LspClient.Proofs.Text.Utf8
import LspClient.Proofs.Frame

/-! The grammar of frames, stated on texts, and the reader against it: both accept the same streams with the
same body and the same remainder. The reader may get the stream in pieces; it waits for more octets only
where more octets can decide. -/
namespace LspClient.Frame
open Utf8 (Octets encode ofString)
open Text (Blank)

def lined (lines : List (List Char)) : Octets := lines.flatMap fun line => encode line ++ [0x0A]

structure Head (lines : List (List Char)) (last : List Char) (n : Nat) : Prop where
  unbroken : ∀ line ∈ lines, '\n' ∉ line
  unbrokenLast : '\n' ∉ last
  closes : Blank last
  -- no earlier line closes it
  first : ∀ {front line back}, lines = front ++ line :: back → Blank line →
    ∀ earlier ∈ front, ¬ IsLength earlier
  announced : ∀ line ∈ lines, IsLength line → ∃ m, Announces line m
  length : ∃ front line back, lines = front ++ line :: back ∧ Announces line n ∧
    ∀ later ∈ back, ¬ IsLength later

/-- How a stream starts that holds a frame with the body `text`, and what it leaves. -/
inductive Framed : Octets → String → Octets → Prop where
  | whole {lines last n text rest} (head : Head lines last n) (small : n ≤ limit)
      (long : (ofString text).length = n) :
      Framed (lined lines ++ (encode last ++ 0x0A :: (ofString text ++ rest))) text rest
  | atEnd {lines last} (head : Head lines last 0) (some : last ≠ []) :
      Framed (lined lines ++ encode last) "" []

inductive Heads : Option Nat → List (List Char) → Nat → Prop where
  | done {n} : Heads (some n) [] n
  | blank {line lines n} (blank : Blank line) (more : Heads none lines n) : Heads none (line :: lines) n
  | length {announced line m lines n} (announces : Announces line m) (more : Heads (some m) lines n) :
      Heads announced (line :: lines) n
  | other {announced line lines n} (filled : ¬ Blank line) (anonymous : ¬ IsLength line)
      (more : Heads announced lines n) : Heads announced (line :: lines) n

variable {announced : Option Nat} {lines : List (List Char)} {line last : List Char} {n m : Nat}

theorem headsFirst (heads : Heads announced lines n) {front back : List (List Char)}
    (same : lines = front ++ line :: back) (blank : Blank line) :
    announced = none ∧ ∀ earlier ∈ front, ¬ IsLength earlier := by
  induction heads generalizing front with
  | done => simp at same
  | blank blankHead more ih =>
    refine ⟨rfl, ?_⟩
    cases front with
    | nil => nofun
    | cons head front =>
      obtain ⟨rfl, tail⟩ := List.cons.inj same
      exact List.forall_mem_cons.mpr ⟨blankAnonymous blankHead, (ih tail).2⟩
  | length announces more ih =>
    cases front with
    | nil =>
      obtain ⟨rfl, -⟩ := List.cons.inj same
      exact absurd announces.name (blankAnonymous blank)
    | cons head front =>
      obtain ⟨rfl, tail⟩ := List.cons.inj same
      exact absurd (ih tail).1 (by simp)
  | other filled anonymous more ih =>
    cases front with
    | nil =>
      obtain ⟨rfl, -⟩ := List.cons.inj same
      exact absurd blank filled
    | cons head front =>
      obtain ⟨rfl, tail⟩ := List.cons.inj same
      exact ⟨(ih tail).1, List.forall_mem_cons.mpr ⟨anonymous, (ih tail).2⟩⟩

theorem headsAnnounced (heads : Heads announced lines n) :
    ∀ line ∈ lines, IsLength line → ∃ m, Announces line m := by
  induction heads with
  | done => nofun
  | blank blank more ih => exact List.forall_mem_cons.mpr ⟨fun name => absurd name (blankAnonymous blank), ih⟩
  | length announces more ih => exact List.forall_mem_cons.mpr ⟨fun _ => ⟨_, announces⟩, ih⟩
  | other filled anonymous more ih =>
    exact List.forall_mem_cons.mpr ⟨fun name => absurd name anonymous, ih⟩

theorem headsLength (heads : Heads announced lines n) :
    (announced = some n ∧ ∀ line ∈ lines, ¬ IsLength line) ∨
      ∃ front line back, lines = front ++ line :: back ∧ Announces line n ∧
        ∀ later ∈ back, ¬ IsLength later := by
  induction heads with
  | done => exact .inl ⟨rfl, nofun⟩
  | blank blank more ih =>
    rcases ih with ⟨known, _⟩ | ⟨front, line, back, rfl, announces, later⟩
    · cases known
    · exact .inr ⟨_ :: front, line, back, rfl, announces, later⟩
  | length announces more ih =>
    rcases ih with ⟨known, later⟩ | ⟨front, line, back, rfl, announces, later⟩
    · cases known
      exact .inr ⟨[], _, _, rfl, announces, later⟩
    · exact .inr ⟨_ :: front, line, back, rfl, announces, later⟩
  | other filled anonymous more ih =>
    rcases ih with ⟨known, later⟩ | ⟨front, line, back, rfl, announces, later⟩
    · exact .inl ⟨known, List.forall_mem_cons.mpr ⟨anonymous, later⟩⟩
    · exact .inr ⟨_ :: front, line, back, rfl, announces, later⟩

theorem headsOf (unclosed : announced ≠ none → ∀ line ∈ lines, ¬ Blank line)
    (first : ∀ {front line back}, lines = front ++ line :: back → Blank line →
      ∀ earlier ∈ front, ¬ IsLength earlier)
    (each : ∀ line ∈ lines, IsLength line → ∃ m, Announces line m)
    (length : (announced = some n ∧ ∀ line ∈ lines, ¬ IsLength line) ∨
      ∃ front line back, lines = front ++ line :: back ∧ Announces line n ∧ ∀ later ∈ back, ¬ IsLength later) :
    Heads announced lines n := by
  induction lines generalizing announced with
  | nil =>
    rcases length with ⟨rfl, _⟩ | ⟨front, line, back, same, _⟩
    · exact .done
    · simp at same
  | cons line lines ih =>
    have firstMore : ∀ {front later back}, lines = front ++ later :: back → Blank later →
        ¬ IsLength line ∧ ∀ earlier ∈ front, ¬ IsLength earlier :=
      fun same blank => List.forall_mem_cons.mp (first (same ▸ (List.cons_append ..).symm) blank)
    have eachMore := (List.forall_mem_cons.mp each).2
    by_cases name : IsLength line
    -- a blank line after a number would have closed the head
    · have closed : ∀ later ∈ lines, ¬ Blank later := fun later member blank => by
        obtain ⟨front, back, same⟩ := List.append_of_mem member
        exact (firstMore same blank).1 name
      rcases length with ⟨_, anonymous⟩ | ⟨front, found, back, same, announces, later⟩
      · exact absurd name (anonymous line List.mem_cons_self)
      · cases front with
        | nil =>
          obtain ⟨rfl, rfl⟩ := List.cons.inj same
          exact .length announces
            (ih (fun _ => closed) (fun same blank => (firstMore same blank).2) eachMore (.inl ⟨rfl, later⟩))
        | cons head front =>
          obtain ⟨rfl, tail⟩ := List.cons.inj same
          obtain ⟨m, own⟩ := each line List.mem_cons_self name
          exact .length own (ih (fun _ => closed) (fun same blank => (firstMore same blank).2) eachMore
            (.inr ⟨front, found, back, tail, announces, later⟩))
    · have lengthMore : (announced = some n ∧ ∀ line ∈ lines, ¬ IsLength line) ∨ ∃ front line back,
          lines = front ++ line :: back ∧ Announces line n ∧ ∀ later ∈ back, ¬ IsLength later := by
        rcases length with ⟨known, anonymous⟩ | ⟨front, found, back, same, announces, later⟩
        · exact .inl ⟨known, (List.forall_mem_cons.mp anonymous).2⟩
        · cases front with
          | nil =>
            obtain ⟨rfl, rfl⟩ := List.cons.inj same
            exact absurd announces.name name
          | cons head front =>
            obtain ⟨rfl, tail⟩ := List.cons.inj same
            exact .inr ⟨front, found, back, tail, announces, later⟩
      have more := ih (fun known => (List.forall_mem_cons.mp (unclosed known)).2)
        (fun same blank => (firstMore same blank).2) eachMore lengthMore
      by_cases blank : Blank line
      · cases announced with
        | none => exact .blank blank more
        | some m => exact absurd blank (unclosed (by simp) line List.mem_cons_self)
      · exact .other blank name more

theorem headHeads : Head lines last n ↔
    Heads none lines n ∧ Blank last ∧ '\n' ∉ last ∧ ∀ line ∈ lines, '\n' ∉ line := by
  constructor
  · intro head
    exact ⟨headsOf (absurd rfl) head.first head.announced (.inr head.length), head.closes,
      head.unbrokenLast, head.unbroken⟩
  · rintro ⟨heads, closes, unbrokenLast, unbroken⟩
    refine ⟨unbroken, unbrokenLast, closes, fun same blank => (headsFirst heads same blank).2,
      headsAnnounced heads, ?_⟩
    rcases headsLength heads with ⟨known, _⟩ | found
    · cases known
    · exact found

variable {growing : Bool} {bytes stream rest : Octets} {text : String}

theorem readHeadStep (growing : Bool) (announced : Option Nat) (unbroken : 0x0A ∉ bytes) (line rest : Octets) :
    readHead growing announced line (bytes ++ rest) =
      readHead growing announced (bytes.reverse ++ line) rest := by
  induction bytes generalizing line with
  | nil => rfl
  | cons b bytes ih =>
    rw [List.mem_cons, not_or] at unbroken
    have step : readHead growing announced line (b :: (bytes ++ rest)) =
        readHead growing announced (b :: line) (bytes ++ rest) := if_neg (Ne.symm unbroken.1)
    rw [List.cons_append, step, ih unbroken.2, List.reverse_cons, List.append_assoc, List.singleton_append]

theorem readHeadLine (growing : Bool) (announced : Option Nat) (unbroken : 0x0A ∉ bytes) (rest : Octets) :
    readHead growing announced [] (bytes ++ 0x0A :: rest) = match Line.read bytes, announced with
      | .error fault, _ => .fault fault
      | .ok .blank, some n => takeBody growing n rest
      | .ok .blank, none => readHead growing none [] rest
      | .ok (.length n), _ => readHead growing (some n) [] rest
      | .ok .other, _ => readHead growing announced [] rest := by
  rw [readHeadStep growing announced unbroken, List.append_nil]
  refine (if_pos rfl).trans ?_
  rewrite [List.reverse_reverse]
  rfl

theorem readHeadLast (announced : Option Nat) (unbroken : 0x0A ∉ bytes) :
    readHead false announced [] bytes = finishHead announced bytes := by
  have step := readHeadStep false announced unbroken [] []
  rw [List.append_nil, List.append_nil] at step
  rw [step, readHead, List.reverse_reverse]
  rfl

theorem readEncode (line : List Char) : Line.read (encode line) = Line.ofChars line := by
  rw [Line.read, Utf8.decodeEncode]

theorem readHeadText (growing : Bool) (announced : Option Nat) (unbroken : '\n' ∉ line) (rest : Octets) :
    readHead growing announced [] (encode line ++ 0x0A :: rest) = match Line.ofChars line, announced with
      | .error fault, _ => .fault fault
      | .ok .blank, some n => takeBody growing n rest
      | .ok .blank, none => readHead growing none [] rest
      | .ok (.length n), _ => readHead growing (some n) [] rest
      | .ok .other, _ => readHead growing announced [] rest := by
  rw [readHeadLine growing announced (mt Utf8.newlineEncode.mp unbroken), readEncode]

theorem linedCons (line : List Char) (lines : List (List Char)) (rest : Octets) :
    lined (line :: lines) ++ rest = encode line ++ 0x0A :: (lined lines ++ rest) := by simp [lined]

theorem readHeads (growing : Bool) (heads : Heads announced lines n) (unbroken : ∀ line ∈ lines, '\n' ∉ line)
    (rest : Octets) :
    readHead growing announced [] (lined lines ++ rest) = readHead growing (some n) [] rest := by
  induction heads with
  | done => rfl
  | blank blank more ih =>
    rw [List.forall_mem_cons] at unbroken
    rw [linedCons, readHeadText growing _ unbroken.1, ofCharsBlank blank]
    exact ih unbroken.2
  | length announces more ih =>
    rw [List.forall_mem_cons] at unbroken
    rw [linedCons, readHeadText growing _ unbroken.1, ofCharsAnnounces announces]
    exact ih unbroken.2
  | other filled anonymous more ih =>
    rw [List.forall_mem_cons] at unbroken
    rw [linedCons, readHeadText growing _ unbroken.1, ofCharsOther filled anonymous]
    exact ih unbroken.2

theorem takeBodyText : takeBody growing n stream = .body text rest ↔
    n ≤ limit ∧ (ofString text).length = n ∧ stream = ofString text ++ rest := by
  unfold takeBody
  constructor
  · intro taken
    split at taken
    · cases taken
    rename_i small
    split at taken
    · split at taken <;> cases taken
    rename_i long
    split at taken
    · rename_i cs decoded
      cases taken
      have front : stream.take n = encode cs := Utf8.decodeSound decoded
      have own : ofString (String.ofList cs) = stream.take n := by
        rw [front, ofString, String.toList_ofList]
      refine ⟨by omega, ?_, ?_⟩
      · rw [own, List.length_take]
        omega
      · rw [own, List.take_append_drop]
    · cases taken
  · rintro ⟨small, rfl, rfl⟩
    rw [if_neg (by omega), if_neg (by rw [List.length_append]; omega), List.take_left, List.drop_left, ofString,
      Utf8.decodeEncode]
    simp only [String.ofList_toList]

theorem finishHeadText : finishHead announced bytes = .body text rest ↔
    announced = some 0 ∧ bytes ≠ [] ∧ text = "" ∧ rest = [] ∧ ∃ last, bytes = encode last ∧ Blank last := by
  constructor
  · intro taken
    unfold finishHead at taken
    split at taken
    · cases taken
    rename_i filled
    split at taken
    · cases taken
    · rename_i m blank
      obtain ⟨-, long, none⟩ := takeBodyText.mp taken
      obtain ⟨own, rfl⟩ := List.append_eq_nil_iff.mp none.symm
      have empty : text = "" := String.toList_eq_nil_iff.mp (Utf8.encodeEmpty.mp own)
      rw [own] at long
      refine ⟨long ▸ rfl, by simpa using filled, empty, rfl, ?_⟩
      unfold Line.read at blank
      split at blank
      · rename_i last decoded
        refine ⟨last, Utf8.decodeSound decoded, ?_⟩
        rcases ofCharsCases last with ⟨closes, _⟩ | ⟨_, _, line⟩ | ⟨_, _, _, line⟩ | ⟨_, _, line⟩
        · exact closes
        all_goals
          rw [line] at blank
          cases blank
      · cases blank
    · cases taken
  · rintro ⟨rfl, some, rfl, rfl, last, rfl, closes⟩
    have filled : ¬ (encode last).isEmpty = true := by simpa using some
    unfold finishHead
    rw [if_neg filled, readEncode, ofCharsBlank closes]
    exact takeBodyText.mpr ⟨Nat.zero_le _, rfl, rfl⟩

theorem streamLines (stream : Octets) : ∃ (lines : List Octets) (last : Octets),
    0x0A ∉ last ∧ (∀ line ∈ lines, 0x0A ∉ line) ∧
      stream = (lines.flatMap fun line => line ++ [0x0A]) ++ last := by
  induction stream with
  | nil => exact ⟨[], [], by simp⟩
  | cons b stream ih =>
    obtain ⟨lines, last, unbrokenLast, unbroken, rfl⟩ := ih
    by_cases newline : b = 0x0A
    · exact ⟨[] :: lines, last, unbrokenLast, by simpa using unbroken, by simp [newline]⟩
    have other := Ne.symm newline
    cases lines with
    | nil => exact ⟨[], b :: last, by simp [other, unbrokenLast], nofun, rfl⟩
    | cons line lines =>
      rw [List.forall_mem_cons] at unbroken
      exact ⟨(b :: line) :: lines, last, unbrokenLast,
        List.forall_mem_cons.mpr ⟨by simp [other, unbroken.1], unbroken.2⟩, by simp⟩

theorem readDecoded {bytes : Octets} (fine : ∀ fault, Line.read bytes ≠ .error fault)
    (unbroken : 0x0A ∉ bytes) : ∃ line, bytes = encode line ∧ '\n' ∉ line := by
  cases decoded : Utf8.decode bytes with
  | error fault => exact absurd (by rw [Line.read, decoded]) (fine .header)
  | ok line =>
    obtain rfl := Utf8.decodeSound decoded
    exact ⟨line, rfl, mt Utf8.newlineEncode.mpr unbroken⟩

def Accepted (announced : Option Nat) (stream : Octets) (text : String) (rest : Octets) : Prop :=
  ∃ lines last n, Heads announced lines n ∧ (∀ line ∈ lines, '\n' ∉ line) ∧ '\n' ∉ last ∧ Blank last ∧
    (n ≤ limit ∧ (ofString text).length = n ∧
        stream = lined lines ++ (encode last ++ 0x0A :: (ofString text ++ rest)) ∨
      n = 0 ∧ last ≠ [] ∧ text = "" ∧ rest = [] ∧ stream = lined lines ++ encode last)

theorem acceptedCons {announced later : Option Nat} (unbroken : '\n' ∉ line)
    (heads : ∀ {lines n}, Heads later lines n → Heads announced (line :: lines) n)
    (more : Accepted later stream text rest) :
    Accepted announced (encode line ++ 0x0A :: stream) text rest := by
  obtain ⟨lines, last, n, inner, all, unbrokenLast, closes, form⟩ := more
  refine ⟨line :: lines, last, n, heads inner, List.forall_mem_cons.mpr ⟨unbroken, all⟩, unbrokenLast,
    closes, ?_⟩
  rcases form with ⟨small, long, rfl⟩ | ⟨zero, some, empty, none, rfl⟩
  · exact .inl ⟨small, long, (linedCons line lines _).symm⟩
  · exact .inr ⟨zero, some, empty, none, (linedCons line lines _).symm⟩

theorem acceptedRead (accepted : Accepted announced stream text rest) :
    readHead false announced [] stream = .body text rest := by
  obtain ⟨lines, last, n, heads, unbroken, unbrokenLast, closes, form⟩ := accepted
  rcases form with ⟨small, long, rfl⟩ | ⟨rfl, some, rfl, rfl, rfl⟩
  · rw [readHeads false heads unbroken, readHeadText false _ unbrokenLast, ofCharsBlank closes]
    exact takeBodyText.mpr ⟨small, long, rfl⟩
  · rw [readHeads false heads unbroken, readHeadLast _ (mt Utf8.newlineEncode.mp unbrokenLast)]
    exact finishHeadText.mpr ⟨rfl, mt Utf8.encodeEmpty.mp some, rfl, rfl, last, rfl, closes⟩

theorem readAccepted (taken : readHead false announced [] stream = .body text rest) :
    Accepted announced stream text rest := by
  obtain ⟨lines, tail, unbrokenTail, unbroken, rfl⟩ := streamLines stream
  -- over lines of octets: that a line is text is known only once the reader has taken it
  induction lines generalizing announced with
  | nil =>
    rw [List.flatMap_nil, List.nil_append] at taken ⊢
    rw [readHeadLast _ unbrokenTail] at taken
    obtain ⟨rfl, some, rfl, rfl, last, rfl, closes⟩ := finishHeadText.mp taken
    exact ⟨[], last, 0, .done, nofun, mt Utf8.newlineEncode.mpr unbrokenTail, closes,
      .inr ⟨rfl, mt Utf8.encodeEmpty.mpr some, rfl, rfl, rfl⟩⟩
  | cons bytes lines ih =>
    rw [List.forall_mem_cons] at unbroken
    rw [List.flatMap_cons, List.append_assoc, List.append_assoc, List.singleton_append] at taken ⊢
    rw [readHeadLine false _ unbroken.1] at taken
    have fine : ∀ fault, Line.read bytes ≠ .error fault := fun fault read => by
      rw [read] at taken
      cases taken
    obtain ⟨line, rfl, plain⟩ := readDecoded fine unbroken.1
    rw [readEncode] at taken
    rcases ofCharsCases line with ⟨blank, read⟩ | ⟨m, announces, read⟩ | ⟨_, _, fault, read⟩ |
      ⟨filled, anonymous, read⟩
    · rw [read] at taken
      cases announced with
      | none => exact acceptedCons plain (.blank blank) (ih unbroken.2 taken)
      | some n =>
        obtain ⟨small, long, form⟩ := takeBodyText.mp taken
        exact ⟨[], line, n, .done, nofun, plain, blank, .inl ⟨small, long, by rw [form]; rfl⟩⟩
    · rw [read] at taken
      exact acceptedCons plain (.length announces) (ih unbroken.2 taken)
    · rw [read] at taken
      cases taken
    · rw [read] at taken
      exact acceptedCons plain (.other filled anonymous) (ih unbroken.2 taken)

theorem acceptedFramed : Accepted none stream text rest ↔ Framed stream text rest := by
  constructor
  · rintro ⟨lines, last, n, heads, unbroken, unbrokenLast, closes, form⟩
    have head : Head lines last n := headHeads.mpr ⟨heads, closes, unbrokenLast, unbroken⟩
    rcases form with ⟨small, long, rfl⟩ | ⟨rfl, some, rfl, rfl, rfl⟩
    · exact .whole head small long
    · exact .atEnd head some
  · intro framed
    cases framed with
    | whole head small long =>
      obtain ⟨heads, closes, unbrokenLast, unbroken⟩ := headHeads.mp head
      exact ⟨_, _, _, heads, unbroken, unbrokenLast, closes, .inl ⟨small, long, rfl⟩⟩
    | atEnd head some =>
      obtain ⟨heads, closes, unbrokenLast, unbroken⟩ := headHeads.mp head
      exact ⟨_, _, _, heads, unbroken, unbrokenLast, closes, .inr ⟨rfl, some, rfl, rfl, rfl⟩⟩

theorem readFramed : read false stream = .body text rest ↔ Framed stream text rest :=
  ⟨fun taken => acceptedFramed.mp (readAccepted taken), fun framed => acceptedRead (acceptedFramed.mpr framed)⟩

def Outcome.followed (more : Octets) : Outcome → Outcome
  | .body text rest => .body text (rest ++ more)
  | outcome => outcome

variable {more : Octets}

theorem takeBodyMore (decided : takeBody true n stream ≠ .starved) :
    takeBody growing n (stream ++ more) = (takeBody true n stream).followed more := by
  by_cases large : limit < n
  · rw [takeBody, if_pos large, takeBody, if_pos large]
    rfl
  by_cases short : stream.length < n
  · refine absurd ?_ decided
    rw [takeBody, if_neg large, if_pos short, if_pos rfl]
  have long := Nat.le_of_not_lt short
  rw [takeBody, if_neg large, if_neg (by rw [List.length_append]; omega), takeBody, if_neg large, if_neg short,
    List.take_append_of_le_length long, List.drop_append_of_le_length long]
  split <;> rfl

theorem readHeadMore (decided : readHead true announced bytes stream ≠ .starved) :
    readHead growing announced bytes (stream ++ more) =
      (readHead true announced bytes stream).followed more := by
  induction stream generalizing announced bytes with
  | nil => exact absurd rfl decided
  | cons b stream ih =>
    rw [List.cons_append]
    unfold readHead at decided ⊢
    by_cases newline : b = 0x0A
    · simp only [newline, if_true] at decided ⊢
      split
      · rfl
      all_goals
        rename_i line
        rw [line] at decided
      · exact takeBodyMore decided
      · exact ih decided
      · exact ih decided
      · exact ih decided
    · rw [if_neg newline] at decided
      rw [if_neg newline, if_neg newline]
      exact ih decided

theorem readMore (decided : read true stream ≠ .starved) :
    read growing (stream ++ more) = (read true stream).followed more := readHeadMore decided

def readPieces (come : Octets) : List Octets → Outcome
  | [] => read false come
  | piece :: later =>
    match read true (come ++ piece) with
    | .starved => readPieces (come ++ piece) later
    | decided => decided.followed later.flatten

theorem readPiecesWhole (come : Octets) (pieces : List Octets) :
    readPieces come pieces = read false (come ++ pieces.flatten) := by
  induction pieces generalizing come with
  | nil => simp [readPieces]
  | cons piece later ih =>
    rw [List.flatten_cons, ← List.append_assoc]
    unfold readPieces
    split
    · exact ih (come ++ piece)
    · rename_i waits
      exact (readMore waits).symm

theorem grammar : (∀ stream text rest, read false stream = .body text rest ↔ Framed stream text rest) ∧
    ∀ come pieces, readPieces come pieces = read false (come ++ pieces.flatten) :=
  ⟨fun _ _ _ => readFramed, readPiecesWhole⟩

end LspClient.Frame
