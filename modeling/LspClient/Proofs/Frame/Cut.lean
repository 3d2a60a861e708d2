import LspClient.Proofs.Frame.Written

/-! A row of written frames that is cut anywhere. The bodies that end before the cut are read and no others. The
reader misses octets only if the cut lies between the CR of a blank line and the end of the body behind it:
before that, what is left of the head announces nothing or is not closed. -/
namespace LspClient.Frame
open Utf8 (Octets encode ofString)

variable {texts : List String} {body : String} {cut part : Octets}

def row (texts : List String) : Octets := texts.flatMap fun body => ofString (write body)

def opening (body : String) : Octets := lined [lengthLine (ofString body).length] ++ encode ['\r']

theorem writeOpening (body : String) : ofString (write body) = opening body ++ 0x0A :: ofString body := by
  rw [writeOctets, opening, List.append_assoc]

theorem rowCons (body : String) (texts : List String) :
    row (body :: texts) = ofString (write body) ++ row texts := List.flatMap_cons

def ends (start : Nat) : List String → List (String × Nat)
  | [] => []
  | body :: texts =>
    let stop := start + (ofString (write body)).length
    (body, stop) :: ends stop texts

theorem endsLater (start : Nat) (texts : List String) : ∀ place ∈ ends start texts, start ≤ place.2 := by
  induction texts generalizing start with
  | nil => nofun
  | cons body texts ih =>
    refine List.forall_mem_cons.mpr ⟨Nat.le_add_right _ _, fun place member => ?_⟩
    exact Nat.le_trans (Nat.le_add_right _ _) (ih _ place member)

def Within (texts : List String) (cut : Octets) : Prop :=
  ∃ before body after, texts = before ++ body :: after ∧
    (row before ++ opening body).length ≤ cut.length ∧ cut.length < (row (before ++ [body])).length

theorem lineFault {octets : Octets} {fault : Fault} (read : Line.read octets = .error fault) :
    fault.isCut = false := by
  unfold Line.read at read
  split at read
  · rename_i line decoded
    rcases ofCharsCases line with ⟨_, own⟩ | ⟨_, _, own⟩ | ⟨name, _, _, _⟩ | ⟨_, _, own⟩
    · rw [own] at read; cases read
    · rw [own] at read; cases read
    · rw [ofCharsLength name] at read
      split at read
      · cases read
      · cases read
        rfl
    · rw [own] at read; cases read
  · cases read
    rfl

def Outcome.Halts (outcome : Outcome) : Prop :=
  outcome = .ended ∨ ∃ fault, outcome = .fault fault ∧ fault.isCut = false

theorem finishHeadHalts (line : Octets) : (finishHead none line).Halts := by
  unfold finishHead
  split
  · exact .inl rfl
  · split
    · exact .inr ⟨_, rfl, lineFault ‹_›⟩
    · rename_i impossible
      cases impossible
    · exact .inl rfl

theorem earlyHalts (early : part <+: lined [lengthLine (ofString body).length])
    (small : (ofString body).length ≤ limit) : (read false part).Halts := by
  have announces := lengthLineAnnounces small
  have unbroken := lengthLineUnbroken (ofString body).length
  rw [lined, List.flatMap_singleton] at early
  rcases List.prefix_concat_iff.mp early with rfl | short
  · rw [read, readHeadText false none unbroken, ofCharsAnnounces announces]
    exact .inl rfl
  · have plain : 0x0A ∉ part := fun member => unbroken (Utf8.newlineEncode.mp (short.subset member))
    rw [read, readHeadLast none plain]
    exact finishHeadHalts part

theorem takeBodyShort {n : Nat} (small : n ≤ limit) (short : part.length < n) :
    takeBody false n part = .fault .short := by
  rw [takeBody, if_neg (Nat.not_lt_of_le small), if_pos short]
  rfl

theorem lateShort (some : body ≠ "") (small : (ofString body).length ≤ limit)
    (late : part <+: 0x0A :: ofString body) (short : part.length < (0x0A :: ofString body).length) :
    read false (opening body ++ part) = .fault .short := by
  rw [opening, List.append_assoc, readLengthLine false small]
  cases part with
  | nil =>
    have filled : 0 < (ofString body).length := List.length_pos_iff.mpr fun none =>
      some (String.toList_eq_nil_iff.mp (Utf8.encodeEmpty.mp none))
    have closed : finishHead (Option.some (ofString body).length) (encode ['\r']) =
        takeBody false (ofString body).length [] := by
      unfold finishHead
      rw [if_neg (by decide), readEncode, ofCharsBlank Text.blankReturn]
    rw [List.append_nil, readHeadLast _ (by decide), closed]
    exact takeBodyShort small filled
  | cons b part =>
    obtain ⟨rfl, inside⟩ := List.cons_prefix_cons.mp late
    rw [List.length_cons, List.length_cons] at short
    rw [readHeadText false _ (by decide), ofCharsBlank Text.blankReturn]
    exact takeBodyShort small (Nat.lt_of_succ_lt_succ short)

theorem partRead (some : body ≠ "") (small : (ofString body).length ≤ limit)
    (inside : part <+: ofString (write body)) (short : part.length < (ofString (write body)).length) :
    part.length < (opening body).length ∧ (read false part).Halts ∨
      (opening body).length ≤ part.length ∧ read false part = .fault .short := by
  rw [writeOpening] at inside short
  have opened := List.prefix_append (opening body) (0x0A :: ofString body)
  rcases Nat.lt_or_ge part.length (opening body).length with early | late
  · have front := List.prefix_of_prefix_length_le inside opened (Nat.le_of_lt early)
    have returned : opening body = lined [lengthLine (ofString body).length] ++ [0x0D] := by
      rw [opening]
      congr 1
    rw [returned] at front
    rcases List.prefix_concat_iff.mp front with rfl | front
    · exact absurd early (by rw [returned]; exact Nat.lt_irrefl _)
    · exact .inl ⟨early, earlyHalts front small⟩
  · obtain ⟨later, rfl⟩ := List.prefix_of_prefix_length_le opened inside late
    rw [List.prefix_append_right_inj] at inside
    rw [List.length_append, List.length_append] at short
    exact .inr ⟨late, lateShort some small inside (by omega)⟩

theorem withinFirst (body : String) (texts : List String) (short : cut.length < (ofString (write body)).length) :
    Within (body :: texts) cut ↔ (opening body).length ≤ cut.length := by
  constructor
  · rintro ⟨before, found, after, split, late, _⟩
    cases before with
    | nil =>
      obtain ⟨rfl, -⟩ := List.cons.inj split
      exact late
    | cons first before =>
      obtain ⟨rfl, -⟩ := List.cons.inj split
      rw [rowCons, List.length_append, List.length_append] at late
      omega
  · intro late
    exact ⟨[], body, texts, rfl, late, by simpa [row] using short⟩

theorem withinLater (body : String) (texts : List String) (cut : Octets) :
    Within (body :: texts) (ofString (write body) ++ cut) ↔ Within texts cut := by
  constructor
  · rintro ⟨before, found, after, split, late, short⟩
    cases before with
    | nil =>
      obtain ⟨rfl, -⟩ := List.cons.inj split
      rw [List.nil_append, row, List.flatMap_singleton, List.length_append] at short
      omega
    | cons first before =>
      obtain ⟨rfl, rest⟩ := List.cons.inj split
      refine ⟨before, found, after, rest, ?_, ?_⟩
      · simp only [rowCons, List.length_append] at late ⊢
        omega
      · simp only [List.cons_append, rowCons, List.length_append] at short
        omega
  · rintro ⟨before, found, after, rfl, late, short⟩
    refine ⟨body :: before, found, after, rfl, ?_, ?_⟩
    · simp only [rowCons, List.length_append] at late ⊢
      omega
    · simp only [List.cons_append, rowCons, List.length_append]
      omega

structure CutShort (texts : List String) (cut : Octets) (start : Nat) (read : List String × Option Fault) : Prop where
  whole : read.1 = ((ends start texts).filter fun place => place.2 ≤ start + cut.length).map Prod.fst
  short : read.2.any Fault.isCut = true ↔ Within texts cut

theorem cutInside (some : body ≠ "") (small : (ofString body).length ≤ limit) (inside : cut <+: ofString (write body))
    (before : cut.length < (ofString (write body)).length) (start bound : Nat) :
    CutShort (body :: texts) cut start (readAll (bound + 1) cut) := by
  have none : ((ends start (body :: texts)).filter fun place => place.2 ≤ start + cut.length).map Prod.fst = [] := by
    rw [List.map_eq_nil_iff, List.filter_eq_nil_iff]
    intro place member reached
    have reached : place.2 ≤ start + cut.length := of_decide_eq_true reached
    rcases List.mem_cons.mp member with rfl | later
    · dsimp only at reached
      omega
    · have behind := endsLater _ texts place later
      omega
  rcases partRead some small inside before with ⟨early, ended | ⟨fault, failed, whole⟩⟩ | ⟨late, read⟩
  · have outside := mt (withinFirst body texts before).mp (Nat.not_le_of_lt early)
    rw [readAll, ended]
    exact ⟨none.symm, iff_of_false Bool.false_ne_true outside⟩
  · have outside := mt (withinFirst body texts before).mp (Nat.not_le_of_lt early)
    rw [readAll, failed]
    exact ⟨none.symm, iff_of_false (by simp [whole]) outside⟩
  · rw [readAll, read]
    exact ⟨none.symm, iff_of_true rfl ((withinFirst body texts before).mpr late)⟩

theorem cutBehind (small : (ofString body).length ≤ limit) {start bound : Nat}
    (rest : CutShort texts cut (start + (ofString (write body)).length) (readAll bound cut)) :
    CutShort (body :: texts) (ofString (write body) ++ cut) start
      (readAll (bound + 1) (ofString (write body) ++ cut)) := by
  rw [readAll, readWritten small]
  constructor
  · have own : start + (ofString (write body)).length ≤ start + (ofString (write body) ++ cut).length := by
      rw [List.length_append]
      omega
    dsimp only
    rw [ends, List.filter_cons_of_pos (by exact decide_eq_true own), List.map_cons, rest.whole, List.length_append,
      Nat.add_assoc]
  · exact rest.short.trans (withinLater body texts cut).symm

theorem readAllCut (some : ∀ body ∈ texts, body ≠ "") (small : ∀ body ∈ texts, (ofString body).length ≤ limit)
    (part : cut <+: row texts) {bound : Nat} (enough : cut.length < bound) (start : Nat) :
    CutShort texts cut start (readAll bound cut) := by
  induction texts generalizing cut bound start with
  | nil =>
    obtain rfl : cut = [] := List.prefix_nil.mp part
    cases bound with
    | zero => cases enough
    | succ bound => exact ⟨rfl, iff_of_false nofun fun ⟨before, _, _, split, _⟩ => by simp at split⟩
  | cons body texts ih =>
    rw [List.forall_mem_cons] at some small
    rw [rowCons] at part
    have first := List.prefix_append (ofString (write body)) (row texts)
    cases bound with
    | zero => cases enough
    | succ bound =>
      rcases Nat.lt_or_ge cut.length (ofString (write body)).length with before | behind
      · have inside := List.prefix_of_prefix_length_le part first (Nat.le_of_lt before)
        exact cutInside some.1 small.1 inside before start bound
      · obtain ⟨later, rfl⟩ := List.prefix_of_prefix_length_le first part behind
        have short : (ofString (write body)).length ≠ 0 := by
          rw [writeOpening, List.length_append, List.length_cons]
          omega
        rw [List.prefix_append_right_inj] at part
        rw [List.length_append] at enough
        exact cutBehind small.1 (ih some.2 small.2 part (by omega) _)

/-- The bodies that are read of a cut row are those whose last octet lies before the cut, in their order. The
reading ends for want of octets exactly if the cut lies within a frame. -/
theorem cutWhole (texts : List String) (some : ∀ body ∈ texts, body ≠ "")
    (small : ∀ body ∈ texts, (ofString body).length ≤ limit) (cut : Octets) (part : cut <+: row texts) :
    (bodies cut).1 = ((ends 0 texts).filter fun place => place.2 ≤ cut.length).map Prod.fst ∧
      ((bodies cut).2.any Fault.isCut = true ↔ Within texts cut) := by
  have read : CutShort texts cut 0 (bodies cut) := readAllCut some small part (Nat.lt_succ_self _) 0
  exact ⟨by simpa only [Nat.zero_add] using read.whole, read.short⟩

theorem letterCut : (row ["a", "é"]).take 44 <+: row ["a", "é"] ∧
    (bodies ((row ["a", "é"]).take 44)).1 = ["a"] ∧
    (bodies ((row ["a", "é"]).take 44)).2.any Fault.isCut = true := by
  have part := List.take_prefix 44 (row ["a", "é"])
  obtain ⟨whole, short⟩ := cutWhole ["a", "é"] (by decide) (by decide) _ part
  refine ⟨part, whole.trans (by decide), short.mpr ⟨["a"], "é", [], rfl, ?_⟩⟩
  decide

end LspClient.Frame
