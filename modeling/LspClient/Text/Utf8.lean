/-! UTF-8 as octets. A reader keeps one unfinished sequence and cuts the input into pieces:
scalar values, maximal malformed parts, and what the end of the input leaves unfinished.
Strict and lossy decoding are two views of the same pieces. -/
namespace LspClient.Utf8

abbrev Octets := List UInt8

def encode (cs : List Char) : Octets := cs.flatMap String.utf8EncodeChar

def ofString (s : String) : Octets := encode s.toList

def size (cs : List Char) : Nat := cs.foldl (fun n c => n + c.utf8Size) 0

inductive Piece where
  | scalar (c : Char)
  | malformed (length : Nat)
  | unfinished (length : Nat)
  deriving DecidableEq, Repr

/-- A sequence that is valid so far: octets seen, octets owed, the range of the next octet
and the payload bits read. -/
structure Partial where
  seen : Nat
  owed : Nat
  low : UInt8
  high : UInt8
  payload : Nat
  deriving DecidableEq, Repr

def begin (b : UInt8) : Piece ⊕ Partial :=
  let bits (mask : UInt8) : Nat := (b &&& mask).toNat
  if b < 0x80 then .inl (.scalar (Char.ofNat b.toNat))
  else if b < 0xC2 then .inl (.malformed 1)
  else if b < 0xE0 then .inr ⟨1, 1, 0x80, 0xBF, bits 0x1F⟩
  else if b = 0xE0 then .inr ⟨1, 2, 0xA0, 0xBF, bits 0x0F⟩
  else if b = 0xED then .inr ⟨1, 2, 0x80, 0x9F, bits 0x0F⟩
  else if b < 0xF0 then .inr ⟨1, 2, 0x80, 0xBF, bits 0x0F⟩
  else if b = 0xF0 then .inr ⟨1, 3, 0x90, 0xBF, bits 0x07⟩
  else if b < 0xF4 then .inr ⟨1, 3, 0x80, 0xBF, bits 0x07⟩
  else if b = 0xF4 then .inr ⟨1, 3, 0x80, 0x8F, bits 0x07⟩
  else .inl (.malformed 1)

structure Scan where
  pieces : List Piece
  under : Option Partial
  deriving DecidableEq, Repr

def start (pieces : List Piece) (b : UInt8) : Scan :=
  match begin b with
  | .inl piece => ⟨piece :: pieces, none⟩
  | .inr under => ⟨pieces, some under⟩

def Scan.feed (s : Scan) (b : UInt8) : Scan :=
  match s.under with
  | none => start s.pieces b
  | some p =>
    if p.low ≤ b ∧ b ≤ p.high then
      let payload := p.payload * 64 + (b &&& 0x3F).toNat
      if p.owed ≤ 1 then ⟨.scalar (Char.ofNat payload) :: s.pieces, none⟩
      else ⟨s.pieces, some ⟨p.seen + 1, p.owed - 1, 0x80, 0xBF, payload⟩⟩
    else start (.malformed p.seen :: s.pieces) b

def Scan.finish (s : Scan) : List Piece :=
  match s.under with
  | none => s.pieces.reverse
  | some p => (.unfinished p.seen :: s.pieces).reverse

def pieces (bytes : Octets) : List Piece := (bytes.foldl Scan.feed ⟨[], none⟩).finish

structure Fault where
  position : Nat
  length : Option Nat
  deriving DecidableEq, Repr

def Fault.message (f : Fault) : String :=
  match f.length with
  | some n => s!"invalid utf-8 sequence of {n} bytes from index {f.position}"
  | none => s!"incomplete utf-8 byte sequence from index {f.position}"

def decodePieces (before : List Char) : List Piece → Except Fault (List Char)
  | [] => .ok before.reverse
  | .scalar c :: rest => decodePieces (c :: before) rest
  | .malformed n :: _ => .error ⟨size before, some n⟩
  | .unfinished _ :: _ => .error ⟨size before, none⟩

def decode (bytes : Octets) : Except Fault (List Char) := decodePieces [] (pieces bytes)

def Piece.shown : Piece → Char
  | .scalar c => c
  | _ => '\uFFFD'

def lossy (bytes : Octets) : List Char := (pieces bytes).map Piece.shown

def toStringLossy (bytes : Octets) : String := String.ofList (lossy bytes)

end LspClient.Utf8
