import LspClient.Text.Utf8
import LspClient.Text.Blank
import LspClient.Decimal.Natural

/-! Frames on a byte stream: header lines, a blank line, and a body whose length in octets one of
the header lines announces. `write` gives the plain form; `read` takes one frame off a stream that
has ended or may still grow. -/
namespace LspClient.Frame
open Utf8 (Octets)

def lengthName : List Char := ['c', 'o', 'n', 't', 'e', 'n', 't', '-', 'l', 'e', 'n', 'g', 't', 'h', ':']

def limit : Nat := 64 * 1024 * 1024

def writeChars (body : List Char) : List Char :=
  "Content-Length: ".toList ++ Nat.toDigits 10 (Utf8.size body) ++ ['\r', '\n', '\r', '\n'] ++ body

def write (body : String) : String := String.ofList (writeChars body.toList)

inductive Fault where
  | header
  | length (announced : String)
  | tooLong (announced : Nat)
  | short
  | body (fault : Utf8.Fault)
  deriving DecidableEq, Repr

def Fault.isCut : Fault → Bool
  | .short => true
  | _ => false

def Fault.message : Fault → String
  | .header => "stream did not contain valid UTF-8"
  | .length announced => s!"Invalid Content-Length: {announced}"
  | .tooLong n => s!"Content-Length {n} exceeds the {limit} byte limit"
  | .short => "failed to fill whole buffer"
  | .body fault => fault.message

inductive Line where
  | blank
  | length (n : Nat)
  | other
  deriving DecidableEq, Repr

def Line.ofChars (line : List Char) : Except Fault Line :=
  let line := Text.trimEnd line
  if line.isEmpty then .ok .blank
  else if Text.lower (line.take lengthName.length) = lengthName then
    let announced := Text.trim (line.drop lengthName.length)
    match Decimal.nat64? announced with
    | some n => .ok (.length n)
    | none => .error (.length (String.ofList announced))
  else .ok .other

def Line.read (octets : Octets) : Except Fault Line :=
  match Utf8.decode octets with
  | .ok line => Line.ofChars line
  | .error _ => .error .header

inductive Outcome where
  | body (text : String) (rest : Octets)
  | ended
  | fault (f : Fault)
  | starved
  deriving DecidableEq, Repr

def takeBody (growing : Bool) (n : Nat) (stream : Octets) : Outcome :=
  if limit < n then .fault (.tooLong n)
  else if stream.length < n then if growing then .starved else .fault .short
  else match Utf8.decode (stream.take n) with
    | .ok text => .body (String.ofList text) (stream.drop n)
    | .error fault => .fault (.body fault)

def finishHead (announced : Option Nat) (line : Octets) : Outcome :=
  if line.isEmpty then .ended
  else match Line.read line, announced with
    | .error fault, _ => .fault fault
    | .ok .blank, some n => takeBody false n []
    | .ok _, _ => .ended

/-- Header lines, the current one backwards in `line`. The last length announced counts; blank
lines before any length are skipped. -/
def readHead (growing : Bool) (announced : Option Nat) (line : Octets) : Octets → Outcome
  | [] => if growing then .starved else finishHead announced line.reverse
  | b :: rest =>
    if b = 0x0A then
      match Line.read line.reverse, announced with
      | .error fault, _ => .fault fault
      | .ok .blank, some n => takeBody growing n rest
      | .ok .blank, none => readHead growing none [] rest
      | .ok (.length n), _ => readHead growing (some n) [] rest
      | .ok .other, _ => readHead growing announced [] rest
    else readHead growing announced (b :: line) rest

def read (growing : Bool) (stream : Octets) : Outcome := readHead growing none [] stream

def readAll : Nat → Octets → List String × Option Fault
  | 0, _ => ([], none)
  | bound + 1, stream =>
    match read false stream with
    | .body text rest =>
      let (bodies, fault) := readAll bound rest
      (text :: bodies, fault)
    | .fault f => ([], some f)
    | .ended | .starved => ([], none)

def bodies (stream : Octets) : List String × Option Fault := readAll (stream.length + 1) stream

end LspClient.Frame
