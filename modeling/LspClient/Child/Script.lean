import LspClient.Text.Utf8

/-! One-line scripts that print octets and exit with a code: words in quotes or bare, commands that
end with a semicolon, and the commands `printf`, `exit`, `cat`, `true` and `false`. -/
namespace LspClient.Script
open Utf8 (Octets)

inductive Quote where
  | bare
  | single
  | double
  deriving DecidableEq, Repr

structure Scan where
  commands : List (List (List Char))
  words : List (List Char)
  word : Option (List Char)
  quote : Quote
  escaped : Bool
  deriving DecidableEq, Repr

namespace Scan

def push (s : Scan) (c : Char) : Scan := {s with word := some (s.word.getD [] ++ [c])}

def endWord (s : Scan) : Scan := {s with words := s.words ++ s.word.toList, word := none}

def endCommand (s : Scan) : Scan :=
  let s := s.endWord
  {s with commands := if s.words.isEmpty then s.commands else s.commands ++ [s.words], words := []}

def hideable (c : Char) : Bool := c == '"' || c == '\\' || c == '$' || c == '\x60'

def feed (s : Scan) (c : Char) : Scan :=
  if s.escaped then
    let s := {s with escaped := false}
    if s.quote = .double ∧ !hideable c then (s.push '\\').push c else s.push c
  else match s.quote with
    | .single => if c = '\'' then {s with quote := .bare} else s.push c
    | .double =>
      if c = '"' then {s with quote := .bare}
      else if c = '\\' then {s with escaped := true}
      else s.push c
    | .bare =>
      if c = '\'' then {s with quote := .single, word := some (s.word.getD [])}
      else if c = '"' then {s with quote := .double, word := some (s.word.getD [])}
      else if c = '\\' then {s with escaped := true}
      else if c = ' ' ∨ c = '\t' then s.endWord
      else if c = ';' ∨ c = '\n' ∨ c = '&' then s.endCommand
      else s.push c

end Scan

def commands (text : String) : List (List (List Char)) :=
  (text.toList.foldl Scan.feed ⟨[], [], none, .bare, false⟩).endCommand.commands

def octal? (c : Char) : Option Nat :=
  if '0' ≤ c ∧ c ≤ '7' then some (c.toNat - '0'.toNat) else none

structure Octal where
  left : Nat
  value : Nat

inductive Mode where
  | plain
  | escape
  | octal (o : Octal)
  | percent

def shortOctet? (c : Char) : Option UInt8 :=
  if c = 'n' then some 10
  else if c = 'r' then some 13
  else if c = 't' then some 9
  else if c = 'a' then some 7
  else if c = 'b' then some 8
  else if c = 'f' then some 12
  else if c = 'v' then some 11
  else if c = 'e' then some 27
  else if c = '\\' then some 0x5C
  else none

def plainOctets (c : Char) : Octets × Mode :=
  if c = '\\' then ([], .escape)
  else if c = '%' then ([], .percent)
  else (String.utf8EncodeChar c, .plain)

def formatStep (mode : Mode) (c : Char) : Octets × Mode :=
  match mode with
  | .plain => plainOctets c
  | .escape =>
    match octal? c, shortOctet? c with
    | some d, _ => ([], .octal ⟨2, d⟩)
    | none, some b => ([b], .plain)
    | none, none => (0x5C :: String.utf8EncodeChar c, .plain)
  | .octal o =>
    match octal? c with
    | some d =>
      if o.left ≤ 1 then ([UInt8.ofNat (o.value * 8 + d)], .plain)
      else ([], .octal ⟨o.left - 1, o.value * 8 + d⟩)
    | none =>
      let (octets, mode) := plainOctets c
      (UInt8.ofNat o.value :: octets, mode)
  | .percent => (String.utf8EncodeChar c, .plain)

def format : Mode → List Char → Octets
  | .octal o, [] => [UInt8.ofNat o.value]
  | .escape, [] => [0x5C]
  | _, [] => []
  | mode, c :: cs =>
    let (octets, mode) := formatStep mode c
    octets ++ format mode cs

structure Effect where
  printed : Octets
  echoes : Bool
  code : Nat
  deriving DecidableEq, Repr

def codeOf (word : List Char) : Nat := ((String.ofList word).toNat?.getD 2) % 256

def run (e : Effect) : List (List (List Char)) → Effect
  | [] => e
  | command :: rest =>
    match command.map String.ofList, command with
    | "printf" :: _, [_, text] => run {e with printed := e.printed ++ format .plain text, code := 0} rest
    | ["exit"], _ => e
    | "exit" :: _, _ :: code :: _ => {e with code := codeOf code}
    | "cat" :: _, _ => run {e with echoes := true, code := 0} rest
    | ["true"], _ => run {e with code := 0} rest
    | ["false"], _ => run {e with code := 1} rest
    | _, _ => run {e with code := 127} rest

def effect (text : String) : Effect := run ⟨[], false, 0⟩ (commands text)

end LspClient.Script
