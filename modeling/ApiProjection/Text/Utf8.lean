import ApiProjection.Text.Quoted
/-!
# Reading UTF-8

`Utf8.decode` reads bytes as text or says at which bytes and why it cannot: a byte that starts
no character, a byte that continues none, or an end inside a character.
-/
namespace ApiProjection.Utf8

inductive Reason
  | start
  | continuation
  | ending
  deriving DecidableEq, Repr

/-- The bytes that are no text: the first of them, their number, the value of the first. -/
structure Fault where
  position : Nat
  length : Nat
  byte : UInt8
  reason : Reason
  deriving DecidableEq, Repr

/-- The number of bytes of the character that a byte starts, with the range of the byte after it
and the part of the code in the first byte. -/
def lead (b : Nat) : Option (Nat × Nat × Nat × Nat) :=
  if b < 0x80 then some (1, 0x80, 0xbf, b)
  else if b < 0xc2 then none
  else if b < 0xe0 then some (2, 0x80, 0xbf, b - 0xc0)
  else if b == 0xe0 then some (3, 0xa0, 0xbf, 0)
  else if b == 0xed then some (3, 0x80, 0x9f, 0xd)
  else if b < 0xf0 then some (3, 0x80, 0xbf, b - 0xe0)
  else if b == 0xf0 then some (4, 0x90, 0xbf, 0)
  else if b < 0xf4 then some (4, 0x80, 0xbf, b - 0xf0)
  else if b == 0xf4 then some (4, 0x80, 0x8f, 4)
  else none

/-- What a decoder is in the middle of: how many bytes it has read of a character and how many
it still needs, the range of the next one, and the code so far. -/
structure Pending where
  first : UInt8
  seen : Nat
  need : Nat
  lo : Nat
  hi : Nat
  code : Nat

/-- Reads on at the given position, in the middle of a character or between two. -/
def decodeFrom (position : Nat) : Option Pending → List UInt8 → Except Fault (List Char)
  | none, [] => .ok []
  | some p, [] => .error ⟨position - p.seen, p.seen, p.first, .ending⟩
  | none, b :: bs =>
    match lead b.toNat with
    | none => .error ⟨position, 1, b, .start⟩
    | some (1, _, _, code) => (decodeFrom (position + 1) none bs).map (Char.ofNat code :: ·)
    | some (n, lo, hi, code) => decodeFrom (position + 1) (some ⟨b, 1, n - 1, lo, hi, code⟩) bs
  | some p, b :: bs =>
    let n := b.toNat
    if n < p.lo || p.hi < n then .error ⟨position - p.seen, p.seen, p.first, .continuation⟩
    else
      let code := p.code * 0x40 + (n - 0x80)
      if p.need = 1 then (decodeFrom (position + 1) none bs).map (Char.ofNat code :: ·)
      else decodeFrom (position + 1)
        (some { p with seen := p.seen + 1, need := p.need - 1, lo := 0x80, hi := 0xbf, code }) bs

/-- The text that bytes are the UTF-8 of. -/
def decode (bs : List UInt8) : Except Fault String :=
  (decodeFrom 0 none bs).map String.ofList

/-- The bytes of a text. -/
def encode (s : String) : List UInt8 := s.toUTF8.toList

def Reason.text : Reason → String
  | .start => "invalid start byte"
  | .continuation => "invalid continuation byte"
  | .ending => "unexpected end of data"

/-- What is said about bytes that are no text. -/
def Fault.message (f : Fault) : String :=
  let place := if f.length = 1
    then s!"byte 0x{String.ofList (Text.hexDigits 2 f.byte.toNat)} in position {f.position}"
    else s!"bytes in position {f.position}-{f.position + f.length - 1}"
  s!"'utf-8' codec can't decode {place}: {f.reason.text}"

/-- What is said of the first byte alone when a value, not a file, holds the bytes. -/
def Fault.briefMessage (f : Fault) : String :=
  let byte := String.ofList (Text.hexDigits 2 f.byte.toNat)
  s!"'utf-8' codec can't decode byte 0x{byte} in position {f.position}: invalid utf-8"

end ApiProjection.Utf8
