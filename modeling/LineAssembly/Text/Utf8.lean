/-! # Text from UTF-8 bytes

Bytes that are not UTF-8 have a first malformed sequence: a lead byte and the continuation bytes that
were right so far. The lead bytes E0, ED, F0 and F4 restrict the byte that follows them, so overlong
forms, surrogates and values beyond U+10FFFF are malformed.
-/

set_option autoImplicit false

namespace LineAssembly.Text.Utf8

inductive Reason where
  | startByte
  | continuationByte
  | endOfData
deriving DecidableEq, Repr

def Reason.text : Reason → String
  | .startByte => "invalid start byte"
  | .continuationByte => "invalid continuation byte"
  | .endOfData => "unexpected end of data"

/-- A malformed sequence of `size` bytes at the offset `start`, opened by the byte `lead`. -/
structure Fault where
  start : Nat
  size : Nat
  lead : UInt8
  reason : Reason
deriving DecidableEq, Repr

/-- A sequence that is right so far: `missing` more bytes are due, the next between `low` and `high`. -/
structure Pending where
  start : Nat
  size : Nat
  lead : UInt8
  missing : Nat
  low : UInt8
  high : UInt8

namespace Pending

def fault (p : Pending) (reason : Reason) : Fault :=
  ⟨p.start, p.size, p.lead, reason⟩

/-- The sequence after one more byte; nothing is pending once it is complete. -/
def advance (p : Pending) : Option Pending :=
  if p.missing ≤ 1 then none
  else some { p with size := p.size + 1, missing := p.missing - 1, low := 0x80, high := 0xBF }

end Pending

/-- What a lead byte of two to four byte sequences asks for: the number of continuation bytes and the
bounds of the first of them. -/
def continuation? (lead : UInt8) : Option (Nat × UInt8 × UInt8) :=
  if lead < 0xC2 then none
  else if lead < 0xE0 then some (1, 0x80, 0xBF)
  else if lead = 0xE0 then some (2, 0xA0, 0xBF)
  else if lead = 0xED then some (2, 0x80, 0x9F)
  else if lead < 0xF0 then some (2, 0x80, 0xBF)
  else if lead = 0xF0 then some (3, 0x90, 0xBF)
  else if lead < 0xF4 then some (3, 0x80, 0xBF)
  else if lead = 0xF4 then some (3, 0x80, 0x8F)
  else none

/-- The first malformed sequence of the bytes from an offset on, with the sequence still open there. -/
def firstFault? (offset : Nat) : Option Pending → List UInt8 → Option Fault
  | none, [] => none
  | some p, [] => some (p.fault .endOfData)
  | none, byte :: rest =>
    if byte < 0x80 then firstFault? (offset + 1) none rest
    else match continuation? byte with
      | none => some ⟨offset, 1, byte, .startByte⟩
      | some (missing, low, high) =>
        firstFault? (offset + 1) (some ⟨offset, 1, byte, missing, low, high⟩) rest
  | some p, byte :: rest =>
    if p.low ≤ byte ∧ byte ≤ p.high then firstFault? (offset + 1) p.advance rest
    else some (p.fault .continuationByte)

def decode (bytes : ByteArray) : Except Fault String :=
  match String.fromUTF8? bytes with
  | some text => .ok text
  | none => .error ((firstFault? 0 none bytes.toList).getD ⟨0, 0, 0, .endOfData⟩)

theorem decode_toUTF8 (text : String) : decode text.toUTF8 = .ok text := by
  have h : String.fromUTF8? text.toUTF8 = some text := by
    simp [String.fromUTF8?, String.fromUTF8, String.toUTF8, text.isValidUTF8]
  rw [decode, h]

end LineAssembly.Text.Utf8
