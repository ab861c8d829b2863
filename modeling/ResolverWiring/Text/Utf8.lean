import ResolverWiring.Text.Hex
import ResolverWiring.Text.Lines

/-!
# `ResolverWiring.Text.Utf8` — texts as bytes

`decode` reads bytes as UTF-8. Bytes that are not UTF-8 are reported with the first byte at fault, its
position and the reason; `fault?` finds them, and where it finds none the bytes are a text.
-/

namespace ResolverWiring.Text.Utf8

/-- Why a byte cannot be read. -/
inductive Reason where
  | invalidStart
  | invalidContinuation
  | unexpectedEnd
deriving DecidableEq, Repr, Inhabited

/-- The wording of a reason. -/
def Reason.message : Reason → String
  | .invalidStart => "invalid start byte"
  | .invalidContinuation => "invalid continuation byte"
  | .unexpectedEnd => "unexpected end of data"

/-- The first sequence of bytes that is not UTF-8: its position, how many bytes of it can be told to
belong together, the first of them, and the reason. -/
structure Fault where
  position : Nat
  length : Nat
  byte : UInt8
  reason : Reason
deriving DecidableEq, Repr, Inhabited

/-- The wording of a fault. -/
def Fault.message (f : Fault) : String :=
  "'utf-8' codec can't decode " ++
    (if f.length = 1 then
      "byte 0x" ++ String.ofList (lowerHex 2 f.byte.toNat) ++ " in position " ++ toString f.position
    else
      "bytes in position " ++ toString f.position ++ "-" ++ toString (f.position + f.length - 1))
    ++ ": " ++ f.reason.message

/-- How many bytes follow a first byte, and the range of the first of these; `none` for a byte that
starts no character. -/
def following? (b : UInt8) : Option (Nat × UInt8 × UInt8) :=
  if b < 0x80 then some (0, 0x80, 0xBF)
  else if b < 0xC2 then none
  else if b < 0xE0 then some (1, 0x80, 0xBF)
  else if b = 0xE0 then some (2, 0xA0, 0xBF)
  else if b = 0xED then some (2, 0x80, 0x9F)
  else if b < 0xF0 then some (2, 0x80, 0xBF)
  else if b = 0xF0 then some (3, 0x90, 0xBF)
  else if b < 0xF4 then some (3, 0x80, 0xBF)
  else if b = 0xF4 then some (3, 0x80, 0x8F)
  else none

/-- How many of the next `count` bytes continue a character, the first of them in the range given,
and why there are not more of them, if there are not. -/
def continuation (count : Nat) (low high : UInt8) (bytes : List UInt8) : Nat × Option Reason :=
  match count, bytes with
  | 0, _ => (0, none)
  | _, [] => (0, some .unexpectedEnd)
  | n + 1, b :: rest =>
    if low ≤ b && b ≤ high then
      let (k, reason?) := continuation n 0x80 0xBF rest
      (k + 1, reason?)
    else (0, some .invalidContinuation)

/-- The first fault in bytes that start at a position. -/
def faultFrom? (position : Nat) : List UInt8 → Option Fault
  | [] => none
  | b :: rest =>
    match following? b with
    | none => some ⟨position, 1, b, .invalidStart⟩
    | some (count, low, high) =>
      match continuation count low high rest with
      | (k, some reason) => some ⟨position, k + 1, b, reason⟩
      | (k, none) => faultFrom? (position + k + 1) (rest.drop k)
termination_by bytes => bytes.length
decreasing_by
  simp only [List.length_drop, List.length_cons]
  omega

/-- The first fault in bytes. -/
def fault? (bytes : ByteArray) : Option Fault := faultFrom? 0 bytes.toList

/-- The text that bytes denote. -/
def decode (bytes : ByteArray) : Except Fault String :=
  match String.fromUTF8? bytes with
  | some text => .ok text
  | none => .error ((fault? bytes).getD ⟨0, 1, 0, .invalidStart⟩)

/-- The text that bytes denote, with every line end as one line feed. -/
def decodeLines (bytes : ByteArray) : Except Fault String :=
  (decode bytes).map fun text => String.ofList (normalizeLineEnds text.toList)

end ResolverWiring.Text.Utf8
