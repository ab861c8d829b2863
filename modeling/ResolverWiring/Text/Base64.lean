/-!
# `ResolverWiring.Text.Base64` — bytes written with 64 characters

Three bytes are written as four characters of six bits each; a shorter last group is filled up with
`=`. Reading skips characters that are not of the alphabet and stops at a complete filling.
-/

namespace ResolverWiring.Text.Base64

/-- The character for six bits. -/
def encodeSextet (n : Nat) : Char :=
  if n < 26 then Char.ofNat ('A'.toNat + n)
  else if n < 52 then Char.ofNat ('a'.toNat + (n - 26))
  else if n < 62 then Char.ofNat ('0'.toNat + (n - 52))
  else if n = 62 then '+' else '/'

/-- The six bits of a character of the alphabet. -/
def decodeSextet? (c : Char) : Option Nat :=
  if 'A' ≤ c && c ≤ 'Z' then some (c.toNat - 'A'.toNat)
  else if 'a' ≤ c && c ≤ 'z' then some (c.toNat - 'a'.toNat + 26)
  else if '0' ≤ c && c ≤ '9' then some (c.toNat - '0'.toNat + 52)
  else if c == '+' then some 62
  else if c == '/' then some 63
  else none

/-- Bytes as characters, without line breaks. -/
def encode : List UInt8 → List Char
  | a :: b :: c :: rest =>
    let n := a.toNat * 65536 + b.toNat * 256 + c.toNat
    encodeSextet (n / 262144) :: encodeSextet (n / 4096 % 64) :: encodeSextet (n / 64 % 64)
      :: encodeSextet (n % 64) :: encode rest
  | [a, b] =>
    let n := a.toNat * 1024 + b.toNat * 4
    [encodeSextet (n / 4096), encodeSextet (n / 64 % 64), encodeSextet (n % 64), '=']
  | [a] =>
    let n := a.toNat * 16
    [encodeSextet (n / 64), encodeSextet (n % 64), '=', '=']
  | [] => []

/-- A line holds this many bytes. -/
def bytesPerLine : Nat := 57

/-- Bytes as lines of characters, each ended by a line feed. -/
def encodeLines (bytes : List UInt8) : List Char :=
  if _h : bytes = [] then []
  else
    encode (bytes.take bytesPerLine) ++ '\n' :: encodeLines (bytes.drop bytesPerLine)
termination_by bytes.length
decreasing_by
  have : 0 < bytes.length := List.length_pos_iff.2 _h
  simp only [List.length_drop, bytesPerLine]
  omega

/-- Why characters denote no bytes. -/
inductive DecodeError where
  | incompleteFilling
  | loneCharacter (count : Nat)
deriving DecidableEq, Repr, Inhabited

/-- The wording of a decoding error. -/
def DecodeError.message : DecodeError → String
  | .incompleteFilling => "Incorrect padding"
  | .loneCharacter count =>
    "Invalid base64-encoded string: number of data characters (" ++ toString count
      ++ ") cannot be 1 more than a multiple of 4"

/-- Reads on when `position` characters of the current group have been read, with the bits `carry`
left over, `fillers` signs of filling directly in front, and the bytes `done` so far, last first. -/
def decodeFrom (position carry fillers : Nat) (done : List UInt8) :
    List Char → Except DecodeError (List UInt8)
  | [] =>
    if position = 0 then .ok done.reverse
    else if position = 1 then .error (.loneCharacter (done.length / 3 * 4 + 1))
    else .error .incompleteFilling
  | c :: cs =>
    if c == '=' then
      if 2 ≤ position then
        if 4 ≤ position + (fillers + 1) then .ok done.reverse
        else decodeFrom position carry (fillers + 1) done cs
      else decodeFrom position carry fillers done cs
    else match decodeSextet? c with
      | none => decodeFrom position carry fillers done cs
      | some n =>
        match position with
        | 0 => decodeFrom 1 n 0 done cs
        | 1 => decodeFrom 2 (n % 16) 0 (UInt8.ofNat (carry * 4 + n / 16) :: done) cs
        | 2 => decodeFrom 3 (n % 4) 0 (UInt8.ofNat (carry * 16 + n / 4) :: done) cs
        | _ => decodeFrom 0 0 0 (UInt8.ofNat (carry * 64 + n) :: done) cs

/-- The bytes that characters denote. -/
def decode (cs : List Char) : Except DecodeError (List UInt8) := decodeFrom 0 0 0 [] cs

end ResolverWiring.Text.Base64
