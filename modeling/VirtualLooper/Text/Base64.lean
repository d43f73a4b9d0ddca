/-! # Base 64

In base 64 four digits stand for three bytes.  The text may end with a group of two or three digits,
filled up by padding, for one or two bytes.  `decode?` passes over characters that are neither
digits nor padding, and ends with the padding that fills up a group.
-/

namespace VirtualLooper.Text.Base64

def digit? (c : Char) : Option Nat :=
  if 'A' ≤ c && c ≤ 'Z' then some (c.toNat - 'A'.toNat)
  else if 'a' ≤ c && c ≤ 'z' then some (c.toNat - 'a'.toNat + 26)
  else if '0' ≤ c && c ≤ '9' then some (c.toNat - '0'.toNat + 52)
  else if c = '+' then some 62
  else if c = '/' then some 63
  else none

def groupSize : Nat := 4

/-- The bytes of a group: one less than it has digits.  Bits that fill no byte are dropped. -/
def bytes (group : List Nat) : List UInt8 :=
  let bits := (group ++ List.replicate (groupSize - group.length) 0).foldl (64 * · + ·) 0
  ([bits / 65536, bits / 256, bits].take (group.length - 1)).map Nat.toUInt8

/-- The bytes of a text, behind the digits of an unfinished group and so much padding for it.
Padding counts from the second digit of a group on, and a further digit takes it back. -/
def decodeFrom (group : List Nat) (padding : Nat) : List Char → Option (List UInt8)
  | [] => if group.isEmpty then some [] else none
  | c :: rest =>
    if c = '=' then
      if group.length < 2 then decodeFrom group padding rest
      else if groupSize ≤ group.length + padding + 1 then some (bytes group)
      else decodeFrom group (padding + 1) rest
    else
      match digit? c with
      | none => decodeFrom group padding rest
      | some d =>
        if group.length + 1 = groupSize then
          (decodeFrom [] 0 rest).map (bytes (group ++ [d]) ++ ·)
        else decodeFrom (group ++ [d]) 0 rest

/-- The bytes that a text stands for, unless it ends within a group. -/
def decode? (cs : List Char) : Option (List UInt8) := decodeFrom [] 0 cs

end VirtualLooper.Text.Base64
