/-!
Base64 text, read leniently: characters outside the alphabet are passed over.
Four digits make three bytes. Padding counts only once two digits of a group
have come; the group that it completes ends the text, and a group that is left
incomplete makes the text unreadable.
-/

namespace PreferenceAccessors.Text.Base64

def digit? (c : Char) : Option Nat :=
  if 'A' ≤ c ∧ c ≤ 'Z' then some (c.toNat - 'A'.toNat)
  else if 'a' ≤ c ∧ c ≤ 'z' then some (c.toNat - 'a'.toNat + 26)
  else if '0' ≤ c ∧ c ≤ '9' then some (c.toNat - '0'.toNat + 52)
  else if c = '+' then some 62
  else if c = '/' then some 63
  else none

/-- The bytes from here on. The group that is being read has `count` digits, of which `bits`
are the bits that are in no byte yet, and `pads` paddings. -/
def bytes? (count bits pads : Nat) : List Char → Option (List UInt8)
  | [] => if count = 0 then some [] else none
  | c :: rest =>
    if c = '=' then
      if 2 ≤ count ∧ 4 ≤ count + pads + 1 then some []
      else bytes? count bits (if 2 ≤ count then pads + 1 else pads) rest
    else match digit? c with
      | none => bytes? count bits pads rest
      | some d =>
        let byte (n : Nat) : Option (List UInt8) → Option (List UInt8) :=
          Option.map (UInt8.ofNat n :: ·)
        match count with
        | 0 => bytes? 1 d 0 rest
        | 1 => byte (4 * bits + d / 16) (bytes? 2 (d % 16) 0 rest)
        | 2 => byte (16 * bits + d / 4) (bytes? 3 (d % 4) 0 rest)
        | _ => byte (64 * bits + d) (bytes? 0 0 0 rest)

def decode? (cs : List Char) : Option ByteArray :=
  (bytes? 0 0 0 cs).map fun bytes => ⟨bytes.toArray⟩

end PreferenceAccessors.Text.Base64
