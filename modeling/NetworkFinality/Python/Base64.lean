import NetworkFinality.Python.Text

/-!
# The base64 decoder

`urlsafeB64decode` is `base64.urlsafe_b64decode` of a string, without strict mode. It
skips every character outside the alphabet, takes both spellings of the last two
letters, stops at the pad that completes a group and ignores what follows, and
drops the bits of the last character that fill no byte.
-/

namespace NetworkFinality.Python

/-- The translation of `urlsafe_b64decode`: `-` and `_` become `+` and `/`. -/
def urlsafeDecodeTranslation (char : CodePoint) : CodePoint :=
  if char = .scalar '-' then .scalar '+'
  else if char = .scalar '_' then .scalar '/'
  else char

/-- `table_a2b_base64`: the value of a letter of the standard alphabet. -/
def tableA2bBase64 (char : CodePoint) : Option Nat :=
  if 65 ≤ char.code ∧ char.code ≤ 90 then some (char.code - 65)
  else if 97 ≤ char.code ∧ char.code ≤ 122 then some (char.code - 71)
  else if 48 ≤ char.code ∧ char.code ≤ 57 then some (char.code + 4)
  else if char = .scalar '+' then some 62
  else if char = .scalar '/' then some 63
  else none

/-- The loop of `binascii.a2b_base64`: `quadPos` counts the characters of the current
group, `leftchar` holds the bits not yet written, `pads` the pads since the last letter. -/
def a2bBase64 : Str → Nat → Nat → Nat → Except PyError Bytes
  | [], quadPos, _, _ => if quadPos = 0 then .ok [] else .error .valueError
  | char :: rest, quadPos, leftchar, pads =>
      if char = .scalar '=' then
        if 2 ≤ quadPos then
          -- The pad that completes a group ends the input.
          if 4 ≤ quadPos + (pads + 1) then .ok [] else a2bBase64 rest quadPos leftchar (pads + 1)
        else a2bBase64 rest quadPos leftchar pads
      else
        match tableA2bBase64 char with
        | none => a2bBase64 rest quadPos leftchar pads
        | some value =>
            match quadPos with
            | 0 => a2bBase64 rest 1 value 0
            | 1 => do
                let bytes ← a2bBase64 rest 2 (value % 16) 0
                return UInt8.ofNat (leftchar * 4 + value / 16) :: bytes
            | 2 => do
                let bytes ← a2bBase64 rest 3 (value % 4) 0
                return UInt8.ofNat (leftchar * 16 + value / 4) :: bytes
            | _ => do
                let bytes ← a2bBase64 rest 0 0 0
                return UInt8.ofNat (leftchar * 64 + value) :: bytes

/-- The text has an ASCII form. -/
def Str.Ascii (text : Str) : Prop := ∀ char ∈ text, char.code < 128

instance (text : Str) : Decidable text.Ascii :=
  inferInstanceAs (Decidable (∀ char ∈ text, char.code < 128))

/-- `base64.urlsafe_b64decode(text)`. A text that is not ASCII raises `ValueError`, and
`binascii.Error` is one as well. -/
def urlsafeB64decode (text : Str) : Except PyError Bytes :=
  if text.Ascii then a2bBase64 (text.map urlsafeDecodeTranslation) 0 0 0 else .error .valueError

end NetworkFinality.Python
