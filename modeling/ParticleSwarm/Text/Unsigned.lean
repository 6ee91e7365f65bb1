/-!
# Reading 64-bit unsigned decimals

Digits with at most one plus sign in front.  The digits are read from left to right, and the
first thing that goes wrong is the cause of the refusal: a character that is no ASCII digit, or a
digit with which the number leaves 64 bits.  Leading zeros are harmless.
-/

namespace ParticleSwarm.Text

/-- Why a text is no 64-bit unsigned decimal. -/
inductive UnsignedError where
  | empty
  | invalidDigit
  | tooLarge
deriving DecidableEq, Repr

def UnsignedError.message : UnsignedError → String
  | .empty => "cannot parse integer from empty string"
  | .invalidDigit => "invalid digit found in string"
  | .tooLarge => "number too large to fit in target type"

def readDigits (value : UInt64) : List Char → Except UnsignedError UInt64
  | [] => .ok value
  | c :: rest =>
    if c.isDigit then
      let next := 10 * value.toNat + (c.toNat - '0'.toNat)
      if next < UInt64.size then readDigits (.ofNat next) rest else .error .tooLarge
    else .error .invalidDigit

/-- Reads a 64-bit unsigned decimal.  A plus sign alone is no number. -/
def readUnsigned (s : String) : Except UnsignedError UInt64 :=
  match s.toList with
  | [] => .error .empty
  | ['+'] => .error .invalidDigit
  | '+' :: digits => readDigits 0 digits
  | digits => readDigits 0 digits

end ParticleSwarm.Text
