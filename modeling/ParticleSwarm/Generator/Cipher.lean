/-!
# The stream cipher with twelve rounds

A state is four rows of four 32-bit words: a constant row, two rows of key, and a row with the
64-bit block number in its first two words and zeros behind.  A block is the state after twelve
rounds, added word by word to the state before.  Working on whole rows does the four columns of a
round at once; the diagonal round is a column round on rows shifted against each other.
-/

namespace ParticleSwarm.Cipher

/-- Four 32-bit words, on which operations work side by side. -/
structure Row where
  a : UInt32
  b : UInt32
  c : UInt32
  d : UInt32
deriving DecidableEq, Repr

namespace Row

def add (r s : Row) : Row := ⟨r.a + s.a, r.b + s.b, r.c + s.c, r.d + s.d⟩

def xor (r s : Row) : Row := ⟨r.a ^^^ s.a, r.b ^^^ s.b, r.c ^^^ s.c, r.d ^^^ s.d⟩

def rotate (n : UInt32) (r : Row) : Row :=
  let turn (w : UInt32) : UInt32 := (w <<< n) ||| (w >>> (32 - n))
  ⟨turn r.a, turn r.b, turn r.c, turn r.d⟩

def shift (r : Row) : Row := ⟨r.b, r.c, r.d, r.a⟩

/-- The words of a row in pairs, the low half of each 64-bit word first. -/
def words (r : Row) : List UInt64 :=
  [r.a.toUInt64 ||| (r.b.toUInt64 <<< 32), r.c.toUInt64 ||| (r.d.toUInt64 <<< 32)]

end Row

structure State where
  constants : Row
  keyLow : Row
  keyHigh : Row
  counter : Row
deriving DecidableEq, Repr

namespace State

def columnRound (s : State) : State :=
  let a := s.constants.add s.keyLow
  let d := (s.counter.xor a).rotate 16
  let c := s.keyHigh.add d
  let b := (s.keyLow.xor c).rotate 12
  let a := a.add b
  let d := (d.xor a).rotate 8
  let c := c.add d
  let b := (b.xor c).rotate 7
  ⟨a, b, c, d⟩

def doubleRound (s : State) : State :=
  let t := s.columnRound
  let u := columnRound ⟨t.constants, t.keyLow.shift, t.keyHigh.shift.shift,
    t.counter.shift.shift.shift⟩
  ⟨u.constants, u.keyLow.shift.shift.shift, u.keyHigh.shift.shift, u.counter.shift⟩

/-- The block of a state: the state after six double rounds, added to the state. -/
def block (s : State) : State :=
  let t := (List.range 6).foldl (fun t _ => t.doubleRound) s
  ⟨s.constants.add t.constants, s.keyLow.add t.keyLow, s.keyHigh.add t.keyHigh,
    s.counter.add t.counter⟩

def words (s : State) : List UInt64 :=
  s.constants.words ++ s.keyLow.words ++ s.keyHigh.words ++ s.counter.words

end State

/-- The key of the cipher, eight 32-bit words. -/
structure Key where
  low : Row
  high : Row
deriving DecidableEq, Repr

/-- The constant row, the letters of "expand 32-byte k". -/
def constants : Row := ⟨0x61707865, 0x3320646e, 0x79622d32, 0x6b206574⟩

def blockWords (key : Key) (number : UInt64) : List UInt64 :=
  (State.block ⟨constants, key.low, key.high,
    ⟨number.toUInt32, (number >>> 32).toUInt32, 0, 0⟩⟩).words

end ParticleSwarm.Cipher
