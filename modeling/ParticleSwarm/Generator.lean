import ParticleSwarm.Generator.Cipher
import ParticleSwarm.Generator.WordSource

/-!
# Generators

A generator is either seeded, and gives the words of the cipher stream block by block, or
scripted, and gives a list of words over and over.  It counts the words drawn from it.  The key of
a seeded generator comes from the seed: eight steps of a linear congruence, each giving a 32-bit
word by a shift of the state and a rotation that the top bits choose.
-/

namespace ParticleSwarm

namespace Cipher

/-- One step of the linear congruence that spreads a seed. -/
def nextSeed (s : UInt64) : UInt64 := s * 6364136223846793005 + 11634580027462260723

def seedWord (s : UInt64) : UInt32 :=
  let mixed := (((s >>> 18) ^^^ s) >>> 27).toUInt32
  let turn := (s >>> 59).toUInt32
  (mixed >>> turn) ||| (mixed <<< ((32 - turn) % 32))

def seedRow (s : UInt64) : Row × UInt64 :=
  let s₁ := nextSeed s
  let s₂ := nextSeed s₁
  let s₃ := nextSeed s₂
  let s₄ := nextSeed s₃
  (⟨seedWord s₁, seedWord s₂, seedWord s₃, seedWord s₄⟩, s₄)

def Key.ofSeed (seed : UInt64) : Key :=
  let (low, rest) := seedRow seed
  ⟨low, (seedRow rest).1⟩

end Cipher

/-- A place in the cipher stream of a key: the words left of the current block, and the number
    of the next one. -/
structure CipherStream where
  key : Cipher.Key
  pending : List UInt64
  nextBlock : UInt64
deriving DecidableEq, Repr

namespace CipherStream

def ofSeed (seed : UInt64) : CipherStream := ⟨.ofSeed seed, [], 0⟩

def next (s : CipherStream) : UInt64 × CipherStream :=
  match s.pending with
  | w :: rest => (w, { s with pending := rest })
  | [] =>
    let block := Cipher.blockWords s.key s.nextBlock
    (block.headD 0, { s with pending := block.tail, nextBlock := s.nextBlock + 1 })

end CipherStream

/-- A list of words given over and over: the words that are left, and all of them. -/
structure Script where
  left : List UInt64
  all : List UInt64
deriving DecidableEq, Repr

namespace Script

def ofWords (words : List UInt64) : Script := ⟨words, words⟩

/-- The next word of a script, from the beginning again at its end.  An empty script gives zeros. -/
def next (s : Script) : UInt64 × Script :=
  match s.left with
  | w :: rest => (w, { s with left := rest })
  | [] => (s.all.headD 0, { s with left := s.all.tail })

end Script

/-- Where the words of a generator come from. -/
inductive Generator.Origin where
  | seeded (stream : CipherStream)
  | scripted (script : Script)
deriving DecidableEq, Repr

/-- A generator and the number of words drawn from it. -/
structure Generator where
  origin : Generator.Origin
  drawn : Nat := 0
deriving DecidableEq, Repr

namespace Generator

def ofSeed (seed : UInt64) : Generator := { origin := .seeded (.ofSeed seed) }

def ofWords (words : List UInt64) : Generator := { origin := .scripted (.ofWords words) }

def next (g : Generator) : UInt64 × Generator :=
  match g.origin with
  | .seeded stream =>
    let (w, stream) := stream.next
    (w, ⟨.seeded stream, g.drawn + 1⟩)
  | .scripted script =>
    let (w, script) := script.next
    (w, ⟨.scripted script, g.drawn + 1⟩)

instance : WordSource Generator := ⟨next⟩

end Generator

end ParticleSwarm
