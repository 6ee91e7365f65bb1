import ParticleSwarm.Point

/-!
# Sources of random words

All randomness comes as 64-bit words, one after the other.  A `WordSource` gives the next word
and what is left; `skip` drops words and `word` looks one up, so that a schedule of draws can be
stated for every source.  A `unitInterval` number and a fair `coin` take one word each.
-/

namespace ParticleSwarm

/-- A type whose values give one 64-bit word after the other. -/
class WordSource (γ : Type) where
  next : γ → UInt64 × γ

namespace WordSource

variable {γ : Type} [WordSource γ]

def skip : Nat → γ → γ
  | 0, g => g
  | n + 1, g => skip n (next g).2

/-- The word with index `n`, counted from zero. -/
def word (n : Nat) (g : γ) : UInt64 := (next (skip n g)).1

def draw : StateM γ UInt64 := next

@[simp] theorem skip_zero (g : γ) : skip 0 g = g := rfl

@[simp] theorem draw_apply (g : γ) : draw g = (word 0 g, skip 1 g) := rfl

theorem skip_succ (n : Nat) (g : γ) : skip (n + 1) g = skip n (next g).2 := rfl

theorem skip_add (m n : Nat) (g : γ) : skip (m + n) g = skip n (skip m g) := by
  induction m generalizing g with
  | zero => rw [Nat.zero_add, skip_zero]
  | succ m ih => rw [Nat.succ_add, skip_succ, skip_succ, ih]

/-- A word looked up after `m` words are gone lies `m` words further on. -/
theorem word_skip (m n : Nat) (g : γ) : word n (skip m g) = word (m + n) g := by
  rw [word, word, skip_add]

end WordSource

/-! ### Numbers and coins from words -/

/-- The upper 53 bits of a word as a fraction: a multiple of `2 ^ -53` in `[0, 1)`. -/
def unitInterval (w : UInt64) : Float := (w >>> 11).toFloat / 9007199254740992

def coin (w : UInt64) : Bool := w < 0x8000000000000000

/-- The upper 52 bits of a word as a fraction: a multiple of `2 ^ -52` in `[0, 1)`. -/
def unitSpan (w : UInt64) : Float := ((1 : Float) + (w >>> 12).toFloat / 4503599627370496) - 1

section Draws

variable {γ : Type} [WordSource γ]

def drawUnit : StateM γ Float := return unitInterval (← WordSource.draw)

@[simp] theorem drawUnit_apply (g : γ) :
    drawUnit g = (unitInterval (WordSource.word 0 g), WordSource.skip 1 g) := rfl

def drawCoin : StateM γ Bool := return coin (← WordSource.draw)

@[simp] theorem drawCoin_apply (g : γ) :
    drawCoin g = (coin (WordSource.word 0 g), WordSource.skip 1 g) := rfl

end Draws

def Point.ofAxesM {m : Type → Type} [Monad m] (f : Axis → m Float) : m Point := do
  let x ← f .x
  let y ← f .y
  return ⟨x, y⟩

end ParticleSwarm
