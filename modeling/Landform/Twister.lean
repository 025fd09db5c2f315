/-!
# Random numbers

The 32-bit generator with a state of 624 words and a period of `2 ^ 19937 - 1`. A seed is given as
an integer: the 32-bit words of its absolute value, the lowest first, are mixed into the state.
`below` draws a number under a bound by taking as many high bits as the bound has and rejecting
what is too great.
-/

namespace Landform

-- Powers are those of the core library, whatever other instances are around.
attribute [local instance (5000)] instPowNat

/-- The state of the generator: 624 words and the position of the next one to use. -/
structure Twister where
  words : Array UInt32
  position : Nat
deriving DecidableEq

namespace Twister

/-- The number of words of the state. -/
def size : Nat := 624

/-- A word of the state; positions wrap around. -/
def word (words : Array UInt32) (i : Nat) : UInt32 :=
  words.getD (i % size) 0

/-! ## Seeding -/

/-- The state that a single word gives. -/
def ofWord (seed : UInt32) : Array UInt32 :=
  (List.range (size - 1)).foldl (fun words i =>
    let last := word words i
    words.push ((1812433253 : UInt32) * (last ^^^ (last >>> 30)) + (i + 1).toUInt32)) #[seed]

/-- The 32-bit words of a natural number, the lowest first; zero has one word. -/
def keyWords (n : Nat) : Array UInt32 :=
  if n < 2 ^ (32 : Nat) then #[n.toUInt32]
  else #[(n % 2 ^ (32 : Nat)).toUInt32] ++ keyWords (n / 2 ^ (32 : Nat))
termination_by n
decreasing_by exact Nat.div_lt_self (by omega) (by decide)

/-- Where mixing stands: the state and the position of the next word to mix, from 1 to 624. -/
structure Mixing where
  words : Array UInt32
  position : Nat

/-- One step of mixing: the word at the position takes a new value that depends on the word before
it. After the last word the first becomes a copy of the last, and mixing goes on behind it. -/
def Mixing.step (m : Mixing) (factor : UInt32) (combine : UInt32 → UInt32) : Mixing :=
  let before := word m.words (m.position - 1)
  let mixed := combine (word m.words m.position ^^^ ((before ^^^ (before >>> 30)) * factor))
  let words := m.words.setIfInBounds m.position mixed
  if m.position + 1 < size then ⟨words, m.position + 1⟩
  else ⟨words.setIfInBounds 0 mixed, 1⟩

/-- The state that an integer seed gives. -/
def ofSeed (seed : Int) : Twister :=
  let key := keyWords seed.natAbs
  let rounds := max size key.size
  let first := (List.range rounds).foldl (fun m i =>
    let j := i % key.size
    m.step 1664525 (· + key.getD j 0 + j.toUInt32)) (⟨ofWord 19650218, 1⟩ : Mixing)
  let second := (List.range (size - 1)).foldl (fun m _ =>
    m.step 1566083941 (· - m.position.toUInt32)) first
  ⟨second.words.setIfInBounds 0 0x80000000, size⟩

/-! ## Drawing -/

/-- The next 624 words. -/
def regenerate (words : Array UInt32) : Array UInt32 :=
  (List.range size).foldl (fun words i =>
    let joined := (word words i &&& 0x80000000) ||| (word words (i + 1) &&& 0x7fffffff)
    let twist : UInt32 := if joined &&& 1 == 1 then 0x9908b0df else 0
    words.setIfInBounds i (word words (i + 397) ^^^ (joined >>> 1) ^^^ twist)) words

/-- Spreads the bits of a word over the whole word. -/
def temper (y : UInt32) : UInt32 :=
  let y := y ^^^ (y >>> 11)
  let y := y ^^^ ((y <<< 7) &&& 0x9d2c5680)
  let y := y ^^^ ((y <<< 15) &&& 0xefc60000)
  y ^^^ (y >>> 18)

/-- Draws a word. -/
def next (t : Twister) : UInt32 × Twister :=
  if t.position < size then (temper (word t.words t.position), { t with position := t.position + 1 })
  else
    let words := regenerate t.words
    (temper (word words 0), ⟨words, 1⟩)

/-- Draws words until one has its `bits` high bits under the bound, at most `tries` times. -/
def drawBelow (bound bits : Nat) : (tries : Nat) → Twister → Nat × Twister
  | 0, t => (0, t)
  | tries + 1, t =>
    let (w, t) := t.next
    let high := w.toNat >>> (32 - bits)
    if high < bound then (high, t) else drawBelow bound bits tries t

/-- Draws a number under a positive bound of at most 32 bits. A draw fails with a chance below one
half, so that the limit of a thousand draws is out of reach. -/
def below (bound : Nat) (t : Twister) : Nat × Twister :=
  drawBelow bound (bound.log2 + 1) 1000 t

end Twister

end Landform
