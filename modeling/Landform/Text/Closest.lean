/-!
# Closest names

How alike two texts are is measured by matching blocks: the longest common block, then the longest
blocks left of it and right of it, and so on. The ratio of a pair is twice the matched length over
the total length. `closest` lists the up to three candidates whose ratio with a word is at least
three fifths, the most alike first.

In a word of 200 characters or more, a character that makes up more than a hundredth of it, and at
least two of it, never starts a block; it only extends one.
-/

namespace Landform.Text

/-- The word that candidates are compared with, with the characters that start no block. -/
structure Pattern where
  word : Array Char
  common : List Char

/-- The characters of a word that start no block. -/
def commonIn (word : List Char) : List Char :=
  if word.length < 200 then []
  else word.eraseDups.filter fun c => word.length / 100 + 1 < word.count c

def Pattern.ofText (text : String) : Pattern :=
  ⟨text.toList.toArray, commonIn text.toList⟩

/-- A block that a candidate and a pattern have in common. -/
structure Block where
  start : Nat
  patternStart : Nat
  size : Nat
deriving Repr, DecidableEq

/-- The lengths of the common blocks that end at each place of the pattern, one character of the
candidate later. `before` holds the lengths so far, with those that end just before `low` at the
front; places outside the range from `low` to `high` have none. -/
def extendRuns (p : Pattern) (low high : Nat) (c : Char) (before : Array Nat) : Array Nat :=
  if p.common.contains c then Array.replicate before.size 0
  else
    (Array.range before.size).map fun j =>
      if low ≤ j && j < high && p.word.getD j 'x' == c then
        (if j = 0 then 0 else before.getD (j - 1) 0) + 1
      else 0

/-- The first longest block, among `best` and those that end at place `i` of the candidate. -/
def bestAt (i : Nat) (runs : Array Nat) (best : Block) : Block :=
  (List.range runs.size).foldl (fun best j =>
    let size := runs.getD j 0
    if best.size < size then ⟨i + 1 - size, j + 1 - size, size⟩ else best) best

/-- Extends a block to the left as far as the characters agree. -/
def extendLeft (a b : Array Char) (alow blow : Nat) : (steps : Nat) → Block → Block
  | 0, block => block
  | steps + 1, block =>
    if alow < block.start && blow < block.patternStart &&
        a.getD (block.start - 1) 'x' == b.getD (block.patternStart - 1) 'y' then
      extendLeft a b alow blow steps
        ⟨block.start - 1, block.patternStart - 1, block.size + 1⟩
    else block

/-- Extends a block to the right as far as the characters agree. -/
def extendRight (a b : Array Char) (ahigh bhigh : Nat) : (steps : Nat) → Block → Block
  | 0, block => block
  | steps + 1, block =>
    if block.start + block.size < ahigh && block.patternStart + block.size < bhigh &&
        a.getD (block.start + block.size) 'x' == b.getD (block.patternStart + block.size) 'y' then
      extendRight a b ahigh bhigh steps { block with size := block.size + 1 }
    else block

/-- The longest block of a range of the candidate and a range of the pattern; of several the first
in the candidate, then the first in the pattern. -/
def longestBlock (a : Array Char) (p : Pattern) (alow ahigh blow bhigh : Nat) : Block :=
  let scan := (List.range (ahigh - alow)).foldl (fun (state : Array Nat × Block) k =>
    let i := alow + k
    let runs := extendRuns p blow bhigh (a.getD i 'x') state.1
    (runs, bestAt i runs state.2)) (Array.replicate p.word.size 0, ⟨alow, blow, 0⟩)
  let left := extendLeft a p.word alow blow a.size scan.2
  extendRight a p.word ahigh bhigh a.size left

/-- The total length of the matching blocks of two ranges. The fuel bounds the number of nested
ranges by the length of the candidate. -/
def matchedLength (a : Array Char) (p : Pattern) :
    (fuel : Nat) → (alow ahigh blow bhigh : Nat) → Nat
  | 0, _, _, _, _ => 0
  | fuel + 1, alow, ahigh, blow, bhigh =>
    let block := longestBlock a p alow ahigh blow bhigh
    if block.size = 0 then 0
    else
      let left :=
        if alow < block.start && blow < block.patternStart then
          matchedLength a p fuel alow block.start blow block.patternStart
        else 0
      let aend := block.start + block.size
      let bend := block.patternStart + block.size
      let right :=
        if aend < ahigh && bend < bhigh then matchedLength a p fuel aend ahigh bend bhigh else 0
      left + block.size + right

/-- A candidate with its ratio, as a numerator and a denominator. -/
structure Likeness where
  name : String
  num : Nat
  den : Nat

/-- How alike a candidate is to a pattern. Two empty texts are wholly alike. -/
def likeness (p : Pattern) (name : String) : Likeness :=
  let a := name.toList.toArray
  let total := a.size + p.word.size
  if total = 0 then ⟨name, 1, 1⟩
  else ⟨name, 2 * matchedLength a p (a.size + 1) 0 a.size 0 p.word.size, total⟩

/-- Whether a ratio is at least three fifths. -/
def Likeness.isClose (l : Likeness) : Bool :=
  3 * l.den ≤ 5 * l.num

/-- Whether a likeness comes before another: by the greater ratio, then by the greater name. -/
def Likeness.before (l m : Likeness) : Bool :=
  let left := l.num * m.den
  let right := m.num * l.den
  right < left || (left == right && m.name ≤ l.name)

/-- The up to three candidates closest to a word. -/
def closest (word : String) (candidates : List String) : List String :=
  let p := Pattern.ofText word
  let close := (candidates.map (likeness p)).filter Likeness.isClose
  ((close.mergeSort Likeness.before).take 3).map (·.name)

end Landform.Text
