import Landform.Lua.Expr

/-!
# The grammar of Lua expressions

An expression is read token by token. What has been opened and not yet finished waits on a stack:
parentheses, calls, signs, and operators with their left operands. Before an operator is taken, the
waiting ones that bind at least as tightly on their right as it does on its left are finished; this
is precedence climbing with the recursion written out as a stack. A tree fits when its operands bind
as tightly as their places ask for. The tokens of a tree that fits are read as that tree, and
nothing else is read, so that trees that fit are told apart by their tokens.

1. `Token`, `Tree`, `Binary`: tokens, trees and priorities.
2. `Progress.next`, `treeOf?`: reading.
3. `Tree.Fits`, `treeOf?_tokens`: trees that are read back.
4. `Follows`, `treeOf?_eq_some`: what reading accepts.
-/

namespace Landform.Lua

/-! ## 1. Tokens and trees -/

/-- The tokens of number expressions. -/
inductive Token where
  | numeral (text : String)
  | word (text : String)
  | sign (c : Char)
deriving Repr, DecidableEq

/-- The operators with two operands. -/
inductive Binary where
  | arithmetic (operator : Operator)
  | power
deriving Repr, DecidableEq

namespace Binary

/-- The operator that a sign stands for. -/
def ofSign? : Char → Option Binary
  | '+' => some (arithmetic .add)
  | '-' => some (arithmetic .subtract)
  | '*' => some (arithmetic .multiply)
  | '/' => some (arithmetic .divide)
  | '^' => some power
  | _ => none

/-- The sign of an operator. -/
def sign : Binary → Char
  | arithmetic .add => '+'
  | arithmetic .subtract => '-'
  | arithmetic .multiply => '*'
  | arithmetic .divide => '/'
  | power => '^'

/-- How tightly an operator binds on its left. -/
def left : Binary → Nat
  | arithmetic .add | arithmetic .subtract => 6
  | arithmetic .multiply | arithmetic .divide => 7
  | power => 10

/-- How tightly an operator binds on its right. A power groups to the right. -/
def right : Binary → Nat
  | arithmetic .add | arithmetic .subtract => 6
  | arithmetic .multiply | arithmetic .divide => 7
  | power => 9

theorem ofSign?_sign (b : Binary) : ofSign? b.sign = some b := by
  rcases b with (_ | _ | _ | _) | _ <;> rfl

theorem right_le_left (b : Binary) : b.right ≤ b.left := by
  rcases b with (_ | _ | _ | _) | _ <;> decide

end Binary

/-- How tightly the minus sign before an operand binds. -/
def signPriority : Nat := 8

/-- More than any priority. -/
def topPriority : Nat := 11

/-- The trees of number expressions. -/
inductive Tree where
  | numeral (text : String)
  | name (word : String)
  | field (base : Tree) (word : String)
  | call (function : Tree) (arguments : List Tree)
  | group (inner : Tree)
  | negate (inner : Tree)
  | binary (operator : Binary) (left right : Tree)
deriving Repr

mutual

/-- The tokens of a tree. -/
def Tree.tokens : Tree → List Token
  | .numeral text => [.numeral text]
  | .name word => [.word word]
  | .field base word => base.tokens ++ [.sign '.', .word word]
  | .call function arguments => function.tokens ++ .sign '(' :: (tokensAll arguments ++ [.sign ')'])
  | .group inner => .sign '(' :: (inner.tokens ++ [.sign ')'])
  | .negate inner => .sign '-' :: inner.tokens
  | .binary operator left right => left.tokens ++ .sign operator.sign :: right.tokens

/-- The tokens of trees between commas. -/
def tokensAll : List Tree → List Token
  | [] => []
  | [t] => t.tokens
  | t :: rest => t.tokens ++ .sign ',' :: tokensAll rest

end

/-- A field and a call can follow a name, a field, a call and a parenthesis only. -/
def Tree.takesSuffix : Tree → Bool
  | name _ | field _ _ | call _ _ | group _ => true
  | numeral _ | negate _ | binary _ _ _ => false

/-! ## 2. Reading -/

/-- What waits for an operand. -/
inductive Frame where
  | group
  /-- A call with the arguments that have been read. -/
  | call (function : Tree) (arguments : List Tree)
  | negate
  | binary (operator : Binary) (left : Tree)

/-- An operand, and what waits for it, the innermost first. -/
structure Stack where
  frames : List Frame
  top : Tree

/-- How far the reading has come. -/
inductive Progress where
  /-- An operand has to follow. -/
  | operand (frames : List Frame)
  /-- An operand has been read, which an operator, a suffix or a closing sign can follow. -/
  | after (stack : Stack)
  /-- A point has been read, and the name of a field has to follow. -/
  | point (stack : Stack)

/-- Finishes the operators that bind at least as tightly as a priority on their right. -/
def close (priority : Nat) : List Frame → Tree → Stack
  | .binary operator left :: frames, t =>
    if priority ≤ operator.right then close priority frames (.binary operator left t)
    else ⟨.binary operator left :: frames, t⟩
  | .negate :: frames, t =>
    if priority ≤ signPriority then close priority frames (.negate t) else ⟨.negate :: frames, t⟩
  | frames, t => ⟨frames, t⟩

/-- Finishes what waits for the operand of a stack. -/
def Stack.close (s : Stack) (priority : Nat) : Stack :=
  Lua.close priority s.frames s.top

/-- What a sign does behind an operand. -/
def Stack.next (s : Stack) : Char → Option Progress
  | '.' => if s.top.takesSuffix then some (.point s) else none
  | '(' => if s.top.takesSuffix then some (.operand (.call s.top [] :: s.frames)) else none
  | ')' =>
    match s.close 0 with
    | ⟨.group :: frames, t⟩ => some (.after ⟨frames, .group t⟩)
    | ⟨.call function arguments :: frames, t⟩ =>
      some (.after ⟨frames, .call function (arguments ++ [t])⟩)
    | _ => none
  | ',' =>
    match s.close 0 with
    | ⟨.call function arguments :: frames, t⟩ =>
      some (.operand (.call function (arguments ++ [t]) :: frames))
    | _ => none
  | c => do
    let operator ← Binary.ofSign? c
    let s := s.close operator.left
    return .operand (.binary operator s.top :: s.frames)

/-- Reads a token. -/
def Progress.next : Progress → Token → Option Progress
  | operand frames, .numeral text => some (after ⟨frames, .numeral text⟩)
  | operand frames, .word word => some (after ⟨frames, .name word⟩)
  | operand frames, .sign '(' => some (operand (.group :: frames))
  | operand frames, .sign '-' => some (operand (.negate :: frames))
  | operand (.call function [] :: frames), .sign ')' => some (after ⟨frames, .call function []⟩)
  | after s, .sign c => s.next c
  | point s, .word word => some (after ⟨s.frames, .field s.top word⟩)
  | _, _ => none

/-- Reads tokens one after the other. -/
def Progress.read (p : Progress) (tokens : List Token) : Option Progress :=
  tokens.foldlM next p

/-- The tree that has been read when nothing waits any more. -/
def Progress.tree? : Progress → Option Tree
  | after s =>
    match s.close 0 with
    | ⟨[], t⟩ => some t
    | _ => none
  | _ => none

/-- The tree of tokens that are one expression. -/
def treeOf? (tokens : List Token) : Option Tree := do
  (← (Progress.operand []).read tokens).tree?

theorem Progress.read_append (p : Progress) (first second : List Token) :
    p.read (first ++ second) = (p.read first).bind (·.read second) :=
  List.foldlM_append

theorem Progress.read_cons {p q : Progress} {token : Token} (step : p.next token = some q)
    (rest : List Token) : p.read (token :: rest) = q.read rest := by
  rw [read, List.foldlM_cons, step]
  rfl

/-! ## 3. Trees that are read back -/

/-- How tightly the outermost operator binds on its left. -/
def Tree.opening : Tree → Nat
  | binary operator _ _ => operator.left
  | _ => topPriority

/-- How tightly the operators at the end of a tree bind on their right. -/
def Tree.closing : Tree → Nat
  | binary operator _ right => min operator.right right.closing
  | negate inner => min signPriority inner.closing
  | _ => topPriority

mutual

/-- Every operand binds tightly enough to stay one: a left operand ends in nothing that takes the
operator away, and the operator of a right operand comes before those that wait. -/
def Tree.Fits : Tree → Prop
  | .numeral _ | .name _ => True
  | .field base _ => base.Fits ∧ base.takesSuffix = true
  | .call function arguments =>
    function.Fits ∧ function.takesSuffix = true ∧ FitsAll arguments
  | .group inner => inner.Fits
  | .negate inner => inner.Fits ∧ signPriority < inner.opening
  | .binary operator left right =>
    left.Fits ∧ right.Fits ∧ operator.left ≤ left.closing ∧ operator.right < right.opening

/-- The operands of trees bind tightly enough. -/
def FitsAll : List Tree → Prop
  | [] => True
  | t :: rest => t.Fits ∧ FitsAll rest

end

theorem Binary.left_lt (b : Binary) : b.left < topPriority := by
  rcases b with (_ | _ | _ | _) | _ <;> decide

theorem Binary.left_pos (b : Binary) : 0 < b.left := by
  rcases b with (_ | _ | _ | _) | _ <;> decide

theorem Tree.closing_le_opening (t : Tree) : t.closing ≤ t.opening := by
  cases t with
  | binary operator left right =>
    exact Nat.le_trans (Nat.min_le_left _ _) operator.right_le_left
  | negate inner => exact Nat.le_trans (Nat.min_le_left _ _) (Nat.le_of_ble_eq_true rfl)
  | _ => exact Nat.le_refl _

theorem Tree.opening_pos (t : Tree) : 0 < t.opening := by
  cases t with
  | binary operator left right => exact operator.left_pos
  | _ => exact Nat.succ_pos _

/-- How tightly the innermost operator that waits binds. -/
def limit : List Frame → Nat
  | .binary operator _ :: _ => operator.right
  | .negate :: _ => signPriority
  | _ => 0

theorem limit_lt (frames : List Frame) : limit frames < topPriority := by
  cases frames with
  | nil => decide
  | cons frame frames =>
    cases frame with
    | binary operator left => exact Nat.lt_of_le_of_lt operator.right_le_left operator.left_lt
    | negate => exact Nat.le_of_ble_eq_true rfl
    | group | call _ _ => exact Nat.succ_pos _

/-- A part that takes a suffix can stand behind whatever waits. -/
theorem suffix_above {t : Tree} (suffix : t.takesSuffix = true) (frames : List Frame) :
    limit frames < t.opening := by
  cases t with
  | name _ | field _ _ | call _ _ | group _ => exact limit_lt frames
  | numeral _ | negate _ | binary _ _ _ => cases suffix

/-- The stack on which the tokens of a tree leave its last operand. -/
def Tree.stack : Tree → List Frame → Stack
  | binary operator left right, frames => right.stack (.binary operator left :: frames)
  | negate inner, frames => inner.stack (.negate :: frames)
  | t, frames => ⟨frames, t⟩

theorem Tree.stack_of_takesSuffix {t : Tree} (suffix : t.takesSuffix = true)
    (frames : List Frame) : t.stack frames = ⟨frames, t⟩ := by
  cases t with
  | name _ | field _ _ | call _ _ | group _ => rfl
  | numeral _ | negate _ | binary _ _ _ => cases suffix

/-- An operator that binds less tightly than the end of a tree finishes the whole tree. -/
theorem Tree.close_stack (t : Tree) (frames : List Frame) {priority : Nat}
    (ends : priority ≤ t.closing) : (t.stack frames).close priority = close priority frames t := by
  match t with
  | .binary operator left right =>
    -- the operators inside the right operand are on top, and finished first
    obtain ⟨own, inner⟩ := Nat.le_min.mp ends
    rw [stack, right.close_stack _ inner, close, if_pos own]
  | .negate inner =>
    obtain ⟨own, rest⟩ := Nat.le_min.mp ends
    rw [stack, inner.close_stack _ rest, close, if_pos own]
  | .numeral _ | .name _ | .field _ _ | .call _ _ | .group _ => rfl

/-- A comma and a closing parenthesis finish a whole argument. -/
theorem Tree.close_argument (t function : Tree) (done : List Tree) (frames : List Frame) :
    (t.stack (.call function done :: frames)).close 0 = ⟨.call function done :: frames, t⟩ :=
  t.close_stack _ (Nat.zero_le _)

/-- An operator that binds more tightly than what waits finishes nothing. -/
theorem close_of_limit_lt {frames : List Frame} {priority : Nat} (above : limit frames < priority)
    (t : Tree) : close priority frames t = ⟨frames, t⟩ := by
  cases frames with
  | nil => rfl
  | cons frame frames =>
    cases frame with
    | binary operator left => exact if_neg (Nat.not_le.mpr above)
    | negate => exact if_neg (Nat.not_le.mpr above)
    | group | call _ _ => rfl

/-- An operator behind a tree takes it as its left operand. -/
theorem Stack.next_sign {t : Tree} {frames : List Frame} (operator : Binary)
    (ends : operator.left ≤ t.closing) (above : limit frames < operator.left) :
    (t.stack frames).next operator.sign = some (.operand (.binary operator t :: frames)) := by
  have closed : (t.stack frames).close operator.left = ⟨frames, t⟩ :=
    (t.close_stack frames ends).trans (close_of_limit_lt above t)
  have step : (t.stack frames).next operator.sign = (do
      let operator ← Binary.ofSign? operator.sign
      let s := (t.stack frames).close operator.left
      return .operand (.binary operator s.top :: s.frames)) := by
    rcases operator with (_ | _ | _ | _) | _ <;> rfl
  rw [step, Binary.ofSign?_sign]
  simp [closed]

mutual

/-- The tokens of a tree leave its last operand on top of what waits. -/
theorem Tree.read_tokens (t : Tree) (fits : t.Fits) (frames : List Frame)
    (above : limit frames < t.opening) :
    (Progress.operand frames).read t.tokens = some (.after (t.stack frames)) := by
  match t with
  | .numeral _ | .name _ => rfl
  | .field base word =>
    obtain ⟨fits, suffix⟩ := fits
    have inner := base.read_tokens fits frames (suffix_above suffix frames)
    have point : (Progress.after ⟨frames, base⟩).next (.sign '.') = some (.point ⟨frames, base⟩) :=
      if_pos suffix
    rw [Tree.tokens, Progress.read_append, inner, Tree.stack_of_takesSuffix suffix]
    exact Progress.read_cons point _
  | .call function arguments =>
    obtain ⟨fits, suffix, others⟩ := fits
    have inner := function.read_tokens fits frames (suffix_above suffix frames)
    have opens : (Progress.after ⟨frames, function⟩).next (.sign '(') =
        some (.operand (.call function [] :: frames)) := if_pos suffix
    rw [Tree.tokens, Progress.read_append, inner, Tree.stack_of_takesSuffix suffix]
    refine (Progress.read_cons opens _).trans ?_
    match arguments with
    | [] => rfl
    | first :: rest => exact read_tokensAll (first :: rest) others (by simp) function [] frames
  | .group inner =>
    have opened := inner.read_tokens fits (.group :: frames) inner.opening_pos
    have finished : (inner.stack (.group :: frames)).close 0 = ⟨.group :: frames, inner⟩ :=
      inner.close_stack _ (Nat.zero_le _)
    have closes : (Progress.after (inner.stack (.group :: frames))).next (.sign ')') =
        some (.after ⟨frames, .group inner⟩) := by
      simp only [Progress.next, Stack.next, finished]
    rw [Tree.tokens]
    refine (Progress.read_cons rfl _).trans ?_
    rw [Progress.read_append, opened]
    exact Progress.read_cons closes _
  | .negate inner =>
    obtain ⟨fits, tight⟩ := fits
    rw [Tree.tokens]
    exact (Progress.read_cons rfl _).trans (inner.read_tokens fits _ tight)
  | .binary operator left right =>
    -- the operator finishes the left operand, and nothing of what waits outside
    obtain ⟨first, second, ends, tight⟩ := fits
    have opened := left.read_tokens first frames
      (Nat.lt_of_lt_of_le above (Nat.le_trans ends left.closing_le_opening))
    have step : (Progress.after (left.stack frames)).next (.sign operator.sign) =
        some (.operand (.binary operator left :: frames)) := Stack.next_sign operator ends above
    rw [Tree.tokens, Progress.read_append, opened]
    exact (Progress.read_cons step _).trans (right.read_tokens second _ tight)

/-- The tokens of arguments and of the closing parenthesis finish a call. -/
theorem read_tokensAll (arguments : List Tree) (fits : FitsAll arguments) (some : arguments ≠ [])
    (function : Tree) (done : List Tree) (frames : List Frame) :
    (Progress.operand (.call function done :: frames)).read (tokensAll arguments ++ [.sign ')']) =
      .some (.after ⟨frames, .call function (done ++ arguments)⟩) := by
  match arguments with
  | [] => exact absurd rfl some
  | [only] =>
    have opened := only.read_tokens fits.1 (.call function done :: frames) only.opening_pos
    have closes : (Progress.after (only.stack (.call function done :: frames))).next (.sign ')') =
        .some (.after ⟨frames, .call function (done ++ [only])⟩) := by
      simp only [Progress.next, Stack.next, only.close_argument]
    rw [tokensAll, Progress.read_append, opened]
    exact Progress.read_cons closes _
  | first :: second :: others =>
    have opened := first.read_tokens fits.1 (.call function done :: frames) first.opening_pos
    have goes : (Progress.after (first.stack (.call function done :: frames))).next (.sign ',') =
        .some (.operand (.call function (done ++ [first]) :: frames)) := by
      simp only [Progress.next, Stack.next, first.close_argument]
    have more := read_tokensAll (second :: others) fits.2 (by simp) function (done ++ [first])
      frames
    rw [List.append_assoc, List.singleton_append] at more
    rw [tokensAll, List.append_assoc, Progress.read_append, opened]
    · exact (Progress.read_cons goes _).trans more
    · exact nofun

end

/-- The tokens of a tree that fits are one expression, and it is that tree. -/
theorem treeOf?_tokens {t : Tree} (fits : t.Fits) : treeOf? t.tokens = some t := by
  have read := t.read_tokens fits [] t.opening_pos
  have closed : (t.stack []).close 0 = ⟨[], t⟩ := t.close_stack [] (Nat.zero_le _)
  rw [treeOf?, read]
  simp only [Option.bind_eq_bind, Option.bind_some, Progress.tree?, closed]

/-! ## 4. Only trees that fit are read -/

/-- The tokens of arguments that are followed by others. -/
def doneTokens (arguments : List Tree) : List Token :=
  arguments.flatMap fun t => t.tokens ++ [.sign ',']

theorem tokensAll_append (arguments : List Tree) (t : Tree) :
    tokensAll (arguments ++ [t]) = doneTokens arguments ++ t.tokens := by
  induction arguments with
  | nil => rfl
  | cons first rest ih =>
    rw [List.cons_append, tokensAll, ih]
    · simp [doneTokens]
    · simp

theorem fitsAll_append {arguments : List Tree} {t : Tree} (all : FitsAll arguments)
    (fits : t.Fits) : FitsAll (arguments ++ [t]) := by
  induction arguments with
  | nil => exact ⟨fits, trivial⟩
  | cons first rest ih => exact ⟨all.1, ih all.2⟩

/-- The tokens that have been read for what waits, the outermost first. -/
def frameTokens : List Frame → List Token
  | [] => []
  | .group :: frames => frameTokens frames ++ [.sign '(']
  | .call function arguments :: frames =>
    frameTokens frames ++ (function.tokens ++ .sign '(' :: doneTokens arguments)
  | .negate :: frames => frameTokens frames ++ [.sign '-']
  | .binary operator left :: frames =>
    frameTokens frames ++ (left.tokens ++ [.sign operator.sign])

/-- What waits fits as far as it has been read. -/
def FramesFit : List Frame → Prop
  | [] => True
  | .group :: frames | .negate :: frames => FramesFit frames
  | .call function arguments :: frames =>
    FramesFit frames ∧ function.Fits ∧ function.takesSuffix = true ∧ FitsAll arguments
  | .binary operator left :: frames =>
    FramesFit frames ∧ left.Fits ∧ operator.left ≤ left.closing ∧ limit frames < operator.left

/-- The tokens that have been read for an operand and what waits for it. -/
def Stack.tokens (s : Stack) : List Token :=
  frameTokens s.frames ++ s.top.tokens

/-- An operand fits, and so does what waits for it. -/
structure Stack.Fits (s : Stack) : Prop where
  frames : FramesFit s.frames
  top : s.top.Fits
  above : limit s.frames < s.top.opening

/-- What finishing operators keeps: the tokens and the fit of a stack. What is left waiting binds
less tightly than the priority. -/
structure Closed (priority : Nat) (before after : Stack) : Prop extends after.Fits where
  tokens_eq : after.tokens = before.tokens
  ends : priority ≤ after.top.closing
  below : 0 < priority → limit after.frames < priority

theorem closed_close {priority : Nat} (frames : List Frame) (t : Tree)
    (fits : Stack.Fits ⟨frames, t⟩) (ends : priority ≤ t.closing) :
    Closed priority ⟨frames, t⟩ (close priority frames t) := by
  obtain ⟨waiting, top, above⟩ := fits
  fun_induction close priority frames t with
  | case1 operator left frames t tight ih =>
    -- the bounds kept for a waiting operator are what its tree needs to fit
    obtain ⟨outer, ofLeft, loose, limited⟩ := waiting
    have closed := ih (Nat.le_min.mpr ⟨tight, ends⟩) outer ⟨ofLeft, top, loose, above⟩ limited
    exact { closed with
      tokens_eq := closed.tokens_eq.trans (by simp [Stack.tokens, frameTokens, Tree.tokens]) }
  | case2 operator left frames t loose =>
    exact ⟨⟨waiting, top, above⟩, rfl, ends, fun _ => Nat.not_le.mp loose⟩
  | case3 frames t tight ih =>
    have closed := ih (Nat.le_min.mpr ⟨tight, ends⟩) waiting ⟨top, above⟩ (limit_lt frames)
    exact { closed with
      tokens_eq := closed.tokens_eq.trans (by simp [Stack.tokens, frameTokens, Tree.tokens]) }
  | case4 frames t loose =>
    exact ⟨⟨waiting, top, above⟩, rfl, ends, fun _ => Nat.not_le.mp loose⟩
  | case5 frames t noBinary noSign =>
    refine ⟨⟨waiting, top, above⟩, rfl, ends, fun positive => ?_⟩
    cases frames with
    | nil => exact positive
    | cons frame frames =>
      cases frame with
      | binary operator left => exact absurd rfl (noBinary operator left frames)
      | negate => exact absurd rfl (noSign frames)
      | group | call _ _ => exact positive

/-- The tokens that have been read. -/
def Progress.tokens : Progress → List Token
  | operand frames => frameTokens frames
  | after s => s.tokens
  | point s => s.tokens ++ [.sign '.']

/-- What has been read fits. An operand that has just been read ends in no operator. -/
def Progress.Fits : Progress → Prop
  | operand frames => FramesFit frames
  | after s => s.Fits ∧ s.top.closing = topPriority
  | point s => s.Fits ∧ s.top.takesSuffix = true

/-- What a token makes of what has been read. -/
structure Follows (p : Progress) (token : Token) (q : Progress) : Prop where
  fits : q.Fits
  tokens_eq : q.tokens = p.tokens ++ [token]

/-- A part on its own can be read wherever an operand has to follow. -/
theorem fits_operand {frames : List Frame} (waiting : FramesFit frames) {t : Tree} (fits : t.Fits)
    (opening : t.opening = topPriority) (closing : t.closing = topPriority) :
    (Progress.after ⟨frames, t⟩).Fits :=
  ⟨⟨waiting, fits, opening ▸ limit_lt frames⟩, closing⟩

theorem Binary.sign_of_ofSign? {c : Char} {b : Binary} (known : ofSign? c = some b) :
    b.sign = c := by
  unfold ofSign? at known
  split at known <;> cases known <;> rfl

theorem Stack.next_follows {s : Stack} (fits : s.Fits) (ends : s.top.closing = topPriority)
    {c : Char} {q : Progress} (step : s.next c = some q) : Follows (.after s) (.sign c) q := by
  have closed : ∀ {priority}, priority ≤ topPriority → Closed priority s (s.close priority) :=
    fun le => closed_close s.frames s.top fits (ends ▸ le)
  have bracket := closed (Nat.zero_le _)
  unfold Stack.next at step
  split at step
  · split at step
    · next suffix =>
      cases step
      exact ⟨⟨fits, suffix⟩, rfl⟩
    · cases step
  · split at step
    · next suffix =>
      cases step
      refine ⟨⟨fits.frames, fits.top, suffix, trivial⟩, ?_⟩
      simp [Progress.tokens, Stack.tokens, frameTokens, doneTokens]
    · cases step
  · split at step
    · next frames t same =>
      cases step
      rw [same] at bracket
      have outer : FramesFit frames := bracket.frames
      have inner : (Tree.group t).Fits := bracket.top
      refine ⟨fits_operand outer inner rfl rfl, ?_⟩
      rw [Progress.tokens, Progress.tokens, ← bracket.tokens_eq]
      simp [Stack.tokens, frameTokens, Tree.tokens]
    · next function arguments frames t same =>
      cases step
      rw [same] at bracket
      obtain ⟨outer, ofFunction, suffix, others⟩ := bracket.frames
      have all := fitsAll_append others bracket.top
      refine ⟨fits_operand outer ⟨ofFunction, suffix, all⟩ rfl rfl, ?_⟩
      rw [Progress.tokens, Progress.tokens, ← bracket.tokens_eq]
      simp [Stack.tokens, frameTokens, Tree.tokens, tokensAll_append]
    · cases step
  · split at step
    · next function arguments frames t same =>
      cases step
      rw [same] at bracket
      obtain ⟨outer, ofFunction, suffix, others⟩ := bracket.frames
      refine ⟨⟨outer, ofFunction, suffix, fitsAll_append others bracket.top⟩, ?_⟩
      rw [Progress.tokens, Progress.tokens, ← bracket.tokens_eq]
      simp [Stack.tokens, frameTokens, doneTokens]
    · cases step
  · -- any other sign has to be that of an operator
    obtain ⟨operator, known, step⟩ := Option.bind_eq_some_iff.mp step
    cases step
    have finished := closed (Nat.le_of_lt operator.left_lt)
    refine ⟨⟨finished.frames, finished.top, finished.ends, finished.below operator.left_pos⟩, ?_⟩
    rw [Progress.tokens, Progress.tokens, ← finished.tokens_eq, ← Binary.sign_of_ofSign? known]
    simp [Stack.tokens, frameTokens]

/-- A token is added to what has been read. -/
theorem Progress.next_follows {p q : Progress} (fits : p.Fits) {token : Token}
    (step : p.next token = some q) : Follows p token q := by
  unfold Progress.next at step
  split at step
  · cases step
    exact ⟨fits_operand fits trivial rfl rfl, rfl⟩
  · cases step
    exact ⟨fits_operand fits trivial rfl rfl, rfl⟩
  · cases step
    exact ⟨fits, rfl⟩
  · cases step
    exact ⟨fits, rfl⟩
  · cases step
    obtain ⟨outer, ofFunction, suffix, others⟩ := fits
    refine ⟨fits_operand outer ⟨ofFunction, suffix, trivial⟩ rfl rfl, ?_⟩
    simp [Progress.tokens, Stack.tokens, frameTokens, doneTokens, Tree.tokens, tokensAll]
  · exact Stack.next_follows fits.1 fits.2 step
  · cases step
    obtain ⟨⟨outer, top, above⟩, suffix⟩ := fits
    refine ⟨fits_operand outer ⟨top, suffix⟩ rfl rfl, ?_⟩
    simp [Progress.tokens, Stack.tokens, Tree.tokens]
  · cases step

/-- Tokens are added to what has been read. -/
theorem Progress.read_fits {p q : Progress} (fits : p.Fits) {tokens : List Token}
    (done : p.read tokens = some q) : q.Fits ∧ q.tokens = p.tokens ++ tokens := by
  induction tokens generalizing p with
  | nil =>
    cases done
    exact ⟨fits, (List.append_nil _).symm⟩
  | cons token rest ih =>
    obtain ⟨next, step, others⟩ := Option.bind_eq_some_iff.mp done
    have follows := Progress.next_follows fits step
    obtain ⟨fits', tokens_eq⟩ := ih follows.fits others
    exact ⟨fits', by rw [tokens_eq, follows.tokens_eq, List.append_assoc, List.singleton_append]⟩

/-- Tokens are read as a tree exactly when the tree fits and has these tokens. -/
theorem treeOf?_eq_some {tokens : List Token} {t : Tree} :
    treeOf? tokens = some t ↔ t.Fits ∧ t.tokens = tokens := by
  constructor
  · intro read
    obtain ⟨p, done, final⟩ := Option.bind_eq_some_iff.mp read
    obtain ⟨fits, tokens_eq⟩ := Progress.read_fits (p := .operand []) trivial done
    unfold Progress.tree? at final
    split at final
    · next s =>
      have closed : Closed 0 s (s.close 0) := closed_close s.frames s.top fits.1 (Nat.zero_le _)
      split at final
      · next t' same =>
        cases final
        rw [same] at closed
        exact ⟨closed.top, closed.tokens_eq.trans tokens_eq⟩
      · cases final
    · cases final
  · rintro ⟨fits, rfl⟩
    exact treeOf?_tokens fits

end Landform.Lua
