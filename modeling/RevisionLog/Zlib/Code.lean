import RevisionLog.Zlib.Bits

/-!
# Prefix codes

A prefix code is a binary tree whose leaves are symbols. The canonical code of a list of lengths
gives shorter words before longer ones and, among equals, lower symbols first.
`Code.ofLengths?` refuses lengths that leave words unused or need more words than there are, but for
the codes of at most one word of one bit, which some streams may use.
Reading a symbol always uses up a bit (`length_of_read`), which is what makes decoding end.
-/

namespace RevisionLog.Zlib

/-- A part of a prefix code. -/
inductive Tree
  /-- No word leads here. -/
  | unused
  /-- A whole word, for a symbol. -/
  | leaf (symbol : Nat)
  /-- A proper part of words. -/
  | node (zero one : Tree)

/-- A prefix code whose words have at least one bit: the words that start with either bit. -/
structure Code where
  zero : Tree := .unused
  one : Tree := .unused

namespace Tree

/-- Adds a word for a symbol. -/
def insert (symbol : Nat) : List Bool → Tree → Tree
  | [], _ => leaf symbol
  | bit :: word, node zero one =>
    if bit then node zero (one.insert symbol word) else node (zero.insert symbol word) one
  | bit :: word, _ =>
    if bit then node unused (unused.insert symbol word)
    else node (unused.insert symbol word) unused

/-- Reads the rest of a word. -/
def read : Tree → Decoder Nat
  | unused => throw .malformed
  | leaf symbol => pure symbol
  | node zero one => fun
    | [] => .error .short
    | bit :: bits => if bit then one.read bits else zero.read bits

theorem consumes_read (tree : Tree) : tree.read.Consumes := by
  induction tree with
  | unused => exact Decoder.consumes_throw _
  | leaf symbol => exact Decoder.consumes_pure _
  | node zero one zero_ih one_ih =>
    intro bits symbol rest h
    cases bits with
    | nil => simp [read] at h
    | cons bit bits =>
      simp only [read] at h
      split at h
      · exact Nat.le_succ_of_le (one_ih h)
      · exact Nat.le_succ_of_le (zero_ih h)

end Tree

namespace Code

/-- Adds a word for a symbol. -/
def insert (code : Code) (symbol : Nat) : List Bool → Code
  | [] => code
  | bit :: word =>
    if bit then { code with one := code.one.insert symbol word }
    else { code with zero := code.zero.insert symbol word }

/-- The longest words of any code. -/
def maxLength : Nat := 15

/-- The `length` bits of a word that is number `address` among the longest words, counting the
longest words that start with it as one. -/
def word (address length : Nat) : List Bool :=
  (List.range length).map fun i => address.testBit (maxLength - 1 - i)

/-- The symbols that have words, as pairs of length and symbol, shorter words first. -/
def order (lengths : List Nat) : List (Nat × Nat) :=
  (lengths.zipIdx.filter fun entry => entry.1 ≠ 0).mergeSort fun a b => a.1 ≤ b.1

/-- How many of the longest words the words of these lengths take up. -/
def room (lengths : List Nat) : Nat :=
  lengths.foldl (fun room length => room + if length = 0 then 0 else 1 <<< (maxLength - length)) 0

/-- The canonical code for the word lengths of the symbols `0, 1, …`, a length of 0 standing for no
word. The words must take up all the room there is, unless `sparse` and there is no word or a single
one, of one bit. -/
def ofLengths? (lengths : List Nat) (sparse : Bool) : Option Code :=
  let symbols := order lengths
  if room lengths = 1 <<< maxLength ∨ sparse ∧ symbols.map (·.1) ∈ [[], [1]] then
    let step := fun (state : Code × Nat) (entry : Nat × Nat) =>
      (state.1.insert entry.2 (word state.2 entry.1), state.2 + (1 <<< (maxLength - entry.1)))
    some (symbols.foldl step ({}, 0)).1
  else none

/-- Reads a symbol. -/
def read (code : Code) : Decoder Nat := fun
  | [] => .error .short
  | bit :: bits => if bit then code.one.read bits else code.zero.read bits

/-- Reading a symbol uses up at least one bit. -/
theorem length_of_read {code : Code} {bits rest : Bits} {symbol : Nat}
    (h : code.read bits = .ok (symbol, rest)) : rest.length < bits.length := by
  cases bits with
  | nil => simp [read] at h
  | cons bit bits =>
    simp only [read] at h
    split at h <;> exact Nat.lt_succ_of_le (Tree.consumes_read _ h)

theorem consumes_read (code : Code) : code.read.Consumes :=
  fun _ _ _ h => Nat.le_of_lt (length_of_read h)

end Code

end RevisionLog.Zlib
