/-!
# Codes of several lengths

Symbols may be kept as strings of bits, short ones for frequent symbols. All strings of a length are
consecutive numbers, in the order of their symbols, and those of the next length go on behind them. So
it is enough to know which symbols have strings of each length.
-/

namespace Overprint

/-- A code: for every length from one on, the symbols whose strings have it. -/
structure BitCode where
  levels : List (List Nat)
deriving DecidableEq

namespace BitCode

/-- The code in which each symbol has the given length, up to a limit, and none if that is zero. -/
def ofLengths (limit : Nat) (lengths : List Nat) : BitCode where
  levels := (List.range limit).map fun index =>
    (List.range lengths.length).filter fun symbol => lengths[symbol]? = some (index + 1)

/-- The lists of so many symbols each, one after the other. -/
def levelsOf (symbols : List Nat) : (counts : List Nat) → List (List Nat)
  | [] => []
  | count :: rest => symbols.take count :: levelsOf (symbols.drop count) rest

/-- The code with so many symbols of each length. -/
def ofCounts (counts symbols : List Nat) : BitCode where
  levels := levelsOf symbols counts

/-- How many strings of the last length stay free, if no length has too many symbols. -/
def free? (levels : List (List Nat)) : Option Nat :=
  levels.foldlM
    (fun free symbols =>
      if 2 * free < symbols.length then none else some (2 * free - symbols.length)) 1

/-- Whether every string of bits starts with that of a symbol. -/
def isComplete (code : BitCode) : Bool :=
  free? code.levels = some 0

def size (code : BitCode) : Nat :=
  code.levels.flatten.length

section Reading

variable {m : Type → Type} [Monad m] (bit : m Bool) (absent : m Nat)

/-- The symbol whose string comes next. So far, it has the number `code`, and strings of this length
start at `first`. -/
def symbolFrom : (levels : List (List Nat)) → (code first : Nat) → m Nat
  | [], _, _ => absent
  | symbols :: rest, code, first => do
    let code := 2 * code + (← bit).toNat
    let first := 2 * first
    match symbols[code - first]? with
    | some symbol => return symbol
    | none => symbolFrom rest code (first + symbols.length)

/-- The symbol whose string comes next, bit by bit; `absent` if there is none. -/
def symbol (code : BitCode) : m Nat :=
  symbolFrom bit absent code.levels 0 0

end Reading

end BitCode

end Overprint
