import Overprint.Pdf.Filter.BitReader

/-!
# Deflated data

Bytes may be kept as a sequence of single bytes and of repetitions of what came a distance before, in
blocks with codes of their own. Two bytes stand in front, and a checksum ends the data. Of data that
stops short what is there counts, of data that makes no sense nothing does.
-/

namespace Overprint.Pdf.Deflate

/-- A byte, or a repetition of bytes from a distance back. -/
inductive Token where
  | byte (value : Nat)
  | repetition (length distance : Nat)

/-- The bytes with those that a token stands for. What came before the start are zero bytes. -/
def Token.append (bytes : Array UInt8) : Token → Array UInt8
  | byte value => bytes.push (.ofNat value)
  | repetition length distance =>
    length.fold (fun _ _ bytes =>
      bytes.push (if distance ≤ bytes.size then bytes[bytes.size - distance]?.getD 0 else 0)) bytes

/-- Tokens, and the data behind them or why there are no more. -/
structure Unpacked where
  tokens : List Token
  ending : Except PackingFault (List Bool)

/-- The number of a class and of bits that are left to say. Each class has one number as long as there
is a class for each, and twice as many after so many classes as before. -/
def classed (perDoubling index : Nat) : BitReader Nat :=
  if index < perDoubling then return index
  else do
    let bits := index / perDoubling - 1
    return (perDoubling + index % perDoubling) <<< bits + (← BitReader.number bits)

/-- The symbol that ends a block, and the last one, for the largest length. -/
def endOfBlock : Nat := 256

def longest : Nat := 285

/-- How many symbols there may be for bytes and lengths, and for distances. -/
def symbolLimit : Nat := 286

def distanceLimit : Nat := 30

def length (symbol : Nat) : BitReader Nat := do
  if longest < symbol then throw .malformed
  if symbol = longest then return 258
  return 3 + (← classed 4 (symbol - endOfBlock - 1))

def distance (symbol : Nat) : BitReader Nat := do
  if distanceLimit ≤ symbol then throw .malformed
  return 1 + (← classed 2 symbol)

def token (symbols distances : BitCode) : BitReader (Option Token) := do
  let symbol ← BitReader.symbol symbols
  if symbol < endOfBlock then return some (.byte symbol)
  if symbol = endOfBlock then return none
  let length ← length symbol
  return some (.repetition length (← distance (← BitReader.symbol distances)))

def tokens (symbols distances : BitCode) : (bound : Nat) → (data : List Bool) → Unpacked
  | 0, _ => ⟨[], .error .exhausted⟩
  | bound + 1, data =>
    match (token symbols distances).run data with
    | .error fault => ⟨[], .error fault⟩
    | .ok (none, rest) => ⟨[], .ok rest⟩
    | .ok (some token, rest) =>
      let unpacked := tokens symbols distances bound rest
      { unpacked with tokens := token :: unpacked.tokens }

def plain : (count : Nat) → (data : List Bool) → Unpacked
  | 0, data => ⟨[], .ok data⟩
  | count + 1, data =>
    match (BitReader.number 8).run data with
    | .error fault => ⟨[], .error fault⟩
    | .ok (value, rest) =>
      let unpacked := plain count rest
      { unpacked with tokens := .byte value :: unpacked.tokens }

/-- How many bytes a block holds as they are. The number is there twice, once with all bits changed. -/
def plainSize : BitReader Nat := do
  BitReader.skipToByte
  let size ← BitReader.number 16
  if size + (← BitReader.number 16) ≠ 0xffff then throw .malformed
  return size

def lengthLimit : Nat := 15

/-- The codes of blocks that bring none. -/
def usualSymbols : BitCode :=
  .ofLengths lengthLimit (List.replicate 144 8 ++ List.replicate 112 9 ++ List.replicate 24 7 ++
    List.replicate 8 8)

def usualDistances : BitCode :=
  .ofLengths lengthLimit (List.replicate 32 5)

/-- So many lengths, in a code of their own: a length, or how often the last one or none comes again. -/
def lengths (code : BitCode) (count : Nat) : (bound : Nat) → (known : List Nat) →
    BitReader (List Nat)
  | 0, _ => throw .malformed
  | bound + 1, known => do
    if known.length = count then return known
    if count < known.length then throw .malformed
    match ← BitReader.symbol code with
    | 16 =>
      match known.getLast? with
      | none => throw .malformed
      | some last =>
        lengths code count bound (known ++ List.replicate (3 + (← BitReader.number 2)) last)
    | 17 => lengths code count bound (known ++ List.replicate (3 + (← BitReader.number 3)) 0)
    | 18 => lengths code count bound (known ++ List.replicate (11 + (← BitReader.number 7)) 0)
    | length => lengths code count bound (known ++ [length])

/-- The order in which the lengths for the code of lengths come. -/
def lengthOrder : List Nat :=
  [16, 17, 18, 0, 8, 7, 9, 6, 10, 5, 11, 4, 12, 3, 13, 2, 14, 1, 15]

/-- A code that a block may use: a complete one, or one of at most one symbol. -/
def usable (code : BitCode) : Bool :=
  code.isComplete || code.size ≤ 1

/-- The codes that a block brings. -/
def ownCodes : BitReader (BitCode × BitCode) := do
  let symbolCount := 257 + (← BitReader.number 5)
  let distanceCount := 1 + (← BitReader.number 5)
  let lengthCount := 4 + (← BitReader.number 4)
  if symbolLimit < symbolCount ∨ distanceLimit < distanceCount then throw .malformed
  let given ← (lengthOrder.take lengthCount).mapM fun symbol => do
    return (symbol, ← BitReader.number 3)
  let code := BitCode.ofLengths lengthLimit <| (List.range lengthOrder.length).map fun symbol =>
    (given.lookup symbol).getD 0
  if !code.isComplete then throw .malformed
  let count := symbolCount + distanceCount
  let known ← lengths code count (count + 1) []
  let symbols := BitCode.ofLengths lengthLimit (known.take symbolCount)
  let distances := BitCode.ofLengths lengthLimit (known.drop symbolCount)
  if !usable symbols || !usable distances then throw .malformed
  return (symbols, distances)

/-- What stands at the start of a block, and whether it is the last one. -/
inductive BlockKind where
  | plain (size : Nat)
  | coded (symbols distances : BitCode)

def blockStart : BitReader (Bool × BlockKind) := do
  let last ← BitReader.bit
  match ← BitReader.number 2 with
  | 0 => return (last, .plain (← plainSize))
  | 1 => return (last, .coded usualSymbols usualDistances)
  | 2 => do
    let (symbols, distances) ← ownCodes
    return (last, .coded symbols distances)
  | _ => throw .malformed

def blocks : (bound : Nat) → (data : List Bool) → Unpacked
  | 0, _ => ⟨[], .error .exhausted⟩
  | bound + 1, data =>
    match blockStart.run data with
    | .error fault => ⟨[], .error fault⟩
    | .ok ((last, kind), rest) =>
      let block := match kind with
        | .plain size => plain size rest
        | .coded symbols distances => tokens symbols distances rest.length rest
      match block.ending with
      | .error _ => block
      | .ok rest =>
        if last then block
        else
          let following := blocks bound rest
          { following with tokens := block.tokens ++ following.tokens }

def checksumModulus : Nat := 65521

/-- The checksum of bytes: their sum, and the sum of the sums on the way. -/
def checksum (bytes : Array UInt8) : Nat :=
  let (sum, sums) := bytes.foldl
    (fun (sum, sums) byte =>
      let sum := (sum + byte.toNat) % checksumModulus
      (sum, (sums + sum) % checksumModulus)) (1, 0)
  sums * 0x10000 + sum

/-- The number in the four bytes that come next, the most significant one first. -/
def checksumRead : BitReader Nat := do
  BitReader.skipToByte
  let bytes ← (List.range 4).mapM fun _ => BitReader.number 8
  return bytes.foldl (fun value byte => value * 0x100 + byte) 0

/-- Whether two bytes may stand in front: of the method, with a window of at most fifteen bits, without
a dictionary, and with a multiple of 31 as their number. -/
def isHeader (method flags : Nat) : Bool :=
  (method * 0x100 + flags) % 31 = 0 && method % 0x10 = 8 && method / 0x10 ≤ 7 &&
    !flags.testBit 5

/-- The bytes of data without what stands in front. -/
def unpack (data : List Bool) : List UInt8 :=
  let unpacked := blocks data.length data
  let bytes := unpacked.tokens.foldl Token.append #[]
  match unpacked.ending with
  | .error .malformed => []
  | .error .exhausted => bytes.toList
  | .ok rest =>
    match checksumRead.run' rest with
    | .ok found => if found = checksum bytes then bytes.toList else []
    | .error _ => bytes.toList

def decode (data : List UInt8) : List UInt8 :=
  match data with
  | method :: flags :: rest =>
    if isHeader method.toNat flags.toNat then unpack (rest.flatMap BitReader.bitsOf) else []
  | _ => []

end Overprint.Pdf.Deflate
