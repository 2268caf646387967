import PluginLoader.Bytes

/-!
Decompression of deflate data. Bits are numbered from the lowest bit of the first byte. A stream is
a run of blocks up to the one marked final; whatever follows it is left alone, and a stream that
ends early has no value.
-/
namespace PluginLoader.Deflate

def bit (data : ByteArray) (position : Nat) : Bool :=
  (Bytes.byteAt data (position / 8)).toNat.testBit (position % 8)

def bitCount (data : ByteArray) : Nat := 8 * data.size

/-- The number in `width` bits, lowest first, and the position after them. -/
def number? (data : ByteArray) (position width : Nat) : Option (Nat × Nat) :=
  if position + width ≤ bitCount data then
    some ((List.range width).foldr (fun i n => (bit data (position + i)).toNat + 2 * n) 0,
      position + width)
  else none

/-! ### Codes -/

/-- A prefix code. A path that no symbol has ends in `dead`. -/
inductive Code where
  | dead
  | leaf (symbol : Nat)
  | fork (zero one : Code)

namespace Code

def insert (symbol : Nat) : Code → List Bool → Code
  | _, [] => .leaf symbol
  | .fork zero one, false :: path => .fork (insert symbol zero path) one
  | .fork zero one, true :: path => .fork zero (insert symbol one path)
  | _, false :: path => .fork (insert symbol .dead path) .dead
  | _, true :: path => .fork .dead (insert symbol .dead path)

/-- The highest `length` bits of a code word, first bit first. -/
def path (word : Nat) : Nat → List Bool
  | 0 => []
  | length + 1 => word.testBit length :: path word length

/-- Longest code word. -/
def maxLength : Nat := 15

/-- The share of all words of the greatest length that a code with these lengths takes. -/
def weight (lengths : List Nat) : Nat :=
  (lengths.filter (· ≠ 0)).foldr (fun n rest => 1 <<< (maxLength - n) + rest) 0

/-- Code words in the order of length, then of symbol; each starts where the one before ends. -/
def assign : Nat → List (Nat × Nat) → Code → Code
  | _, [], code => code
  | start, (length, symbol) :: rest, code =>
    assign (start + 1 <<< (maxLength - length)) rest
      (code.insert symbol (path (start >>> (maxLength - length)) length))

def canonical (lengths : List Nat) : Code :=
  let used := lengths.zipIdx.filter (·.1 ≠ 0)
  assign 0 ((List.range (maxLength + 1)).flatMap fun n => used.filter (·.1 = n)) .dead

/-- The code of a list of lengths. It has to be complete, or (where `sparse` allows it) to have no
word but perhaps one of a single bit. -/
def ofLengths? (sparse : Bool) (lengths : List Nat) : Option Code :=
  let used := lengths.filter (· ≠ 0)
  if weight lengths = 1 <<< maxLength || (sparse && (used = [] || used = [1])) then
    some (canonical lengths)
  else none

/-- The symbol whose word starts at a position, and the position after the word. -/
def symbol? (data : ByteArray) : Code → Nat → Option (Nat × Nat)
  | .dead, _ => none
  | .leaf symbol, position => some (symbol, position)
  | .fork zero one, position =>
    if position < bitCount data then
      if bit data position then symbol? data one (position + 1)
      else symbol? data zero (position + 1)
    else none

end Code

/-! ### Blocks -/

def lengthBase : List (Nat × Nat) :=
  [(3, 0), (4, 0), (5, 0), (6, 0), (7, 0), (8, 0), (9, 0), (10, 0), (11, 1), (13, 1), (15, 1),
   (17, 1), (19, 2), (23, 2), (27, 2), (31, 2), (35, 3), (43, 3), (51, 3), (59, 3), (67, 4),
   (83, 4), (99, 4), (115, 4), (131, 5), (163, 5), (195, 5), (227, 5), (258, 0)]

def distanceBase : List (Nat × Nat) :=
  [(1, 0), (2, 0), (3, 0), (4, 0), (5, 1), (7, 1), (9, 2), (13, 2), (17, 3), (25, 3), (33, 4),
   (49, 4), (65, 5), (97, 5), (129, 6), (193, 6), (257, 7), (385, 7), (513, 8), (769, 8),
   (1025, 9), (1537, 9), (2049, 10), (3073, 10), (4097, 11), (6145, 11), (8193, 12), (12289, 12),
   (16385, 13), (24577, 13)]

/-- A base value with the extra bits that follow its symbol. -/
def extended? (data : ByteArray) (table : List (Nat × Nat)) (index position : Nat) :
    Option (Nat × Nat) := do
  let (base, extra) ← table[index]?
  let (n, position) ← number? data position extra
  return (base + n, position)

/-- The byte that lies `distance` back from the end. In front of the output all bytes are zero. -/
def byteBack (out : ByteArray) (distance : Nat) : UInt8 :=
  if distance ≤ out.size then Bytes.byteAt out (out.size - distance) else 0

/-- Append `length` bytes, each a copy of the one `distance` back. -/
def repeatBack (distance : Nat) : Nat → ByteArray → ByteArray
  | 0, out => out
  | length + 1, out => repeatBack distance length (out.push (byteBack out distance))

/-- What a compressed block adds to the output. -/
inductive Piece where
  | literal (value : UInt8)
  /-- Bytes that begin `distance` back from the end. -/
  | copy (length distance : Nat)

/-- The output with a piece added. -/
def Piece.addTo (out : ByteArray) : Piece → ByteArray
  | .literal value => out.push value
  | .copy length distance => repeatBack distance length out

/-- One piece of a compressed block: `none` for the end mark. -/
def piece? (data : ByteArray) (literals distances : Code) (position : Nat) :
    Option (Option Piece × Nat) := do
  let (symbol, position) ← literals.symbol? data position
  if symbol < 256 then return (some (.literal (UInt8.ofNat symbol)), position)
  else if symbol = 256 then return (none, position)
  else
    let (length, position) ← extended? data lengthBase (symbol - 257) position
    let (symbol, position) ← distances.symbol? data position
    let (distance, position) ← extended? data distanceBase symbol position
    return (some (.copy length distance), position)

/-- The pieces of a compressed block up to its end mark. -/
def pieces? (data : ByteArray) (literals distances : Code) (position : Nat) (out : ByteArray) :
    Option (ByteArray × Nat) :=
  match piece? data literals distances position with
  | some (some piece, after) =>
    if _h : position < after ∧ after ≤ bitCount data then
      pieces? data literals distances after (piece.addTo out)
    else none
  | some (none, after) => some (out, after)
  | none => none
termination_by bitCount data - position

def fixedLiterals : List Nat :=
  List.replicate 144 8 ++ List.replicate 112 9 ++ List.replicate 24 7 ++ List.replicate 8 8

def fixedDistances : List Nat := List.replicate 32 5

/-- The order in which the lengths of the length code are written. -/
def lengthOrder : List Nat := [16, 17, 18, 0, 8, 7, 9, 6, 10, 5, 11, 4, 12, 3, 13, 2, 14, 1, 15]

/-- Several numbers of one width. -/
def numbers? (data : ByteArray) (width : Nat) : Nat → Nat → Option (List Nat × Nat)
  | 0, position => some ([], position)
  | count + 1, position => do
    let (n, position) ← number? data position width
    let (rest, position) ← numbers? data width count position
    return (n :: rest, position)

/-- Code lengths up to `total`; `read` holds the newest first. No repetition runs past the total. -/
def lengths? (data : ByteArray) (code : Code) (total position : Nat) (read : List Nat) :
    Option (List Nat × Nat) :=
  if read.length = total then some (read.reverse, position)
  else if total < read.length then none
  else
    match code.symbol? data position with
    | none => none
    | some (symbol, after) =>
      let step : Option (List Nat × Nat) :=
        if symbol < 16 then some ([symbol], after)
        else if symbol = 16 then do
          let last ← read.head?
          let (n, after) ← number? data after 2
          return (List.replicate (n + 3) last, after)
        else if symbol = 17 then do
          let (n, after) ← number? data after 3
          return (List.replicate (n + 3) 0, after)
        else do
          let (n, after) ← number? data after 7
          return (List.replicate (n + 11) 0, after)
      match step with
      | some (more, after) =>
        if _h : position < after ∧ after ≤ bitCount data then
          lengths? data code total after (more ++ read)
        else none
      | none => none
termination_by bitCount data - position

/-- The two codes at the front of a block that brings its own. -/
def codes? (data : ByteArray) (position : Nat) : Option (Code × Code × Nat) := do
  let (literals, position) ← number? data position 5
  let (distances, position) ← number? data position 5
  let (given, position) ← number? data position 4
  let literalCount := literals + 257
  let distanceCount := distances + 1
  if literalCount > 286 || distanceCount > 30 then none
  let (sizes, position) ← numbers? data 3 (given + 4) position
  let ordered := lengthOrder.zip sizes
  let lengthCode ← Code.ofLengths? false ((List.range 19).map fun s => (ordered.lookup s).getD 0)
  let (lengths, position) ← lengths? data lengthCode (literalCount + distanceCount) position []
  let literalCode ← Code.ofLengths? true (lengths.take literalCount)
  let distanceCode ← Code.ofLengths? true (lengths.drop literalCount)
  return (literalCode, distanceCode, position)

/-- A block of plain bytes, which starts at the next whole byte. -/
def stored? (data : ByteArray) (position : Nat) (out : ByteArray) : Option (ByteArray × Nat) := do
  let start := (position + 7) / 8
  let length := Bytes.littleEndian data start 2
  let check := Bytes.littleEndian data (start + 2) 2
  if start + 4 + length ≤ data.size && length + check = 65535 then
    return (out ++ data.extract (start + 4) (start + 4 + length), 8 * (start + 4 + length))
  else none

/-- One block: what is decoded after it, whether it is the final one, and where it ends. -/
def block? (data : ByteArray) (position : Nat) (out : ByteArray) :
    Option (ByteArray × Bool × Nat) := do
  let (final, position) ← number? data position 1
  let (kind, position) ← number? data position 2
  let (out, position) ←
    match kind with
    | 0 => stored? data position out
    | 1 => do
      let literals ← Code.ofLengths? true fixedLiterals
      let distances ← Code.ofLengths? true fixedDistances
      pieces? data literals distances position out
    | 2 => do
      let (literals, distances, position) ← codes? data position
      pieces? data literals distances position out
    | _ => none
  return (out, final == 1, position)

def blocks? (data : ByteArray) (position : Nat) (out : ByteArray) : Option ByteArray :=
  match block? data position out with
  | some (out, true, _) => some out
  | some (out, false, after) =>
    if _h : position < after ∧ after ≤ bitCount data then blocks? data after out else none
  | none => none
termination_by bitCount data - position

def inflate? (data : ByteArray) : Option ByteArray := blocks? data 0 .empty

end PluginLoader.Deflate
