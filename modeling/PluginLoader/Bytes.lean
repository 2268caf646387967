/-! Fields of a byte array at a position. Past the end every byte counts as zero. -/
namespace PluginLoader.Bytes

def byteAt (data : ByteArray) (position : Nat) : UInt8 :=
  if h : position < data.size then data[position] else 0

/-- The number written in `width` bytes, least significant first. -/
def littleEndian (data : ByteArray) (position : Nat) : Nat → Nat
  | 0 => 0
  | width + 1 => (byteAt data position).toNat + 256 * littleEndian data (position + 1) width

def holds (data : ByteArray) (position : Nat) : List UInt8 → Bool
  | [] => true
  | b :: rest => position < data.size && byteAt data position == b && holds data (position + 1) rest

/-- Positions below `limit`, the highest first, where a pattern lies. -/
def occurrences (data : ByteArray) (pattern : List UInt8) : Nat → List Nat
  | 0 => []
  | limit + 1 =>
    if holds data limit pattern then limit :: occurrences data pattern limit
    else occurrences data pattern limit

/-- The lowest of `count` positions from `start` on where a pattern lies. -/
def firstOccurrence (data : ByteArray) (pattern : List UInt8) : Nat → Nat → Option Nat
  | _, 0 => none
  | start, count + 1 =>
    if holds data start pattern then some start else firstOccurrence data pattern (start + 1) count

end PluginLoader.Bytes
