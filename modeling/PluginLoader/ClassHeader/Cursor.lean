import PluginLoader.Text.Hex

/-!
A cursor over the bytes of a compiled type. A read that does not fit fails at the offset where it
starts and takes nothing.
-/
namespace PluginLoader

/-- What a constant pool index was expected to lead to. -/
inductive Expected where
  | typeName
  | text
  deriving DecidableEq, Repr

inductive HeaderFault where
  | badMagic (magic : UInt32)
  | truncated (offset : Nat)
  | unknownTag (tag : UInt8) (index : UInt16)
  | badConstant (index : UInt16) (expected : Expected)
  | invalidText (index : UInt16)
  deriving DecidableEq, Repr

def Expected.phrase : Expected → String
  | .typeName => "a class"
  | .text => "a UTF-8 string"

def HeaderFault.message : HeaderFault → String
  | .badMagic magic => "bad magic number 0x" ++ String.ofList (Hex.upper 8 magic.toNat)
  | .truncated offset => s!"unexpected end of data at offset {offset}"
  | .unknownTag tag index => s!"unknown constant pool tag {tag.toNat} at index {index.toNat}"
  | .badConstant index expected =>
    s!"constant pool index {index.toNat} does not refer to {expected.phrase}"
  | .invalidText index => s!"invalid modified UTF-8 in constant {index.toNat}"

/-- The bytes not yet read, and how many were read before them. -/
structure Cursor where
  offset : Nat
  rest : List UInt8

abbrev Reader (α : Type) := StateT Cursor (Except HeaderFault) α

/-- A list cut after its first `n` items, if it has so many. -/
def cut? : Nat → List α → Option (List α × List α)
  | 0, rest => some ([], rest)
  | _ + 1, [] => none
  | n + 1, a :: rest => (cut? n rest).map fun (front, rest) => (a :: front, rest)

namespace Reader

def bytes (n : Nat) : Reader (List UInt8) := fun c =>
  match cut? n c.rest with
  | some (front, rest) => .ok (front, ⟨c.offset + n, rest⟩)
  | none => .error (.truncated c.offset)

def skip (n : Nat) : Reader Unit := do let _ ← bytes n

/-- The number that bytes denote, most significant first. -/
def bigEndian (bs : List UInt8) : Nat := bs.foldl (fun n b => n * 256 + b.toNat) 0

def u8 : Reader UInt8 := do return UInt8.ofNat (bigEndian (← bytes 1))
def u16 : Reader UInt16 := do return UInt16.ofNat (bigEndian (← bytes 2))
def u32 : Reader UInt32 := do return UInt32.ofNat (bigEndian (← bytes 4))

def run (r : Reader α) (data : List UInt8) : Except HeaderFault α :=
  (r ⟨0, data⟩).map (·.1)

end Reader
end PluginLoader
