import PluginLoader.ClassHeader.Cursor
import PluginLoader.ClassHeader.ModifiedUtf8
import PluginLoader.TypeName

/-!
The constant pool of a compiled type, as far as naming needs it. Slots are numbered from 1; slot 0
and the second slot of a wide constant are unused, so an index that is not the number of a constant
never finds one.
-/
namespace PluginLoader

inductive Constant where
  | unused
  | text (value : String)
  | typeName (nameIndex : UInt16)
  | other
  deriving DecidableEq, Repr

abbrev ConstantPool := Array Constant

namespace ConstantPool

/-- A constant that naming has no use for: the size of its payload, and whether it takes two
slots. -/
def payload? (tag : UInt8) : Option (Nat × Bool) :=
  match tag.toNat with
  | 3 | 4 | 9 | 10 | 11 | 12 | 17 | 18 => some (4, false)
  | 5 | 6 => some (8, true)
  | 8 | 16 | 19 | 20 => some (2, false)
  | 15 => some (3, false)
  | _ => none

/-- The constant numbered `index`, and whether it takes two slots. -/
def readConstant (index : UInt16) : Reader (Constant × Bool) := do
  let tag ← Reader.u8
  if tag = 1 then
    let length ← Reader.u16
    let raw ← Reader.bytes length.toNat
    match ModifiedUtf8.decode? raw with
    | some text => return (.text (String.ofList text), false)
    | none => throw (.invalidText index)
  else if tag = 7 then
    let nameIndex ← Reader.u16
    return (.typeName nameIndex, false)
  else
    match payload? tag with
    | some (size, wide) =>
      Reader.skip size
      return (.other, wide)
    | none => throw (.unknownTag tag index)

/-- The number after a constant. Past a wide one it goes no further than the largest index. -/
def next (wide : Bool) (index : UInt16) : UInt16 :=
  if wide then (if index < 65534 then index + 2 else 65535) else index + 1

theorem lt_next {index count : UInt16} (h : index < count) (wide : Bool) :
    index.toNat < (next wide index).toNat := by
  have hc := UInt16.lt_iff_toNat_lt.mp h
  have hm := count.toNat_lt
  unfold next
  split
  · split
    · next hw =>
      have := UInt16.lt_iff_toNat_lt.mp hw
      simp only [UInt16.toNat_add, UInt16.reduceToNat] at *
      omega
    · simp only [UInt16.reduceToNat] at *
      omega
  · simp only [UInt16.toNat_add, UInt16.reduceToNat] at *
    omega

/-- The slots of a constant. -/
def slots (constant : Constant) (wide : Bool) : List Constant :=
  if wide then [constant, .unused] else [constant]

/-- The constants from number `index` on, up to the declared count. -/
def readFrom (count index : UInt16) (pool : ConstantPool) : Reader ConstantPool :=
  if _h : index < count then do
    let (constant, wide) ← readConstant index
    readFrom count (next wide index) (pool ++ slots constant wide)
  else return pool
termination_by count.toNat - index.toNat
decreasing_by
  have := lt_next ‹index < count› wide
  have := UInt16.lt_iff_toNat_lt.mp ‹index < count›
  omega

def read : Reader ConstantPool := do
  let count ← Reader.u16
  readFrom count 1 #[.unused]

/-- The qualified name behind the number of a type constant. -/
def typeName (pool : ConstantPool) (index : UInt16) : Except HeaderFault String :=
  match pool[index.toNat]? with
  | some (.typeName nameIndex) =>
    match pool[nameIndex.toNat]? with
    | some (.text name) => .ok (TypeName.ofInternal name)
    | _ => .error (.badConstant nameIndex .text)
  | _ => .error (.badConstant index .typeName)

end ConstantPool
end PluginLoader
