import PluginLoader.ClassHeader.ConstantPool
import PluginLoader.ClassHeader.Flags

/-!
The header of a compiled type: its name, what it extends and implements, and its access flags.
Reading stops after the interface table, so whatever follows has no influence.
-/
namespace PluginLoader

structure ClassHeader where
  minor : UInt16
  major : UInt16
  access : AccessFlags
  name : String
  superName : Option String
  interfaces : List String
  deriving DecidableEq, Repr

namespace ClassHeader

def magic : UInt32 := 0xCAFEBABE

/-- A type named by number. -/
def readName (pool : ConstantPool) : Reader String := do
  let index ← Reader.u16
  liftM (ConstantPool.typeName pool index)

/-- Number zero stands for no supertype. -/
def readSuper (pool : ConstantPool) : Reader (Option String) := do
  let index ← Reader.u16
  if index = 0 then return none else some <$> liftM (ConstantPool.typeName pool index)

def readNames (pool : ConstantPool) : Nat → Reader (List String)
  | 0 => return []
  | n + 1 => do
    let name ← readName pool
    let names ← readNames pool n
    return name :: names

def read : Reader ClassHeader := do
  let found ← Reader.u32
  if found ≠ magic then throw (.badMagic found)
  let minor ← Reader.u16
  let major ← Reader.u16
  let pool ← ConstantPool.read
  let access ← Reader.u16
  let name ← readName pool
  let superName ← readSuper pool
  let count ← Reader.u16
  let interfaces ← readNames pool count.toNat
  return { minor, major, access := ⟨access⟩, name, superName, interfaces }

/-- The header at the front of a compiled type. -/
def parse (data : List UInt8) : Except HeaderFault ClassHeader := Reader.run read data

end ClassHeader
end PluginLoader
