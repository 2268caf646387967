/-! Access flags of a compiled type. All sixteen bits are kept; nine of them have names. -/
namespace PluginLoader

structure AccessFlags where
  bits : UInt16
  deriving DecidableEq, Repr, Inhabited

namespace AccessFlags

def «public» : AccessFlags := ⟨0x0001⟩
def «final» : AccessFlags := ⟨0x0010⟩
def super : AccessFlags := ⟨0x0020⟩
def interface : AccessFlags := ⟨0x0200⟩
def «abstract» : AccessFlags := ⟨0x0400⟩
def synthetic : AccessFlags := ⟨0x1000⟩
def annotation : AccessFlags := ⟨0x2000⟩
def enum : AccessFlags := ⟨0x4000⟩
def module : AccessFlags := ⟨0x8000⟩

def union (a b : AccessFlags) : AccessFlags := ⟨a.bits ||| b.bits⟩
def contains (a b : AccessFlags) : Bool := a.bits &&& b.bits == b.bits

/-- The named flags in the order of their bits. -/
def named : List (String × AccessFlags) :=
  [("PUBLIC", «public»), ("FINAL", «final»), ("SUPER", super), ("INTERFACE", interface),
   ("ABSTRACT", «abstract»), ("SYNTHETIC", synthetic), ("ANNOTATION", annotation),
   ("ENUM", enum), ("MODULE", module)]

def names (a : AccessFlags) : List String := (named.filter (a.contains ·.2)).map (·.1)

end AccessFlags
end PluginLoader
