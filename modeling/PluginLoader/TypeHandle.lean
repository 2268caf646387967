import PluginLoader.ClassHeader.Flags

/-!
Types as they are handed out. A handle names the scope that defined the type and the number of the
definition there; two handles are the same type exactly if both agree. What a handle describes never
changes.
-/
namespace PluginLoader

/-- The number of a host or a loading context among all scopes. -/
abbrev ScopeId := Nat

inductive Origin where
  | host
  | archive (location entry : String)
  deriving DecidableEq, Repr

structure TypeDescriptor where
  name : String
  superName : Option String
  interfaces : List String
  access : AccessFlags
  origin : Origin
  deriving DecidableEq, Repr

structure TypeHandle where
  owner : ScopeId
  serial : Nat
  descriptor : TypeDescriptor
  deriving DecidableEq, Repr

namespace TypeHandle

def name (h : TypeHandle) : String := h.descriptor.name
def superName (h : TypeHandle) : Option String := h.descriptor.superName
def isInterface (h : TypeHandle) : Bool := h.descriptor.access.contains .interface
def isAbstract (h : TypeHandle) : Bool := h.descriptor.access.contains .abstract

/-- The archive a type was read from. -/
def archive? (h : TypeHandle) : Option String :=
  match h.descriptor.origin with
  | .host => none
  | .archive location _ => some location

/-- Identity: the same definition of the same scope. -/
def same (a b : TypeHandle) : Bool := a.owner == b.owner && a.serial == b.serial

end TypeHandle
end PluginLoader
