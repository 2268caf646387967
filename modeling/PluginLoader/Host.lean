import PluginLoader.LoadError
import PluginLoader.TypeHandle

/-!
The types a host brings. They are visible to every context above the host and win over types of
archives. Defining a name again gives it a new handle; the old one describes what it always did.
-/
namespace PluginLoader

/-- A definition and its number. -/
structure HostEntry where
  serial : Nat
  descriptor : TypeDescriptor
  deriving DecidableEq, Repr

/-- The table of a host, latest definition first and each name once. -/
structure HostTypes where
  table : List (String × HostEntry)
  /-- How many definitions there have been. -/
  issued : Nat

namespace HostTypes

def empty : HostTypes := ⟨[], 0⟩

def define (host : HostTypes) (name : String) (superName : Option String) (access : AccessFlags) :
    HostTypes :=
  let descriptor : TypeDescriptor := { name, superName, interfaces := [], access, origin := .host }
  { table := (name, ⟨host.issued, descriptor⟩) :: host.table.filter (·.1 ≠ name)
    issued := host.issued + 1 }

def plainClass : AccessFlags := .union .public .super
def abstractClass : AccessFlags := .union plainClass .abstract
def finalClass : AccessFlags := .union plainClass .final
def interfaceType : AccessFlags := .union (.union .public .interface) .abstract

/-- A public class. -/
def withType (host : HostTypes) (name : String) (superName : Option String) : HostTypes :=
  host.define name superName plainClass

def rootType : String := "java.lang.Object"

/-- The standard types, each with its direct supertype. -/
def standardTypes : List (String × Option String × AccessFlags) :=
  [(rootType, none, plainClass),
   ("java.lang.String", some rootType, finalClass),
   ("java.lang.Number", some rootType, abstractClass),
   ("java.lang.Integer", some "java.lang.Number", finalClass),
   ("java.lang.Long", some "java.lang.Number", finalClass),
   ("java.lang.Double", some "java.lang.Number", finalClass),
   ("java.lang.Boolean", some rootType, finalClass),
   ("java.lang.Enum", some rootType, abstractClass),
   ("java.lang.Record", some rootType, abstractClass),
   ("java.lang.Thread", some rootType, plainClass),
   ("java.lang.Throwable", some rootType, plainClass),
   ("java.lang.Exception", some "java.lang.Throwable", plainClass),
   ("java.lang.RuntimeException", some "java.lang.Exception", plainClass),
   ("java.lang.Error", some "java.lang.Throwable", plainClass),
   ("java.lang.Runnable", some rootType, interfaceType),
   ("java.lang.AutoCloseable", some rootType, interfaceType),
   ("java.io.Closeable", some rootType, interfaceType),
   ("java.io.Serializable", some rootType, interfaceType),
   ("java.io.IOException", some "java.lang.Exception", plainClass),
   ("java.util.AbstractCollection", some rootType, abstractClass),
   ("java.util.AbstractList", some "java.util.AbstractCollection", abstractClass),
   ("java.util.AbstractMap", some rootType, abstractClass)]

def standard : HostTypes :=
  standardTypes.foldl
    (fun host (name, superName, access) => host.define name superName access) empty

def find? (host : HostTypes) (name : String) : Option HostEntry := host.table.lookup name

def contains (host : HostTypes) (name : String) : Bool := (host.find? name).isSome
def size (host : HostTypes) : Nat := host.table.length
def isEmpty (host : HostTypes) : Bool := host.table.isEmpty

/-- The handle of a host type, the host being the scope `id`. -/
def resolve (host : HostTypes) (id : ScopeId) (name : String) : Except LoadError TypeHandle :=
  match host.find? name with
  | some entry => .ok ⟨id, entry.serial, entry.descriptor⟩
  | none => .error (.typeNotFound name)

end HostTypes
end PluginLoader
