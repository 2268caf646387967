/-!
Names of types. A type is called `a.b.C` in queries, `a/b/C` inside a compiled header and
`a/b/C.class` as an archive entry. Both readings of `/` as `.` lose a distinction: a dot of an
internal name and a slash become the same character.
-/
namespace PluginLoader.TypeName

/-- Ending of the entries that hold a compiled type. -/
def entrySuffix : List Char := ['.', 'c', 'l', 'a', 's', 's']

def dotted (c : Char) : Char := if c = '/' then '.' else c
def slashed (c : Char) : Char := if c = '.' then '/' else c

/-- The qualified form of an internal name. -/
def ofInternal (internal : String) : String :=
  String.ofList (internal.toList.map dotted)

/-- The entry that defines a qualified name. -/
def entryPath (name : String) : String :=
  String.ofList (name.toList.map slashed ++ entrySuffix)

/-- The part of an entry path in front of the type suffix. -/
def stem? (path : List Char) : Option (List Char) :=
  if entrySuffix <:+ path then some (path.take (path.length - entrySuffix.length)) else none

/-- The type an entry defines; none for other entries and for the bare suffix. -/
def ofEntryPath? (path : String) : Option String :=
  match stem? path.toList with
  | none | some [] => none
  | some stem => some (String.ofList (stem.map dotted))

/-- What an archive may be asked for: no type has an empty name or a slash in its name. -/
def searchable (name : String) : Bool := !name.toList.isEmpty && !name.toList.contains '/'

end PluginLoader.TypeName
