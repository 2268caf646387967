/-!
Path text. Pieces lie between slashes; an empty piece and `.` lead nowhere. The file name of a path
is its last piece that leads somewhere, unless that piece is `..`.
-/
namespace PluginLoader.Path

/-- The text in front of the first slash and the texts between and behind slashes. -/
def split : List Char → List Char × List (List Char)
  | [] => ([], [])
  | c :: rest =>
    let (piece, pieces) := split rest
    if c = '/' then ([], piece :: pieces) else (c :: piece, pieces)

def pieces (path : String) : List (List Char) := (split path.toList).1 :: (split path.toList).2

/-- A piece that is neither empty nor `.`. -/
def leads (piece : List Char) : Bool := piece != [] && piece != ['.']

def parent : List Char := ['.', '.']

def fileName? (path : String) : Option String :=
  match ((pieces path).filter leads).getLast? with
  | some piece => if piece = parent then none else some (String.ofList piece)
  | none => none

def isAbsolute (path : String) : Bool := path.toList.head? == some '/'

/-- A name inside a directory. -/
def join (directory name : String) : String :=
  if directory.toList.getLast? == some '/' || directory.isEmpty then directory ++ name
  else directory ++ "/" ++ name

/-- The path without its last leading piece; none for the root and for the empty path. -/
def directory? (path : String) : Option String :=
  match ((pieces path).filter leads).dropLast, (pieces path).any leads with
  | front, true =>
    let text := String.intercalate "/" (front.map String.ofList)
    some (if isAbsolute path then "/" ++ text else text)
  | _, false => none

end PluginLoader.Path
