import PluginLoader.Text.Unprintable
import PluginLoader.TypeHandle

/-!
Text in double quotes with every character visible, and the one line description of a handle that
uses it.
-/
namespace PluginLoader

namespace Quoted

/-- Hexadecimal digits without leading zeros. -/
def hex (n : Nat) : List Char := Nat.toDigits 16 n

def escape (c : Char) : List Char :=
  if c = '\x00' then ['\\', '0']
  else if c = '\t' then ['\\', 't']
  else if c = '\r' then ['\\', 'r']
  else if c = '\n' then ['\\', 'n']
  else if c = '\\' || c = '"' then ['\\', c]
  else if Unprintable.contains c then '\\' :: 'u' :: '\x7b' :: hex c.toNat ++ ['\x7d']
  else [c]

def quote (s : String) : String := String.ofList ('"' :: s.toList.flatMap escape ++ ['"'])

end Quoted

/-- A handle with its declared supertype, and whether it is valid. -/
def TypeHandle.inspect (handle : TypeHandle) (valid : Bool) : String :=
  let superName := match handle.superName with
    | none => "None"
    | some name => "Some(" ++ Quoted.quote name ++ ")"
  "ResolvedType \x7b name: " ++ Quoted.quote handle.name ++ ", super_name: " ++ superName ++
    ", valid: " ++ (if valid then "true" else "false") ++ " \x7d"

end PluginLoader
