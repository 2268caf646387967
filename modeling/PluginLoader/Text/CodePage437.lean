/-! Code page 437: ASCII below 128, and 128 fixed characters above. -/
namespace PluginLoader.CodePage437

/-- The characters of the bytes from 128 on, sixteen to a line. -/
def upper : List Char :=
  ("ÇüéâäàåçêëèïîìÄÅ" ++
   "ÉæÆôöòûùÿÖÜ¢£¥₧ƒ" ++
   "áíóúñÑªº¿⌐¬½¼¡«»" ++
   "░▒▓│┤╡╢╖╕╣║╗╝╜╛┐" ++
   "└┴┬├─┼╞╟╚╔╩╦╠═╬╧" ++
   "╨╤╥╙╘╒╓╫╪┘┌█▄▌▐▀" ++
   "αßΓπΣσµτΦΘΩδ∞φε∩" ++
   "≡±≥≤⌠⌡÷≈°∙·√ⁿ²■ ").toList

def decodeByte (b : UInt8) : Char :=
  if b < 0x80 then Char.ofNat b.toNat else (upper[b.toNat - 128]?).getD '?'

def decode (bytes : List UInt8) : List Char := bytes.map decodeByte

end PluginLoader.CodePage437
