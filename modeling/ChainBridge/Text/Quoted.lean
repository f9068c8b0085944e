/-
Quoted text for messages: a character or a text between quotes, with escapes for the quote itself, the backslash, the
usual controls and everything that is not printable.

A character stands between single quotes and a text between double quotes; each leaves the other's quote alone.
-/
import ChainBridge.Text.Hex
import ChainBridge.Text.Unprintable

namespace ChainBridge.Text.Quoted

/-- a code point in braces, in hexadecimal -/
def codePoint (c : Char) : List Char := ['\\', 'u', '\x7b'] ++ Hex.digits c.toNat ++ ['\x7d']

/-- how a character is written between quotes of the given kind -/
def escape (quote c : Char) : List Char :=
  if c = '\x00' then ['\\', '0']
  else if c = '\t' then ['\\', 't']
  else if c = '\r' then ['\\', 'r']
  else if c = '\n' then ['\\', 'n']
  else if c = '\\' || c = quote then ['\\', c]
  else if Unprintable.holds c then codePoint c
  else [c]

def char (c : Char) : String := String.ofList (['\''] ++ escape '\'' c ++ ['\''])

def text (s : String) : String := String.ofList (['"'] ++ s.toList.flatMap (escape '"') ++ ['"'])

end ChainBridge.Text.Quoted
