import FlowGraph.Text.Extender
import FlowGraph.Text.Unprintable

/-!
Texts between quotes, as they appear in descriptions and records meant for a reader. The quote in use,
the backslash and five controls are escaped by name; other code points without a visible form of their
own are written by number.
-/

namespace FlowGraph.Text

def numbered (c : Char) : List Char :=
  ['\\', 'u', '\x7b'] ++ Nat.toDigits 16 c.toNat ++ ['\x7d']

def quotedChar (quote c : Char) : List Char :=
  if c = '\x00' then ['\\', '0']
  else if c = '\t' then ['\\', 't']
  else if c = '\n' then ['\\', 'n']
  else if c = '\r' then ['\\', 'r']
  else if c = '\\' then ['\\', '\\']
  else if c = quote then ['\\', c]
  else if 0x20 ≤ c.toNat && c.toNat < 0x7F then [c]
  else if isExtender c || isUnprintable c then numbered c
  else [c]

def quotedWith (quote : Char) (text : List Char) : String :=
  String.ofList (quote :: text.flatMap (quotedChar quote) ++ [quote])

def quoted (text : String) : String := quotedWith '"' text.toList

def quotedLetter (c : Char) : String := quotedWith '\'' [c]

end FlowGraph.Text
