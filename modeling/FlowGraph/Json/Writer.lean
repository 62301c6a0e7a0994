import FlowGraph.Json.Basic
import FlowGraph.Number.DecimalText

/-! JSON texts of values, without blanks between their parts. -/

namespace FlowGraph.Json

def hexLetter (n : Nat) : Char := if n < 10 then .ofNat ('0'.toNat + n) else .ofNat ('a'.toNat + n - 10)

def stringChar (c : Char) : List Char :=
  if c = '"' then ['\\', '"']
  else if c = '\\' then ['\\', '\\']
  else if c = '\x08' then ['\\', 'b']
  else if c = '\x0c' then ['\\', 'f']
  else if c = '\n' then ['\\', 'n']
  else if c = '\r' then ['\\', 'r']
  else if c = '\t' then ['\\', 't']
  else if c.toNat < 0x20 then
    ['\\', 'u', '0', '0', hexLetter (c.toNat / 16), hexLetter (c.toNat % 16)]
  else [c]

def stringText (text : String) : String :=
  String.ofList ('"' :: text.toList.flatMap stringChar ++ ['"'])

def floatText (x : Binary64) : String := DecimalStyle.data.text x

mutual

def text : Json → String
  | .null => "null"
  | .bool true => "true"
  | .bool false => "false"
  | .int value => toString value
  | .float value => if value.isFinite then floatText value else "null"
  | .string value => stringText value
  | .array items => "[" ++ itemsText items ++ "]"
  | .object fields => "\x7b" ++ fieldsText fields ++ "\x7d"

def itemsText : List Json → String
  | [] => ""
  | [item] => text item
  | item :: rest => text item ++ "," ++ itemsText rest

def fieldsText : List (String × Json) → String
  | [] => ""
  | [(name, value)] => stringText name ++ ":" ++ text value
  | (name, value) :: rest => stringText name ++ ":" ++ text value ++ "," ++ fieldsText rest

end

end FlowGraph.Json
