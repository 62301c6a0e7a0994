import FlowGraph.Json.Record

/-!
The wording of what is wrong with data. A description may end with the place of the fault, as in
` at line 3 column 7`. The place is kept as two numbers and written anew behind the rest, so leading zeros
vanish from it. Lines count from one: a place on line zero is no place, and is left out.
-/

namespace FlowGraph.Json

def splitLast (mark : List Char) : List Char → Option (List Char × List Char)
  | [] => none
  | c :: rest =>
    match splitLast mark rest with
    | some (before, behind) => some (c :: before, behind)
    | none =>
      if mark.isPrefixOf (c :: rest) then some ([], (c :: rest).drop mark.length) else none

def placeNumber? (digits : List Char) : Option Nat :=
  let number := digits.foldl (fun sum digit => sum * 10 + (digit.toNat - '0'.toNat)) 0
  if digits.isEmpty || wordLimit ≤ number then none else some number

structure Problem where
  description : String
  line : Nat
  column : Nat
  deriving DecidableEq

namespace Problem

def lineMark : List Char := " at line ".toList
def columnMark : List Char := " column ".toList

def placed? (text : String) : Option Problem := do
  let (description, place) ← splitLast lineMark text.toList
  let behind := place.dropWhile Char.isDigit
  let column := behind.drop columnMark.length
  if columnMark.isPrefixOf behind && column.all Char.isDigit then
    pure ⟨String.ofList description, ← placeNumber? (place.takeWhile Char.isDigit),
      ← placeNumber? column⟩
  else none

def ofText (text : String) : Problem := (placed? text).getD ⟨text, 0, 0⟩

def text (problem : Problem) : String :=
  if problem.line = 0 then problem.description
  else
    problem.description ++ " at line " ++ toString problem.line ++ " column " ++
      toString problem.column

end Problem

end FlowGraph.Json
