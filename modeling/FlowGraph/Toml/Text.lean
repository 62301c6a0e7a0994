import FlowGraph.Json.Reader

/-! The small parts of TOML texts: blanks, ends of lines, comments, strings and keys. -/

namespace FlowGraph.Toml

def isBlank (c : Char) : Bool := c = ' ' || c = '\t'

def skipBlanks (text : List Char) : List Char := text.dropWhile isBlank

def isPlain (c : Char) : Bool := c = '\t' || (0x20 ≤ c.toNat && c.toNat != 0x7F)

def lineBreak? : List Char → Option (List Char)
  | '\n' :: rest | '\r' :: '\n' :: rest => some rest
  | _ => none

def endLine (text : List Char) : Option (List Char) :=
  let text :=
    match skipBlanks text with
    | '#' :: rest => rest.dropWhile isPlain
    | text => text
  if text.isEmpty then some [] else lineBreak? text

def skipBlankLines : List Char → List Char
  | '\n' :: rest | '\r' :: '\n' :: rest => skipBlankLines rest
  | c :: rest => if isBlank c then skipBlankLines rest else c :: rest
  | [] => []

def skipGap (inComment : Bool) : List Char → List Char
  | '\n' :: rest | '\r' :: '\n' :: rest => skipGap false rest
  | '#' :: rest => skipGap true rest
  | c :: rest =>
    if isBlank c || (inComment && isPlain c) then skipGap inComment rest else c :: rest
  | [] => []

def readCode (width : Nat) (text : List Char) : Option (Char × List Char) := do
  let digits := text.take width
  let code ← Json.hexNumber digits
  if digits.length = width && (code < 0xD800 || (0xE000 ≤ code && code < 0x110000)) then
    some (.ofNat code, text.drop width)
  else none

def readEscape : List Char → Option (Char × List Char)
  | 'b' :: rest => some ('\x08', rest)
  | 't' :: rest => some ('\t', rest)
  | 'n' :: rest => some ('\n', rest)
  | 'f' :: rest => some ('\x0c', rest)
  | 'r' :: rest => some ('\r', rest)
  | '"' :: rest => some ('"', rest)
  | '\\' :: rest => some ('\\', rest)
  | 'u' :: rest => readCode 4 rest
  | 'U' :: rest => readCode 8 rest
  | _ => none

def hasEscapes (quote : Char) : Bool := quote = '"'

def readLetter (quote : Char) : List Char → Option (Char × List Char)
  | [] => none
  | c :: rest =>
    if hasEscapes quote && c = '\\' then readEscape rest
    else if isPlain c then some (c, rest)
    else none

def readLine (quote : Char) : (budget : Nat) → List Char → Option (List Char × List Char)
  | 0, _ => none
  | budget + 1, text =>
    if text.head? = some quote then some ([], text.tail)
    else do
      let (letter, text) ← readLetter quote text
      let (letters, text) ← readLine quote budget text
      some (letter :: letters, text)

/-- What a run of quotes adds to a string that it closes. The last three of them close it, and at most
two may come before those. -/
def closing? (quote : Char) (text : List Char) : Option (List Char × List Char) :=
  let count := (text.takeWhile (· = quote)).length
  if count < 3 then none
  else
    let inside := min (count - 3) 2
    some (List.replicate inside quote, text.drop (inside + 3))

/-- The text behind a backslash that ends its line, with all blank lines that follow. -/
def continued? (quote : Char) : List Char → Option (List Char)
  | '\\' :: rest =>
    if hasEscapes quote then (lineBreak? (skipBlanks rest)).map skipBlankLines else none
  | _ => none

def readBlock (quote : Char) : (budget : Nat) → List Char → Option (List Char × List Char)
  | 0, _ => none
  | budget + 1, text =>
    match closing? quote text, lineBreak? text, continued? quote text with
    | some closed, _, _ => some closed
    | none, some text, _ => do
      let (letters, text) ← readBlock quote budget text
      some ('\n' :: letters, text)
    | none, none, some text => readBlock quote budget text
    | none, none, none => do
      let (letter, text) ← readLetter quote text
      let (letters, text) ← readBlock quote budget text
      some (letter :: letters, text)

/-- A string behind its first quote. A line break right behind three quotes does not count. -/
def readString (quote : Char) (text : List Char) : Option (String × List Char) :=
  let letters :=
    if text.take 2 = [quote, quote] then
      let body := text.drop 2
      readBlock quote (text.length + 1) ((lineBreak? body).getD body)
    else readLine quote (text.length + 1) text
  letters.map fun (letters, text) => (String.ofList letters, text)

def isBare (c : Char) : Bool := c.isAlphanum || c = '_' || c = '-'

def readSimpleKey (text : List Char) : Option (String × List Char) :=
  let quoted (quote : Char) (rest : List Char) : Option (String × List Char) :=
    (readLine quote (rest.length + 1) rest).map fun (letters, text) => (String.ofList letters, text)
  match text with
  | '"' :: rest => quoted '"' rest
  | '\'' :: rest => quoted '\'' rest
  | _ =>
    let name := text.takeWhile isBare
    if name.isEmpty then none else some (String.ofList name, text.dropWhile isBare)

structure KeyPath where
  tables : List String
  name : String

def readKey : (most : Nat) → List Char → Option (KeyPath × List Char)
  | 0, _ => none
  | most + 1, text => do
    let (name, text) ← readSimpleKey (skipBlanks text)
    match skipBlanks text with
    | '.' :: rest =>
      let (path, rest) ← readKey most rest
      some (⟨name :: path.tables, path.name⟩, rest)
    | rest => some (⟨[], name⟩, rest)

def depthLimit : Nat := 80

end FlowGraph.Toml
