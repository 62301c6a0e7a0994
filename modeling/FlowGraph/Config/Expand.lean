/-!
References to variables of an environment within texts. A reference is a dollar sign and the name of the
variable in braces. The values of variables are not searched for references.
-/

namespace FlowGraph

abbrev Environment := String → Option String

namespace Environment

def resolve (environment : Environment) (name : List Char) : List Char :=
  match environment (String.ofList name) with
  | some value => value.toList
  | none => '$' :: '\x7b' :: name ++ ['\x7d']

/-- Expands a text from inside a reference, whose name so far is given in reverse, or from outside. The end
of the text closes a reference. -/
def expandFrom (environment : Environment) : (reference : Option (List Char)) → List Char → List Char
  | none, '$' :: '\x7b' :: rest => expandFrom environment (some []) rest
  | none, c :: rest => c :: expandFrom environment none rest
  | none, [] => []
  | some name, '\x7d' :: rest =>
    environment.resolve name.reverse ++ expandFrom environment none rest
  | some name, c :: rest => expandFrom environment (some (c :: name)) rest
  | some name, [] => environment.resolve name.reverse

def expand (environment : Environment) (text : String) : String :=
  String.ofList (expandFrom environment none text.toList)

end Environment

end FlowGraph
