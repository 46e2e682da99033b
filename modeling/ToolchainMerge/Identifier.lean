/-!
# Identifiers

Features and actions have arbitrary names, variables do not.  `identifierStem` turns a name
into the letters, digits and underscores of a variable.  Different names may share a stem;
`NameTable` is where that is noticed.
-/

namespace ToolchainMerge

/-- A character of a name as it stands in an identifier: a plus becomes `p`, an ASCII letter
its lower case, an ASCII digit stays, and everything else becomes an underscore. -/
def identifierChar (char : Char) : Char :=
  if char = '+' then 'p' else if char.isAlphanum then char.toLower else '_'

/-- The stem of the identifier of a name.  An identifier does not start with a digit, so an
underscore is put in front of one. -/
def identifierStem (name : String) : String :=
  match name.toList with
  | [] => ""
  | first :: rest =>
      let chars := (first :: rest).map identifierChar
      String.ofList (if first.isDigit then '_' :: chars else chars)

end ToolchainMerge
