import LexicalPath.Text.Blank

namespace LexicalPath.Emoji

/-- The emoji by their names. Capital letters in a name do not matter. -/
abbrev Table :=
  List Char → Option (List Char)

/-- The text up to a colon, if no blank comes first. -/
def upToColon? : List Char → Option (List Char)
  | [] => none
  | c :: rest =>
      if c = ':' then some []
      else if Text.isBlank c then none
      else (upToColon? rest).map (c :: ·)

/-- The name in a code, and the character that is put behind the emoji for its variant. -/
def nameAndVariant (code : List Char) : List Char × List Char :=
  if "-emoji".toList.isSuffixOf code then (code.take (code.length - 6), ['\uFE0F'])
  else if "-text".toList.isSuffixOf code then (code.take (code.length - 5), ['\uFE0E'])
  else (code, [])

def Table.shown? (table : Table) (code : List Char) : Option (List Char) :=
  (table (nameAndVariant code).1).map (· ++ (nameAndVariant code).2)

/-- A text with emoji for their codes. The first `skip` characters belong to a code. What stands
between colons and is no code is left as it is, and its second colon begins no other code. -/
def Table.replace (table : Table) : Nat → List Char → List Char
  | _, [] => []
  | skip + 1, _ :: rest => table.replace skip rest
  | 0, c :: rest =>
      match if c = ':' then upToColon? rest else none with
      | some code =>
          (table.shown? code).getD (':' :: code ++ [':']) ++ table.replace (code.length + 1) rest
      | none => c :: table.replace 0 rest

end LexicalPath.Emoji
