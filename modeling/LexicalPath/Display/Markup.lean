import LexicalPath.Display.Emoji
import LexicalPath.Display.Literal
import LexicalPath.Display.Style
import LexicalPath.Display.Styled

/-!
Markup: tags in square brackets give a style to what stands between them. A backslash in front of a
tag makes it text. A tag whose name begins with an at sign is an action, with a literal in brackets
for its parameters.
-/

namespace LexicalPath.Markup

open Display (Span Style StyleFault Styled)

/-- Whether a bracket in front of a character may be the start of a tag. -/
def startsTag (c : Char) : Bool :=
  ('a' ≤ c && c ≤ 'z') || c = '#' || c = '/' || c = '@'

/-- The text up to a closing bracket, if no opening bracket comes first. -/
def upToBracket? : List Char → Option (List Char)
  | [] => none
  | c :: rest =>
      if c = ']' then some []
      else if c = '[' then none
      else (upToBracket? rest).map (c :: ·)

/-- The text of a tag, given the text behind its opening bracket. -/
def tag? (s : List Char) : Option (List Char) :=
  match s with
  | [] => none
  | c :: rest => if startsTag c then (upToBracket? rest).map (c :: ·) else none

def backslashes (n : Nat) : List Char :=
  List.replicate n '\\'

/-- A text whose tags are escaped, behind `held` backslashes. Backslashes in front of a tag are
doubled. -/
def escapeTags (held : Nat) : List Char → List Char
  | [] => backslashes held
  | c :: rest =>
      if c = '\\' then escapeTags (held + 1) rest
      else if c = '[' ∧ (tag? rest).isSome then
        backslashes (2 * held + 1) ++ c :: escapeTags 0 rest
      else backslashes held ++ c :: escapeTags 0 rest

def endsWithOneBackslash (s : List Char) : Bool :=
  match s.reverse with
  | '\\' :: '\\' :: _ => false
  | '\\' :: _ => true
  | _ => false

def escape (s : List Char) : List Char :=
  let t := escapeTags 0 s
  if endsWithOneBackslash t then t ++ ['\\'] else t

/-- A piece of markup: a character, a tag, or a cut, over which no emoji code reaches. -/
inductive Piece where
  | char (c : Char)
  | tag (text : List Char)
  | cut
  deriving DecidableEq

/-- Where a character of markup stands: outside of tags, in a tag, or in a tag that is text. -/
inductive Place where
  | outside
  | tag
  | escaped
  deriving DecidableEq

/-- The pieces of a text, behind `held` backslashes. Of the backslashes in front of a tag every two
stand for one, and one that is left makes the tag text, with a cut on either side. One backslash in
front of any other opening bracket is lost. -/
def pieces (held : Nat) (place : Place) : List Char → List Piece
  | [] => (backslashes held).map .char
  | c :: rest =>
      match place with
      | .tag => pieces 0 (if c = ']' then .outside else .tag) rest
      | .escaped =>
          .char c :: (if c = ']' then .cut :: pieces 0 .outside rest else pieces 0 .escaped rest)
      | .outside =>
          if c = '\\' then pieces (held + 1) .outside rest
          else if c = '[' then
            match tag? rest with
            | some text =>
                .cut :: (backslashes (held / 2)).map .char
                  ++ (if held % 2 = 0 then .tag text :: pieces 0 .tag rest
                    else .cut :: .char c :: pieces 0 .escaped rest)
            | none => (backslashes (held - 1)).map .char ++ .char c :: pieces 0 .outside rest
          else (backslashes held).map .char ++ .char c :: pieces 0 .outside rest

/-- Pieces with emoji for their codes, behind the characters of `chunk`, the last one first. -/
def replaceEmoji (emoji : Emoji.Table) (chunk : List Char) : List Piece → List Piece
  | [] => chars chunk
  | .char c :: rest => replaceEmoji emoji (c :: chunk) rest
  | .tag text :: rest => chars chunk ++ .tag text :: replaceEmoji emoji [] rest
  | .cut :: rest => chars chunk ++ replaceEmoji emoji [] rest
where
  chars (chunk : List Char) : List Piece :=
    (emoji.replace 0 chunk.reverse).map .char

inductive Fault where
  /-- A closing tag for a style that is not open, or for any style where none is open. -/
  | unmatched (tag : List Char)
  /-- An action whose parameters are no literal. -/
  | badParameters (parameters : List Char)
  | style (e : StyleFault)
  deriving DecidableEq

/-- A tag that is open: where it stands, the normal form of its style, and its parameters. -/
structure OpenTag where
  first : Nat
  style : String
  parameters : Option (List Char)

/-- The text in brackets at the end of an action, or the empty brackets if there is only a name;
nothing if the parameters are no call. -/
def callParameters? (s : List Char) : Option (List Char) :=
  let isName (c : Char) : Bool := Display.Literal.isNameChar c || c = '.'
  match s.dropWhile isName with
  | [] => some "()".toList
  | c :: rest =>
      if c = '(' ∧ rest.getLast? = some ')' ∧ !rest.contains '\n' then some (c :: rest) else none

def readsParameters (parameters : Option (List Char)) : Bool :=
  match parameters with
  | none | some [] => true
  | some s =>
      let s := Text.trim Text.isBlank s
      Display.isLiteral ((callParameters? s).getD s)

def OpenTag.definition (t : OpenTag) : List Char :=
  t.style.toList ++ t.parameters.elim [] (' ' :: ·)

def OpenTag.close (t : OpenTag) (last : Nat) : Except Fault Span :=
  let span : Span := ⟨t.first, last⟩
  if t.style.toList.head? = some '@' then
    if readsParameters t.parameters then .ok span
    else .error (.badParameters (t.parameters.getD []))
  else
    match Style.ofText t.definition with
    | .error .notNumber => .error (.style .notNumber)
    | _ => .ok span

/-- What is shown so far, the last character first, with the tags that are open, the innermost
first. -/
structure Rendering where
  shown : List Char := []
  size : Nat := 0
  spans : List Span := []
  opened : List OpenTag := []

/-- Closes the innermost tag with a style, or the innermost one. -/
def Rendering.closeTag (r : Rendering) (tag : List Char) (style : Option String) :
    Except Fault Rendering :=
  match r.opened.find? fun t => style.all (· = t.style) with
  | none => .error (.unmatched tag)
  | some t =>
      (t.close r.size).map fun span =>
        { r with
          spans := span :: r.spans
          opened := r.opened.eraseP fun t => style.all (· = t.style) }

def Rendering.addTag (r : Rendering) (tag : List Char) : Except Fault Rendering :=
  let name := tag.takeWhile (· != '=')
  let normalForm (s : List Char) : Except Fault String := (Style.normalForm s).mapError .style
  match name with
  | '/' :: name =>
      if name.all Text.isBlank then r.closeTag tag none
      else
        match normalForm (Text.trim Text.isBlank name) with
        | .error e => .error e
        | .ok style => r.closeTag tag (some style)
  | _ =>
      (normalForm name).map fun style =>
        let parameters := if tag.contains '=' then some (tag.drop (name.length + 1)) else none
        { r with opened := ⟨r.size, style, parameters⟩ :: r.opened }

/-- Whether a character would move the cursor: a bell, a backspace, a vertical tab, a form feed or a
carriage return. They are not shown. -/
def movesCursor (c : Char) : Bool :=
  c = '\x07' || c = '\x08' || c = '\x0b' || c = '\x0c' || c = '\r'

def Rendering.addPieces (r : Rendering) : List Piece → Except Fault Rendering
  | [] => .ok r
  | .char c :: rest =>
      if movesCursor c then r.addPieces rest
      else { r with shown := c :: r.shown, size := r.size + 1 : Rendering }.addPieces rest
  | .tag tag :: rest =>
      match r.addTag tag with
      | .error e => .error e
      | .ok r => r.addPieces rest
  | .cut :: rest => r.addPieces rest

/-- The span of a tag that is never closed. An action is a style of no effect then. -/
def OpenTag.leaveOpen (t : OpenTag) (last : Nat) : Except Fault Span :=
  match Style.ofText t.definition with
  | .error .notNumber => .error (.style .notNumber)
  | _ => .ok ⟨t.first, last⟩

def render (emoji : Emoji.Table) (s : List Char) : Except Fault Styled := do
  let r ← Rendering.addPieces {} (replaceEmoji emoji [] (pieces 0 .outside s))
  let left ← r.opened.mapM (·.leaveOpen r.size)
  return { chars := r.shown.reverse, spans := left ++ r.spans }

end LexicalPath.Markup
