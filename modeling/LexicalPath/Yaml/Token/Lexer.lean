import LexicalPath.Yaml.Scalar.Plain
import LexicalPath.Yaml.Token.Name

/-!
Cutting a text into tokens. Whether a node is a key shows only at the colon behind it, on the same
line and at most 1024 characters later; the key token is then put in front of the node. Tokens from
a place on that may still turn out to be a key are held back, so that a fault behind them comes
before them.
-/

namespace LexicalPath.Yaml

structure Position where
  index : Nat := 0
  line : Nat := 0
  column : Nat := 0
  deriving DecidableEq

/-- The place behind a character. A byte order mark takes no column. -/
def Position.after (p : Position) (c : Char) : Position :=
  if isBreak c then ⟨p.index + 1, p.line + 1, 0⟩
  else if c = '\ufeff' then ⟨p.index + 1, p.line, p.column⟩
  else ⟨p.index + 1, p.line, p.column + 1⟩

/-- A node that may turn out to be a key. -/
structure PossibleKey where
  /-- The number of tokens in front of it. -/
  number : Nat
  /-- Whether it must be one, since it stands where the mapping around it has its keys. -/
  required : Bool
  start : Position
  deriving DecidableEq

/-- Whether it is too late for a colon that makes the node a key. -/
def PossibleKey.isStale (k : PossibleKey) (p : Position) : Bool :=
  k.start.line ≠ p.line || 1024 < p.index - k.start.index

structure Lexer where
  rest : List Char
  position : Position := {}
  tokens : Array Token := #[]
  /-- The columns of the block collections around the place, the innermost first. -/
  blocks : List Nat := []
  /-- What may turn out to be a key in the innermost brackets around the place. -/
  possibleKey : Option PossibleKey := none
  /-- The same for the brackets around those, up to no brackets at all. -/
  outerKeys : List (Option PossibleKey) := []
  /-- Whether a key may start here. -/
  keyAllowed : Bool := true
  finished : Bool := false

namespace Lexer

def inFlow (s : Lexer) : Bool :=
  !s.outerKeys.isEmpty

/-- The smallest column at which the lines of a plain scalar may go on. -/
def margin (s : Lexer) : Nat :=
  match s.blocks with
  | [] => 0
  | column :: _ => column + 1

def pass (s : Lexer) (length : Nat) : Lexer :=
  { s with
    rest := s.rest.drop length
    position := (s.rest.take length).foldl Position.after s.position }

def moveTo (s : Lexer) (rest : List Char) : Lexer :=
  s.pass (s.rest.length - rest.length)

def emit (s : Lexer) (token : Token) : Lexer :=
  { s with tokens := s.tokens.push token }

/-- Adds a token in front of the last ones, behind the first `number`. -/
def insertBehind (s : Lexer) (number : Nat) (token : Token) : Lexer :=
  { s with tokens := s.tokens.insertIdxIfInBounds number token }

def take (s : Lexer) (length : Nat) (token : Token) : Lexer :=
  (s.pass length).emit token

/-- The number of tokens in front of everything that may still turn out to be a key. -/
def settled (s : Lexer) : Nat :=
  (s.possibleKey :: s.outerKeys).foldl
    (fun least key => key.elim least fun k => min least k.number) s.tokens.size

/-- Ends the search for a colon behind a node. If the node had to be a key, it is a fault. -/
def dropped (key : Option PossibleKey) : Except TokenError (Option PossibleKey) :=
  match key with
  | none => .ok none
  | some k => if k.required then .error .unfinishedKey else .ok none

/-- Ends the search for colons that would come too late. -/
def dropStale (s : Lexer) : Except TokenError Lexer := do
  let fresh (key : Option PossibleKey) : Except TokenError (Option PossibleKey) :=
    if key.any (·.isStale s.position) then dropped key else .ok key
  let possibleKey ← fresh s.possibleKey
  let outerKeys ← s.outerKeys.mapM fresh
  return { s with possibleKey, outerKeys }

/-- Ends the search for a colon in the innermost brackets. -/
def dropKey (s : Lexer) : Except TokenError Lexer :=
  (dropped s.possibleKey).map fun possibleKey => { s with possibleKey }

/-- Takes the next node for a possible key, if a key may start here. -/
def markKey (s : Lexer) : Except TokenError Lexer :=
  if s.keyAllowed then
    s.dropKey.map fun s =>
      { s with
        possibleKey := some
          { number := s.tokens.size
            required := !s.inFlow && s.blocks.head? = some s.position.column
            start := s.position } }
  else .ok s

/-- Closes the block collections to the right of a column, or all if there is none. Within brackets
columns do not count. -/
def closeBlocks (s : Lexer) (column : Option Nat) : Lexer :=
  let ends (block : Nat) : Bool := !s.inFlow && column.all (· < block)
  { s with
    blocks := s.blocks.dropWhile ends
    tokens := (s.blocks.takeWhile ends).foldl (fun tokens _ => tokens.push .blockEnd) s.tokens }

/-- Whether a block collection at a column is a new one. -/
def startsBlock (s : Lexer) (column : Nat) : Bool :=
  match s.blocks with
  | [] => true
  | block :: _ => block < column

/-- Starts a block collection at the current column, if it is a new one. There are none within
brackets. -/
def openBlock (s : Lexer) (token : Token) : Lexer :=
  if !s.inFlow && s.startsBlock s.position.column then
    { s.emit token with blocks := s.position.column :: s.blocks }
  else s

/-- The number of characters in spaces, comments and line breaks at the start of a text, and whether
there is a line break among them. -/
def blankLength (comment : Bool) : List Char → Nat × Bool
  | [] => (0, false)
  | c :: rest =>
      let behind (comment : Bool) : Nat × Bool :=
        let (length, crossed) := blankLength comment rest
        (length + 1, crossed)
      if isBreak c then ((behind false).1, true)
      else if comment || c = '#' then behind true
      else if c = ' ' then behind false
      else (0, false)

/-- Goes on to the next token. A byte order mark in front of the text is passed over. -/
def toNextToken (s : Lexer) : Lexer :=
  let s := if s.position.index = 0 ∧ s.rest.head? = some '\ufeff' then s.pass 1 else s
  let (length, crossed) := blankLength false s.rest
  let s := s.pass length
  if crossed && !s.inFlow then { s with keyAllowed := true } else s

def finish (s : Lexer) : Except TokenError Lexer :=
  (s.closeBlocks none).dropKey.map fun s =>
    { s.emit .streamEnd with finished := true, outerKeys := [], keyAllowed := false }

def fetchDirective (s : Lexer) : Except TokenError Lexer := do
  let s ← (s.closeBlocks none).dropKey
  let (directive, rest) ← readDirective (s.rest.drop 1)
  return { (s.moveTo rest).emit (.directive directive) with keyAllowed := false }

def fetchMark (s : Lexer) (token : Token) : Except TokenError Lexer :=
  (s.closeBlocks none).dropKey.map fun s => { s.take 3 token with keyAllowed := false }

/-- The brackets within each other that are followed. No document has so many, and at most 1024
characters are held back, so that the tokens of too deep a document are given out by then. -/
def deepestBrackets : Nat :=
  2048

def fetchFlowStart (s : Lexer) (token : Token) : Except TokenError Lexer :=
  if s.outerKeys.length < deepestBrackets then
    s.markKey.map fun s =>
      { s.take 1 token with
        possibleKey := none, outerKeys := s.possibleKey :: s.outerKeys, keyAllowed := true }
  else .error .tooDeep

def fetchFlowEnd (s : Lexer) (token : Token) : Except TokenError Lexer :=
  s.dropKey.map fun s =>
    { s.take 1 token with
      possibleKey := s.outerKeys.head?.bind id, outerKeys := s.outerKeys.tail, keyAllowed := false }

def fetchFlowEntry (s : Lexer) : Except TokenError Lexer :=
  s.dropKey.map fun s => { s.take 1 .flowEntry with keyAllowed := true }

def fetchBlockEntry (s : Lexer) : Except TokenError Lexer :=
  if !s.inFlow && !s.keyAllowed then .error .misplacedEntry
  else
    (s.openBlock .blockSequenceStart).dropKey.map fun s =>
      { s.take 1 .blockEntry with keyAllowed := true }

def fetchKey (s : Lexer) : Except TokenError Lexer :=
  if !s.inFlow && !s.keyAllowed then .error .misplacedKey
  else
    (s.openBlock .blockMappingStart).dropKey.map fun s =>
      { s.take 1 .key with keyAllowed := !s.inFlow }

/-- The colon in front of a value. It makes the node in front of it a key, if that may be one. -/
def fetchValue (s : Lexer) : Except TokenError Lexer :=
  match s.possibleKey with
  | some k =>
      let opens := !s.inFlow && s.startsBlock k.start.column
      let s := s.insertBehind k.number .key
      let s :=
        if opens then
          { s.insertBehind k.number .blockMappingStart with blocks := k.start.column :: s.blocks }
        else s
      .ok { s.take 1 .value with possibleKey := none, keyAllowed := false }
  | none =>
      if !s.inFlow && !s.keyAllowed then .error .misplacedValue
      else
        .ok { (s.openBlock .blockMappingStart).take 1 .value with keyAllowed := !s.inFlow }

def fetchName (s : Lexer) (read : List Char → Except TokenError (Token × List Char)) :
    Except TokenError Lexer := do
  let s ← s.markKey
  let (token, rest) ← read (s.rest.drop 1)
  return { (s.moveTo rest).emit token with keyAllowed := false }

/-- A block scalar. A key may follow it. -/
def fetchBlock (s : Lexer) (fold : Bool) : Except TokenError Lexer := do
  let s ← s.dropKey
  let (text, rest) ← readBlock fold (max 1 s.margin) (s.rest.drop 1)
  return { (s.moveTo rest).emit (.scalar (String.ofList text) false) with keyAllowed := true }

def fetchQuoted (s : Lexer) (read : List Char → ScalarRead) : Except TokenError Lexer := do
  let s ← s.markKey
  let (text, rest) ← read (s.rest.drop 1)
  return { (s.moveTo rest).emit (.scalar (String.ofList text) false) with keyAllowed := false }

/-- A plain scalar. A key may follow it on a new line. -/
def fetchPlain (s : Lexer) : Except TokenError Lexer :=
  s.markKey.map fun s =>
    let (text, rest, broken) := readPlain s.inFlow s.margin .none s.rest
    { (s.moveTo rest).emit (.scalar (String.ofList text) true) with keyAllowed := broken }

/-- The token that begins with `c` and goes on with `rest`. -/
def fetch (s : Lexer) (c : Char) (rest : List Char) : Except TokenError Lexer :=
  let atMark (mark : Char) : Bool :=
    c = mark && s.position.column = 0 && startsWithMark (c :: rest)
  if c = '%' && s.position.column = 0 then s.fetchDirective
  else if atMark '-' then s.fetchMark .documentStart
  else if atMark '.' then s.fetchMark .documentEnd
  else if c = '[' then s.fetchFlowStart .flowSequenceStart
  else if c = '\x7b' then s.fetchFlowStart .flowMappingStart
  else if c = ']' then s.fetchFlowEnd .flowSequenceEnd
  else if c = '\x7d' then s.fetchFlowEnd .flowMappingEnd
  else if c = ',' then s.fetchFlowEntry
  else if c = '-' && blankNext rest then s.fetchBlockEntry
  else if c = '?' && (s.inFlow || blankNext rest) then s.fetchKey
  else if c = ':' && (s.inFlow || blankNext rest) then s.fetchValue
  else if c = '*' then
    s.fetchName fun t => (readAnchor t).map fun (name, rest) => (.alias name, rest)
  else if c = '&' then
    s.fetchName fun t => (readAnchor t).map fun (name, rest) => (.anchor name, rest)
  else if c = '!' then s.fetchName readTag
  else if c = '|' && !s.inFlow then s.fetchBlock false
  else if c = '>' && !s.inFlow then s.fetchBlock true
  else if c = '\'' then s.fetchQuoted (readSingle .none)
  else if c = '"' then s.fetchQuoted (readDouble .none 0)
  else if startsPlain s.inFlow c rest then s.fetchPlain
  else .error (.badStart c)

def step (s : Lexer) : Except TokenError Lexer := do
  let s ← s.toNextToken.dropStale
  let s := s.closeBlocks (some s.position.column)
  let s ←
    match s.rest with
    | [] => s.finish
    | c :: rest => s.fetch c rest
  s.dropStale

end Lexer

/-- The tokens of a text up to its end or up to a fault. -/
structure Tokens where
  tokens : List Token
  fault : Option TokenError := none

namespace Lexer

/-- The tokens up to the end, if that comes within `fuel` steps. -/
def run : Nat → Lexer → Tokens
  | 0, s => ⟨s.tokens.toList, none⟩
  | fuel + 1, s =>
      match s.step with
      | .error e => ⟨s.tokens.toList.take s.settled, some e⟩
      | .ok next => if next.finished then ⟨next.tokens.toList, none⟩ else run fuel next

end Lexer

/-- The tokens of a text. Every step but the last passes over a character. -/
def Tokens.ofText (s : List Char) : Tokens :=
  Lexer.run (s.length + 1) { rest := s }

end LexicalPath.Yaml
