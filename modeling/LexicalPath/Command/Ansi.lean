namespace LexicalPath.Command

/-- The parts of a control sequence behind its opening bracket. -/
inductive SequencePart where
  | parameters
  | intermediates
  deriving DecidableEq

/-- Whether a character belongs to the parameters of a control sequence: digits and `:;<=>?`. -/
def isParameter (c : Char) : Bool :=
  '0' ≤ c && c ≤ '?'

/-- Whether a character may stand between parameters and final character: a space up to a slash. -/
def isIntermediate (c : Char) : Bool :=
  ' ' ≤ c && c ≤ '/'

/-- Whether a character ends a control sequence: an at sign up to a tilde. -/
def isFinal (c : Char) : Bool :=
  '@' ≤ c && c ≤ '~'

/-- The number of characters up to the end of a control sequence, if the text goes on so. -/
def sequenceLength? (part : SequencePart) : List Char → Option Nat
  | [] => none
  | c :: rest =>
      if isFinal c then some 1
      else if isIntermediate c then (sequenceLength? .intermediates rest).map (· + 1)
      else if isParameter c ∧ part = .parameters then
        (sequenceLength? .parameters rest).map (· + 1)
      else none

/-- The number of characters of the control sequence behind an escape character, if there is one. -/
def controlLength? (s : List Char) : Option Nat :=
  match s with
  | '[' :: rest => (sequenceLength? .parameters rest).map (· + 1)
  | _ => none

/-- A text without control sequences. The first `skip` characters belong to one. -/
def withoutSequences : Nat → List Char → List Char
  | _, [] => []
  | skip + 1, _ :: rest => withoutSequences skip rest
  | 0, c :: rest =>
      match if c = '\x1b' then controlLength? rest else none with
      | some n => withoutSequences n rest
      | none => c :: withoutSequences 0 rest

/-- A text as it is printed where there is no terminal. -/
def printed (s : String) : String :=
  String.ofList (withoutSequences 0 s.toList)

end LexicalPath.Command
