import LexicalPath.Text.Split
import LexicalPath.Text.Width

namespace LexicalPath.Display

/-- A stretch of a text, from one position up to, but not including, another. -/
structure Span where
  first : Nat
  last : Nat
  deriving DecidableEq

structure Styled where
  chars : List Char
  spans : List Span := []
  deriving DecidableEq

namespace Styled

def plain (s : List Char) : Styled :=
  { chars := s }

/-- The part between two positions, with what is in it of each span. -/
def part (t : Styled) (first last : Nat) : Styled :=
  { chars := (t.chars.take last).drop first
    spans := t.spans.filterMap fun span =>
      let start := span.first - first
      let stop := min span.last last - first
      if start < stop then some ⟨start, stop⟩ else none }

/-- Spans as far as they lie within the first `size` characters. -/
def clipSpans (size : Nat) (spans : List Span) : List Span :=
  (spans.filter (·.first < size)).map fun span => { span with last := min span.last size }

def take (t : Styled) (size : Nat) : Styled :=
  { chars := t.chars.take size, spans := clipSpans size t.spans }

/-- The parts between positions in order, from one position on. -/
def partsFrom (t : Styled) (first : Nat) : List Nat → List Styled
  | [] => [t.part first t.chars.length]
  | last :: rest => t.part first last :: partsFrom t last rest

/-- A text divided at positions, which are in order. -/
def divide (t : Styled) (positions : List Nat) : List Styled :=
  if positions.isEmpty then [t] else t.partsFrom 0 positions

def append (s t : Styled) : Styled :=
  let size := s.chars.length
  { chars := s.chars ++ t.chars
    spans := s.spans ++ t.spans.map fun span => ⟨span.first + size, span.last + size⟩ }

def join (parts : List Styled) : Styled :=
  parts.foldl append ⟨[], []⟩

/-- The positions of the characters that satisfy `p`, counted from a number on. -/
def positionsFrom (p : Char → Bool) (i : Nat) : List Char → List Nat
  | [] => []
  | c :: rest => if p c then i :: positionsFrom p (i + 1) rest else positionsFrom p (i + 1) rest

def lines (t : Styled) : List Styled :=
  let breaks := positionsFrom (· = '\n') 0 t.chars
  (t.divide (breaks.flatMap fun i => [i, i + 1])).filter (·.chars ≠ ['\n'])

/-- The characters in stretches that begin at cuts. -/
def segmentsFrom (cuts : List Nat) (i : Nat) (segment : List Char) :
    List Char → List (List Char)
  | [] => if segment.isEmpty then [] else [segment.reverse]
  | c :: rest =>
      if cuts.contains i && !segment.isEmpty then
        segment.reverse :: segmentsFrom cuts (i + 1) [c] rest
      else segmentsFrom cuts (i + 1) (c :: segment) rest

def segments (t : Styled) : List (List Char) :=
  segmentsFrom (t.spans.flatMap fun span => [span.first, span.last]) 0 [] t.chars

end Styled

end LexicalPath.Display
