import LexicalPath.Proofs.Display.Markup
import LexicalPath.Proofs.Text.Runs
import LexicalPath.Proofs.Text.Width

namespace LexicalPath.Display

open Text (IsShown)

-- Sums start from the core library's zero, as in the definitions.
attribute [local instance (high)] Zero.ofOfNat0

def padded (width : Nat) (s : List Char) : List Char :=
  s ++ List.replicate (width - Text.width s) ' '

theorem width_padded {s : List Char} (hs : IsShown s) {width : Nat} (h : Text.width s ≤ width) :
    Text.width (padded width s) = width := by
  rw [padded, Text.width_append_spaces hs]
  omega

theorem padded_append_spaces {s : List Char} (hs : IsShown s) {n width : Nat}
    (h : Text.width (s ++ List.replicate n ' ') ≤ width) :
    padded width (s ++ List.replicate n ' ') = padded width s := by
  rw [Text.width_append_spaces hs] at h
  have hrest : n + (width - (Text.width s + n)) = width - Text.width s := by omega
  rw [padded, padded, Text.width_append_spaces hs, List.append_assoc,
    List.replicate_append_replicate, hrest]

/-! ### Lines -/

theorem positionsFrom_eq_nil {p : Char → Bool} {s : List Char} (h : ∀ c ∈ s, p c = false)
    (i : Nat) :
    Styled.positionsFrom p i s = [] := by
  induction s generalizing i with
  | nil => rfl
  | cons c rest ih =>
      rw [Styled.positionsFrom, if_neg (by simp [h c])]
      exact ih (fun d hd => h d (List.mem_cons_of_mem c hd)) (i + 1)

theorem lines_of_isShown {t : Styled} (ht : IsShown t.chars) : t.lines = [t] := by
  have hfree : '\n' ∉ t.chars := ht.not_mem (by decide)
  have hpositions : Styled.positionsFrom (· = '\n') 0 t.chars = [] := by
    apply positionsFrom_eq_nil
    intro c hc
    simpa using fun h : c = '\n' => hfree (h ▸ hc)
  have hkept : t.chars ≠ ['\n'] := by
    intro h
    exact hfree (h ▸ List.mem_singleton_self '\n')
  simp [Styled.lines, hpositions, Styled.divide, hkept]

theorem expandTabs_of_isShown {t : Styled} (ht : IsShown t.chars) : expandTabs t = t := by
  have hfree : '\t' ∉ t.chars := ht.not_mem (by decide)
  rw [expandTabs, if_neg (by simpa using hfree)]

/-- The columns that are taken in front of a word. The first word begins its line. -/
def columnsTaken (used position : Nat) : Nat :=
  if position = 0 then 0 else used

theorem breaksFrom_cons_of_fits {width used position : Nat} {word : List Char}
    (hword : IsShown word) (h : columnsTaken used position + Text.width word ≤ width)
    (more : List (List Char)) :
    breaksFrom width used position (word :: more) =
      breaksFrom width (columnsTaken used position + Text.width word) (position + word.length)
        more := by
  have htrimmed := Text.width_trimEnd_le hword
  rw [breaksFrom]
  unfold columnsTaken at h ⊢
  by_cases hposition : position = 0
  · simp only [if_pos hposition, Nat.zero_add]
  · rw [if_neg hposition] at h
    rw [if_neg hposition, if_neg hposition, if_pos (by omega)]

/-- Words that fit next to each other are not parted. The word that is being read is `word`, and
only a space may end it. -/
theorem breaksFrom_wordsFrom {width used position : Nat} {word rest : List Char}
    {begun behind : Bool} (hshown : IsShown (word ++ rest))
    (hbehind : behind = true → ∃ front, word = front ++ [' '])
    (hfits : columnsTaken used position + Text.width (word ++ rest) ≤ width) :
    breaksFrom width used position (wordsFrom word begun behind rest) = [] := by
  induction rest generalizing word begun behind used position with
  | nil =>
      rw [List.append_nil] at hshown hfits
      rw [wordsFrom]
      cases begun with
      | false => rfl
      | true =>
          rw [if_pos rfl, breaksFrom_cons_of_fits hshown hfits]
          rfl
  | cons c rest ih =>
      have hsame : word ++ c :: rest = word ++ [c] ++ rest := by simp
      rw [wordsFrom]
      by_cases hblank : Text.isBlank c = true
      · have hc : Text.isPrintable c = true := hshown c (by simp)
        rw [if_pos hblank]
        rw [hsame] at hshown hfits
        exact ih hshown (fun _ => ⟨word, by rw [Text.eq_space_of_isBlank hc hblank]⟩) hfits
      rw [if_neg hblank]
      cases behind with
      | false =>
          rw [hsame] at hshown hfits
          exact ih hshown (fun h => by cases h) hfits
      | true =>
          obtain ⟨front, rfl⟩ := hbehind rfl
          obtain ⟨hword, hrest⟩ := Text.isShown_append.mp hshown
          have hfront : IsShown front := (Text.isShown_append.mp hword).1
          rw [Text.width_append_behind_space hfront hrest] at hfits
          rw [if_pos rfl, breaksFrom_cons_of_fits hword (by omega)]
          apply ih hrest (fun h => by cases h)
          rw [columnsTaken, if_neg (by simp), List.singleton_append]
          omega

theorem wrapLine_of_fits {t : Styled} (ht : IsShown t.chars) {width : Nat}
    (h : Text.width t.chars ≤ width) : wrapLine width t = [t] := by
  have hbreaks : breaksFrom width 0 0 (wordsFrom [] false false t.chars) = [] :=
    breaksFrom_wordsFrom (by simpa using ht) (fun h => by cases h)
      (by simpa [columnsTaken] using h)
  rw [wrapLine, hbreaks]
  rfl

theorem eq_take_append_spaces {s front : List Char} {blanks n : Nat}
    (hs : s = front ++ List.replicate blanks ' ') (hn : n ≤ blanks) :
    s = s.take (s.length - n) ++ List.replicate n ' ' := by
  have hsplit : s = front ++ List.replicate (blanks - n) ' ' ++ List.replicate n ' ' := by
    rw [List.append_assoc, List.replicate_append_replicate, Nat.sub_add_cancel hn]
    exact hs
  have hlength : s.length - n = (front ++ List.replicate (blanks - n) ' ').length := by
    have hsum := congrArg List.length hsplit
    rw [List.length_append, List.length_replicate] at hsum
    omega
  have htake : s.take (s.length - n) = front ++ List.replicate (blanks - n) ' ' := by
    rw [hlength, congrArg (List.take _) hsplit, List.take_left]
  rw [htake]
  exact hsplit

theorem exists_trimExcess (width : Nat) {s : List Char} (hs : IsShown s) :
    ∃ front n, s = front ++ List.replicate n ' ' ∧
      trimExcess width (Styled.plain s) = Styled.plain front := by
  rw [trimExcess]
  split
  · exact ⟨s, 0, (List.append_nil s).symm, rfl⟩
  · have hsplit := eq_take_append_spaces (Text.eq_trimEnd_append_spaces hs)
      (Nat.min_le_left (s.reverse.takeWhile Text.isBlank).length (s.length - width))
    exact ⟨_, _, hsplit, rfl⟩

theorem fit_plain {s : List Char} {width : Nat} (h : Text.width s ≤ width) :
    fit width (Styled.plain s) = Styled.plain (padded width s) := by
  simp [fit, Styled.plain, padded, Nat.not_lt.mpr h]

theorem fit_trimExcess {s : List Char} (hs : IsShown s) {width : Nat} (h : Text.width s ≤ width) :
    fit width (trimExcess width (Styled.plain s)) = Styled.plain (padded width s) := by
  obtain ⟨front, n, rfl, htrimmed⟩ := exists_trimExcess width hs
  have hfront := (Text.isShown_append.mp hs).1
  have hwidth := Text.width_append_spaces hfront n
  rw [htrimmed, fit_plain (by omega), padded_append_spaces hfront h]

theorem segmentsFrom_of_no_cuts (i : Nat) (segment s : List Char) :
    Styled.segmentsFrom [] i segment s =
      if segment.reverse ++ s = [] then [] else [segment.reverse ++ s] := by
  induction s generalizing i segment with
  | nil => cases segment <;> simp [Styled.segmentsFrom]
  | cons c rest ih => simp [Styled.segmentsFrom, ih]

theorem segments_plain {s : List Char} (hs : s ≠ []) : (Styled.plain s).segments = [s] := by
  have h := segmentsFrom_of_no_cuts 0 [] s
  rw [List.reverse_nil, List.nil_append, if_neg hs] at h
  exact h

theorem adjust_of_width {width : Nat} {segments : List (List Char)}
    (h : (segments.map Text.width).sum = width) : adjust width segments = segments := by
  simp [adjust, h]

theorem cellLines_plain {s : List Char} (hs : IsShown s) {width : Nat} (hwidth : 0 < width)
    (h : Text.width s ≤ width) :
    cellLines width (Styled.plain s) = [' ' :: padded width s ++ [' ']] := by
  have hpadded := width_padded hs h
  have hne : padded width s ≠ [] := by
    intro hnil
    rw [hnil] at hpadded
    exact absurd hpadded (Nat.ne_of_lt hwidth)
  have hline : layOut width (Styled.plain s) = [[padded width s]] := by
    rw [layOut, lines_of_isShown (t := Styled.plain s) hs]
    simp only [List.flatMap_cons, List.flatMap_nil, List.append_nil]
    rw [expandTabs_of_isShown (t := Styled.plain s) hs,
      wrapLine_of_fits (t := Styled.plain s) hs h]
    simp only [List.map_cons, List.map_nil]
    rw [fit_trimExcess hs h, segments_plain hne, adjust_of_width]
    simp [hpadded]
  have hspace : Text.width [' '] = 1 := rfl
  rw [cellLines, hline, List.map_singleton, adjust_of_width]
  · simp
  · simp [hpadded, hspace]
    omega

theorem naturalWidth_of_isShown {s : List Char} (hs : IsShown s) :
    naturalWidth s = Text.width s := by
  have hfree : ∀ c ∈ s, endsLine c = false := by
    intro c hc
    have hne {d : Char} (hd : Text.isPrintable d = false) : c ≠ d :=
      Text.ne_of_isPrintable (hs c hc) hd
    simp [endsLine, hne (d := '\n') (by decide), hne (d := '\x1c') (by decide),
      hne (d := '\x1d') (by decide), hne (d := '\x1e') (by decide),
      hne (d := '\x85') (by decide +kernel), hne (d := '\u2028') (by decide +kernel),
      hne (d := '\u2029') (by decide +kernel)]
  rw [naturalWidth, Text.pieces_of_free hfree]
  simp

/-! ### Tables of labels and texts -/

theorem le_foldl_max {n : Nat} {sizes : List Nat} {start : Nat} (h : n ≤ start ∨ n ∈ sizes) :
    n ≤ sizes.foldl max start := by
  induction sizes generalizing start with
  | nil => simpa using h
  | cons size rest ih =>
      apply ih
      rcases h with hstart | hmem
      · exact Or.inl (by omega)
      · exact (List.mem_cons.mp hmem).imp (by omega) id

theorem foldl_widenBy (sizes : List (Nat × Nat)) (first second : Nat) :
    (sizes.map fun size => [size.1, size.2]).foldl columnWidths.widenBy [first, second] =
      [(sizes.map (·.1)).foldl max first, (sizes.map (·.2)).foldl max second] := by
  induction sizes generalizing first second with
  | nil => rfl
  | cons size rest ih => exact ih _ _

def widest (texts : List (List Char)) : Nat :=
  (texts.map Text.width).foldl max 0

theorem width_le_widest {texts : List (List Char)} {s : List Char} (h : s ∈ texts) :
    Text.width s ≤ widest texts :=
  le_foldl_max (Or.inr (List.mem_map_of_mem h))

theorem columnWidths_pairs {pairs : List (Styled × List Char)} (hne : pairs ≠ [])
    (hlabels : ∀ pair ∈ pairs, IsShown pair.1.chars) (htexts : ∀ pair ∈ pairs, IsShown pair.2) :
    columnWidths (pairs.map fun pair => [pair.1, Styled.plain pair.2]) =
      [widest (pairs.map (·.1.chars)), widest (pairs.map (·.2))] := by
  have hsizes : ∀ pair ∈ pairs,
      [pair.1, Styled.plain pair.2].map (fun cell => naturalWidth cell.chars) =
        [Text.width pair.1.chars, Text.width pair.2] := by
    intro pair hpair
    rw [← naturalWidth_of_isShown (hlabels pair hpair),
      ← naturalWidth_of_isShown (htexts pair hpair)]
    rfl
  obtain ⟨first, more, rfl⟩ := List.exists_cons_of_ne_nil hne
  have hmore : (more.map fun pair => [pair.1, Styled.plain pair.2]).map
      (fun row => row.map fun cell => naturalWidth cell.chars) =
        (more.map fun pair => (Text.width pair.1.chars, Text.width pair.2)).map
          fun size => [size.1, size.2] := by
    rw [List.map_map, List.map_map]
    exact List.map_congr_left fun pair hpair => hsizes pair (List.mem_cons_of_mem _ hpair)
  rw [columnWidths, List.map_cons, List.foldl_cons, hsizes first List.mem_cons_self,
    ← List.foldl_map, hmore, columnWidths.widenBy, foldl_widenBy]
  simp only [widest, List.map_cons, List.foldl_cons, List.map_map, Nat.zero_max]
  rfl

/-- The line of a row with a label and a text. -/
def pairLine (labels texts : Nat) (label text : List Char) : List Char :=
  ' ' :: padded labels label ++ [' ', ' '] ++ padded texts text ++ [' ', '\n']

theorem plainTable_of_pairs {console : Console} {rows : List (List (List Char))}
    (pairs : List (Styled × List Char)) (hne : pairs ≠ [])
    (hrows : rows.map (·.map (Markup.render console.emoji)) =
      pairs.map fun pair => [.ok pair.1, .ok (Styled.plain pair.2)])
    (hlabels : ∀ pair ∈ pairs, IsShown pair.1.chars ∧
      cellLines (widest (pairs.map (·.1.chars))) pair.1 =
        [' ' :: padded (widest (pairs.map (·.1.chars))) pair.1.chars ++ [' ']])
    (htexts : ∀ pair ∈ pairs, IsShown pair.2) (hwidest : 0 < widest (pairs.map (·.2)))
    (hholds : console.holds
      (widest (pairs.map (·.1.chars)) + 2 + (widest (pairs.map (·.2)) + 2)) = true) :
    plainTable console rows = .ok (pairs.flatMap fun pair =>
      pairLine (widest (pairs.map (·.1.chars))) (widest (pairs.map (·.2))) pair.1.chars pair.2) := by
  have hread : readCells console.emoji rows =
      .ok (pairs.map fun pair => [pair.1, Styled.plain pair.2]) := by
    apply readCells_of_render
    rw [hrows, List.map_map]
    rfl
  have hwidths := columnWidths_pairs hne (fun pair h => (hlabels pair h).1) htexts
  rw [plainTable, hread, Except.map]
  simp only [hwidths, List.flatMap_map, List.map_cons, List.map_nil, List.sum_cons, List.sum_nil,
    Nat.add_zero, hholds, if_true]
  refine congrArg Except.ok (List.flatMap_congr ?_)
  intro pair hpair
  have htext := cellLines_plain (htexts pair hpair) hwidest
    (width_le_widest (List.mem_map_of_mem hpair))
  simp [rowLines, (hlabels pair hpair).2, htext, pairLine]

end LexicalPath.Display
