import LexicalPath.Proofs.Yaml.Character
import LexicalPath.Yaml.Scalar.Quoted

namespace LexicalPath.Yaml

-- Powers are the core library's, also where a later module brings other instances.
attribute [local instance (high)] instPowNat

/-! ### Escapes -/

theorem escapeChar?_of_escapeLetter? {c letter : Char} (h : escapeLetter? c = some letter) :
    escapeChar? letter = some c ∧ isBreak letter = false ∧ IsKept letter := by
  obtain ⟨⟨c', letter'⟩, hfind, rfl⟩ := Option.map_eq_some_iff.mp h
  have hmem := List.mem_of_find?_eq_some hfind
  have hc : c' = c := by simpa using List.find?_some hfind
  subst hc
  exact (by decide +kernel : ∀ entry ∈ _, escapeChar? entry.2 = some entry.1 ∧
    isBreak entry.2 = false ∧ IsKept entry.2) (c', letter') hmem

theorem charOfCode_toNat (c : Char) : charOfCode c.toNat = .ok c := by
  have hvalid : c.toNat.isValidChar := c.valid
  have hsmall : ¬ 0x110000 ≤ c.toNat := by
    unfold Nat.isValidChar at hvalid
    omega
  rw [charOfCode, if_neg hsmall, if_pos hvalid, Char.ofNat_toNat]

theorem readEscape_hex {letter : Char} {width : Nat} (hletter : escapeChar? letter = none)
    (hwidth : codeWidth? letter = some width) {c : Char} (hc : c.toNat < 16 ^ width)
    (rest : List Char) :
    readEscape (letter :: Text.hex Text.upperDigit width c.toNat ++ rest) = .ok (c, width + 1) := by
  have hlength : (Text.hex Text.upperDigit width c.toNat).length = width := Text.length_hex _ _ _
  have hnumber : Text.hexNumber? 0 (Text.hex Text.upperDigit width c.toNat) = some c.toNat := by
    rw [Text.hexNumber?_hex Text.hexValue?_upperDigit, Nat.zero_mul, Nat.zero_add,
      Nat.mod_eq_of_lt hc]
  simp only [List.cons_append, readEscape, hletter, hwidth, List.take_left' hlength, hlength,
    Nat.lt_irrefl, if_false, hnumber, charOfCode_toNat, Except.map]

theorem escaped_eq (c : Char) : ∃ letter more, escaped c = '\\' :: letter :: more ∧
    isBreak letter = false ∧
    ∀ rest, readEscape (letter :: more ++ rest) = .ok (c, (letter :: more).length) := by
  unfold escaped
  split
  case h_1 letter h =>
    obtain ⟨hchar, hbreak, -⟩ := escapeChar?_of_escapeLetter? h
    refine ⟨letter, [], rfl, hbreak, ?_⟩
    intro rest
    simp [readEscape, hchar]
  case h_2 =>
    have hhex {letter : Char} {width : Nat} (hletter : escapeChar? letter = none)
        (hwidth : codeWidth? letter = some width) (hc : c.toNat < 16 ^ width) (rest : List Char) :
        readEscape (letter :: Text.hex Text.upperDigit width c.toNat ++ rest) =
          .ok (c, (letter :: Text.hex Text.upperDigit width c.toNat).length) := by
      rw [readEscape_hex hletter hwidth hc, List.length_cons, Text.length_hex]
    dsimp only
    split
    case isTrue hx =>
      exact ⟨'x', _, rfl, by decide, hhex (by decide) (by decide) (by omega)⟩
    split
    case isTrue hu =>
      exact ⟨'u', _, rfl, by decide, hhex (by decide) (by decide) (by omega)⟩
    case isFalse =>
      have hvalid : c.toNat.isValidChar := c.valid
      unfold Nat.isValidChar at hvalid
      exact ⟨'U', _, rfl, by decide, hhex (by decide) (by decide) (by omega)⟩

theorem length_escaped_le (c : Char) : (escaped c).length ≤ 10 := by
  unfold escaped
  dsimp only
  split
  · simp
  · split
    · simp
    · split <;> simp

theorem isKept_upperDigit : ∀ d < 16, IsKept (Text.upperDigit d) := by decide

theorem isKept_hex {c : Char} {width n : Nat} (hc : c ∈ Text.hex Text.upperDigit width n) :
    IsKept c := by
  induction width generalizing n with
  | zero => cases hc
  | succ width ih =>
      rcases List.mem_append.mp hc with hc | hc
      · exact ih hc
      · rw [List.mem_singleton.mp hc]
        exact isKept_upperDigit _ (Nat.mod_lt n (by decide))

theorem isKept_escaped {c d : Char} (hd : d ∈ escaped c) : IsKept d := by
  have hbehind {letter : Char} (hletter : IsKept letter) {more : List Char}
      (hmore : ∀ d ∈ more, IsKept d) (hd : d ∈ '\\' :: letter :: more) : IsKept d := by
    rcases List.mem_cons.mp hd with rfl | hd
    · decide
    · rcases List.mem_cons.mp hd with rfl | hd
      · exact hletter
      · exact hmore d hd
  unfold escaped at hd
  split at hd
  case h_1 letter h =>
    obtain ⟨-, -, hletter⟩ := escapeChar?_of_escapeLetter? h
    exact hbehind hletter (by simp) hd
  case h_2 =>
    dsimp only at hd
    split at hd
    · exact hbehind (by decide) (fun _ => isKept_hex) hd
    · split at hd
      · exact hbehind (by decide) (fun _ => isKept_hex) hd
      · exact hbehind (by decide) (fun _ => isKept_hex) hd

/-! ### Characters and breaks that are read -/

theorem isBreak_backslash : isBreak '\\' = false := by decide

theorem readDouble_skip (gap : Gap) (front rest : List Char) :
    readDouble gap front.length (front ++ rest) = readDouble gap 0 rest := by
  induction front with
  | nil => rfl
  | cons c more ih => exact ih

theorem readDouble_space (gap : Gap) (rest : List Char) :
    readDouble gap 0 (' ' :: rest) = readDouble (gap.addSpace ' ') 0 rest := by
  simp [readDouble, startsWithMark_cons, isSpace]

theorem readDouble_escaped (gap : Gap) (c : Char) (rest : List Char) :
    readDouble gap 0 (escaped c ++ rest) =
      ScalarRead.behind (gap.text ++ [c]) (readDouble .none 0 rest) := by
  obtain ⟨letter, more, heq, hbreak, hread⟩ := escaped_eq c
  have hread := hread rest
  rw [List.cons_append] at hread
  have hskip := readDouble_skip .none (letter :: more) rest
  rw [List.cons_append] at hskip
  rw [heq, List.cons_append, List.cons_append, readDouble]
  simp [startsWithMark_cons, isSpace, isBreak_backslash, hread, hbreak, ← hskip]

theorem readDouble_escapedSpace (gap : Gap) (rest : List Char) :
    readDouble gap 0 ('\\' :: ' ' :: rest) =
      ScalarRead.behind (gap.text ++ [' ']) (readDouble .none 0 rest) := by
  have hread : readEscape (' ' :: rest) = .ok (' ', 1) := rfl
  have hbreak : isBreak ' ' = false := by decide
  rw [readDouble]
  simp [startsWithMark_cons, isSpace, isBreak_backslash, hread, hbreak, readDouble]

theorem readDouble_foldBreak (gap : Gap) (rest : List Char) :
    readDouble gap 0 ('\\' :: foldBreak ++ rest) =
      ScalarRead.behind gap.text (readDouble (.lines none [] 2) 0 rest) := by
  have hspaces : readDouble (.lines none [] 0) 0 (' ' :: ' ' :: rest) =
      readDouble (.lines none [] 2) 0 rest := by
    rw [readDouble_space, readDouble_space]
    rfl
  have hfeed : isBreak '\n' = true := by decide
  rw [List.cons_append, readDouble, ← hspaces]
  simp [startsWithMark_cons, isSpace, isBreak_backslash, foldBreak, hfeed, continuationIndent,
    List.replicate, readDouble]

theorem isBare_cases {c : Char} (h : isBare c = true) :
    c ≠ '"' ∧ c ≠ '\\' ∧ c ≠ '\t' ∧ isBreak c = false := by
  refine ⟨?_, ?_, ?_, ?_⟩
  · rintro rfl
    exact absurd h (by decide)
  · rintro rfl
    exact absurd h (by decide)
  · rintro rfl
    exact absurd h (by decide)
  · rw [Bool.eq_false_iff]
    intro hbreak
    rcases isBreak_cases hbreak with rfl | rfl | rfl | rfl | rfl
    all_goals exact absurd h (by decide)

theorem readDouble_bare {gap : Gap} (hgap : gap.atLineStart = false) {c : Char}
    (hc : isBare c = true) (hspace : c ≠ ' ') (rest : List Char) :
    readDouble gap 0 (c :: rest) =
      ScalarRead.behind (gap.text ++ [c]) (readDouble .none 0 rest) := by
  obtain ⟨hquote, hbackslash, htab, hbreak⟩ := isBare_cases hc
  simp [readDouble, hquote, hgap, isSpace, hspace, htab, hbreak, hbackslash]

/-! ### Texts -/

theorem columnAfterBreak_le (s : List Char) : columnAfterBreak s ≤ 3 := by
  unfold columnAfterBreak continuationIndent
  split <;> omega

/-- What is written for a text behind a line break within it. -/
def writeBroken (fresh : Bool) (s : List Char) : List Char :=
  (if goesOn (· = ' ') s then ['\\'] else []) ++ writeDouble (columnAfterBreak s) false fresh s

theorem doubleBreak_append (fresh : Bool) (s : List Char) :
    doubleBreak s ++ writeDouble (columnAfterBreak s) false fresh s =
      '\\' :: foldBreak ++ writeBroken fresh s := by
  simp [doubleBreak, writeBroken]

theorem writeDouble_of_room {column : Nat} (hcolumn : column ≤ 3) (first fresh : Bool) (c : Char)
    (rest : List Char) :
    writeDouble column first fresh (c :: rest) =
      if isBare c then c :: writeDouble (column + 1) false false rest
      else escaped c ++ writeDouble (column + (escaped c).length) false true rest := by
  have hlength := length_escaped_le c
  have hwidth : ¬ bestWidth < column := by
    unfold bestWidth
    omega
  have hwidth' : ¬ bestWidth + 1 < column + (escaped c).length := by
    unfold bestWidth
    omega
  simp [writeDouble, hwidth, hwidth']

theorem readDouble_writeBroken_cons (fresh : Bool) (c : Char) (rest tail : List Char) :
    ∃ column fresh', readDouble (.lines none [] 2) 0 (writeBroken fresh (c :: rest) ++ tail) =
      ScalarRead.behind [c]
        (readDouble .none 0 (writeDouble column false fresh' rest ++ tail)) := by
  rw [writeBroken, writeDouble_of_room (columnAfterBreak_le _)]
  by_cases hspace : c = ' '
  · subst hspace
    exact ⟨_, false, readDouble_escapedSpace _ _⟩
  · have hgoes : goesOn (· = ' ') (c :: rest) = false := by simp [goesOn, hspace]
    simp only [hgoes, Bool.false_eq_true, if_false, List.nil_append]
    split
    case isTrue hbare =>
      exact ⟨_, false, readDouble_bare rfl hbare hspace _⟩
    case isFalse hbare =>
      rw [List.append_assoc]
      exact ⟨_, true, readDouble_escaped _ _ _⟩

/-- A text is read back within a line, and from the start of a line on that was broken in front of
it. -/
theorem readDouble_written (s tail : List Char) :
    (∀ (column : Nat) (first fresh : Bool) (gap : Gap), gap.hasBreak = false →
      readDouble gap 0 (writeDouble column first fresh s ++ '"' :: tail) =
        .ok (gap.text ++ s, tail)) ∧
    ∀ fresh : Bool,
      readDouble (.lines none [] 2) 0 (writeBroken fresh s ++ '"' :: tail) = .ok (s, tail) := by
  induction s with
  | nil =>
      constructor
      · intro column first fresh gap hgap
        simp [writeDouble, readDouble]
      · intro fresh
        rfl
  | cons c rest ih =>
      obtain ⟨hwithin, hbroken⟩ := ih
      have hstart : ∀ fresh : Bool,
          readDouble (.lines none [] 2) 0 (writeBroken fresh (c :: rest) ++ '"' :: tail) =
            .ok (c :: rest, tail) := by
        intro fresh
        obtain ⟨column, fresh', hread⟩ := readDouble_writeBroken_cons fresh c rest ('"' :: tail)
        rw [hread, hwithin _ _ _ _ rfl]
        rfl
      refine ⟨?_, hstart⟩
      intro column first fresh gap hgap
      simp only [writeDouble]
      split
      case isTrue hbare =>
        split
        case isTrue hbreak =>
          have hroom := writeDouble_of_room (columnAfterBreak_le (c :: rest)) false false c rest
          rw [if_pos hbare] at hroom
          rw [← hroom, doubleBreak_append, List.append_assoc, readDouble_foldBreak, hstart]
          rfl
        case isFalse hbreak =>
          rw [List.cons_append]
          by_cases hspace : c = ' '
          · subst hspace
            rw [readDouble_space, hwithin _ _ _ _ (by rw [Gap.hasBreak_addSpace, hgap]),
              Gap.text_addSpace hgap, List.append_assoc, List.singleton_append]
          · rw [readDouble_bare (Gap.atLineStart_of_hasBreak hgap) hbare hspace,
              hwithin _ _ _ _ rfl]
            simp [ScalarRead.behind, Gap.text]
      case isFalse hbare =>
        split
        case isTrue hbreak =>
          rw [List.append_assoc, List.append_assoc, ← List.append_assoc (doubleBreak rest),
            doubleBreak_append, readDouble_escaped, List.append_assoc, readDouble_foldBreak,
            hbroken]
          simp [ScalarRead.behind, Gap.text]
        case isFalse hbreak =>
          rw [List.append_assoc, readDouble_escaped, hwithin _ _ _ _ rfl]
          simp [ScalarRead.behind, Gap.text]

theorem isKept_doubleBreak {rest : List Char} {c : Char} (hc : c ∈ doubleBreak rest) :
    IsKept c := by
  have hcases : c = '\\' ∨ c = '\n' ∨ c = ' ' := by
    have hspaces : '\\' :: foldBreak = ['\\', '\n', ' ', ' '] := rfl
    simp only [doubleBreak, hspaces, List.mem_append, List.mem_cons, List.not_mem_nil] at hc
    split at hc <;> grind
  rcases hcases with rfl | rfl | rfl
  all_goals decide

theorem isKept_writeDouble {column : Nat} {first fresh : Bool} {s : List Char} {c : Char}
    (hc : c ∈ writeDouble column first fresh s) : IsKept c := by
  induction s generalizing column first fresh with
  | nil => cases hc
  | cons d rest ih =>
      simp only [writeDouble] at hc
      split at hc
      case isTrue hbare =>
        have hd := isKept_of_isBare hbare
        split at hc
        · simp only [List.mem_append, List.mem_cons] at hc
          rcases hc with hc | rfl | hc
          · exact isKept_doubleBreak hc
          · exact hd
          · exact ih hc
        · rcases List.mem_cons.mp hc with rfl | hc
          · exact hd
          · exact ih hc
      case isFalse hbare =>
        split at hc
        · simp only [List.mem_append] at hc
          rcases hc with (hc | hc) | hc
          · exact isKept_escaped hc
          · exact isKept_doubleBreak hc
          · exact ih hc
        · rcases List.mem_append.mp hc with hc | hc
          · exact isKept_escaped hc
          · exact ih hc

theorem readDouble_writeDouble (column : Nat) (s tail : List Char) :
    readDouble .none 0 (writeDouble column true true s ++ '"' :: tail) = .ok (s, tail) :=
  (readDouble_written s tail).1 column true true .none rfl

end LexicalPath.Yaml
