import LexicalPath.Proofs.Dialect.WellFormed
import LexicalPath.Proofs.Text.Parted
import LexicalPath.Proofs.Text.Printable

namespace LexicalPath

namespace Text

variable {p : Char → Bool} {c : Char}

theorem trimEnd_sublist (s : List Char) : (trimEnd p s).Sublist s := by
  have h := (List.dropWhile_sublist p (l := s.reverse)).reverse
  rwa [List.reverse_reverse] at h

theorem trim_sublist (s : List Char) : (trim p s).Sublist s :=
  (trimEnd_sublist _).trans (List.dropWhile_sublist p)

theorem count_joined {separator : List Char} (hc : c ∉ separator) (parts : List (List Char)) :
    (joined separator parts).count c = parts.flatten.count c := by
  induction parts with
  | nil => rfl
  | cons part more ih =>
      cases more with
      | nil => simp [joined]
      | cons next more =>
          have hfree := List.count_eq_zero_of_not_mem hc
          rw [joined, List.count_append, List.count_append, ih, hfree, Nat.add_zero,
            ← List.count_append]
          rfl

theorem Parted.count_flatten {s : List Char} {parts : List (List Char)} (h : Parted p s parts)
    (hc : p c = false) : parts.flatten.count c = s.count c := by
  induction h with
  | nil => rfl
  | @separator d s parts hd _ ih =>
      have hne : d ≠ c := by
        rintro rfl
        rw [hc] at hd
        cases hd
      rw [List.count_cons_of_ne hne, ih]
  | run _ _ _ ih => rw [List.flatten_cons, List.count_append, List.count_append, ih]

end Text

/-- The character is none of the ASCII characters that are shown. -/
def IsForeign (c : Char) : Prop :=
  c.toNat < 32 ∨ 126 < c.toNat

instance (c : Char) : Decidable (IsForeign c) :=
  inferInstanceAs (Decidable (c.toNat < 32 ∨ 126 < c.toNat))

variable {c : Char}

theorem ne_of_isForeign (hc : IsForeign c) {d : Char} (hd : ¬ IsForeign d) : d ≠ c := by
  rintro rfl
  exact hd hc

namespace Unix

theorem count_splitRoot_le (hc : c ≠ '/') {text rest : String} {root : Option String}
    (h : splitRoot text = (root, rest)) :
    (Dialect.rootChars root).count c + rest.toList.count c ≤ text.toList.count c := by
  rw [splitRoot] at h
  split at h
  · rename_i behind htext
    obtain ⟨rfl, rfl⟩ := Prod.mk.inj h
    have hle := (Text.trim_sublist (p := isSeparator) behind).count_le c
    rw [htext, List.count_cons_of_ne (Ne.symm hc), String.toList_ofList]
    simpa [Dialect.rootChars, Ne.symm hc] using hle
  · obtain ⟨rfl, rfl⟩ := Prod.mk.inj h
    have hle := (Text.trimEnd_sublist (p := isSeparator) text.toList).count_le c
    simpa [Dialect.rootChars] using hle

end Unix

namespace Windows

theorem toUpper_ne_of_isForeign (hc : IsForeign c) {letter : Char}
    (hletter : letter.isAlpha = true) : letter.toUpper ≠ c := by
  rw [← Char.isUpper_toUpper_eq_isAlpha, Char.isUpper, decide_eq_true_eq] at hletter
  have hlow : 65 ≤ letter.toUpper.toNat := UInt32.le_iff_toNat_le.mp hletter.1
  have hhigh : letter.toUpper.toNat ≤ 90 := UInt32.le_iff_toNat_le.mp hletter.2
  apply ne_of_isForeign hc
  unfold IsForeign
  omega

theorem count_unified (hc : IsForeign c) (s : List Char) : (unified s).count c = s.count c := by
  induction s with
  | nil => rfl
  | cons d rest ih =>
      rw [unified, List.map_cons]
      by_cases hd : d = '/'
      · rw [if_pos hd, List.count_cons_of_ne (ne_of_isForeign hc (by decide)),
          List.count_cons_of_ne (hd ▸ ne_of_isForeign hc (by decide))]
        exact ih
      · rw [if_neg hd, List.count_cons, List.count_cons]
        exact congrArg (· + _) ih

theorem count_splitShare?_le (hc : IsForeign c) {s root rest : List Char}
    (h : splitShare? s = some (root, rest)) : root.count c + rest.count c ≤ s.count c := by
  have hseparator : separator ≠ c := ne_of_isForeign hc (by decide)
  simp only [splitShare?] at h
  split at h
  · cases h
  · obtain ⟨rfl, rfl⟩ := Prod.mk.inj (Option.some.inj h)
    have hcut (t : List Char) : (t.takeWhile (! isSeparator ·)).count c +
        (t.dropWhile (! isSeparator ·)).count c = t.count c := by
      rw [← List.count_append, List.takeWhile_append_dropWhile]
    have hserver := hcut s
    have hshare := hcut ((s.dropWhile (! isSeparator ·)).drop 1)
    have hbehind := (List.drop_sublist 1 (s.dropWhile (! isSeparator ·))).count_le c
    simp only [List.cons_append, List.count_cons_of_ne hseparator, List.count_append,
      List.count_nil, Nat.add_zero]
    omega

theorem count_splitUnified?_le (hc : IsForeign c) {s rest : List Char} {root : Option (List Char)}
    (h : splitUnified? s = some (root, rest)) :
    (root.getD []).count c + rest.count c ≤ s.count c := by
  have htrim (s : List Char) := (Text.trim_sublist (p := isSeparator) s).count_le c
  have htrimEnd (s : List Char) := (Text.trimEnd_sublist (p := isSeparator) s).count_le c
  have hseparator : separator ≠ c := ne_of_isForeign hc (by decide)
  have hbackslash : '\\' ≠ c := hseparator
  have hcolon : ':' ≠ c := ne_of_isForeign hc (by decide)
  unfold splitUnified? at h
  split at h
  · rename_i behind
    obtain ⟨⟨share, more⟩, hshare, heq⟩ := Option.map_eq_some_iff.mp h
    obtain ⟨rfl, rfl⟩ := Prod.mk.inj heq
    have hle := count_splitShare?_le hc hshare
    have hmore := htrim more
    simp only [Option.getD_some, List.count_cons_of_ne hbackslash]
    omega
  · rename_i behind _
    obtain ⟨rfl, rfl⟩ := Prod.mk.inj (Option.some.inj h)
    simpa [hseparator, hbackslash] using htrim behind
  · rename_i letter behind _
    split at h
    · rename_i halpha
      have hupper := toUpper_ne_of_isForeign hc halpha
      have hbehind : behind.count c ≤ (letter :: ':' :: behind).count c :=
        ((List.sublist_cons_self ':' behind).cons letter).count_le c
      split at h
      · rename_i more
        obtain ⟨rfl, rfl⟩ := Prod.mk.inj (Option.some.inj h)
        have hmore := htrim more
        simp only [Option.getD_some, List.count_cons_of_ne hupper, List.count_cons_of_ne hcolon,
          List.count_cons_of_ne hseparator, List.count_cons_of_ne hbackslash,
          List.count_nil] at hbehind ⊢
        omega
      · obtain ⟨rfl, rfl⟩ := Prod.mk.inj (Option.some.inj h)
        have hmore := htrimEnd behind
        simp only [Option.getD_some, List.count_cons_of_ne hupper, List.count_cons_of_ne hcolon,
          List.count_nil] at hbehind ⊢
        omega
    · obtain ⟨rfl, rfl⟩ := Prod.mk.inj (Option.some.inj h)
      simpa using htrimEnd (letter :: ':' :: behind)
  · obtain ⟨rfl, rfl⟩ := Prod.mk.inj (Option.some.inj h)
    simpa using htrimEnd s

theorem count_splitRoot_le (hc : IsForeign c) {text rest : String} {root : Option String}
    (h : splitRoot text = .ok (root, rest)) :
    (Dialect.rootChars root).count c + rest.toList.count c ≤ text.toList.count c := by
  simp only [splitRoot] at h
  split at h
  · cases h
  · rename_i root' rest' hsplit
    obtain ⟨rfl, rfl⟩ := Prod.mk.inj (Except.ok.inj h)
    have hle := count_splitUnified?_le hc hsplit
    rw [count_unified hc] at hle
    cases root' with
    | none => simpa [Dialect.rootChars] using hle
    | some root' => simpa [Dialect.rootChars] using hle

end Windows

theorem Dialect.count_print_le {d : Dialect} (hroot : d.rootSeparator = "")
    (hseparator : c ∉ d.nameSeparator.toList) {p : Path} {isSeparator : Char → Bool}
    (hc : isSeparator c = false) {text rest : String}
    (hsplit : (rootChars p.root).count c + rest.toList.count c ≤ text.toList.count c)
    (hnames : (Text.runs isSeparator rest.toList).map String.ofList = p.names) :
    (d.print p).toList.count c ≤ text.toList.count c := by
  have hparts : p.names.map String.toList = Text.runs isSeparator rest.toList := by
    rw [← hnames, List.map_map]
    simp [Function.comp_def]
  rw [toList_print hroot, List.count_append, hparts, Text.count_joined hseparator,
    (Text.parted_runs rest.toList).count_flatten hc]
  exact hsplit

/-- Reading a text and printing the path brings in none of these characters. -/
theorem StandardDialect.count_print_le {d : StandardDialect} (hc : IsForeign c) {text : String}
    {p : Path} (h : d.dialect.parse text = .ok p) :
    (d.dialect.print p).toList.count c ≤ text.toList.count c := by
  obtain ⟨rest, hroot, hnames, -⟩ := (Dialect.parse_eq_ok_iff d.dialect text p).mp h
  have hslash : c ≠ '/' := Ne.symm (ne_of_isForeign hc (by decide))
  have hbackslash : c ≠ '\\' := Ne.symm (ne_of_isForeign hc (by decide))
  cases d with
  | unix =>
      have hseparator : c ∉ Unix.dialect.nameSeparator.toList :=
        fun h => hslash (List.mem_singleton.mp h)
      exact Dialect.count_print_le rfl hseparator (decide_eq_false hslash)
        (Unix.count_splitRoot_le hslash (Except.ok.inj hroot)) (Except.ok.inj hnames)
  | windows =>
      have hseparator : c ∉ Windows.dialect.nameSeparator.toList :=
        fun h => hbackslash (List.mem_singleton.mp h)
      exact Dialect.count_print_le rfl hseparator (decide_eq_false hbackslash)
        (Windows.count_splitRoot_le hc hroot) (Except.ok.inj hnames)

theorem StandardDialect.isShown_print {d : StandardDialect} {text : String}
    (htext : Text.IsShown text.toList) {p : Path} (h : d.dialect.parse text = .ok p) :
    Text.IsShown (d.dialect.print p).toList := by
  intro c hprinted
  by_cases hc : IsForeign c
  · have hle := StandardDialect.count_print_le hc h
    have hpos := List.count_pos_iff.mpr hprinted
    exact htext c (List.count_pos_iff.mp (by omega))
  · unfold IsForeign at hc
    exact Text.isPrintable_of_ascii (by omega) (by omega)

theorem StandardDialect.toList_print (d : StandardDialect) (p : Path) :
    (d.dialect.print p).toList = Dialect.rootChars p.root ++
      Text.joined d.dialect.nameSeparator.toList (p.names.map String.toList) := by
  cases d with
  | unix => exact Dialect.toList_print rfl p
  | windows => exact Dialect.toList_print rfl p

theorem StandardDialect.isShown_parts {d : StandardDialect} {p : Path}
    (h : Text.IsShown (d.dialect.print p).toList) :
    Text.IsShown (Dialect.rootChars p.root) ∧ ∀ name ∈ p.names, Text.IsShown name.toList := by
  rw [d.toList_print, Text.isShown_append] at h
  refine ⟨h.1, fun name hname c hc => h.2 c ?_⟩
  exact (Text.infix_joined (List.mem_map_of_mem hname)).subset hc

end LexicalPath
