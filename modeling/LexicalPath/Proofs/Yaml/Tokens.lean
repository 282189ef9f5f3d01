import LexicalPath.Proofs.Yaml.Text

namespace LexicalPath.Yaml

/-- The tokens of the items of a sequence that is written on lines of its own. -/
def itemTokens (items : List String) : List Token :=
  items.flatMap fun s => [.blockEntry, textToken s.toList]

def fieldTokens : Field → List Token
  | .null => [.scalar "null" true]
  | .text s => [textToken s.toList]
  | .texts [] => [.flowSequenceStart, .flowSequenceEnd]
  | .texts items => itemTokens items

def entryTokens (entry : String × Field) : List Token :=
  [.key, .scalar entry.1 true, .value] ++ fieldTokens entry.2

namespace Lexer

variable {p : Position} {tokens all : List Token} {rest : List Char}

theorem plainText_null : PlainText 'n' ['u', 'l', 'l'] where
  blank := by simp [isBlank, isSpace, isBreak]
  mark := by decide
  colon := by decide
  last := by simp
  bare := by decide
  order := by decide
  markup := by decide
  indicator := by decide

theorem exists_writeText_eq (column : Nat) (s : List Char) :
    ∃ w, (writeText column s).map unified = ' ' :: w := by
  unfold writeText
  split
  · exact ⟨_, rfl⟩
  · exact ⟨_, rfl⟩
  · exact ⟨_, rfl⟩

def writeItems (items : List String) : List Char :=
  items.flatMap fun s => '-' :: writeText 1 s.toList ++ ['\n']

theorem writeItems_cons (s : String) (more : List String) :
    (writeItems (s :: more)).map unified ++ rest =
      '-' :: ((writeText 1 s.toList).map unified ++
        '\n' :: ((writeItems more).map unified ++ rest)) := by
  simp [writeItems, unified]

theorem startsToken_writeItems (hrest : StartsToken rest) (items : List String) :
    StartsToken ((writeItems items).map unified ++ rest) := by
  cases items with
  | nil => exact hrest
  | cons s more =>
      rw [writeItems_cons]
      exact startsToken_cons _ (by decide) (by decide) (by decide)

theorem lexes_items (items : List String) (hp : p.column = 0) (hrest : StartsToken rest)
    (h : ∀ p' : Position, p'.column = 0 →
      (idle [0] p' (tokens ++ itemTokens items) true rest).Lexes all) :
    (idle [0] p tokens true ((writeItems items).map unified ++ rest)).Lexes all := by
  induction items generalizing p tokens with
  | nil => simpa [writeItems, itemTokens] using h p hp
  | cons s more ih =>
      have htext : ∀ p' : Position, (idle [0] p' (tokens ++ [.blockEntry]) true
          ((writeText 1 s.toList).map unified ++
            '\n' :: ((writeItems more).map unified ++ rest))).Lexes all := by
        intro p'
        refine lexes_writeText 1 s.toList (startsToken_writeItems hrest more) fun p' hp' => ?_
        apply ih hp'
        simpa [itemTokens] using h
      obtain ⟨w, hw⟩ := exists_writeText_eq 1 s.toList
      rw [hw] at htext
      rw [writeItems_cons, hw]
      exact lexes_hyphen hp htext

/-- A value behind the colon of its key, with the line break behind it. -/
def writeField (column : Nat) : Field → List Char
  | .null => " null\n".toList
  | .text s => writeText column s.toList ++ ['\n']
  | .texts [] => " []\n".toList
  | .texts items => '\n' :: writeItems items

theorem writeField_text (column : Nat) (s : String) :
    writeField column (.text s) = writeText column s.toList ++ ['\n'] := rfl

theorem writeEntry_eq (key : String) (field : Field) :
    writeEntry key field = key.toList ++ ':' :: writeField (key.length + 1) field := by
  cases field with
  | null => rfl
  | text s => rfl
  | texts items => cases items <;> rfl

theorem lexes_field (field : Field) (column : Nat) (hrest : StartsToken rest)
    (h : ∀ p' : Position, p'.column = 0 →
      (idle [0] p' (tokens ++ fieldTokens field) true rest).Lexes all) :
    (idle [0] p tokens false ((writeField column field).map unified ++ rest)).Lexes all := by
  cases field with
  | null => exact lexes_plain plainText_null 0 hrest h
  | text s =>
      rw [writeField_text, List.map_append, List.append_assoc]
      exact lexes_writeText column s.toList hrest h
  | texts items =>
      cases items with
      | nil => exact lexes_noTexts hrest h
      | cons s more =>
          refine lexes_lineEnd none (by simp) (startsToken_writeItems hrest (s :: more))
            fun p' hp' => ?_
          exact lexes_items (s :: more) hp' hrest h

theorem isKept_word {word : List Char} (hword : IsWord word) : ∀ c ∈ word, IsKept c := by
  intro c hc
  have hletter := hword.2.2 c hc
  obtain ⟨-, hbreak, -⟩ := alpha_cases hletter
  constructor
  · have hrange := toNat_of_isAlpha hletter
    simp [isAllowed]
    omega
  · apply if_neg
    rintro (rfl | rfl)
    all_goals exact absurd hbreak (by decide)

theorem blankNext_writeField (column : Nat) (field : Field) (rest : List Char) :
    blankNext ((writeField column field).map unified ++ rest) = true := by
  cases field with
  | null => rfl
  | text s =>
      obtain ⟨w, hw⟩ := exists_writeText_eq column s.toList
      rw [writeField_text, List.map_append, hw]
      rfl
  | texts items => cases items <;> rfl

theorem isSound_writeItems {items : List String} {c : Char} (hc : c ∈ writeItems items) :
    IsSound c := by
  obtain ⟨s, -, hc⟩ := List.mem_flatMap.mp hc
  simp only [List.cons_append, List.mem_cons, List.mem_append, List.not_mem_nil, or_false] at hc
  rcases hc with rfl | hc | rfl
  · exact IsKept.isSound (by decide)
  · exact isSound_writeText hc
  · exact IsKept.isSound (by decide)

theorem isSound_writeField {column : Nat} {field : Field} {c : Char}
    (hc : c ∈ writeField column field) : IsSound c := by
  have hfeed : IsSound '\n' := IsKept.isSound (by decide)
  cases field with
  | null => exact (isKept_of_all (s := " null\n".toList) (by decide) hc).isSound
  | text s =>
      rcases List.mem_append.mp hc with hc | hc
      · exact isSound_writeText hc
      · rw [List.mem_singleton.mp hc]
        exact hfeed
  | texts items =>
      cases items with
      | nil => exact (isKept_of_all (s := " []\n".toList) (by decide) hc).isSound
      | cons s more =>
          rcases List.mem_cons.mp hc with rfl | hc
          · exact hfeed
          · exact isSound_writeItems hc

theorem lexes_entry {blocks : List Nat} (hblocks : IsFlat blocks) (hp : p.column = 0)
    {key : String} (hkey : IsWord key.toList) (field : Field) (hrest : StartsToken rest)
    (h : ∀ p' : Position, p'.column = 0 →
      (idle [0] p' (tokens ++ opening blocks ++ entryTokens (key, field)) true rest).Lexes all) :
    (idle blocks p tokens true ((writeEntry key field).map unified ++ rest)).Lexes all := by
  rw [writeEntry_eq, List.map_append, map_unified (isKept_word hkey), List.append_assoc]
  refine lexes_key hblocks hp hkey (blankNext_writeField _ _ rest) fun p' _ => ?_
  apply lexes_field field _ hrest
  simpa [entryTokens] using h

end Lexer

def flatTokens (fields : List (String × Field)) : List Token :=
  .blockMappingStart :: (fields.flatMap entryTokens ++ [.blockEnd, .streamEnd])

theorem startsToken_entries {fields : List (String × Field)}
    (hkeys : ∀ entry ∈ fields, Lexer.IsWord entry.1.toList) :
    Lexer.StartsToken ((fields.flatMap fun (key, field) => writeEntry key field).map unified) := by
  cases fields with
  | nil =>
      intro c hc
      cases hc
  | cons entry more =>
      obtain ⟨key, field⟩ := entry
      have hkey : Lexer.IsWord key.toList := hkeys _ List.mem_cons_self
      obtain ⟨c, word, hword⟩ := List.exists_cons_of_ne_nil hkey.1
      obtain ⟨hblank, -, hmark, horder, -⟩ := Lexer.alpha_cases (hkey.2.2 c (by simp [hword]))
      have hkept := (Lexer.isKept_word hkey c (by simp [hword])).2
      simp only [List.flatMap_cons, Lexer.writeEntry_eq, hword, List.cons_append, List.map_cons,
        hkept]
      exact Lexer.startsToken_cons _ hblank hmark horder

theorem lexes_entries {fields : List (String × Field)}
    (hkeys : ∀ entry ∈ fields, Lexer.IsWord entry.1.toList) {p : Position} (hp : p.column = 0)
    (tokens : List Token) :
    (Lexer.idle [0] p tokens true
        ((fields.flatMap fun (key, field) => writeEntry key field).map unified)).Lexes
      (tokens ++ (fields.flatMap entryTokens ++ [.blockEnd, .streamEnd])) := by
  induction fields generalizing p tokens with
  | nil => exact Lexer.lexes_end p tokens
  | cons entry more ih =>
      have hmore : ∀ e ∈ more, Lexer.IsWord e.1.toList :=
        fun e he => hkeys e (List.mem_cons_of_mem entry he)
      rw [List.flatMap_cons, List.map_append]
      refine Lexer.lexes_entry (.inr rfl) hp (hkeys entry (by simp)) entry.2
        (startsToken_entries hmore) fun p' hp' => ?_
      have hnext := ih hmore hp' (tokens ++ Lexer.opening [0] ++ entryTokens (entry.1, entry.2))
      simpa [Lexer.opening] using hnext

theorem isSound_writeFields {fields : List (String × Field)}
    (hkeys : ∀ entry ∈ fields, Lexer.IsWord entry.1.toList) {c : Char}
    (hc : c ∈ (writeFields fields).toList) : IsSound c := by
  rw [writeFields, String.toList_ofList] at hc
  obtain ⟨⟨key, field⟩, hentry, hc⟩ := List.mem_flatMap.mp hc
  simp only [Lexer.writeEntry_eq, List.mem_append, List.mem_cons] at hc
  rcases hc with hc | rfl | hc
  · exact (Lexer.isKept_word (hkeys _ hentry) c hc).isSound
  · exact IsKept.isSound (by decide)
  · exact Lexer.isSound_writeField hc

theorem ofText_writeFields {fields : List (String × Field)} (hne : fields ≠ [])
    (hkeys : ∀ entry ∈ fields, Lexer.IsWord entry.1.toList) :
    Tokens.ofText (unifyBreaks (writeFields fields).toList) = ⟨flatTokens fields, none⟩ := by
  have hreturn : '\r' ∉ (writeFields fields).toList :=
    fun hc => (isSound_writeFields hkeys hc).2 rfl
  rw [unifyBreaks_eq_map hreturn, writeFields, String.toList_ofList]
  obtain ⟨entry, more, rfl⟩ := List.exists_cons_of_ne_nil hne
  have hmore : ∀ e ∈ more, Lexer.IsWord e.1.toList :=
    fun e he => hkeys e (List.mem_cons_of_mem entry he)
  have hlexes : (Lexer.idle [] {} [] true
      (((entry :: more).flatMap fun (key, field) => writeEntry key field).map unified)).Lexes
        (flatTokens (entry :: more)) := by
    rw [List.flatMap_cons, List.map_append]
    refine Lexer.lexes_entry (.inl rfl) rfl (hkeys entry (by simp)) entry.2
      (startsToken_entries hmore) fun p' hp' => ?_
    have hnext := lexes_entries hmore hp'
      ([] ++ Lexer.opening [] ++ entryTokens (entry.1, entry.2))
    simpa [Lexer.opening, flatTokens] using hnext
  exact hlexes _ (Nat.lt_succ_self _)

end LexicalPath.Yaml
