import LexicalPath.Json.Reader
import LexicalPath.Json.Writer

/-!
Reading JSON that was written. Values that JSON has a form for, numbers apart, are read back from
what is written for them, whatever the indentation (`read_write`).
-/

namespace LexicalPath.Json

def keyed (entries : List (String × Datum)) : List (Datum × Datum) :=
  entries.map fun entry => (.text entry.1, entry.2)

theorem keyed_cons (entry : String × Datum) (entries : List (String × Datum)) :
    keyed (entry :: entries) = (.text entry.1, entry.2) :: keyed entries := rfl

/-- The value is made of nulls, truth values, texts, lists, and mappings with different texts for
keys, with at most `room` lists and mappings within each other. -/
inductive Plain : Nat → Datum → Prop
  | null {room : Nat} : Plain room .null
  | bool {room : Nat} (value : Bool) : Plain room (.bool value)
  | text {room : Nat} (value : String) : Plain room (.text value)
  | list {room : Nat} {items : List Datum} (hitems : ∀ item ∈ items, Plain room item) :
      Plain (room + 1) (.list items)
  | mapping {room : Nat} {entries : List (String × Datum)}
      (hkeys : (entries.map (·.1)).Nodup) (hvalues : ∀ entry ∈ entries, Plain room entry.2) :
      Plain (room + 1) (.mapping (keyed entries))

/-! ### Strings -/

theorem charOfCode_toNat (c : Char) : charOfCode c.toNat = c := by
  have hvalid : c.toNat.isValidChar := c.valid
  rw [charOfCode, if_pos hvalid, Char.ofNat_toNat]

theorem escape_hex {n : Nat} (hn : n < 0xd800) {rest : List Char} (hrest : rest ≠ []) :
    escape ('u' :: Text.hex Text.lowerDigit 4 n ++ rest) = .ok (charOfCode n, 5) := by
  have hnumber : Text.hexNumber? 0 (Text.hex Text.lowerDigit 4 n) = some n := by
    rw [Text.hexNumber?_hex Text.hexValue?_lowerDigit]
    simp only [Nat.zero_mul, Nat.zero_add]
    rw [Nat.mod_eq_of_lt (by omega)]
  have hdigits : (Text.hex Text.lowerDigit 4 n).length = 4 := Text.length_hex _ _ _
  have htake : (Text.hex Text.lowerDigit 4 n ++ rest).take 4 = Text.hex Text.lowerDigit 4 n := by
    rw [List.take_left' hdigits]
  have hdrop : (Text.hex Text.lowerDigit 4 n ++ rest).drop 4 = rest := by
    rw [List.drop_left' hdigits]
  have hlow : ¬ (0xd800 ≤ n ∧ n ≤ 0xdbff) := by omega
  simp [escape, htake, hdrop, hrest, hnumber, hlow]

theorem stringBody_skip (opened front rest : List Char) :
    stringBody opened front.length (front ++ rest) = stringBody opened 0 rest := by
  induction front with
  | nil => rfl
  | cons c more ih => exact ih

theorem stringBody_escape (opened front : List Char) {rest : List Char} {c : Char}
    (hfront : front ≠ []) (h : escape (front ++ rest) = .ok (c, front.length)) :
    stringBody opened 0 ('\\' :: (front ++ rest)) =
      (stringBody opened 0 rest).map fun (s, after) => (c :: s, after) := by
  rw [stringBody, if_neg (by decide), if_pos rfl, if_neg (by simp [hfront]), h]
  simp only [stringBody_skip]

theorem stringBody_writeChar (opened : List Char) (c : Char) {rest : List Char}
    (hrest : rest ≠ []) :
    stringBody opened 0 (writeChar c ++ rest) =
      (stringBody opened 0 rest).map fun (s, after) => (c :: s, after) := by
  have hletter {letter c' : Char} (hu : letter ≠ 'u') (h : escapedChar? letter = some c') :
      stringBody opened 0 ('\\' :: letter :: rest) =
        (stringBody opened 0 rest).map fun (s, after) => (c' :: s, after) :=
    stringBody_escape opened [letter] (by simp) (by simp [escape, hu, h])
  unfold writeChar
  split
  case isTrue hself => rcases hself with rfl | rfl <;> exact hletter (by decide) rfl
  case isFalse hself =>
    split
    case isTrue hb => exact hb ▸ hletter (by decide) rfl
    split
    case isTrue hf => exact hf ▸ hletter (by decide) rfl
    split
    case isTrue hn => exact hn ▸ hletter (by decide) rfl
    split
    case isTrue hr => exact hr ▸ hletter (by decide) rfl
    split
    case isTrue ht => exact ht ▸ hletter (by decide) rfl
    split
    case isTrue hcontrol =>
      have hescape := escape_hex (n := c.toNat) (by omega) hrest
      rw [charOfCode_toNat] at hescape
      refine stringBody_escape opened ('u' :: Text.hex Text.lowerDigit 4 c.toNat) (by simp) ?_
      rw [hescape, List.length_cons, Text.length_hex]
    case isFalse hcontrol =>
      obtain ⟨hquote, hbackslash⟩ := not_or.mp hself
      rw [List.singleton_append, stringBody, if_neg hquote, if_neg hbackslash, if_neg hcontrol]

theorem stringBody_writeText (opened s rest : List Char) :
    stringBody opened 0 (s.flatMap writeChar ++ '"' :: rest) = .ok (s, rest) := by
  induction s with
  | nil => rfl
  | cons c more ih =>
      rw [List.flatMap_cons, List.append_assoc, stringBody_writeChar opened c (by simp), ih]
      rfl

/-! ### Blanks -/

def IsGap (s : List Char) : Prop :=
  ∀ c ∈ s, isBlank c = true

theorem isGap_lineBreak (indent : Option Int) (depth : Nat) : IsGap (lineBreak indent depth) := by
  cases indent with
  | none => simp [IsGap, lineBreak]
  | some n =>
      intro c hc
      rcases List.mem_cons.mp hc with rfl | hc
      · rfl
      · rw [List.eq_of_mem_replicate hc]
        rfl

theorem comma_eq (indent : Option Int) (depth : Nat) :
    ∃ gap, comma indent depth = ',' :: gap ∧ IsGap gap := by
  cases indent with
  | none => exact ⟨[' '], rfl, by simp [IsGap, isBlank]⟩
  | some n => exact ⟨_, rfl, isGap_lineBreak (some n) depth⟩

theorem skipBlank_append {gap : List Char} (hgap : IsGap gap) (s : List Char) :
    skipBlank (gap ++ s) = skipBlank s :=
  List.dropWhile_append_of_pos hgap

theorem skipBlank_cons {c : Char} (hc : isBlank c = false) (s : List Char) :
    skipBlank (c :: s) = c :: s := by
  simp [skipBlank, hc]

/-- The text begins with a character with which values begin: it is neither blank nor the end of a
list nor a byte order mark. -/
def StartsBare (s : List Char) : Prop :=
  ∃ c rest, s = c :: rest ∧ isBlank c = false ∧ c ≠ ']' ∧ c ≠ '\ufeff'

theorem StartsBare.skipBlank_append {s : List Char} (h : StartsBare s) (rest : List Char) :
    skipBlank (s ++ rest) = s ++ rest := by
  obtain ⟨c, more, rfl, hc, -⟩ := h
  exact skipBlank_cons hc (more ++ rest)

theorem StartsBare.append {s : List Char} (h : StartsBare s) (rest : List Char) :
    StartsBare (s ++ rest) := by
  obtain ⟨c, more, rfl, hc⟩ := h
  exact ⟨c, more ++ rest, rfl, hc⟩

theorem startsBare_joined (separator : List Char) {w : List Char} (h : StartsBare w)
    (more : List (List Char)) :
    StartsBare (Text.joined separator (w :: more)) := by
  obtain ⟨c, rest, rfl, hc⟩ := h
  cases more with
  | nil => exact ⟨c, rest, rfl, hc⟩
  | cons t more => exact ⟨c, _, rfl, hc⟩

/-! ### Lists and mappings -/

/-- The text is read as the value, whatever stands behind it. -/
structure Form (room : Nat) (w : List Char) (d : Datum) : Prop where
  bare : StartsBare w
  read : ∀ (fuel : Nat) (rest : List Char), w.length < fuel →
    value fuel room (w ++ rest) = .ok (d, rest)

def writeEntry (write : Datum → List Char) (entry : String × Datum) : List Char :=
  writeText entry.1 ++ ':' :: ' ' :: write entry.2

theorem writeItems_eq_map (indent : Option Int) (depth : Nat) (items : List Datum) :
    writeItems indent depth items = items.map (writeAt indent depth) := by
  induction items with
  | nil => rfl
  | cons item rest ih => rw [writeItems, ih, List.map_cons]

theorem writeEntries_eq_map (indent : Option Int) (depth : Nat) (entries : List (String × Datum)) :
    writeEntries indent depth (keyed entries) =
      entries.map (writeEntry (writeAt indent depth)) := by
  induction entries with
  | nil => rfl
  | cons entry rest ih =>
      rw [keyed_cons, writeEntries, ih, List.map_cons, writeEntry]

section

variable {room fuel : Nat} {inner gap : List Char} (hinner : IsGap inner) (hgap : IsGap gap)

include hgap in
theorem elements_last {w : List Char} {item : Datum} (hform : Form room w item)
    (hfuel : w.length < fuel) (rest : List Char) :
    elements (fuel + 1) room (w ++ (gap ++ ']' :: rest)) = .ok ([item], rest) := by
  rw [elements, hform.read fuel _ hfuel]
  simp only [skipBlank_append hgap]
  rfl

include hinner in
theorem elements_cons {w s : List Char} {item : Datum} (hform : Form room w item)
    (hs : StartsBare s) (hfuel : w.length < fuel) (rest : List Char) :
    elements (fuel + 1) room (w ++ ',' :: (inner ++ (s ++ rest))) =
      (elements fuel room (s ++ rest)).map fun (items, after) => (item :: items, after) := by
  rw [elements, hform.read fuel _ hfuel]
  simp only [skipBlank_cons (c := ',') rfl]
  rw [skipBlank_append hinner, hs.skipBlank_append]

/-- What is read behind a member. -/
def behindMember (fuel room : Nat) (member : Datum × Datum) :
    List Char → Step (List (Datum × Datum))
  | '\x7d' :: after => .ok ([member], after)
  | ',' :: next =>
      (members fuel room (skipBlank next)).map fun (entries, after) => (member :: entries, after)
  | other => .error (.fault .expectedComma other.length)

theorem members_entry {write : Datum → List Char} {entry : String × Datum}
    (hform : Form room (write entry.2) entry.2) (hfuel : (writeEntry write entry).length ≤ fuel)
    (behind : List Char) :
    members (fuel + 1) room (writeEntry write entry ++ behind) =
      behindMember fuel room (.text entry.1, entry.2) (skipBlank behind) := by
  have hvalue : (write entry.2).length < fuel := by
    simp only [writeEntry, List.length_append, List.length_cons] at hfuel
    omega
  have hskip : skipBlank (' ' :: (write entry.2 ++ behind)) = write entry.2 ++ behind :=
    hform.bare.skipBlank_append behind
  simp only [writeEntry, writeText, List.append_assoc, List.cons_append, List.nil_append]
  rw [members, stringBody_writeText]
  simp only [skipBlank_cons (c := ':') rfl, String.ofList_toList]
  rw [hskip, hform.read fuel behind hvalue]
  rfl

include hinner hgap

theorem elements_joined {write : Datum → List Char} {items : List Datum} (hne : items ≠ [])
    (hform : ∀ item ∈ items, Form room (write item) item) (fuel : Nat) (rest : List Char)
    (hfuel : (Text.joined (',' :: inner) (items.map write)).length + 1 < fuel) :
    elements fuel room (Text.joined (',' :: inner) (items.map write) ++ (gap ++ ']' :: rest)) =
      .ok (items, rest) := by
  induction items generalizing fuel with
  | nil => exact absurd rfl hne
  | cons item more ih =>
      obtain ⟨fuel, rfl⟩ : ∃ n, fuel = n + 1 := ⟨fuel - 1, by omega⟩
      have hitem := hform item (by simp)
      cases more with
      | nil =>
          simp only [List.map_cons, List.map_nil, Text.joined] at hfuel ⊢
          exact elements_last hgap hitem (by omega) rest
      | cons next more =>
          have hbare := startsBare_joined (',' :: inner)
            (hform next (by simp)).bare (more.map write)
          have hlater := ih (by simp) (fun i hi => hform i (by simp [hi])) fuel (by
            simp only [List.map_cons, Text.joined, List.length_append, List.length_cons] at hfuel ⊢
            omega)
          simp only [List.map_cons, Text.joined, List.length_append, List.append_assoc,
            List.cons_append] at hfuel hlater ⊢
          rw [elements_cons hinner hitem hbare (by omega), hlater]
          rfl

theorem members_joined {write : Datum → List Char} {entries : List (String × Datum)}
    (hne : entries ≠ []) (hform : ∀ entry ∈ entries, Form room (write entry.2) entry.2)
    (fuel : Nat) (rest : List Char)
    (hfuel : (Text.joined (',' :: inner) (entries.map (writeEntry write))).length < fuel) :
    members fuel room
        (Text.joined (',' :: inner) (entries.map (writeEntry write)) ++ (gap ++ '\x7d' :: rest)) =
      .ok (keyed entries, rest) := by
  induction entries generalizing fuel with
  | nil => exact absurd rfl hne
  | cons entry more ih =>
      obtain ⟨fuel, rfl⟩ : ∃ n, fuel = n + 1 := ⟨fuel - 1, by omega⟩
      have hentry := hform entry (by simp)
      cases more with
      | nil =>
          simp only [List.map_cons, List.map_nil, Text.joined] at hfuel ⊢
          rw [members_entry hentry (by omega), skipBlank_append hgap]
          rfl
      | cons next more =>
          have hbare := startsBare_joined (',' :: inner)
            (w := writeEntry write next) ⟨'"', _, rfl, by decide⟩ (more.map (writeEntry write))
          have hlater := ih (by simp) (fun e he => hform e (by simp [he])) fuel (by
            simp only [List.map_cons, Text.joined, List.length_append, List.length_cons] at hfuel ⊢
            omega)
          simp only [List.map_cons, Text.joined, List.length_append, List.append_assoc,
            List.cons_append] at hfuel hlater ⊢
          rw [members_entry hentry (by omega), skipBlank_cons rfl, behindMember,
            skipBlank_append hinner, hbare.skipBlank_append, hlater]
          rfl

end

/-! ### Values -/

theorem form_text (room : Nat) (s : String) : Form room (writeText s) (.text s) where
  bare := ⟨'"', _, rfl, by decide⟩
  read := by
    intro fuel rest hfuel
    obtain ⟨fuel, rfl⟩ : ∃ n, fuel = n + 1 := ⟨fuel - 1, by omega⟩
    simp only [writeText, List.append_assoc, List.cons_append, List.nil_append]
    rw [value, stringBody_writeText]
    simp [Except.map]

theorem form_null (room : Nat) : Form room "null".toList .null where
  bare := ⟨'n', _, rfl, by decide⟩
  read := by
    intro fuel rest hfuel
    obtain ⟨fuel, rfl⟩ : ∃ n, fuel = n + 1 := ⟨fuel - 1, by omega⟩
    rfl

theorem form_bool (room : Nat) (indent : Option Int) (depth : Nat) (b : Bool) :
    Form room (writeAt indent depth (.bool b)) (.bool b) where
  bare := by cases b <;> exact ⟨_, _, rfl, by decide⟩
  read := by
    intro fuel rest hfuel
    obtain ⟨fuel, rfl⟩ : ∃ n, fuel = n + 1 := ⟨fuel - 1, by omega⟩
    cases b <;> rfl

theorem startsBare_enclose (indent : Option Int) (depth : Nat) {opening : Char}
    (closing : Char) (items : List (List Char))
    (h : isBlank opening = false ∧ opening ≠ ']' ∧ opening ≠ '\ufeff') :
    StartsBare (enclose indent depth opening closing items) := by
  unfold enclose
  split
  · exact ⟨opening, _, rfl, h⟩
  · exact ⟨opening, _, rfl, h⟩

theorem exists_enclose_eq (indent : Option Int) (depth : Nat) (opening closing : Char)
    {items : List (List Char)} (hitems : items ≠ []) :
    ∃ first inner gap, IsGap first ∧ IsGap inner ∧ IsGap gap ∧
      enclose indent depth opening closing items =
        opening :: (first ++ (Text.joined (',' :: inner) items ++ (gap ++ [closing]))) := by
  obtain ⟨inner, hcomma, hinner⟩ := comma_eq indent (depth + 1)
  refine ⟨lineBreak indent (depth + 1), inner, lineBreak indent depth, isGap_lineBreak _ _, hinner,
    isGap_lineBreak _ _, ?_⟩
  simp [enclose, hitems, hcomma]

theorem value_list {room fuel : Nat} {first s : List Char} (hfirst : IsGap first)
    (hs : StartsBare s) :
    value (fuel + 1) (room + 1) ('[' :: (first ++ s)) =
      (elements fuel room s).map fun (items, after) => (.list items, after) := by
  obtain ⟨c, more, rfl, hblank, hc, -⟩ := hs
  rw [value, if_neg (Nat.succ_ne_zero room), skipBlank_append hfirst, skipBlank_cons hblank]
  split
  case h_1 heq => exact absurd (List.cons.inj heq).1 hc
  case h_2 => rfl

theorem value_mapping {room fuel : Nat} {first s : List Char} (hfirst : IsGap first) :
    value (fuel + 1) (room + 1) ('\x7b' :: (first ++ '"' :: s)) =
      (members fuel room ('"' :: s)).map fun (entries, after) =>
        (.mapping (Datum.ofEntries entries), after) := by
  rw [value, if_neg (Nat.succ_ne_zero room), skipBlank_append hfirst, skipBlank_cons (by decide)]
  rfl

theorem form_list {room depth : Nat} {indent : Option Int} {items : List Datum}
    (h : ∀ item ∈ items, Form room (writeAt indent (depth + 1) item) item) :
    Form (room + 1) (writeAt indent depth (.list items)) (.list items) where
  bare := startsBare_enclose indent depth ']' _ (by decide)
  read := by
    intro fuel rest hfuel
    obtain ⟨fuel, rfl⟩ : ∃ n, fuel = n + 1 := ⟨fuel - 1, by omega⟩
    rw [writeAt, writeItems_eq_map] at hfuel ⊢
    cases items with
    | nil => rfl
    | cons item more =>
        have hitems : (item :: more).map (writeAt indent (depth + 1)) ≠ [] := by simp
        obtain ⟨first, inner, gap, hfirst, hinner, hgap, henclose⟩ :=
          exists_enclose_eq indent depth '[' ']' hitems
        have hbare := startsBare_joined (',' :: inner) (h item (by simp)).bare
          (more.map (writeAt indent (depth + 1)))
        rw [← List.map_cons] at hbare
        rw [henclose] at hfuel ⊢
        simp only [List.length_cons, List.length_append] at hfuel
        have hread := elements_joined hinner hgap (by simp) h fuel rest (by omega)
        simp only [List.cons_append, List.append_assoc, List.nil_append]
        rw [value_list hfirst (hbare.append _), hread]
        rfl

theorem insertEntry_of_notMem {entries : List (String × Datum)} {key : String} (value : Datum)
    (h : key ∉ entries.map (·.1)) :
    Datum.insertEntry (.text key) value (keyed entries) = keyed (entries ++ [(key, value)]) := by
  unfold keyed
  induction entries with
  | nil => rfl
  | cons entry rest ih =>
      obtain ⟨hne, hrest⟩ := not_or.mp (mt List.mem_cons.mpr h)
      have hkey : Datum.sameKey (.text entry.1) (.text key) = false :=
        decide_eq_false (Ne.symm hne)
      simp only [List.map_cons, Datum.insertEntry, hkey, Bool.false_eq_true, if_false, ih hrest,
        List.cons_append]

theorem ofEntries_of_nodup {entries : List (String × Datum)} (h : (entries.map (·.1)).Nodup) :
    Datum.ofEntries (keyed entries) = keyed entries := by
  -- The entries that were put in stand in front of those that are left.
  have hfold (done : List (String × Datum)) (hdone : ((done ++ entries).map (·.1)).Nodup) :
      (keyed entries).foldl (fun done entry => Datum.insertEntry entry.1 entry.2 done)
          (keyed done) =
        keyed (done ++ entries) := by
    clear h
    induction entries generalizing done with
    | nil => simp [keyed]
    | cons entry rest ih =>
        rw [List.append_cons] at hdone
        have hfresh : entry.1 ∉ done.map (·.1) := by
          have hfront := (List.nodup_append.mp (List.map_append ▸ hdone)).1
          simp only [List.map_append, List.map_cons, List.map_nil] at hfront
          intro hmem
          exact (List.nodup_append.mp hfront).2.2 _ hmem _ (by simp) rfl
        rw [keyed_cons, List.foldl_cons]
        simp only [insertEntry_of_notMem _ hfresh]
        rw [ih _ hdone, List.append_assoc, List.singleton_append]
  exact hfold [] h

theorem form_mapping {room depth : Nat} {indent : Option Int} {entries : List (String × Datum)}
    (hkeys : (entries.map (·.1)).Nodup)
    (h : ∀ entry ∈ entries, Form room (writeAt indent (depth + 1) entry.2) entry.2) :
    Form (room + 1) (writeAt indent depth (.mapping (keyed entries)))
      (.mapping (keyed entries)) where
  bare := startsBare_enclose indent depth '\x7d' _ (by decide)
  read := by
    intro fuel rest hfuel
    obtain ⟨fuel, rfl⟩ : ∃ n, fuel = n + 1 := ⟨fuel - 1, by omega⟩
    rw [writeAt, writeEntries_eq_map] at hfuel ⊢
    cases entries with
    | nil => rfl
    | cons entry more =>
        have hentries : (entry :: more).map (writeEntry (writeAt indent (depth + 1))) ≠ [] := by
          simp
        obtain ⟨first, inner, gap, hfirst, hinner, hgap, henclose⟩ :=
          exists_enclose_eq indent depth '\x7b' '\x7d' hentries
        obtain ⟨s, hs⟩ : ∃ s, Text.joined (',' :: inner)
            ((entry :: more).map (writeEntry (writeAt indent (depth + 1)))) = '"' :: s := by
          cases more <;> exact ⟨_, rfl⟩
        rw [henclose] at hfuel ⊢
        simp only [List.length_cons, List.length_append] at hfuel
        have hread := members_joined hinner hgap (by simp) h fuel rest (by omega)
        rw [hs] at hread ⊢
        simp only [List.cons_append, List.append_assoc, List.nil_append] at hread ⊢
        rw [value_mapping hfirst, hread]
        exact congrArg (fun d => Except.ok (Datum.mapping d, rest)) (ofEntries_of_nodup hkeys)

theorem Plain.form {room : Nat} {d : Datum} (h : Plain room d) (indent : Option Int)
    (depth : Nat) : Form room (writeAt indent depth d) d := by
  induction h generalizing depth with
  | null => exact form_null _
  | bool value => exact form_bool _ indent depth value
  | text value => exact form_text _ value
  | list hitems ih => exact form_list fun item hitem => ih item hitem (depth + 1)
  | mapping hkeys hvalues ih =>
      exact form_mapping hkeys fun entry hentry => ih entry hentry (depth + 1)

theorem read_write_append {d : Datum} (h : Plain deepest d) (indent : Option Int) {gap : List Char}
    (hgap : IsGap gap) : read (String.ofList (writeAt indent 0 d ++ gap)) = .ok d := by
  have hform := h.form indent 0
  have hmark : (writeAt indent 0 d ++ gap).head? ≠ some '\ufeff' := by
    obtain ⟨c, rest, hs, -, -, hc⟩ := hform.bare
    simpa [hs] using hc
  have hlength : (writeAt indent 0 d).length < (writeAt indent 0 d ++ gap).length + 1 := by
    rw [List.length_append]
    omega
  have hbehind : skipBlank gap = [] := by
    have hskip := skipBlank_append hgap []
    rwa [List.append_nil] at hskip
  rw [read, String.toList_ofList, document, if_neg hmark, hform.bare.skipBlank_append,
    hform.read _ gap hlength]
  simp only [hbehind]
  rfl

/-- What is written for a value is read as that value. -/
theorem read_write {d : Datum} (h : Plain deepest d) (indent : Option Int) :
    read (write indent d) = .ok d := by
  have hgap : IsGap [] := List.forall_mem_nil _
  have hread := read_write_append h indent hgap
  rwa [List.append_nil] at hread

end LexicalPath.Json
