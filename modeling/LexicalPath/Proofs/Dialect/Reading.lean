import LexicalPath.Dialect.Basic

namespace LexicalPath.Dialect

theorem checkNames_eq_ok_iff (d : Dialect) (text : String) (names : List String) :
    d.checkNames text names = .ok () ↔
      ∀ name ∈ names, d.grammar.isValidName name = .ok true := by
  induction names with
  | nil => simp [checkNames]
  | cons name rest ih =>
      rw [checkNames, List.forall_mem_cons]
      cases hvalid : d.grammar.isValidName name with
      | error e => simp
      | ok valid =>
          cases valid with
          | false => simp
          | true => simpa using ih

theorem parse_eq_ok_iff (d : Dialect) (text : String) (p : Path) :
    d.parse text = .ok p ↔
      ∃ rest, d.grammar.splitRoot text = .ok (p.root, rest) ∧
        d.grammar.splitNames rest = .ok p.names ∧
        ∀ name ∈ p.names, d.grammar.isValidName name = .ok true := by
  rw [parse]
  constructor
  · intro h
    split at h
    · cases h
    · rename_i root rest hroot
      split at h
      · cases h
      · rename_i names hnames
        split at h
        · cases h
        · rename_i hcheck
          cases h
          exact ⟨rest, hroot, hnames, (d.checkNames_eq_ok_iff text names).mp hcheck⟩
  · rintro ⟨rest, hroot, hnames, hvalid⟩
    simp only [hroot, hnames, (d.checkNames_eq_ok_iff text p.names).mpr hvalid]

theorem checkNames_eq (d : Dialect) {isValid : String → Bool}
    (hvalid : ∀ name, d.grammar.isValidName name = .ok (isValid name)) (text : String)
    (names : List String) :
    d.checkNames text names =
      match names.find? (! isValid ·) with
      | some name => .error (.invalidName text name)
      | none => .ok () := by
  induction names with
  | nil => rfl
  | cons name rest ih =>
      rw [checkNames, hvalid, List.find?_cons]
      cases isValid name with
      | true => exact ih
      | false => rfl

theorem parse_eq_of_split {d : Dialect} {isValid : String → Bool}
    (hvalid : ∀ name, d.grammar.isValidName name = .ok (isValid name)) {text rest : String}
    {root : Option String} {names : List String}
    (hroot : d.grammar.splitRoot text = .ok (root, rest))
    (hnames : d.grammar.splitNames rest = .ok names) :
    d.parse text =
      match names.find? (! isValid ·) with
      | some name => .error (.invalidName text name)
      | none => .ok { root, names } := by
  simp only [parse, hroot, hnames, d.checkNames_eq hvalid]
  cases names.find? (! isValid ·) <;> rfl

theorem eq_of_print_eq {d : Dialect} {p q : Path} (hp : d.parse (d.print p) = .ok p)
    (hq : d.parse (d.print q) = .ok q) (h : d.print p = d.print q) : p = q := by
  rw [h, hq] at hp
  exact (Except.ok.inj hp).symm

/-- The characters of a root, none where there is no root. -/
def rootChars : Option String → List Char
  | none => []
  | some root => root.toList

theorem toList_print {d : Dialect} (hroot : d.rootSeparator = "") (p : Path) :
    (d.print p).toList =
      rootChars p.root ++ Text.joined d.nameSeparator.toList (p.names.map String.toList) := by
  obtain ⟨root, names⟩ := p
  cases root with
  | none => simp [print, rootChars, Text.joinedStrings]
  | some root =>
      cases names with
      | nil => simp [print, rootChars, Text.joined]
      | cons name rest => simp [print, rootChars, Text.joinedStrings, hroot]

end LexicalPath.Dialect
