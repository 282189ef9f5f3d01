import LexicalPath.Proofs.Dialect.WellFormed

namespace LexicalPath.StandardDialect

variable {d : StandardDialect} {e : PathError}

theorem isValidName_eq (d : StandardDialect) (name : String) :
    d.dialect.grammar.isValidName name = .ok (d.isValidName name) := by
  cases d <;> rfl

theorem splitNames_eq (d : StandardDialect) (rest : String) :
    ∃ names, d.dialect.grammar.splitNames rest = .ok names := by
  cases d <;> exact ⟨_, rfl⟩

theorem isOfPath_of_splitRoot {text : String} (h : d.dialect.grammar.splitRoot text = .error e) :
    e.isOfPath = true := by
  cases d with
  | unix => cases h
  | windows =>
      change Windows.splitRoot text = .error e at h
      rw [Windows.splitRoot] at h
      split at h
      · obtain rfl := Except.error.inj h
        rfl
      · cases h

theorem isOfPath_of_parse {text : String} (h : d.dialect.parse text = .error e) :
    e.isOfPath = true := by
  cases hroot : d.dialect.grammar.splitRoot text with
  | error e' =>
      simp only [Dialect.parse, hroot] at h
      obtain rfl := Except.error.inj h
      exact isOfPath_of_splitRoot hroot
  | ok split =>
      obtain ⟨names, hnames⟩ := d.splitNames_eq split.2
      rw [Dialect.parse_eq_of_split d.isValidName_eq hroot hnames] at h
      split at h
      · obtain rfl := Except.error.inj h
        rfl
      · cases h

theorem isOfPath_of_normalize {p : Path} (h : d.dialect.normalize p = .error e) :
    e.isOfPath = true := by
  rw [d.dotted.normalize_eq] at h
  cases h

theorem isOfPath_of_resolve {base other : Path} (h : d.dialect.resolve base other = .error e) :
    e.isOfPath = true := by
  rcases d.resolve_cases base other with ⟨-, hresolve⟩ | ⟨-, hresolve⟩ | ⟨-, hresolve⟩
  · rw [hresolve] at h
    cases h
  · rw [hresolve] at h
    obtain rfl := Except.error.inj h
    rfl
  · rw [hresolve] at h
    cases h

theorem isOfPath_of_resolveSibling {base other : Path}
    (h : d.dialect.resolveSibling base other = .error e) : e.isOfPath = true := by
  rw [Dialect.resolveSibling] at h
  split at h
  · cases h
  · exact isOfPath_of_resolve h

theorem isOfPath_of_relativize {base other : Path}
    (h : d.dialect.relativize base other = .error e) : e.isOfPath = true := by
  by_cases hroot : base.root = other.root
  · rw [d.dotted.relativize_eq hroot] at h
    cases h
  · rw [d.dialect.relativize_of_ne hroot] at h
    obtain rfl := Except.error.inj h
    rfl

end LexicalPath.StandardDialect
