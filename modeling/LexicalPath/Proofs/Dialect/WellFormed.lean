import LexicalPath.Proofs.Hop
import LexicalPath.Proofs.Resolve.Basic
import LexicalPath.Proofs.Dialect.Unix
import LexicalPath.Proofs.Dialect.Windows

namespace LexicalPath.StandardDialect

def name : StandardDialect → String
  | .unix => "unix"
  | .windows => "windows"

theorem dialect_name (d : StandardDialect) : d.dialect.name = d.name := by
  cases d <;> rfl

theorem name_injective {d e : StandardDialect} (h : d.name = e.name) : d = e := by
  cases d <;> cases e <;> simp [name] at h ⊢

def IsRoot : StandardDialect → Option String → Prop
  | .unix => fun root => root = none ∨ root = some "/"
  | .windows => Windows.IsRoot

def isValidName : StandardDialect → String → Bool
  | .unix => Unix.isValidName
  | .windows => Windows.isValidName

/-- The root is one that the dialect writes, and all names are valid in it. -/
structure WellFormed (d : StandardDialect) (p : Path) : Prop where
  root : d.IsRoot p.root
  names : ∀ name ∈ p.names, d.isValidName name = true

theorem isRoot_none (d : StandardDialect) : d.IsRoot none := by
  cases d with
  | unix => exact Or.inl rfl
  | windows => exact Windows.IsRoot.none

theorem isValidName_parentName (d : StandardDialect) : d.isValidName ".." = true := by
  cases d <;> rfl

theorem wellFormed_of_parse {d : StandardDialect} {text : String} {p : Path}
    (h : d.dialect.parse text = .ok p) : d.WellFormed p := by
  cases d with
  | unix =>
      obtain ⟨hroot, hnames⟩ := Unix.wellFormed_of_parse h
      exact ⟨hroot, hnames⟩
  | windows =>
      obtain ⟨hroot, hnames⟩ := Windows.wellFormed_of_parse h
      exact ⟨hroot, hnames⟩

theorem parse_print {d : StandardDialect} {p : Path} (hp : d.WellFormed p) :
    d.dialect.parse (d.dialect.print p) = .ok p := by
  cases d with
  | unix => exact Unix.parse_print_of_wellFormed ⟨hp.root, hp.names⟩
  | windows => exact Windows.parse_print_of_wellFormed ⟨hp.root, hp.names⟩

theorem print_inj {d : StandardDialect} {p q : Path} (hp : d.WellFormed p) (hq : d.WellFormed q) :
    d.dialect.print p = d.dialect.print q ↔ p = q := by
  exact ⟨Dialect.eq_of_print_eq (parse_print hp) (parse_print hq), congrArg d.dialect.print⟩

theorem wellFormed_parent {d : StandardDialect} {p q : Path} (hp : d.WellFormed p)
    (h : p.parent? = some q) : d.WellFormed q := by
  rw [Path.parent?] at h
  split at h
  · cases h
  · obtain rfl := Option.some.inj h
    exact ⟨hp.root, fun name hname => hp.names name (List.mem_of_mem_dropLast hname)⟩

theorem wellFormed_normalize {d : StandardDialect} {p q : Path} (hp : d.WellFormed p)
    (h : d.dialect.normalize p = .ok q) : d.WellFormed q := by
  rw [d.dotted.normalize_eq] at h
  obtain rfl := Except.ok.inj h
  refine ⟨hp.root, ?_⟩
  intro name hname
  apply hp.names
  simpa [dotLabelled, labelled] using mem_of_mem_collapse hname

theorem wellFormed_resolve {d : StandardDialect} {base other q : Path} (hbase : d.WellFormed base)
    (hother : d.WellFormed other) (h : d.dialect.resolve base other = .ok q) :
    d.WellFormed q := by
  rcases d.resolve_cases base other with ⟨-, hresolve⟩ | ⟨-, hresolve⟩ | ⟨-, hresolve⟩
  · rw [hresolve] at h
    obtain rfl := Except.ok.inj h
    refine ⟨hbase.root, ?_⟩
    intro name hname
    rcases List.mem_append.mp hname with hname | hname
    · exact hbase.names name hname
    · exact hother.names name hname
  · rw [hresolve] at h
    cases h
  · rw [hresolve] at h
    obtain rfl := Except.ok.inj h
    exact hother

theorem wellFormed_resolveSibling {d : StandardDialect} {base other q : Path}
    (hbase : d.WellFormed base) (hother : d.WellFormed other)
    (h : d.dialect.resolveSibling base other = .ok q) : d.WellFormed q := by
  rw [Dialect.resolveSibling] at h
  split at h
  · obtain rfl := Except.ok.inj h
    exact hother
  · rename_i parent hparent
    exact wellFormed_resolve (wellFormed_parent hbase hparent) hother h

theorem wellFormed_relativize {d : StandardDialect} {base other q : Path}
    (hother : d.WellFormed other) (h : d.dialect.relativize base other = .ok q) :
    d.WellFormed q := by
  by_cases hroot : base.root = other.root
  · rw [d.dotted.relativize_eq hroot] at h
    obtain rfl := Except.ok.inj h
    refine ⟨d.isRoot_none, ?_⟩
    intro name hname
    rcases mem_hopNames hname with rfl | hname
    · exact d.isValidName_parentName
    · exact hother.names name hname
  · rw [d.dialect.relativize_of_ne hroot] at h
    cases h

end LexicalPath.StandardDialect
