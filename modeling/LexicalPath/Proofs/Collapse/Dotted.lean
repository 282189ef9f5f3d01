import LexicalPath.Dialect.Resolve
import LexicalPath.Dialect.Windows
import LexicalPath.Proofs.Collapse.ClosedForm

namespace LexicalPath

inductive StandardDialect where
  | unix
  | windows
  deriving DecidableEq

def StandardDialect.dialect : StandardDialect → Dialect
  | .unix => Unix.dialect
  | .windows => Windows.dialect

def IsRegularName (name : String) : Prop :=
  name ≠ "." ∧ name ≠ ".."

instance (name : String) : Decidable (IsRegularName name) :=
  inferInstanceAs (Decidable (_ ∧ _))

def dotLabelled (names : List String) : List Label :=
  labelled (· = ".") (· = "..") names

/-- A dialect with the usual self name and parent name, in which nothing without a root is
absolute. -/
structure Dialect.Dotted (d : Dialect) : Prop where
  judges : d.grammar.Judges (· = ".") (· = "..")
  parentName : d.grammar.parentName = ".."
  relative : ∀ p : Path, p.root = none → d.grammar.isAbsolute p = .ok false

theorem Unix.dotted : Unix.dialect.Dotted where
  judges := Unix.judges
  parentName := rfl
  relative := by
    rintro ⟨root, names⟩ rfl
    rfl

theorem Windows.judges : Windows.grammar.Judges (· = ".") (· = "..") :=
  ⟨fun _ => rfl, fun _ => rfl⟩

theorem Windows.dotted : Windows.dialect.Dotted where
  judges := Windows.judges
  parentName := rfl
  relative := by
    rintro ⟨root, names⟩ rfl
    rfl

theorem StandardDialect.dotted (s : StandardDialect) : s.dialect.Dotted := by
  cases s with
  | unix => exact Unix.dotted
  | windows => exact Windows.dotted

/-- Names that climb by `ups` parent names and then go down by the regular names `down`. -/
structure Climb (names : List String) (ups : Nat) (down : List String) : Prop where
  eq : names = List.replicate ups ".." ++ down
  regular : ∀ name ∈ down, IsRegularName name

theorem dotLabelled_append (names more : List String) :
    dotLabelled (names ++ more) = dotLabelled names ++ dotLabelled more :=
  labelled_append _ _ names more

theorem dotLabelled_replicate (n : Nat) :
    dotLabelled (List.replicate n "..") = List.replicate n (.parent, "..") := by
  simp [dotLabelled, labelled, NameKind.of]

theorem dotLabelled_of_regular {names : List String} (h : ∀ name ∈ names, IsRegularName name) :
    dotLabelled names = names.map (Prod.mk .regular) := by
  apply List.map_congr_left
  intro name hname
  obtain ⟨hself, hparent⟩ := h name hname
  simp [NameKind.of, hself, hparent]

def HeadRegular (names : List Label) : Prop :=
  ∀ n ∈ names.head?, n.isRegular = true

theorem headRegular_map (names : List String) :
    HeadRegular (names.map (Prod.mk .regular)) := by
  intro n hn
  obtain ⟨name, -, rfl⟩ := List.mem_map.mp (List.mem_of_mem_head? hn)
  rfl

theorem headRegular_map_append {names : List String} (hnames : names ≠ []) (more : List Label) :
    HeadRegular (names.map (Prod.mk .regular) ++ more) := by
  obtain ⟨name, rest, rfl⟩ := List.exists_cons_of_ne_nil hnames
  exact headRegular_map [name]

theorem takeWhile_replicate_append {n : Nat} {rest : List Label} (h : HeadRegular rest) :
    List.takeWhile (fun m : Label => !m.isRegular)
        (List.replicate n (NameKind.parent, "..") ++ rest) =
      List.replicate n (NameKind.parent, "..") := by
  rw [List.takeWhile_append_of_pos]
  · cases rest with
    | nil => simp
    | cons m more => simp [h m (by simp)]
  · intro m hm
    rw [List.eq_of_mem_replicate hm]
    rfl

theorem fromFirstRegular_replicate_append {n : Nat} {rest : List Label} (h : HeadRegular rest) :
    fromFirstRegular (List.replicate n (.parent, "..") ++ rest) = rest := by
  rw [fromFirstRegular, List.dropWhile_append_of_pos]
  · cases rest with
    | nil => rfl
    | cons m more => simp [h m (by simp)]
  · intro m hm
    rw [List.eq_of_mem_replicate hm]
    rfl

theorem leadingParents_replicate_append {n : Nat} {rest : List Label} (h : HeadRegular rest) :
    leadingParents (List.replicate n (.parent, "..") ++ rest) = List.replicate n ".." := by
  rw [leadingParents, takeWhile_replicate_append h]
  simp [parentNames]

namespace Descent

theorem run_regular (s : Descent) (names : List String) :
    s.run (names.map (Prod.mk .regular)) = { s with pending := names.reverse ++ s.pending } := by
  induction names generalizing s with
  | nil => rfl
  | cons name rest ih =>
      rw [List.map_cons, run_cons, ih]
      simp [push]

theorem run_parents (s : Descent) (n : Nat) :
    s.run (List.replicate n (.parent, "..")) =
      { pending := s.pending.drop n
        surplus := List.replicate (n - s.pending.length) ".." ++ s.surplus } := by
  induction n generalizing s with
  | zero => simp [run]
  | succ n ih =>
      rw [List.replicate_succ, run_cons, ih]
      obtain ⟨pending, surplus⟩ := s
      cases pending with
      | nil => simp [push, List.replicate_succ', List.append_assoc]
      | cons top rest => simp [push]

end Descent

theorem keptParents_replicate (lead surplus : Nat) :
    keptParents (List.replicate lead "..") (List.replicate surplus "..") =
      List.replicate (keptCount lead surplus) ".." := by
  rw [List.eq_replicate_iff]
  constructor
  · rw [length_keptParents]
    simp
  · intro name hname
    rcases mem_keptParents hname with h | h <;> exact List.eq_of_mem_replicate h

/-- A climb whose way down is climbed back by `n` parent names, and the way down from there. Parent
names that find no regular name to take back work on those in front. -/
theorem collapse_climb_back (ups n : Nat) {down more : List String} (hdown : down ≠ [])
    (hregular : ∀ name ∈ down, IsRegularName name) (hmore : ∀ name ∈ more, IsRegularName name) :
    collapse (dotLabelled (List.replicate ups ".." ++ down ++ (List.replicate n ".." ++ more))) =
      List.replicate (keptCount ups (n - down.length)) ".." ++
        (down.take (down.length - n) ++ more) := by
  have hhead := headRegular_map_append hdown
    (List.replicate n (.parent, "..") ++ more.map (Prod.mk .regular))
  have hrun : Descent.run {} (down.map (Prod.mk .regular) ++
      (List.replicate n (.parent, "..") ++ more.map (Prod.mk .regular))) =
        { pending := more.reverse ++ down.reverse.drop n
          surplus := List.replicate (n - down.length) ".." } := by
    rw [Descent.run_append, Descent.run_append, Descent.run_regular, Descent.run_parents,
      Descent.run_regular]
    simp
  rw [dotLabelled_append, dotLabelled_append, dotLabelled_append, dotLabelled_replicate,
    dotLabelled_replicate, dotLabelled_of_regular hregular, dotLabelled_of_regular hmore,
    List.append_assoc, collapse_eq, leadingParents_replicate_append hhead, descent,
    fromFirstRegular_replicate_append hhead, hrun]
  simp [keptParents_replicate, List.reverse_append, List.reverse_drop]

theorem Climb.collapse_eq {names down : List String} {ups : Nat} (h : Climb names ups down) :
    collapse (dotLabelled names) = names := by
  have hhead := headRegular_map down
  rw [h.eq, dotLabelled_append, dotLabelled_replicate, dotLabelled_of_regular h.regular,
    LexicalPath.collapse_eq, leadingParents_replicate_append hhead, descent,
    fromFirstRegular_replicate_append hhead, Descent.run_regular]
  simp [keptParents]

theorem eq_parent_of_kind {name : String}
    (h : NameKind.of (· = ".") (· = "..") name = .parent) : name = ".." := by
  unfold NameKind.of at h
  split at h
  · cases h
  · split at h
    · rename_i hparent
      simpa using hparent
    · cases h

theorem isRegularName_of_kind {name : String}
    (h : NameKind.of (· = ".") (· = "..") name = .regular) : IsRegularName name := by
  unfold NameKind.of at h
  split at h
  · cases h
  · split at h
    · cases h
    · rename_i hself hparent
      exact ⟨by simpa using hself, by simpa using hparent⟩

theorem exists_climb_collapse (names : List String) :
    ∃ ups down, Climb (collapse (dotLabelled names)) ups down := by
  let kept := keptParents (leadingParents (dotLabelled names))
    (descent (dotLabelled names)).surplus.reverse
  refine ⟨kept.length, (descent (dotLabelled names)).pending.reverse, ?_, ?_⟩
  · rw [collapse_eq, List.append_left_inj, List.eq_replicate_iff]
    refine ⟨rfl, ?_⟩
    intro name hname
    exact eq_parent_of_kind (of_eq_of_mem_labelled (parent_mem_of_mem_keptParents hname))
  · intro name hname
    exact isRegularName_of_kind (of_eq_of_mem_labelled (regular_mem_of_mem_pending hname))

namespace Dialect.Dotted

variable {d : Dialect} (hd : d.Dotted)

include hd

theorem normalize_eq (p : Path) :
    d.normalize p = .ok { p with names := collapse (dotLabelled p.names) } :=
  hd.judges.normalize_eq p

theorem normalize_eq_self_iff (p : Path) :
    d.normalize p = .ok p ↔ ∃ ups down, Climb p.names ups down := by
  rw [hd.normalize_eq]
  constructor
  · intro h
    have hnames : collapse (dotLabelled p.names) = p.names :=
      congrArg Path.names (Except.ok.inj h)
    rw [← hnames]
    exact exists_climb_collapse p.names
  · rintro ⟨ups, down, h⟩
    rw [h.collapse_eq]

theorem resolve_relative (base : Path) (names : List String) :
    d.resolve base (.relative names) = .ok { base with names := base.names ++ names } := by
  unfold Dialect.resolve
  rw [hd.relative _ rfl]
  cases names with
  | nil => simp [Path.relative]
  | cons name rest => rfl

end Dialect.Dotted

end LexicalPath
