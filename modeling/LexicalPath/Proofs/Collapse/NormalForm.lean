import LexicalPath.Proofs.Collapse.ClosedForm

namespace LexicalPath

/-- The names are parent names and behind them regular names, by two judgements. -/
def IsNormal (isSelf isParent : String → Bool) (names : List String) : Prop :=
  ∃ lead down : List String, names = lead ++ down ∧
    (∀ name ∈ lead, NameKind.of isSelf isParent name = .parent) ∧
    ∀ name ∈ down, NameKind.of isSelf isParent name = .regular

namespace Collapse

theorem kept_push_cases (c : Collapse) (kind : NameKind) (name : String) :
    (c.push kind name).kept = c.kept ∨ (c.push kind name).kept = name :: c.kept ∨
      ∃ top, c.kept = top :: (c.push kind name).kept := by
  obtain ⟨kept, anchored⟩ := c
  cases kind with
  | self => exact Or.inl rfl
  | regular => exact Or.inr (Or.inl rfl)
  | parent =>
      cases anchored with
      | false => exact Or.inr (Or.inl rfl)
      | true =>
          cases kept with
          | nil => exact Or.inr (Or.inl rfl)
          | cons top rest => exact Or.inr (Or.inr ⟨top, rfl⟩)

theorem kept_push_sublist (c : Collapse) (kind : NameKind) (name : String) :
    (c.push kind name).kept.reverse.Sublist (c.kept.reverse ++ [name]) := by
  rcases kept_push_cases c kind name with hsame | hkept | ⟨top, htaken⟩
  · rw [hsame]
    exact List.sublist_append_left _ _
  · simp [hkept]
  · rw [htaken, List.reverse_cons, List.append_assoc]
    exact List.sublist_append_left _ _

theorem kept_run_sublist (c : Collapse) (names : List Label) :
    (c.run names).kept.reverse.Sublist (c.kept.reverse ++ names.map (·.2)) := by
  induction names generalizing c with
  | nil => simp [run]
  | cons n rest ih =>
      obtain ⟨kind, name⟩ := n
      have hpush := (kept_push_sublist c kind name).append_right (rest.map (·.2))
      simpa [run] using (ih (c.push kind name)).trans hpush

end Collapse

theorem collapse_sublist (names : List Label) :
    (collapse names).Sublist (names.map (·.2)) :=
  Collapse.kept_run_sublist {} names

variable {isSelf isParent : String → Bool}

theorem isNormal_collapse (names : List String) :
    IsNormal isSelf isParent (collapse (labelled isSelf isParent names)) := by
  refine ⟨_, _, collapse_eq _, ?_, ?_⟩
  · intro name hname
    exact of_eq_of_mem_labelled (parent_mem_of_mem_keptParents hname)
  · intro name hname
    exact of_eq_of_mem_labelled (regular_mem_of_mem_pending hname)

theorem IsNormal.collapse_eq {names : List String} (h : IsNormal isSelf isParent names) :
    collapse (labelled isSelf isParent names) = names := by
  obtain ⟨lead, down, rfl, hlead, hdown⟩ := h
  have hnone : ∀ n ∈ lead.map (Prod.mk NameKind.parent), Label.isRegular n = false := by
    simp [Label.isRegular]
  rw [labelled_append, labelled_of_kind hlead, labelled_of_kind hdown, collapse,
    Collapse.run_append, Collapse.run_of_no_regular hnone, Collapse.run_regular]
  simp [parentNames, List.filter_map, Function.comp_def]

theorem collapse_labelled_eq_iff (names : List String) :
    collapse (labelled isSelf isParent names) = names ↔ IsNormal isSelf isParent names := by
  constructor
  · intro h
    rw [← h]
    exact isNormal_collapse names
  · exact IsNormal.collapse_eq

/-- For every pair of judgements on names, normalizing a path leaves some of its names in their
order, and these are in normal form. A path stays as it is iff its names are in normal form, so that
normalizing again changes nothing. -/
theorem normalize_normal_form {d : Dialect} (hd : d.grammar.Judges isSelf isParent) (p : Path) :
    ∃ q : Path, d.normalize p = .ok q ∧ q.root = p.root ∧ q.names.Sublist p.names ∧
      IsNormal isSelf isParent q.names ∧ (q = p ↔ IsNormal isSelf isParent p.names) ∧
      d.normalize q = .ok q := by
  obtain ⟨root, names⟩ := p
  have hnormal : IsNormal isSelf isParent (collapse (labelled isSelf isParent names)) :=
    isNormal_collapse names
  refine ⟨_, hd.normalize_eq _, rfl, ?_, hnormal, ?_, ?_⟩
  · simpa [labelled, Function.comp_def] using collapse_sublist (labelled isSelf isParent names)
  · rw [← collapse_labelled_eq_iff]
    simp
  · rw [hd.normalize_eq, hnormal.collapse_eq]

/-- The parent name that is left stood behind a regular name. -/
theorem normalize_normal_form_late_parent :
    Unix.grammar.Judges (· = ".") (· = "..") ∧
      ∃ q : Path, Unix.dialect.normalize ⟨none, ["..", "a", ".", "..", "..", "..", "b"]⟩ = .ok q ∧
        q.names = ["..", "b"] ∧ Unix.dialect.normalize q = .ok q := by
  refine ⟨Unix.judges, ?_⟩
  obtain ⟨q, hq, -, -, -, -, hagain⟩ := normalize_normal_form (d := Unix.dialect) Unix.judges
    ⟨none, ["..", "a", ".", "..", "..", "..", "b"]⟩
  have hnames : Unix.dialect.normalize ⟨none, ["..", "a", ".", "..", "..", "..", "b"]⟩ =
      .ok ⟨none, ["..", "b"]⟩ := by
    decide
  refine ⟨q, hq, ?_, hagain⟩
  rw [hnames] at hq
  rw [← Except.ok.inj hq]

end LexicalPath
