import LexicalPath.Proofs.Collapse.Dotted

namespace LexicalPath

namespace Collapse

theorem anchored_run (c : Collapse) (names : List Label) :
    (c.run names).anchored = (c.anchored || names.any (·.isRegular)) := by
  induction names generalizing c with
  | nil => simp [run]
  | cons n rest ih =>
      obtain ⟨kind, name⟩ := n
      obtain ⟨kept, anchored⟩ := c
      rw [run, ih, List.any_cons]
      cases kind with
      | self => simp [push, Label.isRegular]
      | regular => simp [push, Label.isRegular]
      | parent =>
          cases anchored with
          | false => simp [push, Label.isRegular]
          | true => cases kept <;> simp [push]

/-- The names that are kept and whether a regular name was among the names are all that is known
later. -/
theorem run_eq (names : List Label) :
    run {} names = ⟨(collapse names).reverse, names.any (·.isRegular)⟩ := by
  have hanchored := anchored_run {} names
  rw [Bool.false_or] at hanchored
  rw [collapse, List.reverse_reverse, ← hanchored]

theorem kept_run_two_parents_ne (kept : List String) :
    (run ⟨kept, true⟩ [(.parent, ".."), (.parent, "..")]).kept ≠
      (run ⟨kept, false⟩ [(.parent, ".."), (.parent, "..")]).kept := by
  intro h
  have hlength := congrArg List.length h
  match kept with
  | [] => simp [run, push] at hlength
  | [_] => simp [run, push] at hlength
  | _ :: _ :: _ =>
      simp only [run, push, List.length_cons] at hlength
      omega

end Collapse

theorem collapse_append (names more : List Label) :
    collapse (names ++ more) =
      (Collapse.run ⟨(collapse names).reverse, names.any (·.isRegular)⟩ more).kept.reverse := by
  rw [← Collapse.run_eq, ← Collapse.run_append]
  rfl

theorem collapse_collapse (names : List String) :
    collapse (dotLabelled (collapse (dotLabelled names))) = collapse (dotLabelled names) := by
  obtain ⟨_, _, hclimb⟩ := exists_climb_collapse names
  exact hclimb.collapse_eq

theorem any_isRegular_dotLabelled (names : List String) :
    (dotLabelled names).any (·.isRegular) = true ↔ ∃ name ∈ names, IsRegularName name := by
  simp only [dotLabelled, labelled, List.any_map, List.any_eq_true, Function.comp_apply]
  constructor
  · rintro ⟨name, hname, hregular⟩
    exact ⟨name, hname, isRegularName_of_kind (by simpa [Label.isRegular] using hregular)⟩
  · rintro ⟨name, hname, hself, hparent⟩
    exact ⟨name, hname, by simp [Label.isRegular, NameKind.of, hself, hparent]⟩

theorem exists_regular_of_collapse {names : List String}
    (h : ∃ name ∈ collapse (dotLabelled names), IsRegularName name) :
    ∃ name ∈ names, IsRegularName name := by
  obtain ⟨name, hname, hregular⟩ := h
  refine ⟨name, ?_, hregular⟩
  simpa [dotLabelled, labelled] using mem_of_mem_collapse hname

theorem collapse_collapse_append_iff (names : List String) :
    (∀ more : List String,
      collapse (dotLabelled (names ++ more)) =
        collapse (dotLabelled (collapse (dotLabelled names) ++ more))) ↔
      (dotLabelled names).any (·.isRegular) =
        (dotLabelled (collapse (dotLabelled names))).any (·.isRegular) := by
  simp only [dotLabelled_append, collapse_append, collapse_collapse, List.reverse_inj]
  generalize (dotLabelled names).any (·.isRegular) = met
  generalize (dotLabelled (collapse (dotLabelled names))).any (·.isRegular) = left
  constructor
  · intro h
    have hparents := h ["..", ".."]
    have hne := Collapse.kept_run_two_parents_ne (collapse (dotLabelled names)).reverse
    cases met with
    | false =>
        cases left with
        | false => rfl
        | true => exact absurd hparents.symm hne
    | true =>
        cases left with
        | false => exact absurd hparents hne
        | true => rfl
  · rintro rfl more
    rfl

theorem any_isRegular_eq_iff (names : List String) :
    (dotLabelled names).any (·.isRegular) =
        (dotLabelled (collapse (dotLabelled names))).any (·.isRegular) ↔
      (∀ name ∈ names, ¬ IsRegularName name) ∨
        ∃ name ∈ collapse (dotLabelled names), IsRegularName name := by
  rw [Bool.eq_iff_iff, any_isRegular_dotLabelled, any_isRegular_dotLabelled]
  constructor
  · intro h
    by_cases hregular : ∃ name ∈ names, IsRegularName name
    · exact Or.inr (h.mp hregular)
    · left
      intro name hname hname'
      exact hregular ⟨name, hname, hname'⟩
  · rintro (hnone | hleft)
    · have hregular : ¬ ∃ name ∈ names, IsRegularName name := by
        rintro ⟨name, hname, hname'⟩
        exact hnone name hname hname'
      exact ⟨fun h => absurd h hregular, fun h => absurd (exists_regular_of_collapse h) hregular⟩
    · exact ⟨fun _ => hleft, fun _ => exists_regular_of_collapse hleft⟩

namespace Dialect

/-- The place that `other` leads to, as seen from `base`. -/
def destination (d : Dialect) (base other : Path) : Except PathError Path := do
  let place ← d.resolve base other
  d.normalize place

def destinationFromNormalized (d : Dialect) (base other : Path) : Except PathError Path := do
  let start ← d.normalize base
  d.destination start other

namespace Dotted

variable {d : Dialect} (hd : d.Dotted)

include hd

theorem destination_relative (base : Path) (names : List String) :
    d.destination base (.relative names) =
      .ok { base with names := collapse (dotLabelled (base.names ++ names)) } := by
  rw [destination]
  change (d.resolve base (.relative names)).bind d.normalize = _
  rw [hd.resolve_relative]
  exact hd.normalize_eq _

theorem destinationFromNormalized_relative (base : Path) (names : List String) :
    d.destinationFromNormalized base (.relative names) =
      .ok { base with
              names := collapse (dotLabelled (collapse (dotLabelled base.names) ++ names)) } := by
  rw [destinationFromNormalized, hd.normalize_eq]
  exact hd.destination_relative _ names

theorem same_destination_iff (base : Path) :
    (∀ other : Path, other.root = none →
      ∃ place, d.destination base other = .ok place ∧
        d.destinationFromNormalized base other = .ok place) ↔
      ∀ more : List String,
        collapse (dotLabelled (base.names ++ more)) =
          collapse (dotLabelled (collapse (dotLabelled base.names) ++ more)) := by
  constructor
  · intro h more
    obtain ⟨place, hplace, hplace'⟩ := h (.relative more) rfl
    rw [hd.destination_relative] at hplace
    rw [hd.destinationFromNormalized_relative, ← hplace] at hplace'
    exact (congrArg Path.names (Except.ok.inj hplace')).symm
  · rintro h ⟨_, more⟩ rfl
    refine ⟨_, hd.destination_relative base more, ?_⟩
    rw [h more]
    exact hd.destinationFromNormalized_relative base more

theorem regular_left_iff (base : Path) :
    (∃ start, d.normalize base = .ok start ∧ ∃ name ∈ start.names, IsRegularName name) ↔
      ∃ name ∈ collapse (dotLabelled base.names), IsRegularName name := by
  rw [hd.normalize_eq]
  constructor
  · rintro ⟨start, hstart, hregular⟩
    rw [← Except.ok.inj hstart] at hregular
    exact hregular
  · intro hregular
    exact ⟨_, rfl, hregular⟩

end Dotted

end Dialect

/-- Going on from a base and going on from it once it is normalized lead to the same place, wherever
the way goes, iff there is no regular name in the base or one is left in it. -/
theorem destination_normalized_iff (s : StandardDialect) (base : Path) :
    (∀ other : Path, other.root = none →
      ∃ place, s.dialect.destination base other = .ok place ∧
        s.dialect.destinationFromNormalized base other = .ok place) ↔
      (∀ name ∈ base.names, ¬ IsRegularName name) ∨
        ∃ start, s.dialect.normalize base = .ok start ∧
          ∃ name ∈ start.names, IsRegularName name := by
  rw [s.dotted.same_destination_iff, s.dotted.regular_left_iff, collapse_collapse_append_iff,
    any_isRegular_eq_iff]

/-- In `a/../../b` the last name tells that a regular name was met; in `a/..` nothing is left that
tells it. -/
theorem destination_normalized_told_and_untold :
    (∀ other : Path, other.root = none →
      ∃ place, Unix.dialect.destination ⟨none, ["a", "..", "..", "b"]⟩ other = .ok place ∧
        Unix.dialect.destinationFromNormalized ⟨none, ["a", "..", "..", "b"]⟩ other = .ok place) ∧
      ¬ ∀ other : Path, other.root = none →
        ∃ place, Unix.dialect.destination ⟨none, ["a", ".."]⟩ other = .ok place ∧
          Unix.dialect.destinationFromNormalized ⟨none, ["a", ".."]⟩ other = .ok place := by
  constructor
  · apply (destination_normalized_iff .unix ⟨none, ["a", "..", "..", "b"]⟩).mpr
    right
    exact ⟨⟨none, ["..", "b"]⟩, by decide, "b", by decide, by decide⟩
  · intro h
    rcases (destination_normalized_iff .unix ⟨none, ["a", ".."]⟩).mp h with
      hnone | ⟨start, hstart, name, hname, -⟩
    · exact hnone "a" (by decide) (by decide)
    · have hempty :
          StandardDialect.unix.dialect.normalize ⟨none, ["a", ".."]⟩ = .ok ⟨none, []⟩ := by
        decide
      rw [hempty] at hstart
      rw [← Except.ok.inj hstart] at hname
      cases hname

end LexicalPath
