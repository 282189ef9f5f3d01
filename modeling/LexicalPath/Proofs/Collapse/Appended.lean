import LexicalPath.Proofs.Collapse.Resumed

namespace LexicalPath

theorem leadingParents_dotLabelled (names : List String) :
    leadingParents (dotLabelled names) =
      List.replicate (leadingParents (dotLabelled names)).length ".." := by
  rw [List.eq_replicate_iff]
  refine ⟨rfl, ?_⟩
  intro name hname
  exact eq_parent_of_kind (of_eq_of_mem_labelled (mem_leadingParents hname))

theorem surplus_dotLabelled (names : List String) :
    (descent (dotLabelled names)).surplus =
      List.replicate (descent (dotLabelled names)).surplus.length ".." := by
  rw [List.eq_replicate_iff]
  refine ⟨rfl, ?_⟩
  intro name hname
  exact eq_parent_of_kind (of_eq_of_mem_labelled ((labelled_descent _).2 name hname))

theorem isRegularName_of_mem_pending {names : List String} {name : String}
    (h : name ∈ (descent (dotLabelled names)).pending.reverse) : IsRegularName name :=
  isRegularName_of_kind (of_eq_of_mem_labelled (regular_mem_of_mem_pending h))

namespace Collapse

/-- Goes up by `n` parent names. -/
def up (c : Collapse) (n : Nat) : Collapse :=
  c.run (List.replicate n (.parent, ".."))

theorem up_anchored {kept : List String} {n : Nat} (h : n ≤ kept.length) :
    up ⟨kept, true⟩ n = ⟨kept.drop n, true⟩ := by
  induction n generalizing kept with
  | zero => rfl
  | succ n ih =>
      cases kept with
      | nil => simp at h
      | cons top rest =>
          rw [List.length_cons] at h
          exact ih (by omega)

theorem kept_run_dotLabelled (c : Collapse) (names : List String) :
    (c.run (dotLabelled names)).kept =
      (descent (dotLabelled names)).pending ++
        settle (c.up (leadingParents (dotLabelled names)).length).kept
          (descent (dotLabelled names)).surplus := by
  have hlead : c.run ((dotLabelled names).takeWhile fun n : Label => !n.isRegular) =
      c.up (leadingParents (dotLabelled names)).length := by
    rw [run_eq_run_parents c fun _ => isRegular_of_mem_takeWhile, ← leadingParents,
      leadingParents_dotLabelled, List.map_replicate, List.length_replicate, up]
  rw [kept_run, hlead]

theorem kept_run_collapse (c : Collapse) (names : List String) :
    (c.run (dotLabelled (collapse (dotLabelled names)))).kept =
      (descent (dotLabelled names)).pending ++
        (c.up (keptCount (leadingParents (dotLabelled names)).length
          (descent (dotLabelled names)).surplus.length)).kept := by
  rw [collapse_eq, leadingParents_dotLabelled, surplus_dotLabelled, List.reverse_replicate,
    keptParents_replicate, dotLabelled_append, dotLabelled_replicate,
    dotLabelled_of_regular fun _ => isRegularName_of_mem_pending, run_append, run_regular,
    List.reverse_reverse, List.length_replicate, List.length_replicate, up]

/-- A base that makes a difference. Regular names tell a way from its normal form unless both go up
equally far, which is so only for a single surplus parent name; a parent name tells these. -/
theorem exists_base_settle_ne {lead : Nat} {surplus : List String} (hsurplus : surplus ≠ []) :
    ∃ base : List String,
      settle ((run {} (dotLabelled base)).up lead).kept surplus ≠
        ((run {} (dotLabelled base)).up (keptCount lead surplus.length)).kept := by
  have hpos := List.length_pos_iff.mpr hsurplus
  by_cases hcount : keptCount lead surplus.length = lead + surplus.length
  · have hsingle : lead = 0 ∧ surplus.length = 1 := by
      unfold keptCount at hcount
      split at hcount <;> omega
    obtain ⟨rfl, hlength⟩ := hsingle
    refine ⟨[".."], ?_⟩
    intro h
    have hlengths := congrArg List.length h
    rw [length_settle, hlength] at hlengths
    revert hlengths
    decide
  · have hle : keptCount lead surplus.length ≤ lead + surplus.length := by
      unfold keptCount
      split <;> omega
    have hregular : ∀ name ∈ List.replicate (lead + surplus.length) "a", IsRegularName name := by
      intro name hname
      rw [List.eq_of_mem_replicate hname]
      decide
    have hbase : run {} (dotLabelled (List.replicate (lead + surplus.length) "a")) =
        ⟨List.replicate (lead + surplus.length) "a", true⟩ := by
      rw [dotLabelled_of_regular hregular, run_regular]
      simp [hsurplus]
    refine ⟨List.replicate (lead + surplus.length) "a", ?_⟩
    intro h
    have hlengths := congrArg List.length h
    have hnone : keptCount surplus.length surplus.length = 0 := by simp [keptCount]
    rw [hbase, up_anchored (by simp), up_anchored (by simpa using hle), length_settle] at hlengths
    simp only [List.drop_replicate, List.length_replicate, Nat.add_sub_cancel_left, hnone]
      at hlengths
    omega

end Collapse

theorem collapse_append_collapse_iff (names : List String) :
    (∀ base : List String,
      collapse (dotLabelled (base ++ names)) =
        collapse (dotLabelled (base ++ collapse (dotLabelled names)))) ↔
      (descent (dotLabelled names)).surplus = [] := by
  have hstep (base : List String) :
      collapse (dotLabelled (base ++ names)) =
          collapse (dotLabelled (base ++ collapse (dotLabelled names))) ↔
        settle ((Collapse.run {} (dotLabelled base)).up
            (leadingParents (dotLabelled names)).length).kept
            (descent (dotLabelled names)).surplus =
          ((Collapse.run {} (dotLabelled base)).up
            (keptCount (leadingParents (dotLabelled names)).length
              (descent (dotLabelled names)).surplus.length)).kept := by
    rw [dotLabelled_append, dotLabelled_append, collapse, collapse.eq_1 (dotLabelled base ++ _),
      List.reverse_inj, Collapse.run_append, Collapse.run_append, Collapse.kept_run_dotLabelled,
      Collapse.kept_run_collapse, List.append_right_inj]
  simp only [hstep]
  constructor
  · intro h
    by_contra hsurplus
    obtain ⟨base, hbase⟩ := Collapse.exists_base_settle_ne hsurplus
    exact hbase (h base)
  · intro hsurplus base
    simp [hsurplus, settle, keptCount]

namespace Dialect

def destinationByNormalized (d : Dialect) (base other : Path) : Except PathError Path := do
  let way ← d.normalize other
  d.destination base way

theorem Dotted.destinationByNormalized_relative {d : Dialect} (hd : d.Dotted) (base : Path)
    (names : List String) :
    d.destinationByNormalized base (.relative names) =
      .ok { base with
              names := collapse (dotLabelled (base.names ++ collapse (dotLabelled names))) } := by
  rw [destinationByNormalized, hd.normalize_eq]
  exact hd.destination_relative base _

end Dialect

/-- Going a way and going it once it is normalized lead to the same place from everywhere iff no
parent name behind the first regular name of the way finds the stack of pending regular names
empty. -/
theorem destination_by_normalized_iff (s : StandardDialect) (other : Path)
    (hother : other.root = none) :
    (∀ base : Path, ∃ place, s.dialect.destination base other = .ok place ∧
      s.dialect.destinationByNormalized base other = .ok place) ↔
      (descent (dotLabelled other.names)).surplus = [] := by
  obtain ⟨_, names⟩ := other
  subst hother
  change (∀ base : Path, ∃ place, s.dialect.destination base (.relative names) = .ok place ∧
    s.dialect.destinationByNormalized base (.relative names) = .ok place) ↔ _
  simp only [s.dotted.destination_relative, s.dotted.destinationByNormalized_relative]
  rw [← collapse_append_collapse_iff]
  constructor
  · intro h base
    obtain ⟨place, hplace, hplace'⟩ := h ⟨none, base⟩
    rw [← hplace'] at hplace
    exact congrArg Path.names (Except.ok.inj hplace)
  · intro h base
    exact ⟨_, rfl, by rw [h base.names]⟩

/-- In `../a/..` every parent name behind `a` has a name to take back; in `a/../..` one has not. -/
theorem destination_by_normalized_told_and_untold :
    (∀ base : Path, ∃ place,
      Unix.dialect.destination base ⟨none, ["..", "a", ".."]⟩ = .ok place ∧
        Unix.dialect.destinationByNormalized base ⟨none, ["..", "a", ".."]⟩ = .ok place) ∧
      ¬ ∀ base : Path, ∃ place,
        Unix.dialect.destination base ⟨none, ["a", "..", ".."]⟩ = .ok place ∧
          Unix.dialect.destinationByNormalized base ⟨none, ["a", "..", ".."]⟩ = .ok place := by
  constructor
  · apply (destination_by_normalized_iff .unix ⟨none, ["..", "a", ".."]⟩ rfl).mpr
    decide
  · intro h
    have hsurplus := (destination_by_normalized_iff .unix ⟨none, ["a", "..", ".."]⟩ rfl).mp h
    revert hsurplus
    decide

end LexicalPath
