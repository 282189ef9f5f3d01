import LexicalPath.Proofs.Collapse.NormalForm
import LexicalPath.Proofs.Hop

namespace LexicalPath

/-- The steps from one list of names to another: up to the names that both begin with, and down from
there. -/
def stepsBetween (names goal : List String) : Nat :=
  (afterCommon names goal).1.length + (afterCommon names goal).2.length

theorem length_hopNames (names goal : List String) :
    (hopNames names goal).length = stepsBetween names goal := by
  rw [hopNames, List.length_append, List.length_replicate, stepsBetween]

theorem stepsBetween_nil_left (goal : List String) : stepsBetween [] goal = goal.length := by
  simp [stepsBetween, afterCommon]

theorem stepsBetween_nil_right (names : List String) : stepsBetween names [] = names.length := by
  cases names <;> rfl

theorem stepsBetween_cons_self (name : String) (names goal : List String) :
    stepsBetween (name :: names) (name :: goal) = stepsBetween names goal := by
  rw [stepsBetween, afterCommon, if_pos rfl, ← stepsBetween]

theorem stepsBetween_cons_of_ne {name first : String} (h : name ≠ first)
    (names goal : List String) :
    stepsBetween (name :: names) (first :: goal) = names.length + goal.length + 2 := by
  rw [stepsBetween, afterCommon, if_neg h, List.length_cons, List.length_cons]
  omega

theorem stepsBetween_self (names : List String) : stepsBetween names names = 0 := by
  induction names with
  | nil => rfl
  | cons name names ih => rw [stepsBetween_cons_self, ih]

theorem stepsBetween_append_singleton (names goal : List String) (name : String) :
    stepsBetween names goal ≤ stepsBetween (names ++ [name]) goal + 1 ∧
      stepsBetween (names ++ [name]) goal ≤ stepsBetween names goal + 1 := by
  induction names generalizing goal with
  | nil =>
      rw [stepsBetween_nil_left, List.nil_append]
      cases goal with
      | nil => exact ⟨Nat.zero_le _, Nat.le_refl 1⟩
      | cons first rest =>
          by_cases h : name = first
          · rw [h, stepsBetween_cons_self, stepsBetween_nil_left, List.length_cons]
            omega
          · rw [stepsBetween_cons_of_ne h, List.length_cons, List.length_nil]
            omega
  | cons top names ih =>
      rw [List.cons_append]
      cases goal with
      | nil =>
          rw [stepsBetween_nil_right, stepsBetween_nil_right, List.length_cons, List.length_cons,
            List.length_append, List.length_singleton]
          omega
      | cons first rest =>
          by_cases h : top = first
          · rw [h, stepsBetween_cons_self, stepsBetween_cons_self]
            exact ih rest
          · rw [stepsBetween_cons_of_ne h, stepsBetween_cons_of_ne h, List.length_append,
              List.length_singleton]
            omega

namespace Collapse

theorem stepsBetween_push (c : Collapse) (kind : NameKind) (name : String) (goal : List String) :
    stepsBetween c.kept.reverse goal ≤ stepsBetween (c.push kind name).kept.reverse goal + 1 := by
  rcases kept_push_cases c kind name with hsame | hdown | ⟨top, hup⟩
  · rw [hsame]
    exact Nat.le_succ _
  · rw [hdown, List.reverse_cons]
    exact (stepsBetween_append_singleton _ goal name).1
  · rw [hup, List.reverse_cons]
    exact (stepsBetween_append_singleton _ goal top).2

theorem stepsBetween_run (c : Collapse) (names : List Label) (goal : List String) :
    stepsBetween c.kept.reverse goal ≤
      stepsBetween (c.run names).kept.reverse goal + names.length := by
  induction names generalizing c with
  | nil => exact Nat.le_refl _
  | cons n rest ih =>
      obtain ⟨kind, name⟩ := n
      calc
        stepsBetween c.kept.reverse goal ≤
            stepsBetween (c.push kind name).kept.reverse goal + 1 :=
              stepsBetween_push c kind name goal
        _ ≤ stepsBetween ((c.push kind name).run rest).kept.reverse goal + rest.length + 1 :=
            Nat.succ_le_succ (ih (c.push kind name))

end Collapse

theorem Climb.replicate_append {names down : List String} {ups : Nat} (n : Nat)
    (h : Climb names ups down) : Climb (List.replicate n ".." ++ names) (n + ups) down := by
  refine ⟨?_, h.regular⟩
  rw [h.eq, ← List.append_assoc, List.replicate_append_replicate]

theorem Climb.of_append {front names down : List String} {ups : Nat}
    (h : Climb (front ++ names) ups down) :
    Climb names (ups - front.length) (down.drop (front.length - ups)) := by
  refine ⟨?_, fun name hname => h.regular name (List.mem_of_mem_drop hname)⟩
  have hdrop := congrArg (List.drop front.length) h.eq
  rw [List.drop_left, List.drop_append, List.drop_replicate, List.length_replicate] at hdrop
  exact hdrop

theorem exists_climb_hopNames (names : List String) {goal down : List String} {ups : Nat}
    (h : Climb goal ups down) : ∃ ups down, Climb (hopNames names goal) ups down := by
  obtain ⟨common, -, hgoal⟩ := exists_afterCommon names goal
  rw [hgoal] at h
  exact ⟨_, _, h.of_append.replicate_append _⟩

/-- Every way between two normalized lists of names, whatever detours it makes. -/
theorem stepsBetween_le_of_collapse {names goal way : List String}
    (hnames : collapse (dotLabelled names) = names)
    (hgoal : collapse (dotLabelled (names ++ way)) = goal) :
    stepsBetween names goal ≤ way.length := by
  have hrun :=
    Collapse.stepsBetween_run (Collapse.run {} (dotLabelled names)) (dotLabelled way) goal
  have hstart : (Collapse.run {} (dotLabelled names)).kept.reverse = names := hnames
  have hend :
      ((Collapse.run {} (dotLabelled names)).run (dotLabelled way)).kept.reverse = goal := by
    rw [← Collapse.run_append, ← dotLabelled_append]
    exact hgoal
  rw [hstart, hend, stepsBetween_self, Nat.zero_add] at hrun
  simpa [dotLabelled, labelled] using hrun

/-- The relative path between two normalized paths of one root is in normal form, and every way from
the one to the other has at least as many names. It is such a way itself if the parent names in
front of the place it reaches are those of the goal. -/
theorem hop_shortest (s : StandardDialect) {base other : Path}
    (hbase : s.dialect.normalize base = .ok base)
    (hother : s.dialect.normalize other = .ok other) (hroot : base.root = other.root) :
    ∃ hop : Path, s.dialect.relativize base other = .ok hop ∧ hop.root = none ∧
      s.dialect.normalize hop = .ok hop ∧
      (s.dialect.destination base hop = .ok other ↔
        landingUps (upsOf base.names) (upsOf other.names) (downOf base.names) =
          upsOf other.names) ∧
      ∀ way : Path, way.root = none → s.dialect.destination base way = .ok other →
        hop.nameCount ≤ way.nameCount := by
  obtain ⟨_, _, hbaseClimb⟩ := (s.dotted.normalize_eq_self_iff base).mp hbase
  obtain ⟨_, _, hotherClimb⟩ := (s.dotted.normalize_eq_self_iff other).mp hother
  have hhop := s.dotted.relativize_eq hroot
  refine ⟨.relative (hopNames base.names other.names), hhop, rfl, ?_, ?_, ?_⟩
  · apply (s.dotted.normalize_eq_self_iff _).mpr
    exact exists_climb_hopNames base.names hotherClimb
  · have hreached : s.dialect.reached base other =
        s.dialect.destination base (.relative (hopNames base.names other.names)) := by
      rw [Dialect.reached, hhop]
      rfl
    rw [← hreached, s.dotted.reached_eq_self_iff_of_climb (climb_upsOf_downOf hbaseClimb)
      (climb_upsOf_downOf hotherClimb) hroot, landingUps_eq_iff]
  · rintro ⟨_, way⟩ rfl hway
    change s.dialect.destination base (.relative way) = .ok other at hway
    rw [s.dotted.destination_relative] at hway
    have hgoal := congrArg Path.names (Except.ok.inj hway)
    calc
      (hopNames base.names other.names).length = stepsBetween base.names other.names :=
        length_hopNames base.names other.names
      _ ≤ way.length := stepsBetween_le_of_collapse hbaseClimb.collapse_eq hgoal

/-- A detour by `b` and a self name leads from `../a` to `c` as well, by more names. -/
theorem hop_shortest_detour :
    Unix.dialect.normalize ⟨none, ["..", "a"]⟩ = .ok ⟨none, ["..", "a"]⟩ ∧
      Unix.dialect.normalize ⟨none, ["c"]⟩ = .ok ⟨none, ["c"]⟩ ∧
      Unix.dialect.destination ⟨none, ["..", "a"]⟩ ⟨none, ["b", ".", "..", "..", "..", "c"]⟩ =
        .ok ⟨none, ["c"]⟩ ∧
      ∃ hop : Path, Unix.dialect.relativize ⟨none, ["..", "a"]⟩ ⟨none, ["c"]⟩ = .ok hop ∧
        Unix.dialect.normalize hop = .ok hop ∧ hop.nameCount ≤ 6 := by
  have hbase : Unix.dialect.normalize ⟨none, ["..", "a"]⟩ = .ok ⟨none, ["..", "a"]⟩ := by decide
  have hother : Unix.dialect.normalize ⟨none, ["c"]⟩ = .ok ⟨none, ["c"]⟩ := by decide
  have hway : Unix.dialect.destination ⟨none, ["..", "a"]⟩
      ⟨none, ["b", ".", "..", "..", "..", "c"]⟩ = .ok ⟨none, ["c"]⟩ := by
    decide
  obtain ⟨hop, hhop, -, hnormal, -, hleast⟩ := hop_shortest .unix hbase hother rfl
  exact ⟨hbase, hother, hway, hop, hhop, hnormal, hleast _ rfl hway⟩

end LexicalPath
