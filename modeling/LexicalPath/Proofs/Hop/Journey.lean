import LexicalPath.Proofs.Hop

namespace LexicalPath

/-- Normalizing the names of `place` ends in the state in which it ends for the stop itself, which
has `ups` parent names and the way down `down`. -/
structure Path.StandsFor (place stop : Path) (ups : Nat) (down : List String) : Prop where
  root : place.root = stop.root
  climb : Climb stop.names ups down
  reached : (Collapse.run {} (dotLabelled place.names)).At ups down

namespace Path.StandsFor

theorem refl {stop : Path} {ups : Nat} {down : List String} (h : Climb stop.names ups down) :
    stop.StandsFor stop ups down :=
  ⟨rfl, h, h.at_run⟩

theorem hop {place last stop : Path} {ups : Nat} {B O : List String}
    (h : place.StandsFor last ups B) (hroot : stop.root = last.root)
    (hstop : Climb stop.names ups O) :
    StandsFor { place with names := place.names ++ hopNames last.names stop.names } stop ups O := by
  refine ⟨h.root.trans hroot.symm, hstop, ?_⟩
  rw [dotLabelled_append, Collapse.run_append, h.climb.eq, hstop.eq, hopNames_append]
  exact h.reached.run_hop hstop.regular

theorem normalize_eq {d : Dialect} (hd : d.Dotted) {place stop : Path} {ups : Nat}
    {down : List String} (h : place.StandsFor stop ups down) : d.normalize place = .ok stop := by
  rw [hd.normalize_eq, collapse, h.reached.kept, List.reverse_reverse, ← h.climb.eq, h.root]

end Path.StandsFor

namespace Dialect

/-- The place that is made from `place`, which stands for the stop `last`, by the hops from there
through further stops. -/
def travel (d : Dialect) (place last : Path) : List Path → Except PathError Path
  | [] => .ok place
  | stop :: stops => do
      let hop ← d.relativize last stop
      let next ← d.resolve place hop
      d.travel next stop stops

variable {d : Dialect} (hd : d.Dotted)

include hd

theorem Dotted.travel_cons {last stop : Path} (hroot : stop.root = last.root) (place : Path)
    (stops : List Path) :
    d.travel place last (stop :: stops) =
      d.travel { place with names := place.names ++ hopNames last.names stop.names } stop
        stops := by
  rw [travel, hd.relativize_eq hroot.symm]
  change (d.resolve place (.relative _)).bind _ = _
  rw [hd.resolve_relative]
  rfl

theorem Dotted.exists_travel {place last : Path} {ups : Nat} {B : List String}
    (h : place.StandsFor last ups B) {stops : List Path}
    (hstops : ∀ stop ∈ stops, stop.root = last.root ∧ ∃ O, Climb stop.names ups O) :
    ∃ goal, d.travel place last stops = .ok goal ∧
      d.normalize goal = .ok ((last :: stops).getLast (List.cons_ne_nil last stops)) := by
  induction stops generalizing place last B with
  | nil => exact ⟨place, rfl, h.normalize_eq hd⟩
  | cons stop stops ih =>
      obtain ⟨hroot, O, hstop⟩ := hstops stop List.mem_cons_self
      have hrest : ∀ next ∈ stops, next.root = stop.root ∧ ∃ O, Climb next.names ups O := by
        intro next hnext
        rw [hroot]
        exact hstops next (List.mem_cons_of_mem stop hnext)
      rw [hd.travel_cons hroot, List.getLast_cons_cons]
      exact ih (h.hop hroot hstop) hrest

end Dialect

/-- A journey through normalized stops of one root, all under equally many parent names, never fails
and ends at its last stop. -/
theorem travel_to_last (s : StandardDialect) (start : Path) (stops : List Path)
    (hnormal : ∀ stop ∈ start :: stops, s.dialect.normalize stop = .ok stop)
    (hroot : ∀ stop ∈ stops, stop.root = start.root)
    (hups : ∀ stop ∈ stops, upsOf stop.names = upsOf start.names) :
    ∃ place, s.dialect.travel start start stops = .ok place ∧
      s.dialect.normalize place =
        .ok ((start :: stops).getLast (List.cons_ne_nil start stops)) := by
  have hclimb :
      ∀ stop ∈ start :: stops, Climb stop.names (upsOf stop.names) (downOf stop.names) := by
    intro stop hstop
    obtain ⟨_, _, h⟩ := (s.dotted.normalize_eq_self_iff stop).mp (hnormal stop hstop)
    exact climb_upsOf_downOf h
  apply s.dotted.exists_travel (Path.StandsFor.refl (hclimb start List.mem_cons_self))
  intro stop hstop
  refine ⟨hroot stop hstop, downOf stop.names, ?_⟩
  rw [← hups stop hstop]
  exact hclimb stop (List.mem_cons_of_mem start hstop)

/-- Down from `..`, across and back again. -/
theorem travel_to_last_and_back :
    ∃ place, Windows.dialect.travel ⟨some "C:", [".."]⟩ ⟨some "C:", [".."]⟩
        [⟨some "C:", ["..", "a", "b"]⟩, ⟨some "C:", ["..", "c"]⟩, ⟨some "C:", [".."]⟩] = .ok place ∧
      place.names = ["..", "a", "b", "..", "..", "c", ".."] ∧
      Windows.dialect.normalize place = .ok ⟨some "C:", [".."]⟩ := by
  obtain ⟨place, hplace, hgoal⟩ := travel_to_last .windows ⟨some "C:", [".."]⟩
    [⟨some "C:", ["..", "a", "b"]⟩, ⟨some "C:", ["..", "c"]⟩, ⟨some "C:", [".."]⟩]
    (by decide) (by decide) (by decide)
  refine ⟨place, hplace, ?_, hgoal⟩
  have hnames : StandardDialect.windows.dialect.travel ⟨some "C:", [".."]⟩ ⟨some "C:", [".."]⟩
      [⟨some "C:", ["..", "a", "b"]⟩, ⟨some "C:", ["..", "c"]⟩, ⟨some "C:", [".."]⟩] =
        .ok ⟨some "C:", ["..", "a", "b", "..", "..", "c", ".."]⟩ := by
    decide
  rw [hnames] at hplace
  rw [← Except.ok.inj hplace]

end LexicalPath
