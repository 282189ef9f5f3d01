import LexicalPath.Proofs.Collapse.Appended

/-!
Where the relative path between two normalized paths leads. Taking it from `base` and normalizing
ends below `other` as it should, but under another number of parent names where `base` has no way
down that the surplus could be taken from (`reached_of_climb`). Between places under equally many
parent names a hop always works out, whatever names stand in front (`Collapse.At.run_hop`). The two
main statements say for which pairs the place reached is `other`.
-/

namespace LexicalPath

/-- The place reached from `base` by the relative path that leads from `base` to `other`. -/
def Dialect.reached (d : Dialect) (base other : Path) : Except PathError Path := do
  let hop ← d.relativize base other
  let place ← d.resolve base hop
  d.normalize place

theorem afterCommon_append (common as bs : List String) :
    afterCommon (common ++ as) (common ++ bs) = afterCommon as bs := by
  induction common with
  | nil => rfl
  | cons name rest ih =>
      rw [List.cons_append, List.cons_append, afterCommon, if_pos rfl, ih]

theorem afterCommon_of_head_ne {as bs : List String}
    (h : ∀ a ∈ as.head?, ∀ b ∈ bs.head?, a ≠ b) : afterCommon as bs = (as, bs) := by
  cases as with
  | nil => rfl
  | cons a as =>
      cases bs with
      | nil => rfl
      | cons b bs => rw [afterCommon, if_neg (h a (by simp) b (by simp))]

theorem exists_afterCommon (as bs : List String) :
    ∃ common, as = common ++ (afterCommon as bs).1 ∧ bs = common ++ (afterCommon as bs).2 := by
  induction as generalizing bs with
  | nil => exact ⟨[], rfl, rfl⟩
  | cons a as ih =>
      cases bs with
      | nil => exact ⟨[], rfl, rfl⟩
      | cons b bs =>
          rw [afterCommon]
          split
          · rename_i heq
            subst heq
            obtain ⟨common, has, hbs⟩ := ih bs
            refine ⟨a :: common, ?_, ?_⟩
            · rw [List.cons_append, ← has]
            · rw [List.cons_append, ← hbs]
          · exact ⟨[], rfl, rfl⟩

theorem afterCommon_replicate_of_regular {n : Nat} (hn : 0 < n) {down : List String}
    (hdown : ∀ name ∈ down, IsRegularName name) (more : List String) :
    afterCommon down (List.replicate n ".." ++ more) = (down, List.replicate n ".." ++ more) ∧
      afterCommon (List.replicate n ".." ++ more) down =
        (List.replicate n ".." ++ more, down) := by
  obtain ⟨n, rfl⟩ := Nat.exists_eq_succ_of_ne_zero (Nat.ne_of_gt hn)
  have hhead : ∀ name ∈ down.head?, name ≠ ".." := by
    intro name hname
    exact (hdown name (List.mem_of_mem_head? hname)).2
  constructor
  · apply afterCommon_of_head_ne
    intro a ha b hb
    have : b = ".." := by simpa [List.replicate_succ] using hb.symm
    exact this ▸ hhead a ha
  · apply afterCommon_of_head_ne
    intro a ha b hb
    have : a = ".." := by simpa [List.replicate_succ] using ha.symm
    exact this ▸ (hhead b hb).symm

theorem afterCommon_of_climb {a b : Nat} {B O : List String} (hB : ∀ name ∈ B, IsRegularName name)
    (hO : ∀ name ∈ O, IsRegularName name) :
    afterCommon (List.replicate a ".." ++ B) (List.replicate b ".." ++ O) =
      if a = b then afterCommon B O
      else (List.replicate (a - b) ".." ++ B, List.replicate (b - a) ".." ++ O) := by
  rcases Nat.lt_trichotomy a b with hlt | heq | hgt
  · have hsplit : List.replicate b ".." = List.replicate a ".." ++ List.replicate (b - a) ".." := by
      rw [List.replicate_append_replicate, Nat.add_sub_cancel' (Nat.le_of_lt hlt)]
    rw [if_neg (Nat.ne_of_lt hlt), hsplit, List.append_assoc, afterCommon_append,
      (afterCommon_replicate_of_regular (Nat.sub_pos_of_lt hlt) hB O).1,
      Nat.sub_eq_zero_of_le (Nat.le_of_lt hlt)]
    rfl
  · rw [if_pos heq, heq, afterCommon_append]
  · have hsplit : List.replicate a ".." = List.replicate b ".." ++ List.replicate (a - b) ".." := by
      rw [List.replicate_append_replicate, Nat.add_sub_cancel' (Nat.le_of_lt hgt)]
    rw [if_neg (Nat.ne_of_gt hgt), hsplit, List.append_assoc, afterCommon_append,
      (afterCommon_replicate_of_regular (Nat.sub_pos_of_lt hgt) hO B).2,
      Nat.sub_eq_zero_of_le (Nat.le_of_lt hgt)]
    rfl

/-- The names of the hop from one list of names to another: up by each name that is left of the
first, then down by those that are left of the second. -/
def hopNames (names goal : List String) : List String :=
  List.replicate (afterCommon names goal).1.length ".." ++ (afterCommon names goal).2

theorem hopNames_append (common names goal : List String) :
    hopNames (common ++ names) (common ++ goal) = hopNames names goal := by
  rw [hopNames, afterCommon_append, ← hopNames]

theorem mem_hopNames {names goal : List String} {name : String} (h : name ∈ hopNames names goal) :
    name = ".." ∨ name ∈ goal := by
  obtain ⟨common, -, hgoal⟩ := exists_afterCommon names goal
  rcases List.mem_append.mp h with h | h
  · exact Or.inl (List.eq_of_mem_replicate h)
  · right
    rw [hgoal]
    exact List.mem_append_right common h

/-- The state after names that lead to `ups` parent names and the way down `down`: these are kept,
and a regular name was met unless the way down is empty. -/
structure Collapse.At (c : Collapse) (ups : Nat) (down : List String) : Prop where
  kept : c.kept = (List.replicate ups ".." ++ down).reverse
  anchored : down ≠ [] → c.anchored = true

theorem Climb.at_run {names down : List String} {ups : Nat} (h : Climb names ups down) :
    (Collapse.run {} (dotLabelled names)).At ups down := by
  rw [Collapse.run_eq, h.collapse_eq]
  constructor
  · rw [h.eq]
  · intro hdown
    obtain ⟨name, hname⟩ := List.exists_mem_of_ne_nil down hdown
    rw [any_isRegular_dotLabelled]
    exact ⟨name, by simp [h.eq, hname], h.regular name hname⟩

namespace Collapse.At

theorem up_append {c : Collapse} {ups : Nat} {common more : List String}
    (h : c.At ups (common ++ more)) : (c.up more.length).At ups common := by
  cases more with
  | nil =>
      rw [List.append_nil] at h
      exact h
  | cons name rest =>
      obtain ⟨kept, anchored⟩ := c
      obtain rfl : anchored = true := h.anchored (by simp)
      have hkept :
          kept = (name :: rest).reverse ++ (List.replicate ups ".." ++ common).reverse := by
        rw [← List.reverse_append, List.append_assoc]
        exact h.kept
      rw [up_anchored (by simp [hkept])]
      constructor
      · rw [hkept, List.drop_left' (by simp)]
      · intro _
        rfl

theorem run_regular {c : Collapse} {ups : Nat} {down : List String} (h : c.At ups down)
    (more : List String) : (c.run (more.map (Prod.mk .regular))).At ups (down ++ more) := by
  rw [Collapse.run_regular]
  constructor
  · rw [h.kept, ← List.reverse_append, List.append_assoc]
  · intro hdown
    cases more with
    | nil =>
        rw [List.append_nil] at hdown
        simp [h.anchored hdown]
    | cons name rest => simp

theorem run_hop {c : Collapse} {ups : Nat} {B O : List String} (h : c.At ups B)
    (hO : ∀ name ∈ O, IsRegularName name) : (c.run (dotLabelled (hopNames B O))).At ups O := by
  obtain ⟨common, hBsplit, hOsplit⟩ := exists_afterCommon B O
  have hmore : ∀ name ∈ (afterCommon B O).2, IsRegularName name := by
    intro name hname
    exact hO name (by rw [hOsplit]; exact List.mem_append_right _ hname)
  have hcommon : (c.up (afterCommon B O).1.length).At ups common := by
    apply up_append
    rw [← hBsplit]
    exact h
  rw [hopNames, dotLabelled_append, dotLabelled_replicate, dotLabelled_of_regular hmore,
    run_append, ← up]
  conv => arg 3; rw [hOsplit]
  exact hcommon.run_regular _

end Collapse.At

/-- The number of parent names in front of the place that a hop reaches, for a base of `a` parent
names and the way down `B`, and a goal with `b` parent names. -/
def landingUps (a b : Nat) (B : List String) : Nat :=
  if B = [] then a + ((a - b) + (b - a)) else keptCount a ((a - b) + (b - a))

theorem landingUps_eq_iff (a b : Nat) (B : List String) :
    landingUps a b B = b ↔
      a = b ∨ (b < a ∧ B ≠ []) ∨ (a < b ∧ (B = [] ∨ a = 0 ∧ b = 1)) := by
  unfold landingUps keptCount
  by_cases hB : B = []
  · simp only [hB, ne_eq, not_true_eq_false, and_false, true_or, and_true, if_true, false_or]
    omega
  · simp only [hB, ne_eq, not_false_eq_true, and_true, if_false, false_or]
    split <;> omega

theorem collapse_hop_level (a : Nat) {B O : List String} (hB : ∀ name ∈ B, IsRegularName name)
    (hO : ∀ name ∈ O, IsRegularName name) :
    collapse (dotLabelled (List.replicate a ".." ++ B ++ hopNames B O)) =
      List.replicate a ".." ++ O := by
  have hbase : Climb (List.replicate a ".." ++ B) a B := ⟨rfl, hB⟩
  have hgoal := hbase.at_run.run_hop hO
  rw [dotLabelled_append, collapse, Collapse.run_append, hgoal.kept, List.reverse_reverse]

theorem collapse_hop_uneven (a b : Nat) {B O : List String} (hB : ∀ name ∈ B, IsRegularName name)
    (hO : ∀ name ∈ O, IsRegularName name) :
    collapse (dotLabelled (List.replicate a ".." ++ B ++
      (List.replicate (List.replicate (a - b) ".." ++ B).length ".." ++
        (List.replicate (b - a) ".." ++ O)))) =
          List.replicate (landingUps a b B) ".." ++ O := by
  -- The parent names of the hop and those of the goal are one run of them.
  have hback : List.replicate (List.replicate (a - b) ".." ++ B).length ".." ++
      (List.replicate (b - a) ".." ++ O) =
        List.replicate ((a - b) + (b - a) + B.length) ".." ++ O := by
    rw [← List.append_assoc, List.replicate_append_replicate]
    congr 2
    simp
    omega
  rw [hback]
  by_cases hnil : B = []
  · have hclimb : Climb (List.replicate a ".." ++ B ++
        (List.replicate ((a - b) + (b - a) + B.length) ".." ++ O)) (landingUps a b B) O := by
      refine ⟨?_, hO⟩
      simp [hnil, landingUps, ← List.append_assoc, List.replicate_append_replicate]
    rw [hclimb.collapse_eq, hclimb.eq]
  · rw [collapse_climb_back a _ hnil hB hO, landingUps, if_neg hnil]
    simp

theorem Dialect.relativize_of_ne (d : Dialect) {base other : Path}
    (hroot : base.root ≠ other.root) :
    d.relativize base other = .error (.incompatibleRoots base other) :=
  if_neg hroot

namespace Dialect.Dotted

variable {d : Dialect} (hd : d.Dotted)

include hd

theorem relativize_eq {base other : Path} (hroot : base.root = other.root) :
    d.relativize base other = .ok (.relative (hopNames base.names other.names)) := by
  rw [Dialect.relativize, if_pos hroot, hd.parentName, hopNames]

theorem reached_eq {base other : Path} (hroot : base.root = other.root) :
    d.reached base other =
      .ok { root := base.root
            names := collapse (dotLabelled (base.names ++ hopNames base.names other.names)) } := by
  rw [Dialect.reached, hd.relativize_eq hroot]
  exact hd.destination_relative base _

/-- The place that a hop reaches has the goal's way down, under as many parent names as
`landingUps` tells. -/
theorem reached_of_climb {base other : Path} {a b : Nat} {B O : List String}
    (hbase : Climb base.names a B) (hother : Climb other.names b O)
    (hroot : base.root = other.root) :
    d.reached base other =
      .ok { root := other.root, names := List.replicate (landingUps a b B) ".." ++ O } := by
  rw [hd.reached_eq hroot, hbase.eq, hother.eq, hroot]
  congr 2
  rcases Nat.decEq a b with hne | heq
  · rw [hopNames, afterCommon_of_climb hbase.regular hother.regular, if_neg hne]
    exact collapse_hop_uneven a b hbase.regular hother.regular
  · subst heq
    rw [hopNames_append, (landingUps_eq_iff a a B).mpr (Or.inl rfl)]
    exact collapse_hop_level a hbase.regular hother.regular

theorem reached_eq_self_iff_of_climb {base other : Path} {a b : Nat} {B O : List String}
    (hbase : Climb base.names a B) (hother : Climb other.names b O)
    (hroot : base.root = other.root) :
    d.reached base other = .ok other ↔
      a = b ∨ (b < a ∧ B ≠ []) ∨ (a < b ∧ (B = [] ∨ a = 0 ∧ b = 1)) := by
  rw [hd.reached_of_climb hbase hother hroot, ← landingUps_eq_iff]
  constructor
  · intro h
    have hnames := congrArg Path.names (Except.ok.inj h)
    have hlen := congrArg List.length hnames
    rw [hother.eq] at hlen
    simpa using hlen
  · intro h
    rw [h, ← hother.eq]

end Dialect.Dotted

/-- The number of parent names in front; `downOf` is what stands behind them. -/
def upsOf (names : List String) : Nat :=
  (names.takeWhile (· = "..")).length

def downOf (names : List String) : List String :=
  names.dropWhile (· = "..")

theorem climb_upsOf_downOf {names down : List String} {ups : Nat} (h : Climb names ups down) :
    Climb names (upsOf names) (downOf names) := by
  have hhead : ∀ name ∈ down.head?, name ≠ ".." := by
    intro name hname
    exact (h.regular name (List.mem_of_mem_head? hname)).2
  have hups : ∀ name ∈ List.replicate ups "..", decide (name = "..") = true := by
    intro name hname
    simpa using List.eq_of_mem_replicate hname
  have htake : names.takeWhile (· = "..") = List.replicate ups ".." := by
    rw [h.eq, List.takeWhile_append_of_pos hups]
    cases down with
    | nil => simp
    | cons name rest => simp [hhead name (by simp)]
  have hdrop : names.dropWhile (· = "..") = down := by
    rw [h.eq, List.dropWhile_append_of_pos hups]
    cases down with
    | nil => rfl
    | cons name rest => simp [hhead name (by simp)]
  rw [upsOf, downOf, htake, hdrop, List.length_replicate]
  exact h

/-- The place that a hop between normalized paths reaches, and the pairs for which it is the goal.
The parent names of a base without a way down are climbed once more instead of being taken back, and
a goal that climbs higher than its base loses parent names to the way down of the base. -/
theorem reached_of_normalized (s : StandardDialect) {base other : Path}
    (hbase : s.dialect.normalize base = .ok base)
    (hother : s.dialect.normalize other = .ok other) (hroot : base.root = other.root) :
    let a := upsOf base.names
    let b := upsOf other.names
    let B := downOf base.names
    s.dialect.reached base other =
      .ok { root := other.root
            names := List.replicate (landingUps a b B) ".." ++ downOf other.names } ∧
    (s.dialect.reached base other = .ok other ↔
      a = b ∨ (b < a ∧ B ≠ []) ∨ (a < b ∧ (B = [] ∨ a = 0 ∧ b = 1))) := by
  obtain ⟨_, _, hclimb⟩ := (s.dotted.normalize_eq_self_iff base).mp hbase
  obtain ⟨_, _, hclimb'⟩ := (s.dotted.normalize_eq_self_iff other).mp hother
  have hbaseClimb := climb_upsOf_downOf hclimb
  have hotherClimb := climb_upsOf_downOf hclimb'
  exact ⟨s.dotted.reached_of_climb hbaseClimb hotherClimb hroot,
    s.dotted.reached_eq_self_iff_of_climb hbaseClimb hotherClimb hroot⟩

/-- From one level up, the place above `a` is reached as it should be. -/
theorem reached_of_normalized_down_and_up :
    Unix.dialect.normalize ⟨none, ["..", "a"]⟩ = .ok ⟨none, ["..", "a"]⟩ ∧
      Unix.dialect.normalize ⟨none, ["b"]⟩ = .ok ⟨none, ["b"]⟩ ∧
      Unix.dialect.reached ⟨none, ["..", "a"]⟩ ⟨none, ["b"]⟩ = .ok ⟨none, ["b"]⟩ := by
  have hbase : Unix.dialect.normalize ⟨none, ["..", "a"]⟩ = .ok ⟨none, ["..", "a"]⟩ := by decide
  have hother : Unix.dialect.normalize ⟨none, ["b"]⟩ = .ok ⟨none, ["b"]⟩ := by decide
  exact ⟨hbase, hother, (reached_of_normalized .unix hbase hother rfl).2.mpr (by decide)⟩

/-- From one level up, the way to the empty path leads one level further up. -/
theorem reached_from_parent_ne_empty :
    Unix.dialect.normalize ⟨none, [".."]⟩ = .ok ⟨none, [".."]⟩ ∧
      Unix.dialect.normalize ⟨none, []⟩ = .ok ⟨none, []⟩ ∧
      Unix.dialect.reached ⟨none, [".."]⟩ ⟨none, []⟩ = .ok ⟨none, ["..", ".."]⟩ ∧
      Unix.dialect.reached ⟨none, [".."]⟩ ⟨none, []⟩ ≠ .ok ⟨none, []⟩ := by
  decide

/-- Whether a hop between normalized paths reaches its goal, by the number of parent names of each
and their ways down. Every normalized path is written in just one such way. -/
theorem reached_eq_self_iff_of_climbs (s : StandardDialect) {base other : Path}
    (hbase : s.dialect.normalize base = .ok base)
    (hother : s.dialect.normalize other = .ok other) (hroot : base.root = other.root) :
    (∃ a B, Climb base.names a B) ∧ (∃ b O, Climb other.names b O) ∧
      ∀ a B b O, Climb base.names a B → Climb other.names b O →
        (s.dialect.reached base other = .ok other ↔
          a = b ∨ (a > b ∧ B ≠ []) ∨ (a < b ∧ (B = [] ∨ a = 0 ∧ b = 1))) := by
  refine ⟨(s.dotted.normalize_eq_self_iff base).mp hbase,
    (s.dotted.normalize_eq_self_iff other).mp hother, ?_⟩
  intro a B b O hbaseClimb hotherClimb
  exact s.dotted.reached_eq_self_iff_of_climb hbaseClimb hotherClimb hroot

/-- Behind a regular name one more parent name takes back the name, and one of a goal that climbs by
one is then kept. -/
theorem reached_eq_self_iff_of_climbs_one_up :
    Windows.dialect.normalize ⟨some "C:\\", ["a"]⟩ = .ok ⟨some "C:\\", ["a"]⟩ ∧
      Windows.dialect.normalize ⟨some "C:\\", ["..", "b"]⟩ = .ok ⟨some "C:\\", ["..", "b"]⟩ ∧
      Windows.dialect.reached ⟨some "C:\\", ["a"]⟩ ⟨some "C:\\", ["..", "b"]⟩ =
        .ok ⟨some "C:\\", ["..", "b"]⟩ := by
  have hbase : Windows.dialect.normalize ⟨some "C:\\", ["a"]⟩ = .ok ⟨some "C:\\", ["a"]⟩ := by
    decide
  have hother : Windows.dialect.normalize ⟨some "C:\\", ["..", "b"]⟩ =
      .ok ⟨some "C:\\", ["..", "b"]⟩ := by
    decide
  refine ⟨hbase, hother, ?_⟩
  apply ((reached_eq_self_iff_of_climbs .windows hbase hother rfl).2.2 0 ["a"] 1 ["b"]
    ⟨rfl, by decide⟩ ⟨rfl, by decide⟩).mpr
  decide

end LexicalPath
