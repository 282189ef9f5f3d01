import Mathlib.Data.List.TakeWhile
import LexicalPath.Proofs.Collapse.Label

/-!
What collapsing leaves. The names in front of the first regular one give the leading parent names.
From there on a stack of pending regular names is enough to tell which parent names find nothing to
take back, and these are all that works on the leading parent names. The main statement is
`collapse_eq`, the form of what is left; `keptParents_eq_reverse_settle` and `length_keptParents`
say how many parent names that is.
-/

namespace LexicalPath

def leadingParents (names : List Label) : List String :=
  parentNames (names.takeWhile (! ·.isRegular))

def fromFirstRegular (names : List Label) : List Label :=
  names.dropWhile (! ·.isRegular)

theorem isRegular_of_mem_takeWhile {names : List Label} {n : Label}
    (h : n ∈ names.takeWhile (! ·.isRegular)) : n.isRegular = false := by
  simpa using List.mem_takeWhile_imp h

/-- The regular names that are pending and the parent names that found no pending name, the last one
first in both. -/
structure Descent where
  pending : List String := []
  surplus : List String := []
  deriving DecidableEq

namespace Descent

def push (s : Descent) (n : Label) : Descent :=
  match n.1, s.pending with
  | .self, _ => s
  | .regular, pending => { s with pending := n.2 :: pending }
  | .parent, _ :: rest => { s with pending := rest }
  | .parent, [] => { s with surplus := n.2 :: s.surplus }

def run (s : Descent) (names : List Label) : Descent :=
  names.foldl push s

theorem run_cons (s : Descent) (n : Label) (names : List Label) :
    s.run (n :: names) = (s.push n).run names := rfl

theorem run_append (s : Descent) (names more : List Label) :
    s.run (names ++ more) = (s.run names).run more := by
  simp [run]

def Labelled (names : List Label) (s : Descent) : Prop :=
  (∀ name ∈ s.pending, (NameKind.regular, name) ∈ names) ∧
    ∀ name ∈ s.surplus, (NameKind.parent, name) ∈ names

theorem labelled_push {names : List Label} {s : Descent} {n : Label} (hs : s.Labelled names)
    (hn : n ∈ names) : (s.push n).Labelled names := by
  obtain ⟨kind, name⟩ := n
  obtain ⟨hpending, hsurplus⟩ := hs
  cases kind with
  | self => exact ⟨hpending, hsurplus⟩
  | regular =>
      refine ⟨?_, hsurplus⟩
      intro other hother
      rcases List.mem_cons.mp hother with rfl | hother
      · exact hn
      · exact hpending other hother
  | parent =>
      cases hrest : s.pending with
      | nil =>
          simp only [push, hrest]
          refine ⟨by simp, ?_⟩
          intro other hother
          rcases List.mem_cons.mp hother with rfl | hother
          · exact hn
          · exact hsurplus other hother
      | cons top rest =>
          simp only [push, hrest]
          refine ⟨?_, hsurplus⟩
          intro other hother
          exact hpending other (by rw [hrest]; exact List.mem_cons_of_mem _ hother)

theorem labelled_run {names some : List Label} {s : Descent} (hs : s.Labelled names)
    (hsome : ∀ n ∈ some, n ∈ names) : (s.run some).Labelled names := by
  induction some generalizing s with
  | nil => exact hs
  | cons n rest ih =>
      rw [run_cons]
      apply ih (labelled_push hs (hsome n (by simp)))
      intro m hm
      exact hsome m (by simp [hm])

end Descent

def descent (names : List Label) : Descent :=
  Descent.run {} (fromFirstRegular names)

theorem labelled_descent (names : List Label) : (descent names).Labelled names := by
  apply Descent.labelled_run
  · exact ⟨by simp, by simp⟩
  · intro n hn
    exact (List.dropWhile_sublist _).mem hn

theorem mem_leadingParents {names : List Label} {name : String}
    (h : name ∈ leadingParents names) : (NameKind.parent, name) ∈ names := by
  simp only [leadingParents, parentNames, List.mem_map, List.mem_filter] at h
  obtain ⟨⟨kind, other⟩, ⟨hmem, hkind⟩, rfl⟩ := h
  have hkind : kind = .parent := by simpa using hkind
  subst hkind
  exact (List.takeWhile_sublist _).mem hmem

/-- The parent names in front that are left, the last one first, once the surplus has worked on the
leading ones: each takes away the one kept last and is kept itself where none is left. -/
def settle (lead : List String) : List String → List String
  | [] => lead
  | name :: earlier =>
      match settle lead earlier with
      | [] => [name]
      | _ :: rest => rest

theorem settle_eq (lead surplus : List String) :
    settle lead surplus =
      if surplus.length ≤ lead.length then lead.drop surplus.length
      else surplus.take ((surplus.length - lead.length) % 2) := by
  induction surplus with
  | nil => simp [settle]
  | cons name earlier ih =>
      simp only [settle, ih, List.length_cons]
      rcases Nat.lt_trichotomy earlier.length lead.length with hlt | heq | hgt
      · rw [if_pos (Nat.le_of_lt hlt), if_pos (Nat.succ_le_of_lt hlt),
          List.drop_eq_getElem_cons hlt]
      · have hodd : (earlier.length + 1 - lead.length) % 2 = 1 := by omega
        rw [if_pos (Nat.le_of_eq heq), if_neg (by omega), hodd,
          List.drop_of_length_le (Nat.le_of_eq heq.symm)]
        rfl
      · rw [if_neg (by omega), if_neg (by omega)]
        obtain ⟨last, before, rfl⟩ :=
          List.exists_cons_of_length_pos (Nat.lt_of_le_of_lt (Nat.zero_le _) hgt)
        -- The kept one among the surplus changes with the parity of their number.
        rcases Nat.mod_two_eq_zero_or_one ((last :: before).length - lead.length) with h | h
        · have hnext : ((last :: before).length + 1 - lead.length) % 2 = 1 := by omega
          rw [h, hnext]
          rfl
        · have hnext : ((last :: before).length + 1 - lead.length) % 2 = 0 := by omega
          rw [h, hnext]
          rfl

/-- The parent names in front that are left, in order. Each surplus one costs the last of the
leading ones; behind these the surplus ones are kept and taken back by turns, so that at most the
last of them is left. -/
def keptParents (lead surplus : List String) : List String :=
  if surplus.length ≤ lead.length then lead.take (lead.length - surplus.length)
  else surplus.drop (surplus.length - (surplus.length - lead.length) % 2)

def keptCount (lead surplus : Nat) : Nat :=
  if surplus ≤ lead then lead - surplus else (surplus - lead) % 2

theorem length_settle (lead surplus : List String) :
    (settle lead surplus).length = keptCount lead.length surplus.length := by
  rw [settle_eq, keptCount]
  split
  · rw [List.length_drop]
  · have : (surplus.length - lead.length) % 2 < 2 := Nat.mod_lt _ (by omega)
    rw [List.length_take]
    omega

theorem keptParents_eq_reverse_settle (lead surplus : List String) :
    keptParents lead surplus = (settle lead.reverse surplus.reverse).reverse := by
  rw [settle_eq, List.length_reverse, List.length_reverse]
  unfold keptParents
  split
  · rw [List.drop_reverse, List.reverse_reverse]
  · rw [List.take_reverse, List.reverse_reverse]

theorem length_keptParents (lead surplus : List String) :
    (keptParents lead surplus).length = keptCount lead.length surplus.length := by
  rw [keptParents_eq_reverse_settle, List.length_reverse, length_settle, List.length_reverse,
    List.length_reverse]

theorem mem_keptParents {lead surplus : List String} {name : String}
    (h : name ∈ keptParents lead surplus) : name ∈ lead ∨ name ∈ surplus := by
  unfold keptParents at h
  split at h
  · exact Or.inl (List.mem_of_mem_take h)
  · exact Or.inr (List.mem_of_mem_drop h)

namespace Collapse

theorem run_append (c : Collapse) (names more : List Label) :
    c.run (names ++ more) = (c.run names).run more := by
  induction names generalizing c with
  | nil => rfl
  | cons n rest ih => exact ih _

theorem run_of_no_regular {names : List Label} (h : ∀ n ∈ names, n.isRegular = false)
    (kept : List String) :
    run ⟨kept, false⟩ names = ⟨(parentNames names).reverse ++ kept, false⟩ := by
  induction names generalizing kept with
  | nil => rfl
  | cons n rest ih =>
      obtain ⟨kind, name⟩ := n
      have hrest : ∀ n ∈ rest, n.isRegular = false := fun n hn => h n (by simp [hn])
      cases kind with
      | self => simpa [run, push, parentNames] using ih hrest kept
      | parent => simpa [run, push, parentNames] using ih hrest (name :: kept)
      | regular => simpa [Label.isRegular] using h _ List.mem_cons_self

theorem run_eq_run_parents (c : Collapse) {names : List Label}
    (h : ∀ n ∈ names, n.isRegular = false) :
    c.run names = c.run ((parentNames names).map (Prod.mk .parent)) := by
  induction names generalizing c with
  | nil => rfl
  | cons n rest ih =>
      obtain ⟨kind, name⟩ := n
      have hrest : ∀ n ∈ rest, n.isRegular = false := fun n hn => h n (by simp [hn])
      cases kind with
      | self => simpa [run, push, parentNames] using ih c hrest
      | parent => simpa [run, parentNames] using ih (c.push .parent name) hrest
      | regular => simpa [Label.isRegular] using h _ List.mem_cons_self

theorem run_regular (c : Collapse) (names : List String) :
    c.run (names.map (Prod.mk .regular)) =
      ⟨names.reverse ++ c.kept, c.anchored || !names.isEmpty⟩ := by
  induction names generalizing c with
  | nil => simp [run]
  | cons name rest ih => simp [run, ih, push]

/-- The state behind the first regular name that a descent stands for. -/
def ofDescent (lead : List String) (s : Descent) : Collapse :=
  ⟨s.pending ++ settle lead s.surplus, true⟩

theorem push_ofDescent (lead : List String) (s : Descent) (kind : NameKind) (name : String) :
    (ofDescent lead s).push kind name = ofDescent lead (s.push (kind, name)) := by
  obtain ⟨pending, surplus⟩ := s
  cases kind with
  | self => rfl
  | regular => rfl
  | parent =>
      cases pending with
      | cons top rest => rfl
      | nil =>
          cases hsettle : settle lead surplus <;>
            simp [ofDescent, push, Descent.push, settle, hsettle]

theorem run_ofDescent (lead : List String) (s : Descent) (names : List Label) :
    (ofDescent lead s).run names = ofDescent lead (s.run names) := by
  induction names generalizing s with
  | nil => rfl
  | cons n rest ih =>
      rw [run, push_ofDescent, ih]
      rfl

end Collapse

theorem collapse_of_no_regular {names : List Label} (h : ∀ n ∈ names, n.isRegular = false) :
    collapse names = parentNames names := by
  unfold collapse
  rw [Collapse.run_of_no_regular h]
  simp

/-- What is kept of names from any state on: the pending regular names, and under them what the
surplus parent names leave of what was kept in front of the first regular one. -/
theorem Collapse.kept_run (c : Collapse) (names : List Label) :
    (c.run names).kept =
      (descent names).pending ++
        settle (c.run (names.takeWhile fun n : Label => !n.isRegular)).kept
          (descent names).surplus := by
  have hsplit : c.run names =
      (c.run (names.takeWhile fun n : Label => !n.isRegular)).run (fromFirstRegular names) := by
    rw [← run_append, fromFirstRegular, List.takeWhile_append_dropWhile]
  rw [hsplit, descent]
  generalize c.run (names.takeWhile fun n : Label => !n.isRegular) = lead
  cases hfrom : fromFirstRegular names with
  | nil => rfl
  | cons n rest =>
      obtain ⟨kind, name⟩ := n
      have hregular := List.head?_dropWhile_not (fun n : Label => !n.isRegular) names
      rw [← fromFirstRegular, hfrom] at hregular
      have hkind : kind = .regular := by simpa [Label.isRegular] using hregular
      subst hkind
      have hfirst : lead.push .regular name = ofDescent lead.kept ⟨[name], []⟩ := rfl
      rw [run, hfirst, run_ofDescent]
      rfl

theorem collapse_eq (names : List Label) :
    collapse names =
      keptParents (leadingParents names) (descent names).surplus.reverse ++
        (descent names).pending.reverse := by
  unfold collapse
  rw [Collapse.kept_run, Collapse.run_of_no_regular fun _ => isRegular_of_mem_takeWhile,
    keptParents_eq_reverse_settle, List.reverse_reverse, List.reverse_append]
  simp [leadingParents]

theorem parent_mem_of_mem_keptParents {names : List Label} {name : String}
    (h : name ∈ keptParents (leadingParents names) (descent names).surplus.reverse) :
    (NameKind.parent, name) ∈ names := by
  rcases mem_keptParents h with h | h
  · exact mem_leadingParents h
  · exact (labelled_descent names).2 name (List.mem_reverse.mp h)

theorem regular_mem_of_mem_pending {names : List Label} {name : String}
    (h : name ∈ (descent names).pending.reverse) : (NameKind.regular, name) ∈ names :=
  (labelled_descent names).1 name (List.mem_reverse.mp h)

theorem mem_of_mem_collapse {names : List Label} {name : String} (h : name ∈ collapse names) :
    name ∈ names.map (·.2) := by
  rw [collapse_eq] at h
  rcases List.mem_append.mp h with h | h
  · exact List.mem_map_of_mem (parent_mem_of_mem_keptParents h)
  · exact List.mem_map_of_mem (regular_mem_of_mem_pending h)

end LexicalPath
