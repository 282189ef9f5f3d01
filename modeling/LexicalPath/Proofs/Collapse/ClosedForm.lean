import LexicalPath.Dialect.Unix
import LexicalPath.Proofs.Collapse.Descent

namespace LexicalPath

/-- One step of the usual collapse, on the names kept so far, the last one first: a parent name
takes back the name kept last where that is regular and is kept otherwise. -/
def textbookPush (kept : List Label) (n : Label) : List Label :=
  match n.1, kept with
  | .self, kept => kept
  | .regular, kept => n :: kept
  | .parent, (.regular, _) :: rest => rest
  | .parent, kept => n :: kept

def textbookCollapse (names : List Label) : List String :=
  (names.foldl textbookPush []).reverse.map (·.2)

def textbookKept (lead : List String) (s : Descent) : List Label :=
  s.pending.map (Prod.mk .regular) ++ (s.surplus ++ lead).map (Prod.mk .parent)

theorem textbookPush_textbookKept (lead : List String) (s : Descent) (n : Label) :
    textbookPush (textbookKept lead s) n = textbookKept lead (s.push n) := by
  obtain ⟨kind, name⟩ := n
  obtain ⟨pending, surplus⟩ := s
  cases kind with
  | self => rfl
  | regular => rfl
  | parent =>
      cases pending with
      | cons top rest => rfl
      | nil =>
          cases hkept : surplus ++ lead <;>
            simp [textbookKept, textbookPush, Descent.push, hkept]

theorem foldl_textbookKept (lead : List String) (s : Descent) (names : List Label) :
    names.foldl textbookPush (textbookKept lead s) = textbookKept lead (s.run names) := by
  induction names generalizing s with
  | nil => rfl
  | cons n rest ih =>
      rw [List.foldl_cons, textbookPush_textbookKept, ih]
      rfl

theorem foldl_textbookPush_of_no_regular {names : List Label}
    (h : ∀ n ∈ names, n.isRegular = false) (lead : List String) :
    names.foldl textbookPush (textbookKept lead {}) =
      textbookKept ((parentNames names).reverse ++ lead) {} := by
  induction names generalizing lead with
  | nil => rfl
  | cons n rest ih =>
      obtain ⟨kind, name⟩ := n
      have hrest : ∀ n ∈ rest, n.isRegular = false := fun n hn => h n (by simp [hn])
      cases kind with
      | self => simpa [textbookPush, parentNames] using ih hrest lead
      | regular => simpa [Label.isRegular] using h _ List.mem_cons_self
      | parent =>
          have hpush : textbookPush (textbookKept lead {}) (.parent, name) =
              textbookKept (name :: lead) {} := by
            cases lead <;> rfl
          rw [List.foldl_cons, hpush, ih hrest]
          simp [parentNames]

theorem textbookCollapse_eq (names : List Label) :
    textbookCollapse names =
      leadingParents names ++ (descent names).surplus.reverse ++
        (descent names).pending.reverse := by
  have hfold : names.foldl textbookPush [] =
      textbookKept (leadingParents names).reverse (descent names) := by
    calc
      names.foldl textbookPush [] =
          (names.takeWhile (! ·.isRegular) ++ fromFirstRegular names).foldl textbookPush
            (textbookKept [] {}) := by
        rw [fromFirstRegular, List.takeWhile_append_dropWhile]
        rfl
      _ = textbookKept (leadingParents names).reverse (descent names) := by
        rw [List.foldl_append,
          foldl_textbookPush_of_no_regular fun _ => isRegular_of_mem_takeWhile,
          List.append_nil, foldl_textbookKept]
        rfl
  rw [textbookCollapse, hfold]
  simp [textbookKept, Function.comp_def]

theorem keptParents_eq_append_iff (lead surplus : List String) :
    keptParents lead surplus = lead ++ surplus ↔
      surplus.length = 0 ∨ lead.length = 0 ∧ surplus.length = 1 := by
  constructor
  · intro h
    have hlen := congrArg List.length h
    rw [length_keptParents, List.length_append, keptCount] at hlen
    split at hlen
    · omega
    · have : (surplus.length - lead.length) % 2 < 2 := Nat.mod_lt _ (by omega)
      omega
  · rintro (h | ⟨hlead, hsurplus⟩)
    · rw [List.eq_nil_of_length_eq_zero h]
      simp [keptParents]
    · rw [List.eq_nil_of_length_eq_zero hlead]
      simp [keptParents, hsurplus]

/-- What normalizing leaves, for every pair of judgements on names. With `lead` parent names in
front of the first regular name and `surplus` ones that find no pending regular name behind it, the
names that are left are some parent names, as many as the counts tell, and the pending regular
names. This is what the usual collapse leaves only if nothing is taken from the leading ones. -/
theorem normalize_closed_form {d : Dialect} {isSelf isParent : String → Bool}
    (hd : d.grammar.Judges isSelf isParent) (p : Path) :
    let names := labelled isSelf isParent p.names
    let lead := leadingParents names
    let surplus := (descent names).surplus.reverse
    let pending := (descent names).pending.reverse
    let k := lead.length
    let u := surplus.length
    ((∀ n ∈ names, n.1 ≠ .regular) →
      d.normalize p = .ok { root := p.root, names := parentNames names }) ∧
    ((∃ n ∈ names, n.1 = .regular) →
      ∃ kept : List String,
        d.normalize p = .ok { root := p.root, names := kept ++ pending } ∧
        kept = (if u ≤ k then lead.take (k - u) else surplus.drop (u - (u - k) % 2)) ∧
        kept.length = (if u ≤ k then k - u else (u - k) % 2) ∧
        (∀ name ∈ kept, NameKind.of isSelf isParent name = .parent) ∧
        (∀ name ∈ pending, NameKind.of isSelf isParent name = .regular) ∧
        (kept ++ pending = textbookCollapse names ↔ u = 0 ∨ k = 0 ∧ u = 1)) ∧
    textbookCollapse names = lead ++ surplus ++ pending := by
  intro names lead surplus pending k u
  refine ⟨?_, ?_, textbookCollapse_eq names⟩
  · intro h
    rw [hd.normalize_eq, collapse_of_no_regular]
    intro n hn
    simpa [Label.isRegular] using h n hn
  · intro _
    refine ⟨keptParents lead surplus, ?_, rfl, length_keptParents lead surplus, ?_, ?_, ?_⟩
    · rw [hd.normalize_eq, collapse_eq]
    · intro name hname
      exact of_eq_of_mem_labelled (parent_mem_of_mem_keptParents hname)
    · intro name hname
      exact of_eq_of_mem_labelled (regular_mem_of_mem_pending hname)
    · rw [textbookCollapse_eq, List.append_left_inj]
      exact keptParents_eq_append_iff lead surplus

theorem Unix.judges : Unix.grammar.Judges (· = ".") (· = "..") :=
  ⟨fun _ => rfl, fun _ => rfl⟩

/-- Two surplus parent names use up the leading one and one of them is left. -/
theorem normalize_closed_form_odd_surplus :
    Unix.grammar.Judges (· = ".") (· = "..") ∧
      Unix.dialect.normalize ⟨some "/", ["..", ".", "a", "..", "..", "..", "b"]⟩ =
        .ok ⟨some "/", ["..", "b"]⟩ := by
  refine ⟨Unix.judges, ?_⟩
  obtain ⟨kept, hnormalize, hkept, -⟩ :=
    (normalize_closed_form (d := Unix.dialect) Unix.judges
      ⟨some "/", ["..", ".", "a", "..", "..", "..", "b"]⟩).2.1 (by decide)
  rw [hnormalize, hkept]
  decide

end LexicalPath
