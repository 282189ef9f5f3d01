import LexicalPath.Proofs.Text.Parted

namespace LexicalPath.Text

/-- The text with a single separator in place of every run of them. -/
def squeezed (sep : Char) : List Char → List Char
  | [] => []
  | c :: rest =>
      if c = sep ∧ rest.head? = some sep then squeezed sep rest else c :: squeezed sep rest

/-- The squeezed text without a separator at its end, unless that is all of it. -/
def tidied (sep : Char) (s : List Char) : List Char :=
  let t := squeezed sep s
  if t.getLast? = some sep ∧ t ≠ [sep] then t.dropLast else t

/-- The separator that is left in front. -/
def lead (sep : Char) (s : List Char) : List Char :=
  if s.head? = some sep then [sep] else []

/-- The separator that is left behind the last run. -/
def trail (sep : Char) (s : List Char) (parts : List (List Char)) : List Char :=
  if parts ≠ [] ∧ s.getLast? = some sep then [sep] else []

variable {p : Char → Bool} {sep : Char} (hp : ∀ c, p c = true ↔ c = sep)

theorem trail_cons {c : Char} {s : List Char} (hs : s ≠ []) (parts : List (List Char)) :
    trail sep (c :: s) parts = trail sep s parts := by
  rw [trail, trail, getLast?_cons_of_ne_nil hs]

include hp

theorem ne_of_isRun {run : List Char} (hrun : IsRun p run) {c : Char} (hc : c ∈ run) : c ≠ sep := by
  intro heq
  have hfree := hrun.2 c hc
  rw [(hp c).mpr heq] at hfree
  cases hfree

theorem squeezed_append_of_isRun {run : List Char} (hrun : IsRun p run) (s : List Char) :
    squeezed sep (run ++ s) = run ++ squeezed sep s := by
  have hne : ∀ c ∈ run, c ≠ sep := fun c hc => ne_of_isRun hp hrun hc
  clear hrun
  induction run with
  | nil => rfl
  | cons c rest ih =>
      have hc : c ≠ sep := hne c (by simp)
      rw [List.cons_append, squeezed, if_neg (fun h => hc h.1),
        ih fun d hd => hne d (by simp [hd])]
      rfl

theorem lead_append_of_isRun {run : List Char} (hrun : IsRun p run) (s : List Char) :
    lead sep (run ++ s) = [] := by
  obtain ⟨c, rest, rfl⟩ := List.exists_cons_of_ne_nil hrun.1
  have hc : c ≠ sep := ne_of_isRun hp hrun (by simp)
  simp [lead, hc]

theorem trail_run {run : List Char} (hrun : IsRun p run) (parts : List (List Char)) :
    trail sep run parts = [] := by
  rw [trail, if_neg]
  rintro ⟨-, hlast⟩
  exact ne_of_isRun hp hrun (List.mem_of_getLast? hlast) rfl

theorem trail_append_separators {s : List Char} (hne : s ≠ []) (hs : ∀ c ∈ s, p c = true)
    (run : List Char) : trail sep (run ++ s) [run] = [sep] := by
  rw [trail, if_pos]
  refine ⟨by simp, ?_⟩
  rw [List.getLast?_append_of_ne_nil _ hne, List.getLast?_eq_some_getLast hne,
    (hp _).mp (hs _ (List.getLast_mem hne))]

theorem Parted.squeezed_eq {s : List Char} {parts : List (List Char)} (h : Parted p s parts) :
    squeezed sep s = lead sep s ++ joined [sep] parts ++ trail sep s parts := by
  induction h with
  | nil => rfl
  | @separator c s parts hc hs ih =>
      obtain rfl := (hp c).mp hc
      by_cases hnil : s = []
      · subst hnil
        obtain rfl := hs.eq_nil
        simp [squeezed, lead, trail, joined]
      · rw [trail_cons hnil, lead, List.head?_cons, if_pos rfl, squeezed, ih]
        by_cases hd : s.head? = some c
        · rw [if_pos ⟨rfl, hd⟩, lead, if_pos hd]
        · rw [if_neg (fun h => hd h.2), lead, if_neg hd]
          rfl
  | @run run s parts hrun hhead hs ih =>
      rw [squeezed_append_of_isRun hp hrun, lead_append_of_isRun hp hrun, ih]
      cases s with
      | nil =>
          obtain rfl := hs.eq_nil
          rw [List.append_nil, trail_run hp hrun]
          simp [lead, trail, joined]
      | cons c rest =>
          obtain rfl := (hp c).mp (hhead c rfl)
          cases parts with
          | nil =>
              rw [trail_append_separators hp (by simp) hs.separators]
              simp [lead, trail, joined]
          | cons next more =>
              have htrail : trail c (run ++ c :: rest) (run :: next :: more) =
                  trail c (c :: rest) (next :: more) := by
                simp [trail]
              rw [htrail, joined]
              simp [lead]

theorem tidied_eq (s : List Char) : tidied sep s = lead sep s ++ joined [sep] (runs p s) := by
  have hrun : ∀ part ∈ runs p s, IsRun p part := fun part hpart => isRun_of_mem_runs hpart
  have hsqueezed := (parted_runs (p := p) s).squeezed_eq hp
  by_cases hnil : runs p s = []
  · have htrail : trail sep s [] = [] := by simp [trail]
    rw [hnil, htrail, List.append_nil] at hsqueezed
    rw [tidied, hsqueezed, hnil]
    unfold lead joined
    split <;> simp
  · have hne : joined [sep] (runs p s) ≠ [] := by
      rwa [Ne, joined_eq_nil_iff fun part hpart => (hrun part hpart).1]
    have hlast : (lead sep s ++ joined [sep] (runs p s)).getLast? ≠ some sep := by
      rw [List.getLast?_append_of_ne_nil _ hne]
      intro h
      have hfree := free_getLast?_joined hrun [sep] sep h
      rw [(hp sep).mpr rfl] at hfree
      cases hfree
    by_cases hsep : s.getLast? = some sep
    · have htrail : trail sep s (runs p s) = [sep] := by rw [trail, if_pos ⟨hnil, hsep⟩]
      have hmore : lead sep s ++ joined [sep] (runs p s) ++ [sep] ≠ [sep] := by
        intro h
        have hlength := congrArg List.length h
        have hpos := List.length_pos_iff.mpr hne
        simp at hlength
        omega
      rw [tidied, hsqueezed, htrail, if_pos ⟨List.getLast?_concat, hmore⟩, List.dropLast_concat]
    · have htrail : trail sep s (runs p s) = [] := by rw [trail, if_neg fun h => hsep h.2]
      rw [tidied, hsqueezed, htrail, List.append_nil, if_neg fun h => hlast h.1]

example : tidied '/' "//a///b/".toList = "/a/b".toList := by decide

end LexicalPath.Text
