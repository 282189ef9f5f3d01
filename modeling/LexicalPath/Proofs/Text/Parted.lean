import LexicalPath.Proofs.Text.Runs

namespace LexicalPath.Text

/-- The text is made of the runs, in order, and of separators, of which some stand between any two
runs. So each run is as long as it can be. -/
inductive Parted (p : Char → Bool) : List Char → List (List Char) → Prop where
  | nil : Parted p [] []
  | separator {c : Char} {s : List Char} {parts : List (List Char)} (hc : p c = true)
      (hs : Parted p s parts) : Parted p (c :: s) parts
  | run {run s : List Char} {parts : List (List Char)} (hrun : IsRun p run)
      (hhead : ∀ c ∈ s.head?, p c = true) (hs : Parted p s parts) :
      Parted p (run ++ s) (run :: parts)

/-- The run behind `before` and in front of `after` is as long as it can be. -/
structure IsMaximalRun (p : Char → Bool) (before run after : List Char) : Prop where
  isRun : IsRun p run
  left : ∀ c ∈ before.getLast?, p c = true
  right : ∀ c ∈ after.head?, p c = true

variable {p : Char → Bool}

theorem runs_cons_separator {c : Char} (hc : p c = true) (s : List Char) :
    runs p (c :: s) = runs p s :=
  runs_append_separator hc [] s

theorem runs_eq_of_parted {s : List Char} {parts : List (List Char)} (h : Parted p s parts) :
    runs p s = parts := by
  induction h with
  | nil => rfl
  | separator hc _ ih => rw [runs_cons_separator hc, ih]
  | @run run s parts hrun hhead _ ih =>
      cases s with
      | nil =>
          rw [List.append_nil, runs_of_isRun hrun, ← ih]
          rfl
      | cons c rest =>
          have hc := hhead c rfl
          rw [runs_cons_separator hc] at ih
          rw [runs_append_separator hc, runs_of_isRun hrun, ih]
          rfl

theorem exists_parted (p : Char → Bool) (s : List Char) : ∃ parts, Parted p s parts := by
  induction s with
  | nil => exact ⟨[], Parted.nil⟩
  | cons c rest ih =>
      obtain ⟨parts, h⟩ := ih
      by_cases hc : p c = true
      · exact ⟨parts, h.separator hc⟩
      · have hrun : IsRun p [c] := ⟨by simp, by simpa using hc⟩
        cases h with
        | nil => exact ⟨[[c]], Parted.run hrun (by simp) Parted.nil⟩
        | separator hd hs =>
            exact ⟨[c] :: parts, Parted.run hrun (by simpa using hd) (hs.separator hd)⟩
        | @run run s more hmore hhead hs =>
            -- The character belongs to the run that begins behind it.
            have hlonger : IsRun p (c :: run) := by
              refine ⟨by simp, ?_⟩
              intro d hd
              rcases List.mem_cons.mp hd with rfl | hd
              · simpa using hc
              · exact hmore.2 d hd
            exact ⟨(c :: run) :: more, Parted.run hlonger hhead hs⟩

theorem parted_runs (s : List Char) : Parted p s (runs p s) := by
  obtain ⟨parts, h⟩ := exists_parted p s
  rwa [runs_eq_of_parted h]

theorem parted_iff (s : List Char) (parts : List (List Char)) :
    Parted p s parts ↔ parts = runs p s := by
  constructor
  · intro h
    exact (runs_eq_of_parted h).symm
  · rintro rfl
    exact parted_runs s

theorem Parted.mem {s : List Char} {parts : List (List Char)} (h : Parted p s parts) {c : Char}
    (hc : p c = false) : c ∈ s ↔ ∃ part ∈ parts, c ∈ part := by
  induction h with
  | nil => simp
  | @separator d s parts hd _ ih =>
      have hne : c ≠ d := by
        rintro rfl
        rw [hc] at hd
        cases hd
      rw [List.mem_cons, ih]
      simp [hne]
  | run _ _ _ ih => simp [ih]

theorem Parted.eq_nil {parts : List (List Char)} (h : Parted p [] parts) : parts = [] :=
  (runs_eq_of_parted h).symm

theorem Parted.separators {s : List Char} (h : Parted p s []) : ∀ c ∈ s, p c = true := by
  intro c hc
  by_contra hfree
  simp [h.mem (Bool.not_eq_true _ ▸ hfree)] at hc

theorem getLast?_cons_of_ne_nil {c : Char} {s : List Char} (hs : s ≠ []) :
    (c :: s).getLast? = s.getLast? := by
  obtain ⟨d, rest, rfl⟩ := List.exists_cons_of_ne_nil hs
  rfl

/-- A run of a parted text stands somewhere in the text, and the runs before it are those of the
text before. -/
theorem Parted.exists_maximal {s : List Char} {earlier later : List (List Char)} {run : List Char}
    (h : Parted p s (earlier ++ run :: later)) :
    ∃ before after, s = before ++ run ++ after ∧ IsMaximalRun p before run after ∧
      Parted p before earlier := by
  generalize hparts : earlier ++ run :: later = parts at h
  induction h generalizing earlier with
  | nil => simp at hparts
  | @separator c s parts hc _ ih =>
      obtain ⟨before, after, rfl, ⟨hrun, hleft, hright⟩, hbefore⟩ := ih hparts
      refine ⟨c :: before, after, rfl, ⟨hrun, ?_, hright⟩, hbefore.separator hc⟩
      intro d hd
      by_cases hnil : before = []
      · rw [hnil] at hd
        obtain rfl := Option.some.inj hd
        exact hc
      · rw [getLast?_cons_of_ne_nil hnil] at hd
        exact hleft d hd
  | @run first s parts hfirst hhead hs ih =>
      cases earlier with
      | nil =>
          obtain ⟨rfl, rfl⟩ := List.cons.inj hparts
          exact ⟨[], s, rfl, ⟨hfirst, by simp, hhead⟩, Parted.nil⟩
      | cons part more =>
          obtain ⟨rfl, hmore⟩ := List.cons.inj hparts
          obtain ⟨before, after, rfl, ⟨hrun, hleft, hright⟩, hbefore⟩ := ih hmore
          -- Something stands between the two runs, as they would be one otherwise.
          obtain ⟨c, rest, hcons⟩ := List.exists_cons_of_ne_nil hrun.1
          have hne : before ≠ [] := by
            rintro rfl
            have hc := hhead c (by simp [hcons])
            rw [hrun.2 c (by simp [hcons])] at hc
            cases hc
          refine ⟨part ++ before, after, by simp, ⟨hrun, ?_, hright⟩, Parted.run hfirst ?_ hbefore⟩
          · intro d hd
            rw [List.getLast?_append_of_ne_nil _ hne] at hd
            exact hleft d hd
          · intro d hd
            apply hhead d
            obtain ⟨e, others, rfl⟩ := List.exists_cons_of_ne_nil hne
            exact hd

theorem runs_of_separators {s : List Char} (hs : ∀ c ∈ s, p c = true) : runs p s = [] := by
  induction s with
  | nil => rfl
  | cons c rest ih =>
      rw [runs_cons_separator (hs c (by simp))]
      exact ih fun d hd => hs d (by simp [hd])

theorem runs_dropWhile (s : List Char) : runs p (s.dropWhile p) = runs p s := by
  induction s with
  | nil => rfl
  | cons c rest ih =>
      by_cases hc : p c = true
      · rw [List.dropWhile_cons_of_pos hc, ih, runs_cons_separator hc]
      · rw [List.dropWhile_cons_of_neg hc]

theorem runs_trimEnd (s : List Char) : runs p (trimEnd p s) = runs p s := by
  have hsplit : trimEnd p s ++ (s.reverse.takeWhile p).reverse = s := by
    rw [trimEnd, ← List.reverse_append, List.takeWhile_append_dropWhile, List.reverse_reverse]
  have hseparators : ∀ c ∈ (s.reverse.takeWhile p).reverse, p c = true := by
    intro c hc
    exact List.mem_takeWhile_imp (List.mem_reverse.mp hc)
  conv => rhs; rw [← hsplit]
  cases hend : (s.reverse.takeWhile p).reverse with
  | nil => rw [List.append_nil]
  | cons c rest =>
      rw [hend] at hseparators
      have hrest : ∀ d ∈ rest, p d = true := fun d hd => hseparators d (by simp [hd])
      rw [runs_append_separator (hseparators c (by simp)), runs_of_separators hrest,
        List.append_nil]

theorem runs_trim (s : List Char) : runs p (trim p s) = runs p s := by
  rw [trim, runs_trimEnd, runs_dropWhile]

end LexicalPath.Text
