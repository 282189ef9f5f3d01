import LexicalPath.Command.Run
import LexicalPath.Proofs.Dialect.Errors

namespace LexicalPath.Command

theorem bind_eq_ok_iff {ε α β : Type} {x : Except ε α} {next : α → Except ε β} {b : β} :
    x >>= next = .ok b ↔ ∃ a, x = .ok a ∧ next a = .ok b := by
  cases x <;> simp [bind, Except.bind]

theorem bind_eq_error_iff {ε α β : Type} {x : Except ε α} {next : α → Except ε β} {e : ε} :
    x >>= next = .error e ↔ x = .error e ∨ ∃ a, x = .ok a ∧ next a = .error e := by
  cases x <;> simp [bind, Except.bind]

namespace Operation

variable {d : StandardDialect} {o : Operation} {g : Given}

theorem wellFormed_empty (d : StandardDialect) : d.WellFormed Path.empty :=
  ⟨d.isRoot_none, by simp [Path.empty]⟩

theorem wellFormed_of_mapM {texts : List String} {paths : List Path}
    (h : texts.mapM d.dialect.parse = .ok paths) : ∀ p ∈ paths, d.WellFormed p := by
  induction texts generalizing paths with
  | nil =>
      obtain rfl := Except.ok.inj h
      simp
  | cons text rest ih =>
      rw [List.mapM_cons] at h
      obtain ⟨p, hp, h⟩ := bind_eq_ok_iff.mp h
      obtain ⟨more, hmore, h⟩ := bind_eq_ok_iff.mp h
      obtain rfl := Except.ok.inj h
      exact List.forall_mem_cons.mpr ⟨StandardDialect.wellFormed_of_parse hp, ih hmore⟩

theorem isOfPath_of_mapM {texts : List String} {e : PathError}
    (h : texts.mapM d.dialect.parse = .error e) : e.isOfPath = true := by
  induction texts with
  | nil => cases h
  | cons text rest ih =>
      rw [List.mapM_cons] at h
      rcases bind_eq_error_iff.mp h with hp | ⟨p, -, h⟩
      · exact StandardDialect.isOfPath_of_parse hp
      rcases bind_eq_error_iff.mp h with hmore | ⟨more, -, h⟩
      · exact ih hmore
      · cases h

theorem wellFormed_of_apply {first second p : Path} (hfirst : d.WellFormed first)
    (hsecond : d.WellFormed second) (h : o.apply d.dialect first second = .ok p) :
    d.WellFormed p := by
  cases o with
  | normalize => exact StandardDialect.wellFormed_normalize hfirst h
  | resolve => exact StandardDialect.wellFormed_resolve hfirst hsecond h
  | resolveSibling => exact StandardDialect.wellFormed_resolveSibling hfirst hsecond h
  | relativize => exact StandardDialect.wellFormed_relativize hsecond h
  | parse => exact Except.ok.inj h ▸ hfirst
  | dialects => exact Except.ok.inj h ▸ hfirst
  | version => exact Except.ok.inj h ▸ hfirst

theorem isOfPath_of_apply {first second : Path} {e : PathError}
    (h : o.apply d.dialect first second = .error e) : e.isOfPath = true := by
  cases o with
  | normalize => exact StandardDialect.isOfPath_of_normalize h
  | resolve => exact StandardDialect.isOfPath_of_resolve h
  | resolveSibling => exact StandardDialect.isOfPath_of_resolveSibling h
  | relativize => exact StandardDialect.isOfPath_of_relativize h
  | parse => cases h
  | dialects => cases h
  | version => cases h

/-- Every result can be written: operations lead from paths that are read to paths that are written
in a way that is read back. -/
theorem wellFormed_of_result {p : Path} (h : o.result d.dialect g = .ok p) : d.WellFormed p := by
  obtain ⟨paths, hpaths, h⟩ := bind_eq_ok_iff.mp h
  obtain ⟨q, hq, h⟩ := bind_eq_ok_iff.mp h
  have hread (i : Nat) : d.WellFormed (paths.getD i Path.empty) := by
    rw [List.getD_eq_getElem?_getD]
    cases hget : paths[i]? with
    | none => exact wellFormed_empty d
    | some p => exact wellFormed_of_mapM hpaths p (List.mem_of_getElem? hget)
  have hfirst : d.WellFormed (paths.headD Path.empty) := by
    rw [List.headD_eq_head?_getD, List.head?_eq_getElem?, ← List.getD_eq_getElem?_getD]
    exact hread 0
  have hwell := wellFormed_of_apply hfirst (hread 1) hq
  split at h
  · exact StandardDialect.wellFormed_normalize hwell h
  · exact Except.ok.inj h ▸ hwell

theorem isOfPath_of_result {e : PathError} (h : o.result d.dialect g = .error e) :
    e.isOfPath = true := by
  rcases bind_eq_error_iff.mp h with hpaths | ⟨paths, -, h⟩
  · exact isOfPath_of_mapM hpaths
  rcases bind_eq_error_iff.mp h with hq | ⟨q, -, h⟩
  · exact isOfPath_of_apply hq
  split at h
  · exact StandardDialect.isOfPath_of_normalize h
  · cases h

end Operation

end LexicalPath.Command
