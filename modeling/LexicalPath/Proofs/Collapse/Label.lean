import LexicalPath.Dialect.Normalize

namespace LexicalPath

abbrev Label := NameKind × String

def Label.isRegular (n : Label) : Bool :=
  n.1 = .regular

def parentNames (names : List Label) : List String :=
  (names.filter (·.1 = .parent)).map (·.2)

/-- What a name stands for by two judgements. One that passes both is a self name. -/
def NameKind.of (isSelf isParent : String → Bool) (name : String) : NameKind :=
  if isSelf name then .self else if isParent name then .parent else .regular

def labelled (isSelf isParent : String → Bool) (names : List String) : List Label :=
  names.map fun name => (NameKind.of isSelf isParent name, name)

theorem labelled_append (isSelf isParent : String → Bool) (names more : List String) :
    labelled isSelf isParent (names ++ more) =
      labelled isSelf isParent names ++ labelled isSelf isParent more := by
  simp [labelled]

theorem labelled_of_kind {isSelf isParent : String → Bool} {kind : NameKind} {names : List String}
    (h : ∀ name ∈ names, NameKind.of isSelf isParent name = kind) :
    labelled isSelf isParent names = names.map (Prod.mk kind) :=
  List.map_congr_left fun name hname => by rw [h name hname]

theorem of_eq_of_mem_labelled {isSelf isParent : String → Bool} {names : List String} {n : Label}
    (h : n ∈ labelled isSelf isParent names) : NameKind.of isSelf isParent n.2 = n.1 := by
  simp only [labelled, List.mem_map] at h
  obtain ⟨name, -, rfl⟩ := h
  rfl

/-- The grammar decides by these two judgements which names are self and parent names, and never
fails at it. -/
structure Grammar.Judges (g : Grammar) (isSelf isParent : String → Bool) : Prop where
  isSelf_eq : ∀ name, g.isSelf name = .ok (isSelf name)
  isParent_eq : ∀ name, g.isParent name = .ok (isParent name)

namespace Grammar.Judges

theorem kind_eq {g : Grammar} {isSelf isParent : String → Bool} (hg : g.Judges isSelf isParent)
    (name : String) : g.kind name = .ok (NameKind.of isSelf isParent name) := by
  unfold Grammar.kind NameKind.of
  rw [hg.isSelf_eq, hg.isParent_eq]
  cases isSelf name <;> cases isParent name <;> rfl

theorem kinds_eq {g : Grammar} {isSelf isParent : String → Bool} (hg : g.Judges isSelf isParent)
    (names : List String) : g.kinds names = .ok (labelled isSelf isParent names) := by
  induction names with
  | nil => rfl
  | cons name rest ih =>
      rw [Grammar.kinds, hg.kind_eq, ih]
      rfl

theorem normalize_eq {d : Dialect} {isSelf isParent : String → Bool}
    (hd : d.grammar.Judges isSelf isParent) (p : Path) :
    d.normalize p = .ok { p with names := collapse (labelled isSelf isParent p.names) } := by
  rw [Dialect.normalize, hd.kinds_eq]

end Grammar.Judges

end LexicalPath
