import LexicalPath.Proofs.Dialect.Unix
import LexicalPath.Proofs.Resolve.Basic

namespace LexicalPath.Unix

variable {front back : String}

/-- The first name in a text that is not valid. -/
def rejected? (text : String) : Option String :=
  ((Text.runs isSeparator text.toList).map String.ofList).find? (! isValidName ·)

/-- The path that a text without rejected names stands for. -/
def readAs (text : String) : Path where
  root := if text.toList.head? = some '/' then some "/" else none
  names := (Text.runs isSeparator text.toList).map String.ofList

theorem parse_of_rejected {text name : String} (h : rejected? text = some name) :
    dialect.parse text = .error (.invalidName text name) := by
  rw [rejected?] at h
  rw [parse_eq, h]

theorem parse_of_rejected_eq_none {text : String} (h : rejected? text = none) :
    dialect.parse text = .ok (readAs text) := by
  rw [rejected?] at h
  rw [parse_eq, h, readAs]

theorem toList_joined (front back : String) :
    (front ++ "/" ++ back).toList = front.toList ++ '/' :: back.toList := by
  rw [String.toList_append, String.toList_append, List.append_assoc]
  rfl

theorem runs_joined (front back : String) :
    Text.runs isSeparator (front ++ "/" ++ back).toList =
      Text.runs isSeparator front.toList ++ Text.runs isSeparator back.toList := by
  have hslash : isSeparator '/' = true := rfl
  rw [toList_joined, Text.runs_append_separator hslash]

theorem rejected?_joined (front back : String) :
    rejected? (front ++ "/" ++ back) = (rejected? front).or (rejected? back) := by
  rw [rejected?, runs_joined, List.map_append, List.find?_append]
  rfl

theorem resolve_readAs (hfront : front ≠ "") (hback : back.toList.head? ≠ some '/') :
    dialect.resolve (readAs front) (readAs back) = .ok (readAs (front ++ "/" ++ back)) := by
  have hroot : (readAs back).root = none := if_neg hback
  have hchars : front.toList ≠ [] := by rwa [Ne, String.toList_eq_nil_iff]
  have hhead : (front ++ "/" ++ back).toList.head? = front.toList.head? := by
    rw [toList_joined, List.head?_append_of_ne_nil _ hchars]
  have hresolve : dialect.resolve (readAs front) (readAs back) =
      .ok { readAs front with names := (readAs front).names ++ (readAs back).names } :=
    StandardDialect.unix.resolve_of_root_eq_none hroot (readAs front)
  rw [hresolve]
  simp only [readAs, hhead, runs_joined, List.map_append]

/-- Joining texts agrees with resolving paths. The joined text is read iff both texts are, and then
as the second path resolved against the first. Otherwise it is rejected for the name for which the
first text is rejected, or for that of the second text if the first one is read. -/
theorem parse_joined (front back : String) (hfront : front ≠ "")
    (hback : back.toList.head? ≠ some '/') :
    ((∃ place, dialect.parse (front ++ "/" ++ back) = .ok place) ↔
      (∃ base, dialect.parse front = .ok base) ∧ ∃ other, dialect.parse back = .ok other) ∧
    (∀ base other, dialect.parse front = .ok base → dialect.parse back = .ok other →
      ∃ place, dialect.resolve base other = .ok place ∧
        dialect.parse (front ++ "/" ++ back) = .ok place) ∧
    ∀ e, dialect.parse (front ++ "/" ++ back) = .error e →
      ∃ name, e = .invalidName (front ++ "/" ++ back) name ∧
        (dialect.parse front = .error (.invalidName front name) ∨
          (∃ base, dialect.parse front = .ok base) ∧
            dialect.parse back = .error (.invalidName back name)) := by
  have hjoined := rejected?_joined front back
  cases hf : rejected? front with
  | some name =>
      rw [hf, Option.some_or] at hjoined
      rw [parse_of_rejected hf, parse_of_rejected hjoined]
      refine ⟨by simp, by simp, ?_⟩
      rintro _ ⟨⟩
      exact ⟨name, rfl, Or.inl rfl⟩
  | none =>
      rw [hf, Option.none_or] at hjoined
      rw [parse_of_rejected_eq_none hf]
      cases hb : rejected? back with
      | some name =>
          rw [hb] at hjoined
          rw [parse_of_rejected hb, parse_of_rejected hjoined]
          refine ⟨by simp, by simp, ?_⟩
          rintro _ ⟨⟩
          exact ⟨name, rfl, Or.inr ⟨⟨_, rfl⟩, rfl⟩⟩
      | none =>
          rw [hb] at hjoined
          rw [parse_of_rejected_eq_none hb, parse_of_rejected_eq_none hjoined]
          refine ⟨by simp, ?_, by simp⟩
          rintro _ _ ⟨⟩ ⟨⟩
          exact ⟨_, resolve_readAs hfront hback, rfl⟩

theorem parse_joined_separators :
    "//" ≠ "" ∧ "a/b\x00/\x00".toList.head? ≠ some '/' ∧
      dialect.parse ("//" ++ "/" ++ "a/b\x00/\x00") =
        .error (.invalidName ("//" ++ "/" ++ "a/b\x00/\x00") "b\x00") ∧
      dialect.parse "a/b\x00/\x00" = .error (.invalidName "a/b\x00/\x00" "b\x00") ∧
      ∃ place, dialect.resolve ⟨some "/", []⟩ ⟨none, ["a", ".."]⟩ = .ok place ∧
        dialect.parse ("//" ++ "/" ++ "a//..") = .ok place := by
  have hfront : "//" ≠ "" := by decide
  have hback : "a/b\x00/\x00".toList.head? ≠ some '/' := by decide
  have hread : dialect.parse "//" = .ok ⟨some "/", []⟩ := by rfl
  have hjoined : dialect.parse ("//" ++ "/" ++ "a/b\x00/\x00") =
      .error (.invalidName ("//" ++ "/" ++ "a/b\x00/\x00") "b\x00") := by rfl
  refine ⟨hfront, hback, hjoined, ?_, ?_⟩
  · obtain ⟨-, -, hrejected⟩ := parse_joined "//" "a/b\x00/\x00" hfront hback
    obtain ⟨name, hname, herror | ⟨-, herror⟩⟩ := hrejected _ hjoined
    · rw [hread] at herror
      cases herror
    · rw [herror, (PathError.invalidName.inj hname).2]
  · have hrest : dialect.parse "a//.." = .ok ⟨none, ["a", ".."]⟩ := by rfl
    exact (parse_joined "//" "a//.." hfront (by decide)).2.1 _ _ hread hrest

end LexicalPath.Unix
