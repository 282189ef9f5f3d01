import Mathlib.Data.List.TakeWhile
import LexicalPath.Command.Catalogue

/-!
The words of a call. Options may be spelled in several ways and stand at several places
(`Signature.Spells`); whichever are chosen, reading the words gives the options and the arguments
that were meant (`Signature.Clear.readWords_spells`).
-/

namespace LexicalPath.Command

/-- The words by which an option is given, with the value it gets: the long word or the letter of
the option, and its value, if it takes one, as the next word or in the same word. -/
inductive CommandOption.Wording (o : CommandOption) : List String → String → Prop where
  | long (hvalue : o.value.isSome = true) (value : String) : Wording o [o.long, value] value
  | longJoined (hvalue : o.value.isSome = true) (value : String) :
      Wording o [o.long ++ "=" ++ value] value
  | short (hvalue : o.value.isSome = true) {c : Char} (hc : o.short = some c) (value : String) :
      Wording o [String.ofList ['-', c], value] value
  | shortJoined (hvalue : o.value.isSome = true) {c : Char} (hc : o.short = some c)
      {value : String} (hne : value ≠ "") : Wording o [String.ofList ['-', c] ++ value] value
  | flag (hvalue : o.value = none) : Wording o [o.long] ""
  | shortFlag (hvalue : o.value = none) {c : Char} (hc : o.short = some c) :
      Wording o [String.ofList ['-', c]] ""

namespace Signature

/-- The words give options of the command, each with its value, in this order. -/
inductive Gives (sig : Signature) : List String → List (CommandOption × String) → Prop where
  | nil : Gives sig [] []
  | cons {o : CommandOption} (ho : o ∈ sig.options) {front : List String} {value : String}
      (hfront : o.Wording front value) {rest : List String}
      {options : List (CommandOption × String)} (hrest : Gives sig rest options) :
      Gives sig (front ++ rest) ((o, value) :: options)

theorem Gives.one {sig : Signature} {o : CommandOption} (ho : o ∈ sig.options) {front : List String}
    {value : String} (hfront : o.Wording front value) : sig.Gives front [(o, value)] := by
  have h := Gives.cons ho hfront .nil
  rwa [List.append_nil] at h

/-- The words give options and arguments to the command. Options may stand among the arguments; two
hyphens end them, and any words may stand behind these. -/
inductive Spells (sig : Signature) : List String → Given → Prop where
  | nil : Spells sig [] {}
  | ended (arguments : List String) : Spells sig ("--" :: arguments) { arguments }
  | options {front : List String} {options : List (CommandOption × String)}
      (hfront : sig.Gives front options) {words : List String} {g : Given}
      (h : Spells sig words g) :
      Spells sig (front ++ words) { g with options := options ++ g.options }
  | argument (word : String) (hword : isOptionWord word.toList = false) {words : List String}
      {g : Given} (h : Spells sig words g) :
      Spells sig (word :: words) { g with arguments := word :: g.arguments }

theorem Gives.mem_options {sig : Signature} {words : List String}
    {options : List (CommandOption × String)} (h : sig.Gives words options) :
    ∀ given ∈ options, given.1 ∈ sig.options := by
  induction h with
  | nil => simp
  | cons ho _ _ ih => exact List.forall_mem_cons.mpr ⟨ho, ih⟩

theorem Spells.mem_options {sig : Signature} {words : List String} {g : Given}
    (h : sig.Spells words g) : ∀ given ∈ g.options, given.1 ∈ sig.options := by
  induction h with
  | nil => simp
  | ended => simp
  | options hfront _ ih => exact List.forall_mem_append.mpr ⟨hfront.mem_options, ih⟩
  | argument _ _ _ ih => exact ih

/-- The options can be told apart by their long words, which begin with two hyphens, and by their
letters. -/
structure Clear (sig : Signature) : Prop where
  long : ∀ o ∈ sig.options, sig.options.find? (fun other => other.long = o.long) = some o
  hyphens : ∀ o ∈ sig.options,
    "--".toList.isPrefixOf o.long.toList = true ∧ 2 < o.long.toList.length ∧ '=' ∉ o.long.toList
  letters : ∀ o ∈ sig.options, o.short.all (fun c =>
    c ≠ '-' ∧ c ≠ '=' ∧ sig.options.find? (fun other => other.short = some c) = some o) = true

theorem clear_signature (o : Operation) : o.signature.Clear where
  long := by cases o <;> decide +kernel
  hyphens := by cases o <;> decide
  letters := by cases o <;> decide +kernel

section

variable {sig : Signature} (hsig : sig.Clear) {o : CommandOption} (ho : o ∈ sig.options)

include hsig ho

theorem Clear.exists_long : ∃ c rest, o.long.toList = '-' :: '-' :: c :: rest := by
  obtain ⟨hhyphens, hlength, -⟩ := hsig.hyphens o ho
  match hword : o.long.toList with
  | [] | [_] | [_, _] => simp [hword] at hlength
  | a :: b :: c :: rest =>
      rw [hword] at hhyphens
      obtain ⟨rfl, rfl⟩ : '-' = a ∧ '-' = b := by simpa using hhyphens
      exact ⟨c, rest, rfl⟩

theorem Clear.short {c : Char} (hc : o.short = some c) :
    c ≠ '-' ∧ c ≠ '=' ∧ sig.options.find? (fun other => other.short = some c) = some o := by
  have hletter := hsig.letters o ho
  rw [hc] at hletter
  exact of_decide_eq_true hletter

theorem Clear.readWord_long :
    sig.readWord o.long.toList =
      .ok (if o.value.isSome then { waiting := some (o.long, o) } else { given := [(o, "")] }) := by
  obtain ⟨-, -, hequals⟩ := hsig.hyphens o ho
  have hname : o.long.toList.takeWhile (· != '=') = o.long.toList := by
    rw [List.takeWhile_eq_self_iff]
    rintro c hc
    simpa using fun h : c = '=' => hequals (h ▸ hc)
  have hcontains : o.long.toList.contains '=' = false := by simpa using hequals
  simp only [readWord, hname, String.ofList_toList, hsig.long o ho, hcontains]
  split <;> rfl

theorem Clear.readWord_longJoined (hvalue : o.value.isSome = true) (value : List Char) :
    sig.readWord (o.long.toList ++ '=' :: value) = .ok { given := [(o, String.ofList value)] } := by
  obtain ⟨-, -, hequals⟩ := hsig.hyphens o ho
  have hfree : ∀ c ∈ o.long.toList, (c != '=') = true := by
    rintro c hc
    simpa using fun h : c = '=' => hequals (h ▸ hc)
  have hname : (o.long.toList ++ '=' :: value).takeWhile (· != '=') = o.long.toList := by
    rw [List.takeWhile_append_of_pos hfree]
    simp
  have hbehind : (o.long.toList ++ '=' :: value).dropWhile (· != '=') = '=' :: value := by
    rw [List.dropWhile_append_of_pos hfree]
    simp
  have hcontains : (o.long.toList ++ '=' :: value).contains '=' = true := by simp
  simp only [readWord, hname, hbehind, String.ofList_toList, hsig.long o ho, hcontains, hvalue]
  rfl

theorem Clear.readWord_short {c : Char} (hc : o.short = some c) (behind : List Char) :
    sig.readWord ('-' :: c :: behind) = sig.readLetters (c :: behind) := by
  obtain ⟨hhyphen, hequals, -⟩ := hsig.short ho hc
  -- No long word begins with a hyphen and this letter.
  have hnone : sig.options.find? (fun other =>
      other.long = String.ofList (('-' :: c :: behind).takeWhile (· != '='))) = none := by
    rw [List.find?_eq_none]
    intro other hother hlong
    obtain ⟨d, rest, hword⟩ := hsig.exists_long hother
    have heq := of_decide_eq_true hlong
    rw [← String.toList_inj, hword, String.toList_ofList] at heq
    simp only [List.takeWhile_cons, bne_iff_ne, ne_eq, hequals, not_false_eq_true, if_true] at heq
    simp at heq
    exact hhyphen heq.1.symm
  have hprefix : "--".toList.isPrefixOf ('-' :: c :: behind) = false := by
    simp [List.isPrefixOf, Ne.symm hhyphen]
  simp only [readWord, hnone, hprefix]
  rfl

theorem Clear.readLetters_cons {c : Char} (hc : o.short = some c) (behind : List Char) :
    sig.readLetters (c :: behind) =
      if o.value.isSome then
        .ok (if behind.isEmpty then { waiting := some (String.ofList ['-', c], o) }
          else { given := [(o, String.ofList behind)] })
      else
        (sig.readLetters behind).map fun more => { more with given := (o, "") :: more.given } := by
  obtain ⟨-, -, hfind⟩ := hsig.short ho hc
  simp only [readLetters, hfind]

end

end Signature

/-- The word begins with a hyphen and is more than one or two of them. -/
def IsHyphened (word : String) : Prop :=
  ∃ c behind, word.toList = '-' :: c :: behind ∧ (c = '-' → behind ≠ [])

namespace Signature

theorem isOptionWord_of_isHyphened {word : String} (h : IsHyphened word) :
    word ≠ "--" ∧ isOptionWord word.toList = true := by
  obtain ⟨c, behind, hword, hbehind⟩ := h
  constructor
  · rintro rfl
    obtain ⟨rfl, rfl⟩ : '-' = c ∧ [] = behind := by simpa using hword
    exact hbehind rfl rfl
  · rw [hword]
    rfl

theorem readWords_given {sig : Signature} {word : String} (hword : IsHyphened word)
    {options : List (CommandOption × String)}
    (h : sig.readWord word.toList = .ok { given := options }) (g : Given) (rest : List String) :
    sig.readWords g (word :: rest) = sig.readWords (g.addOptions options) rest := by
  obtain ⟨hne, hoption⟩ := isOptionWord_of_isHyphened hword
  rw [readWords, if_neg hne, if_pos hoption, h]

theorem readWords_waiting {sig : Signature} {word name : String} (hword : IsHyphened word)
    {o : CommandOption} (h : sig.readWord word.toList = .ok { waiting := some (name, o) })
    (g : Given) (value : String) (rest : List String) :
    sig.readWords g (word :: value :: rest) = sig.readWords (g.addOptions [(o, value)]) rest := by
  obtain ⟨hne, hoption⟩ := isOptionWord_of_isHyphened hword
  rw [readWords, if_neg hne, if_pos hoption, h]
  rfl

section

variable {sig : Signature} (hsig : sig.Clear)

include hsig

theorem Clear.readWords_wording {o : CommandOption} (ho : o ∈ sig.options) {front : List String}
    {value : String} (hfront : o.Wording front value) (g : Given) (rest : List String) :
    sig.readWords g (front ++ rest) = sig.readWords (g.addOptions [(o, value)]) rest := by
  have hlong (behind : String) : IsHyphened (o.long ++ behind) := by
    obtain ⟨c, more, hword⟩ := hsig.exists_long ho
    exact ⟨'-', c :: (more ++ behind.toList), by simp [hword], by simp⟩
  have hshort {c : Char} (hc : o.short = some c) (behind : String) :
      IsHyphened (String.ofList ['-', c] ++ behind) := by
    refine ⟨c, behind.toList, by simp, ?_⟩
    intro hhyphen
    exact absurd hhyphen (hsig.short ho hc).1
  have hlong' := hlong ""
  rw [String.append_empty] at hlong'
  cases hfront with
  | long hvalue value =>
      apply readWords_waiting hlong'
      rw [hsig.readWord_long ho, if_pos hvalue]
  | longJoined hvalue value =>
      rw [String.append_assoc]
      apply readWords_given (hlong _)
      simpa using hsig.readWord_longJoined ho hvalue value.toList
  | short hvalue hc value =>
      have hword := hshort hc ""
      rw [String.append_empty] at hword
      apply readWords_waiting hword
      rw [String.toList_ofList, hsig.readWord_short ho hc, hsig.readLetters_cons ho hc,
        if_pos hvalue]
      rfl
  | shortJoined hvalue hc hne =>
      apply readWords_given (hshort hc _)
      have hbehind : value.toList.isEmpty = false := by simpa using hne
      rw [String.toList_append, String.toList_ofList]
      change sig.readWord ('-' :: _ :: value.toList) = _
      rw [hsig.readWord_short ho hc, hsig.readLetters_cons ho hc, if_pos hvalue, hbehind]
      simp
  | flag hvalue =>
      apply readWords_given hlong'
      rw [hsig.readWord_long ho, hvalue]
      rfl
  | shortFlag hvalue hc =>
      have hword := hshort hc ""
      rw [String.append_empty] at hword
      apply readWords_given hword
      rw [String.toList_ofList, hsig.readWord_short ho hc, hsig.readLetters_cons ho hc, hvalue]
      rfl

theorem Clear.readWords_gives {front : List String} {options : List (CommandOption × String)}
    (hfront : sig.Gives front options) (g : Given) (rest : List String) :
    sig.readWords g (front ++ rest) = sig.readWords (g.addOptions options) rest := by
  induction hfront generalizing g with
  | nil => simp [Given.addOptions]
  | cons ho hwording _ ih =>
      rw [List.append_assoc, hsig.readWords_wording ho hwording, ih]
      simp [Given.addOptions]

theorem Clear.readWords_of_spells (hpasses : sig.passesOn = false) {words : List String}
    {meant : Given} (h : sig.Spells words meant) (g : Given) :
    sig.readWords g words =
      .ok ⟨g.options ++ meant.options, g.arguments ++ meant.arguments⟩ := by
  induction h generalizing g with
  | nil => simp [readWords]
  | ended arguments =>
      rw [readWords, if_pos rfl]
      simp [Given.addArguments]
  | options hfront _ ih =>
      rw [hsig.readWords_gives hfront, ih]
      simp [Given.addOptions]
  | argument word hword _ ih =>
      have hne : word ≠ "--" := by
        rintro rfl
        cases hword
      rw [readWords, if_neg hne, if_neg (by simp [hword]), if_neg (by simp [hpasses]), ih]
      simp [Given.addArguments]

/-- A line is read as what it spells. -/
theorem Clear.readWords_spells (hpasses : sig.passesOn = false) {words : List String} {g : Given}
    (h : sig.Spells words g) : sig.readWords {} words = .ok g :=
  hsig.readWords_of_spells hpasses h {}

end

end Signature

end LexicalPath.Command
