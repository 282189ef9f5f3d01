import LexicalPath.Proofs.Yaml.Plain
import LexicalPath.Yaml.Token.Lexer

/-!
Cutting flat documents into tokens: keys (`lexes_key`), texts with and without quotes
(`lexes_plain`, `lexes_quoted`), items (`lexes_hyphen`) and the end (`lexes_end`).
-/

namespace LexicalPath.Yaml

/-! ### Places -/

theorem foldl_after_word {word : List Char}
    (hword : ∀ c ∈ word, isBreak c = false ∧ c ≠ '\ufeff') (p : Position) :
    word.foldl Position.after p = ⟨p.index + word.length, p.line, p.column + word.length⟩ := by
  induction word generalizing p with
  | nil => rfl
  | cons c rest ih =>
      obtain ⟨hbreak, hmark⟩ := hword c (by simp)
      rw [List.foldl_cons, ih fun d hd => hword d (List.mem_cons_of_mem c hd)]
      simp [Position.after, hbreak, hmark]
      omega

theorem line_le_foldl_after (s : List Char) (p : Position) :
    p.line ≤ (s.foldl Position.after p).line := by
  induction s generalizing p with
  | nil => exact Nat.le_refl _
  | cons c rest ih =>
      have hstep : p.line ≤ (p.after c).line := by
        unfold Position.after
        split
        · exact Nat.le_succ _
        · split <;> exact Nat.le_refl _
      exact Nat.le_trans hstep (ih (p.after c))

namespace Lexer

/-! ### Runs -/

/-- From here on the text is cut into tokens up to its end; with those before they are `tokens`. -/
def Lexes (s : Lexer) (tokens : List Token) : Prop :=
  ∀ fuel, s.rest.length < fuel → run fuel s = ⟨tokens, none⟩

theorem Lexes.of_step {s next : Lexer} {tokens : List Token} (hstep : s.step = .ok next)
    (hfinished : next.finished = false) (hrest : next.rest.length < s.rest.length)
    (h : next.Lexes tokens) : s.Lexes tokens := by
  intro fuel hfuel
  obtain ⟨fuel, rfl⟩ : ∃ n, fuel = n + 1 := ⟨fuel - 1, by omega⟩
  rw [run, hstep]
  simp only [hfinished, Bool.false_eq_true, if_false]
  exact h fuel (by omega)

theorem lexes_of_finished {s next : Lexer} (hstep : s.step = .ok next)
    (hfinished : next.finished = true) : s.Lexes next.tokens.toList := by
  intro fuel hfuel
  obtain ⟨fuel, rfl⟩ : ∃ n, fuel = n + 1 := ⟨fuel - 1, by omega⟩
  rw [run, hstep]
  simp only [hfinished, if_true]

/-- The run goes on in the same way from states that take the same step. -/
theorem Lexes.of_step_eq {s t : Lexer} {tokens : List Token} (hstep : s.step = t.step)
    (hrest : t.rest.length ≤ s.rest.length) (h : t.Lexes tokens) : s.Lexes tokens := by
  intro fuel hfuel
  have ht := h fuel (by omega)
  obtain ⟨fuel, rfl⟩ : ∃ n, fuel = n + 1 := ⟨fuel - 1, by omega⟩
  rw [run] at ht ⊢
  rw [hstep]
  cases hnext : t.step with
  | error e => simp [hnext] at ht
  | ok next => simpa [hnext] using ht

/-! ### States -/

/-- A state in which nothing may turn out to be a key. -/
def idle (blocks : List Nat) (p : Position) (tokens : List Token) (keyAllowed : Bool)
    (rest : List Char) : Lexer :=
  { rest, position := p, tokens := tokens.toArray, blocks, keyAllowed }

/-- The state in which a node may turn out to be a key. -/
def awaiting (s : Lexer) (key : Option PossibleKey) : Lexer :=
  { s with possibleKey := key }

/-- A token begins here, or the text ends. -/
def StartsToken (s : List Char) : Prop :=
  ∀ c ∈ s.head?, isBlank c = false ∧ c ≠ '#' ∧ c ≠ '\ufeff'

theorem pass_append (front rest : List Char) {s : Lexer} (h : s.rest = front ++ rest) :
    s.pass front.length = { s with rest, position := front.foldl Position.after s.position } := by
  rw [pass, h, List.drop_left, List.take_left]

theorem moveTo_append (front rest : List Char) {s : Lexer} (h : s.rest = front ++ rest) :
    s.moveTo rest = { s with rest, position := front.foldl Position.after s.position } := by
  have hlength : s.rest.length - rest.length = front.length := by
    rw [h, List.length_append]
    omega
  rw [moveTo, hlength, pass_append front rest h]

theorem blankLength_of_startsToken {s : List Char} (h : StartsToken s) :
    blankLength false s = (0, false) := by
  cases s with
  | nil => rfl
  | cons c rest =>
      obtain ⟨hblank, hmark, -⟩ := h c rfl
      simp only [isBlank, isSpace, Bool.or_eq_false_iff, decide_eq_false_iff_not] at hblank
      simp [blankLength, hblank, hmark]

theorem toNextToken_of_startsToken {s : Lexer} (h : StartsToken s.rest) : s.toNextToken = s := by
  have hmark : ¬ (s.position.index = 0 ∧ s.rest.head? = some '\ufeff') :=
    fun hboth => (h _ hboth.2).2.2 rfl
  have hpass : s.pass 0 = s := rfl
  rw [toNextToken, if_neg hmark, blankLength_of_startsToken h]
  simp [hpass]

theorem toNextToken_space {s : Lexer} {rest : List Char} (hs : s.rest = ' ' :: rest)
    (h : StartsToken rest) :
    s.toNextToken = { s with rest, position := s.position.after ' ' } := by
  have hlength : blankLength false (' ' :: rest) = (1, false) := by
    simp [blankLength, blankLength_of_startsToken h, isBreak]
  rw [toNextToken, if_neg (by simp [hs]), hs, hlength]
  exact pass_append [' '] rest hs

theorem toNextToken_feed {s : Lexer} {rest : List Char} (hs : s.rest = '\n' :: rest)
    (h : StartsToken rest) (hflow : s.outerKeys = []) :
    s.toNextToken =
      { s with rest, position := s.position.after '\n', keyAllowed := true } := by
  have hlength : blankLength false ('\n' :: rest) = (1, true) := by
    simp [blankLength, blankLength_of_startsToken h, isBreak]
  have hpass : s.pass 1 = { s with rest, position := s.position.after '\n' } :=
    pass_append ['\n'] rest hs
  rw [toNextToken, if_neg (by simp [hs]), hs, hlength]
  simp [hpass, inFlow, hflow]

theorem dropStale_optional {s : Lexer} (hflow : s.outerKeys = [])
    (hkey : ∀ k ∈ s.possibleKey, k.required = false) :
    s.dropStale = .ok { s with possibleKey := s.possibleKey.filter (!·.isStale s.position) } := by
  obtain ⟨rest, position, tokens, blocks, key, outerKeys, keyAllowed, finished⟩ := s
  subst hflow
  cases key with
  | none => rfl
  | some k =>
      have hk : k.required = false := hkey k rfl
      cases hstale : k.isStale position with
      | true =>
          simp [dropStale, dropped, hk, hstale, bind, Except.bind, pure, Except.pure,
            Option.filter]
      | false => simp [dropStale, hstale, bind, Except.bind, pure, Except.pure, Option.filter]

theorem dropStale_fresh {s : Lexer} {k : PossibleKey} (hflow : s.outerKeys = [])
    (hkey : s.possibleKey = some k) (hk : k.isStale s.position = false) :
    s.dropStale = .ok s := by
  obtain ⟨rest, position, tokens, blocks, key, outerKeys, keyAllowed, finished⟩ := s
  subst hflow hkey
  simp [dropStale, hk, bind, Except.bind, pure, Except.pure]

/-- The block collections that are there while a flat document is read. -/
def IsFlat (blocks : List Nat) : Prop :=
  blocks = [] ∨ blocks = [0]

theorem step_eq_fetch {s t : Lexer} {c : Char} {rest : List Char}
    (hnext : s.toNextToken.dropStale = .ok t) (hblocks : IsFlat t.blocks)
    (hrest : t.rest = c :: rest) : s.step = (t.fetch c rest).bind dropStale := by
  obtain ⟨rest', position, tokens, blocks, key, outerKeys, keyAllowed, finished⟩ := t
  subst hrest
  have hclose : closeBlocks ⟨c :: rest, position, tokens, blocks, key, outerKeys, keyAllowed,
      finished⟩ (some position.column) =
        ⟨c :: rest, position, tokens, blocks, key, outerKeys, keyAllowed, finished⟩ := by
    rcases hblocks with rfl | rfl <;> simp [closeBlocks]
  simp only [step, hnext, bind, Except.bind, hclose]

theorem fetch_eq_fetchPlain {s : Lexer} {c : Char} {rest : List Char} (hflow : s.outerKeys = [])
    (hmark : s.position.column ≠ 0 ∨ startsWithMark (c :: rest) = false)
    (hblank : isBlank c = false)
    (hmarkup : "#,[]\x7b\x7d&*!|>'\"%@\x60".toList.contains c = false)
    (hindicator : c = '?' ∨ c = ':' ∨ c = '-' → blankNext rest = false) :
    s.fetch c rest = s.fetchPlain := by
  have hne : c ≠ '#' ∧ c ≠ ',' ∧ c ≠ '[' ∧ c ≠ ']' ∧ c ≠ '\x7b' ∧ c ≠ '\x7d' ∧ c ≠ '&' ∧ c ≠ '*' ∧
      c ≠ '!' ∧ c ≠ '|' ∧ c ≠ '>' ∧ c ≠ '\'' ∧ c ≠ '"' ∧ c ≠ '%' ∧ c ≠ '@' ∧ c ≠ '\x60' := by
    simpa using hmarkup
  have hstart : startsPlain false c rest = true := by
    by_cases hc : c = '?' ∨ c = ':' ∨ c = '-'
    · have hrest := hindicator hc
      rcases hc with rfl | rfl | rfl <;> simp [startsPlain, hrest]
    · simp only [not_or] at hc
      simp [startsPlain, hblank, hne, hc]
  have hatMark (mark : Char) :
      (c = mark && s.position.column = 0 && startsWithMark (c :: rest)) = false := by
    rcases hmark with hcolumn | hmark
    · simp [hcolumn]
    · simp [hmark]
  have hcolon {mark : Char} (hmark : mark = '?' ∨ mark = ':' ∨ mark = '-') :
      (c = mark && blankNext rest) = false := by
    rw [Bool.and_eq_false_imp]
    intro hc
    simp at hc
    exact hindicator (hc ▸ hmark)
  simp [fetch, inFlow, hflow, hatMark, hstart, hcolon, hne]

/-! ### Scalars -/

def marked (blocks : List Nat) (p : Position) (tokens : List Token) (keyAllowed : Bool) :
    Option PossibleKey :=
  if keyAllowed then
    some { number := tokens.length, required := blocks.head? = some p.column, start := p }
  else none

section

variable {blocks : List Nat} {p : Position} {tokens : List Token} {keyAllowed : Bool}

theorem dropStale_idle (rest : List Char) :
    (idle blocks p tokens keyAllowed rest).dropStale = .ok (idle blocks p tokens keyAllowed rest) :=
  rfl

theorem markKey_idle (rest : List Char) :
    (idle blocks p tokens keyAllowed rest).markKey =
      .ok ((idle blocks p tokens keyAllowed rest).awaiting
        (marked blocks p tokens keyAllowed)) := by
  cases keyAllowed with
  | false => rfl
  | true => simp [markKey, dropKey, dropped, idle, awaiting, marked, inFlow, Except.map]

theorem fetchPlain_idle (blocks : List Nat) {w rest : List Char} (text : List Char) {broken : Bool}
    (hread : readPlain false (idle blocks p tokens keyAllowed (w ++ rest)).margin .none
      (w ++ rest) = (text, rest, broken)) :
    (idle blocks p tokens keyAllowed (w ++ rest)).fetchPlain =
      .ok ((idle blocks (w.foldl Position.after p)
        (tokens ++ [.scalar (String.ofList text) true]) broken rest).awaiting
          (marked blocks p tokens keyAllowed)) := by
  have hmove := moveTo_append w rest (s :=
    (idle blocks p tokens keyAllowed (w ++ rest)).awaiting
      (marked blocks p tokens keyAllowed)) rfl
  rw [fetchPlain, markKey_idle]
  change Except.ok _ = Except.ok _
  simp only [inFlow, margin, idle, awaiting] at hread hmove ⊢
  simp [hread, hmove, emit]

theorem fetchQuoted_idle {read : List Char → ScalarRead} {c : Char} {w rest text : List Char}
    (hread : read (w ++ rest) = .ok (text, rest)) :
    (idle blocks p tokens keyAllowed (c :: w ++ rest)).fetchQuoted read =
      .ok ((idle blocks ((c :: w).foldl Position.after p)
        (tokens ++ [.scalar (String.ofList text) false]) false rest).awaiting
          (marked blocks p tokens keyAllowed)) := by
  have hmove := moveTo_append (c :: w) rest (s :=
    (idle blocks p tokens keyAllowed (c :: (w ++ rest))).awaiting
      (marked blocks p tokens keyAllowed)) rfl
  rw [List.cons_append, fetchQuoted, markKey_idle]
  simp only [idle, awaiting] at hmove ⊢
  simp [hread, hmove, emit, bind, Except.bind, pure, Except.pure]

end

/-! ### Keys -/

/-- A word by which a value may be called. -/
def IsWord (word : List Char) : Prop :=
  word ≠ [] ∧ word.length ≤ 1024 ∧ ∀ c ∈ word, c.isAlpha = true

theorem toNat_of_isAlpha {c : Char} (h : c.isAlpha = true) : 65 ≤ c.toNat ∧ c.toNat ≤ 122 := by
  have hcase : c.isUpper = true ∨ c.isLower = true := Bool.or_eq_true_iff.mp h
  rcases hcase with h | h
  · have hupper : 65 ≤ c.toNat ∧ c.toNat ≤ 90 := of_decide_eq_true h
    omega
  · obtain ⟨hfirst, hlast⟩ := Bool.and_eq_true_iff.mp h
    have hlower : 97 ≤ c.toNat ∧ c.toNat ≤ 122 :=
      ⟨of_decide_eq_true hfirst, of_decide_eq_true hlast⟩
    omega

theorem alpha_cases {c : Char} (h : c.isAlpha = true) :
    isBlank c = false ∧ isBreak c = false ∧ c ≠ '#' ∧ c ≠ '\ufeff' ∧ c ≠ ':' ∧ c ≠ '-' ∧ c ≠ '.' ∧
      c ≠ '?' ∧ "#,[]\x7b\x7d&*!|>'\"%@\x60".toList.contains c = false := by
  have hne (d : Char) (hd : d.isAlpha = false) : c ≠ d := by
    rintro rfl
    simp [h] at hd
  simp [isBlank, isSpace, isBreak, hne]

theorem readPlain_word {word : List Char} (hword : ∀ c ∈ word, c.isAlpha = true) (margin : Nat)
    {rest : List Char} (hrest : blankNext rest = true) :
    readPlain false margin .none (word ++ ':' :: rest) = (word, ':' :: rest, false) := by
  induction word with
  | nil =>
      simp [readPlain, startsWithMark_cons, isBreak, endsWord, hrest, Gap.hasBreak,
        Gap.atLineStart]
  | cons c more ih =>
      obtain ⟨hblank, hbreak, hmark, -, hcolon, -⟩ := alpha_cases (hword c (by simp))
      have hspace : c ≠ ' ' := by
        rintro rfl
        exact absurd hblank (by decide)
      have hmore := ih fun d hd => hword d (List.mem_cons_of_mem c hd)
      simp [readPlain, Gap.atLineStart, Gap.endsBefore, endsWord, Gap.text, hblank, hbreak, hspace,
        hcolon, hmore]

def opening (blocks : List Nat) : List Token :=
  if blocks.isEmpty then [.blockMappingStart] else []

theorem insertIdx_length_append (t : Token) (tokens more : List Token) :
    (tokens ++ more).insertIdx tokens.length t = tokens ++ t :: more := by
  induction tokens with
  | nil => rfl
  | cons first tokens ih => exact congrArg (first :: ·) ih

theorem fetchValue_awaiting {blocks : List Nat} (hblocks : IsFlat blocks) {p start : Position}
    (hstart : start.column = 0) {tokens : List Token} {t : Token} (required : Bool)
    (rest : List Char) :
    ((idle blocks p (tokens ++ [t]) false (':' :: rest)).awaiting
        (some { number := tokens.length, required, start })).fetchValue =
      .ok (idle [0] (p.after ':') (tokens ++ opening blocks ++ [.key, t, .value]) false rest) := by
  rcases hblocks with rfl | rfl
  · simp [fetchValue, idle, awaiting, inFlow, startsBlock, insertBehind, take, pass, emit, opening,
      hstart, insertIdx_length_append]
  · simp [fetchValue, idle, awaiting, inFlow, startsBlock, insertBehind, take, pass, emit, opening,
      hstart, insertIdx_length_append]

theorem fetch_colon (s : Lexer) {rest : List Char} (hrest : blankNext rest = true) :
    s.fetch ':' rest = s.fetchValue := by
  simp [fetch, hrest]

theorem startsToken_cons {c : Char} (rest : List Char) (hblank : isBlank c = false)
    (hmark : c ≠ '#') (horder : c ≠ '\ufeff') : StartsToken (c :: rest) := by
  rintro d ⟨⟩
  exact ⟨hblank, hmark, horder⟩

theorem step_of_startsToken {s : Lexer} {c : Char} {rest : List Char} (hrest : s.rest = c :: rest)
    (hstart : StartsToken (c :: rest)) (hfresh : s.dropStale = .ok s) (hblocks : IsFlat s.blocks) :
    s.step = (s.fetch c rest).bind dropStale := by
  apply step_eq_fetch _ hblocks hrest
  rw [toNextToken_of_startsToken (hrest ▸ hstart), hfresh]

section

variable {blocks : List Nat} (hblocks : IsFlat blocks) {p : Position} {tokens : List Token}

theorem dropStale_awaiting (p p' : Position) (hline : p.line = p'.line)
    (hindex : p'.index ≤ p.index + 1024) (tokens' : List Token) (rest : List Char) :
    ((idle blocks p' tokens' false rest).awaiting (marked blocks p tokens true)).dropStale =
      .ok ((idle blocks p' tokens' false rest).awaiting (marked blocks p tokens true)) := by
  apply dropStale_fresh rfl rfl
  have hlate : ¬ 1024 < p'.index - p.index := by omega
  simp [PossibleKey.isStale, idle, awaiting, hline, hlate]

include hblocks in
theorem step_word (p : Position) (tokens : List Token) {word : List Char} (hword : IsWord word)
    {rest : List Char} (hrest : blankNext rest = true) :
    (idle blocks p tokens true (word ++ ':' :: rest)).step =
      .ok ((idle blocks ⟨p.index + word.length, p.line, p.column + word.length⟩
        (tokens ++ [.scalar (String.ofList word) true]) false (':' :: rest)).awaiting
          (marked blocks p tokens true)) := by
  obtain ⟨hne, hlength, halpha⟩ := hword
  have hplace := foldl_after_word (p := p) fun c hc =>
    ⟨(alpha_cases (halpha c hc)).2.1, (alpha_cases (halpha c hc)).2.2.2.1⟩
  have hplain := fetchPlain_idle blocks word (readPlain_word halpha
    (idle blocks p tokens true (word ++ ':' :: rest)).margin hrest)
  rw [hplace] at hplain
  obtain ⟨c, more, rfl⟩ := List.exists_cons_of_ne_nil hne
  obtain ⟨hblank, -, hmark, horder, hcolon, hminus, hpoint, hquestion, hmarkup⟩ :=
    alpha_cases (halpha c (by simp))
  have hindicator : c = '?' ∨ c = ':' ∨ c = '-' → blankNext (more ++ ':' :: rest) = false := by
    rintro (rfl | rfl | rfl) <;> contradiction
  rw [List.cons_append] at hplain ⊢
  rw [step_of_startsToken rfl (startsToken_cons _ hblank hmark horder) (dropStale_idle _) hblocks,
    fetch_eq_fetchPlain rfl (.inr (startsWithMark_cons hminus hpoint _)) hblank hmarkup hindicator,
    hplain]
  exact dropStale_awaiting p ⟨p.index + (c :: more).length, p.line,
    p.column + (c :: more).length⟩ rfl (Nat.add_le_add_left hlength p.index) _ _

include hblocks in
theorem step_colon (tokens : List Token) (hp : p.column = 0) (p' : Position)
    (hline : p.line = p'.line) (hindex : p'.index ≤ p.index + 1024) (t : Token) {rest : List Char}
    (hrest : blankNext rest = true) :
    ((idle blocks p' (tokens ++ [t]) false (':' :: rest)).awaiting
        (marked blocks p tokens true)).step =
      .ok (idle [0] (p'.after ':') (tokens ++ opening blocks ++ [.key, t, .value]) false rest) := by
  rw [step_of_startsToken rfl (startsToken_cons rest (by decide) (by decide) (by decide))
    (dropStale_awaiting p p' hline hindex _ _) hblocks, fetch_colon _ hrest, marked, if_pos rfl,
    fetchValue_awaiting hblocks hp]
  exact dropStale_idle rest

include hblocks in
/-- A key, of which the token comes in front of it once its colon is reached. -/
theorem lexes_key (hp : p.column = 0) {all : List Token} {word : List Char} (hword : IsWord word)
    {rest : List Char} (hrest : blankNext rest = true)
    (h : ∀ p' : Position, p'.column ≠ 0 →
      (idle [0] p' (tokens ++ opening blocks ++
        [.key, .scalar (String.ofList word) true, .value]) false rest).Lexes all) :
    (idle blocks p tokens true (word ++ ':' :: rest)).Lexes all := by
  have hpositive : 0 < word.length := List.length_pos_iff.mpr hword.1
  have hkey := step_word hblocks p tokens hword hrest
  have hcolon := step_colon hblocks tokens hp
    ⟨p.index + word.length, p.line, p.column + word.length⟩ rfl
    (Nat.add_le_add_left hword.2.1 p.index) (.scalar (String.ofList word) true) hrest
  refine Lexes.of_step hkey rfl ?_ (Lexes.of_step hcolon rfl ?_ (h _ (Nat.succ_ne_zero _)))
  · simp only [idle, awaiting, List.length_append, List.length_cons]
    omega
  · simp [idle, awaiting]

end

/-! ### Texts -/

theorem StartsToken.lineEnd {rest : List Char} (h : StartsToken rest) :
    rest = [] ∨ blankNext rest = false := by
  cases rest with
  | nil => exact .inl rfl
  | cons c more => exact .inr (h c rfl).1

theorem step_congr {s t : Lexer} (h : s.toNextToken.dropStale = t.toNextToken.dropStale) :
    s.step = t.step := by
  rw [step, step, h]

section

variable {p : Position} {tokens all : List Token} {keyAllowed : Bool}

theorem marked_optional (hp : p.column ≠ 0) {k : PossibleKey}
    (hk : k ∈ marked [0] p tokens keyAllowed) : k.required = false ∧ k.start = p := by
  unfold marked at hk
  split at hk
  · cases hk
    exact ⟨by simpa using Ne.symm hp, rfl⟩
  · cases hk

theorem dropStale_later {key : Option PossibleKey}
    (hkey : ∀ k ∈ key, k.required = false ∧ k.start.line < p.line) (rest : List Char) :
    ((idle [0] p tokens keyAllowed rest).awaiting key).dropStale =
      .ok (idle [0] p tokens keyAllowed rest) := by
  rw [dropStale_optional rfl fun k hk => (hkey k hk).1]
  cases key with
  | none => rfl
  | some k =>
      have hline : k.start.line ≠ p.line := Nat.ne_of_lt (hkey k rfl).2
      simp [awaiting, idle, PossibleKey.isStale, hline, Option.filter]

theorem step_space (p : Position) (tokens : List Token) (keyAllowed : Bool) {c : Char}
    {rest : List Char} (hstart : StartsToken (c :: rest)) :
    (idle [0] p tokens keyAllowed (' ' :: c :: rest)).step =
      ((idle [0] (p.after ' ') tokens keyAllowed (c :: rest)).fetch c rest).bind dropStale := by
  apply step_eq_fetch _ (.inr rfl) rfl
  rw [toNextToken_space rfl hstart]
  rfl

theorem step_plain (p : Position) (tokens : List Token) (keyAllowed : Bool) {c : Char}
    {more : List Char} (htext : PlainText c more) (column : Nat) {rest : List Char}
    (hrest : StartsToken rest) :
    ∃ p' : Position, p'.column = 0 ∧
      (idle [0] p tokens keyAllowed
          (' ' :: writePlain column .word (c :: more) ++ '\n' :: rest)).step =
        .ok (idle [0] p' (tokens ++ [.scalar (String.ofList (c :: more)) true]) true rest) := by
  have hspace : c ≠ ' ' := by
    rintro rfl
    exact absurd htext.bare (by decide)
  have hmark : c ≠ '#' := by
    rintro rfl
    exact absurd htext.markup (by decide)
  have hindicator : c = '?' ∨ c = ':' ∨ c = '-' →
      blankNext (writePlain (column + 1) .word more ++ '\n' :: rest) = false := by
    rw [blankNext_writePlain]
    exact htext.indicator
  have hread := readPlain_written htext.toPlainEnd hrest.lineEnd column (.none .word (c :: more))
  rw [writePlain, if_neg hspace] at hread ⊢
  have hstep := step_space p tokens keyAllowed
    (startsToken_cons (writePlain (column + 1) .word more ++ '\n' :: rest) htext.bare hmark
      htext.order)
  rw [fetch_eq_fetchPlain rfl (.inl (Nat.succ_ne_zero _)) htext.bare htext.markup
    hindicator] at hstep
  -- The line break behind the text is passed over with it.
  have hline : c :: (writePlain (column + 1) .word more ++ '\n' :: rest) =
      (c :: writePlain (column + 1) .word more ++ ['\n']) ++ rest := by simp
  rw [List.cons_append, hline] at hread
  rw [List.cons_append, List.cons_append, hline]
  rw [hline, fetchPlain_idle [0] (c :: more) hread, List.foldl_append] at hstep
  refine ⟨_, rfl, hstep.trans (dropStale_later ?_ rest)⟩
  intro k hk
  obtain ⟨hrequired, hstart⟩ := marked_optional (Nat.succ_ne_zero _) hk
  refine ⟨hrequired, ?_⟩
  rw [hstart]
  exact Nat.lt_succ_of_le (line_le_foldl_after _ _)

theorem lexes_plain {c : Char} {more : List Char} (htext : PlainText c more) (column : Nat)
    {rest : List Char} (hrest : StartsToken rest)
    (h : ∀ p' : Position, p'.column = 0 →
      (idle [0] p' (tokens ++ [.scalar (String.ofList (c :: more)) true]) true rest).Lexes all) :
    (idle [0] p tokens keyAllowed
      (' ' :: writePlain column .word (c :: more) ++ '\n' :: rest)).Lexes all := by
  obtain ⟨p', hp', hstep⟩ := step_plain p tokens keyAllowed htext column hrest
  refine Lexes.of_step hstep rfl ?_ (h p' hp')
  simp only [idle, List.length_append, List.length_cons]
  omega

theorem lexes_lineEnd (key : Option PossibleKey)
    (hkey : ∀ k ∈ key, k.required = false ∧ k.start.line ≤ p.line) {rest : List Char}
    (hrest : StartsToken rest)
    (h : ∀ p' : Position, p'.column = 0 → (idle [0] p' tokens true rest).Lexes all) :
    ((idle [0] p tokens keyAllowed ('\n' :: rest)).awaiting key).Lexes all := by
  have hlate : ∀ k ∈ key, k.required = false ∧ k.start.line < (p.after '\n').line :=
    fun k hk => ⟨(hkey k hk).1, Nat.lt_succ_of_le (hkey k hk).2⟩
  refine Lexes.of_step_eq (t := idle [0] (p.after '\n') tokens true rest) ?_ ?_ (h _ rfl)
  · apply step_congr
    rw [toNextToken_feed rfl hrest rfl, toNextToken_of_startsToken hrest]
    exact dropStale_later hlate rest
  · exact Nat.le_succ _

theorem lexes_quoted {quote : Char} {read : List Char → ScalarRead}
    (hquote : StartsToken [quote])
    (hfetch : ∀ (s : Lexer) (rest : List Char), s.fetch quote rest = s.fetchQuoted read)
    {w text rest : List Char} (hread : read (w ++ '\n' :: rest) = .ok (text, '\n' :: rest))
    (hrest : StartsToken rest)
    (h : ∀ p' : Position, p'.column = 0 →
      (idle [0] p' (tokens ++ [.scalar (String.ofList text) false]) true rest).Lexes all) :
    (idle [0] p tokens keyAllowed (' ' :: quote :: w ++ '\n' :: rest)).Lexes all := by
  have hstart : StartsToken (quote :: (w ++ '\n' :: rest)) := hquote
  have hkey {k : PossibleKey} (hk : k ∈ marked [0] (p.after ' ') tokens keyAllowed) :
      k.required = false ∧
        k.start.line ≤ ((quote :: w).foldl Position.after (p.after ' ')).line := by
    obtain ⟨hrequired, hstart⟩ := marked_optional (Nat.succ_ne_zero _) hk
    refine ⟨hrequired, ?_⟩
    rw [hstart]
    exact line_le_foldl_after _ _
  have hstep := step_space p tokens keyAllowed hstart
  rw [hfetch, ← List.cons_append, fetchQuoted_idle hread] at hstep
  refine Lexes.of_step (hstep.trans (dropStale_optional rfl fun k hk => (hkey hk).1)) rfl ?_ ?_
  · simp only [idle, awaiting, List.length_append, List.length_cons]
    omega
  · refine lexes_lineEnd (Option.filter _ _) ?_ hrest h
    intro k hk
    exact hkey (Option.filter_eq_some_iff.mp hk).1

theorem fetch_flowStart (s : Lexer) (rest : List Char) :
    s.fetch '[' rest = s.fetchFlowStart .flowSequenceStart := by
  simp [fetch]

theorem fetch_flowEnd (s : Lexer) (rest : List Char) :
    s.fetch ']' rest = s.fetchFlowEnd .flowSequenceEnd := by
  simp [fetch]

theorem lexes_noTexts {rest : List Char} (hrest : StartsToken rest)
    (h : ∀ p' : Position, p'.column = 0 →
      (idle [0] p' (tokens ++ [.flowSequenceStart, .flowSequenceEnd]) true rest).Lexes all) :
    (idle [0] p tokens false (' ' :: '[' :: ']' :: '\n' :: rest)).Lexes all := by
  -- The state within the brackets.
  let within : Lexer :=
    { rest := ']' :: '\n' :: rest, position := (p.after ' ').after '['
      tokens := (tokens ++ [Token.flowSequenceStart]).toArray, blocks := [0], outerKeys := [none] }
  have hopening : (idle [0] p tokens false (' ' :: '[' :: ']' :: '\n' :: rest)).step =
      .ok within := by
    rw [step_space p tokens false (startsToken_cons _ (by decide) (by decide) (by decide)),
      fetch_flowStart]
    simp [fetchFlowStart, markKey, idle, take, pass, emit, deepestBrackets, dropStale, within,
      Except.map, bind, Except.bind, pure, Except.pure]
  have hclosing : within.step =
      .ok (idle [0] (((p.after ' ').after '[').after ']')
        (tokens ++ [.flowSequenceStart, .flowSequenceEnd]) false ('\n' :: rest)) := by
    simp [step, toNextToken, blankLength, isBreak, pass, dropStale, closeBlocks, inFlow, within,
      idle, fetch_flowEnd, fetchFlowEnd, dropKey, dropped, take, emit, Except.map, bind,
      Except.bind, pure, Except.pure]
  refine Lexes.of_step hopening rfl ?_ (Lexes.of_step hclosing rfl ?_ ?_)
  · simp [idle, within]
  · simp [idle, within]
  · exact lexes_lineEnd none (by simp) hrest h

theorem lexes_hyphen (hp : p.column = 0) {rest : List Char}
    (h : ∀ p' : Position,
      (idle [0] p' (tokens ++ [.blockEntry]) true (' ' :: rest)).Lexes all) :
    (idle [0] p tokens true ('-' :: ' ' :: rest)).Lexes all := by
  have hstart : StartsToken ('-' :: ' ' :: rest) := by
    apply startsToken_cons <;> decide
  have hfetch : (idle [0] p tokens true ('-' :: ' ' :: rest)).fetch '-' (' ' :: rest) =
      .ok (idle [0] (p.after '-') (tokens ++ [.blockEntry]) true (' ' :: rest)) := by
    simp [fetch, blankNext, isBlank, isSpace, startsWithMark, startsLikeMark, fetchBlockEntry,
      idle, inFlow, openBlock, startsBlock, hp, dropKey, dropped, take, pass, emit, Except.map]
  have hstep := step_of_startsToken (s := idle [0] p tokens true ('-' :: ' ' :: rest)) rfl hstart
    (dropStale_idle _) (.inr rfl)
  rw [hfetch] at hstep
  exact Lexes.of_step hstep rfl (Nat.lt_succ_self _) (h _)

theorem lexes_end (p : Position) (tokens : List Token) :
    (idle [0] p tokens true []).Lexes (tokens ++ [.blockEnd, .streamEnd]) := by
  have hstep : (idle [0] p tokens true []).step =
      .ok { idle [] p (tokens ++ [.blockEnd, .streamEnd]) false [] with finished := true } := by
    simp [step, toNextToken, blankLength, pass, dropStale, closeBlocks, finish, dropKey, dropped,
      idle, inFlow, emit, Except.map, bind, Except.bind, pure, Except.pure]
  have hlast := lexes_of_finished hstep rfl
  simpa [idle] using hlast

end

end Lexer

end LexicalPath.Yaml
