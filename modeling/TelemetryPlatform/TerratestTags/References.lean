import TelemetryPlatform.Library.HclDocument
import TelemetryPlatform.TerratestTags.Lint

/-!
# References to variables

A variable is referred to in the code of some tokens, or in that of an interpolation. The
lint looks for the text of a reference, which may also stand in a comment or a string, in
a longer name, or behind the tokens that are meant.
-/

namespace TerratestTags

open Python Hcl

section References

variable (idents : WordClass)

/-- A name behind the token is part of a longer one. -/
def joins : Token → Bool
  | .code c => isIdentifier idents c || decide (c = .char '.')
  | _ => false

/-- The token goes on with a name in front of it. -/
def continues : Token → Bool
  | .code c => isIdentifier idents c
  | _ => false

/-- The tokens refer to a variable. -/
inductive References (name : Str) : List Token → Prop
  | named {front dotGap nameGap back : List Token} :
      front.getLast?.any (joins idents) = false → back.head?.any (continues idents) = false →
      AllWhite dotGap → AllWhite nameGap →
      References name (front ++ (codeOf (str "var") ++ (dotGap ++ .code (.char '.') ::
        (nameGap ++ (codeOf name ++ back)))))
  | inString {tokens inner : List Token} {content : List Letter} :
      .string content ∈ tokens → .interpolation (tokensText inner) ∈ content →
      Lexed idents inner → References name inner → References name tokens

/-- The text of a reference. -/
def refText (name : Str) : Str := str "var." ++ name

variable (words : WordClass)

/-- The text of a reference stands in another one, and no word goes on behind it. -/
def Mentions (name text : Str) : Prop :=
  ∃ front back, text = front ++ (refText name ++ back) ∧ back.head?.any words.holds = false

/-- The text of a reference stands for one in the tokens, and not behind them. -/
structure OnlyReferences (name : Str) (tokens : List Token) (behind : Str) : Prop where
  behind : ¬Mentions words name behind
  other : ∀ token ∈ tokens, (∀ c, token ≠ .code c) → refText name <:+: token.text →
    References idents name [token]
  code : ∀ front back, tokens = front ++ (codeOf (refText name) ++ back) →
    front.getLast?.any (joins idents) = false ∧ back.head?.any (continues idents) = false

end References

section Search

variable {words : WordClass} {name : Str}

theorem reads_refRe {passed text rest : Str} {groups after : List (Nat × Str)}
    (wordly : name.getLast?.any words.holds = true) :
    (refRe words name).Reads passed text rest groups after ↔
      text = refText name ∧ rest.head?.any words.holds = false ∧ after = groups := by
  have ends : ((refText name).reverse ++ passed).head?.any words.holds = true := by
    rw [refText, List.reverse_append, List.append_assoc, List.head?_append, List.head?_reverse]
    cases last : name.getLast? with
    | none =>
        rw [last] at wordly
        cases wordly
    | some c =>
        rw [last] at wordly
        exact wordly
  simp only [refRe, reads_cons, reads_nil, reads_word, reads_wordEdge]
  constructor
  · rintro ⟨_, _, _, rfl, ⟨rfl, rfl⟩, _, _, _, rfl, ⟨rfl, rfl, edge⟩, rfl, rfl⟩
    change ((refText name).reverse ++ passed).head?.any words.holds ≠ _ at edge
    rw [ends] at edge
    exact ⟨by simp [refText], by simpa using edge.symm, rfl⟩
  · rintro ⟨rfl, notWord, rfl⟩
    refine ⟨refText name, [], _, by simp, ⟨rfl, rfl⟩, [], [], _, rfl, ⟨rfl, rfl, ?_⟩, rfl, rfl⟩
    rw [ends, List.nil_append, notWord]
    exact Bool.noConfusion

/-- The search for a reference finds its text. -/
theorem mentions_of_search (wordly : name.getLast?.any words.holds = true) {text : Str}
    (found : ((refRe words name).search text).isSome = true) : Mentions words name text := by
  rcases search_isSome.mp found with ⟨groups, front, middle, back, rfl, reads⟩
  rcases (reads_refRe wordly).mp reads with ⟨rfl, notWord, -⟩
  exact ⟨front, back, rfl, notWord⟩

end Search

section Tokens

variable {idents : WordClass} {tokens more : List Token} {word front back : Str}

/-- No comment and no string begins or ends with the character, and it is within a line. -/
def Solid (c : Chr) : Prop := c ≠ quote ∧ c ≠ .char '#' ∧ c ≠ .char '/' ∧ c ≠ newline

instance (c : Chr) : Decidable (Solid c) := inferInstanceAs (Decidable (_ ∧ _))

/-- A solid word at the beginning of a token is one of code. -/
theorem exists_codeOf (lexed : Lexed idents (tokens ++ more)) (solid : ∀ c ∈ word, Solid c)
    (text : tokensText tokens = word ++ back) :
    ∃ later, tokens = codeOf word ++ later ∧ tokensText later = back := by
  induction word generalizing tokens with
  | nil => exact ⟨tokens, rfl, text⟩
  | cons c word ih =>
      rw [List.forall_mem_cons] at solid
      rcases tokens with _ | ⟨token, tokens⟩
      · cases text
      rw [tokensText_cons, List.cons_append] at text
      cases token with
      | code d =>
          rcases List.cons.inj text with ⟨rfl, others⟩
          rcases ih lexed.2 solid.2 others with ⟨later, rfl, back_eq⟩
          exact ⟨later, rfl, back_eq⟩
      | lineComment opener body =>
          rcases lexed.1.1 with rfl | rfl
          · exact absurd (List.cons.inj text).1.symm solid.1.2.1
          · exact absurd (List.cons.inj text).1.symm solid.1.2.2.1
      | blockComment body => exact absurd (List.cons.inj text).1.symm solid.1.2.2.1
      | string content => exact absurd (List.cons.inj text).1.symm solid.1.1

/-- A solid word that does not end with a comment or a string ends in it. -/
theorem infix_of_cut {token : Token} (notCode : ∀ c, token ≠ .code c)
    (fits : token.Fits idents (tokensText (tokens ++ more))) (solid : ∀ c ∈ word, Solid c)
    {cut : Str} (some : cut ≠ []) (ends : cut <:+ token.text)
    (text : word ++ back = cut ++ tokensText tokens) : word <:+: token.text := by
  rcases List.append_eq_append_iff.mp text with ⟨rest, cut_eq, -⟩ | ⟨rest, word_eq, tokens_eq⟩
  · rw [cut_eq] at ends
    exact (List.prefix_append word rest).isInfix.trans ends.isInfix
  · rcases rest with _ | ⟨d, rest⟩
    · rw [word_eq, List.append_nil]
      exact ends.isInfix
    · exfalso
      have lastMem {c : Chr} (last : token.text.getLast? = c) : c ∈ word := by
        rcases ends with ⟨start, start_eq⟩
        rw [← start_eq, List.getLast?_append_of_ne_nil start some] at last
        rw [word_eq]
        exact List.mem_append_left _ (List.mem_of_getLast? last)
      cases token with
      | code c => exact notCode c rfl
      | lineComment opener body =>
          have next : d = newline := by
            rcases fits.2.2 with nothing | atLine
            · rw [tokensText_append, tokens_eq] at nothing
              cases nothing
            · rw [tokensText_append, tokens_eq] at atLine
              exact Option.some.inj atLine
          have inside : d ∈ word := by
            rw [word_eq]
            exact List.mem_append_right _ List.mem_cons_self
          exact (solid d inside).2.2.2 next
      | blockComment body =>
          have slash : Chr.char '/' ∈ word := by
            have text_eq : (Token.blockComment body).text =
                (str "/*" ++ (body ++ str "*")) ++ [.char '/'] := by simp [Token.text, str]
            apply lastMem
            rw [text_eq, List.getLast?_concat]
          exact (solid _ slash).2.2.1 rfl
      | string content =>
          have isQuote : quote ∈ word := by
            apply lastMem
            exact List.getLast?_concat (l := quote :: lettersText content)
          exact (solid _ isQuote).1 rfl

/-- A solid word stands in a comment or a string, or in the code. -/
theorem split_of_text (lexed : Lexed idents (tokens ++ more)) (solid : ∀ c ∈ word, Solid c)
    (text : tokensText tokens = front ++ (word ++ back)) (nonempty : word ≠ []) :
    (∃ token ∈ tokens, (∀ c, token ≠ .code c) ∧ word <:+: token.text) ∨
      ∃ earlier later, tokens = earlier ++ (codeOf word ++ later) := by
  induction tokens generalizing front with
  | nil => simp [nonempty] at text
  | cons token tokens ih =>
      have whole := text
      rw [tokensText_cons] at text
      rcases List.append_eq_append_iff.mp text with
        ⟨later, front_eq, text'⟩ | ⟨cut, token_eq, text'⟩
      · rcases ih lexed.2 text' with ⟨other, otherMem, inside⟩ | ⟨earlier, later, rfl⟩
        · exact .inl ⟨other, List.mem_cons_of_mem _ otherMem, inside⟩
        · exact .inr ⟨token :: earlier, later, rfl⟩
      · rcases cut with _ | ⟨d, cut⟩
        · rcases exists_codeOf lexed.2 solid text'.symm with ⟨later, rfl, -⟩
          exact .inr ⟨[token], later, rfl⟩
        by_cases isCode : ∃ c, token = .code c
        · rcases isCode with ⟨c, rfl⟩
          rcases front with _ | ⟨e, front⟩
          · rcases exists_codeOf lexed solid whole with ⟨later, isWord, -⟩
            exact .inr ⟨[], later, isWord⟩
          · have length := congrArg List.length token_eq
            simp [Token.text] at length
        · have notCode : ∀ c, token ≠ .code c := fun c same => isCode ⟨c, same⟩
          exact .inl ⟨token, List.mem_cons_self, notCode, infix_of_cut notCode lexed.1 solid
            (List.cons_ne_nil d cut) ⟨front, token_eq.symm⟩ text'⟩

theorem references_of_singleton {name : Str} {token : Token} (tokenMem : token ∈ tokens)
    (notCode : ∀ c, token ≠ .code c) (references : References idents name [token]) :
    References idents name tokens := by
  generalize isToken : [token] = single at references
  cases references with
  | @named front dotGap nameGap back _ _ _ _ =>
      have codeMem : Token.code (.char '.') ∈ [token] := by
        rw [isToken]
        simp
      exact absurd (List.mem_singleton.mp codeMem).symm (notCode _)
  | inString stringMem inside lexed later =>
      rw [← isToken] at stringMem
      rw [← List.mem_singleton.mp stringMem] at tokenMem
      exact .inString tokenMem inside lexed later

/-- Where the text of a reference stands for nothing else, the tokens refer to the variable. -/
theorem references_of_mentions {words : WordClass} {name behind : Str}
    (lexed : Lexed idents (tokens ++ more)) (solid : ∀ c ∈ refText name, Solid c)
    (inside : .char '\x7d' ∉ refText name)
    (only : OnlyReferences idents words name tokens behind)
    (mentions : Mentions words name (tokensText tokens ++ .char '\x7d' :: behind)) :
    References idents name tokens := by
  rcases mentions with ⟨front, back, split, notWord⟩
  have nonempty : refText name ≠ [] := by simp [refText, str]
  have own : ∃ rest, tokensText tokens = front ++ (refText name ++ rest) := by
    rcases List.append_eq_append_iff.mp split with ⟨gap, -, later⟩ | ⟨start, text_eq, later⟩
    · exfalso
      rcases gap with _ | ⟨c, gap⟩
      · have first : Chr.char '\x7d' = .char 'v' := (List.cons.inj later).1
        exact absurd first (by decide)
      · exact only.behind ⟨gap, back, (List.cons.inj later).2, notWord⟩
    · rcases List.append_eq_append_iff.mp later with ⟨rest, rfl, -⟩ | ⟨rest, word_eq, rest_eq⟩
      · exact ⟨rest, text_eq⟩
      · rcases rest with _ | ⟨c, rest⟩
        · refine ⟨[], ?_⟩
          rw [text_eq, word_eq]
          simp
        · exfalso
          rw [word_eq, ← (List.cons.inj rest_eq).1] at inside
          exact inside (List.mem_append_right _ List.mem_cons_self)
  rcases own with ⟨rest, text_eq⟩
  rcases split_of_text lexed solid text_eq nonempty with
    ⟨token, tokenMem, notCode, within⟩ | ⟨earlier, later, tokens_eq⟩
  · exact references_of_singleton tokenMem notCode (only.other token tokenMem notCode within)
  · rcases only.code earlier later tokens_eq with ⟨apart, ends⟩
    have parts : codeOf (refText name) ++ later = codeOf (str "var") ++ ([] ++
        .code (.char '.') :: ([] ++ (codeOf name ++ later))) := by
      simp [codeOf, refText, str]
    rw [tokens_eq, parts]
    exact .named apart ends nofun nofun

end Tokens

end TerratestTags
