import TelemetryPlatform.Library.HclRoles

/-!
# Documents of HCL

A document is a sequence of attributes and blocks, with white space and comments in
front of each. Its text is that of its tokens: characters of code, comments and
strings, where a string is made of characters, escapes and interpolations.

`Document` is the fragment without heredocs and template directives. Its conditions say
that the tokens are those of the text and that each attribute ends with its line unless
a bracket is open.
-/

namespace Hcl

open Python

section Tokens

/-- What a string is made of. -/
inductive Letter where
  | chr (c : Chr)
  | escape (text : Str)
  | interpolation (body : Str)
deriving DecidableEq

inductive Token where
  | code (c : Chr)
  | lineComment (opener body : Str)
  | blockComment (body : Str)
  | string (content : List Letter)
deriving DecidableEq

def isInterpolation : Letter → Bool
  | .interpolation _ => true
  | _ => false

def Letter.text : Letter → Str
  | .chr c => [c]
  | .escape text => text
  | .interpolation body => str "$\x7b" ++ (body ++ str "\x7d")

def lettersText (content : List Letter) : Str := content.flatMap Letter.text

def Token.text : Token → Str
  | .code c => [c]
  | .lineComment opener body => opener ++ body
  | .blockComment body => str "/*" ++ (body ++ str "*/")
  | .string content => quote :: (lettersText content ++ [quote])

def tokensText (tokens : List Token) : Str := tokens.flatMap Token.text

variable (idents : WordClass)

/-- What the place behind a text is in. -/
def after : List Context → Str → Str → List Context
  | contexts, [], _ => contexts
  | contexts, c :: text, rest => after (read idents contexts c (text ++ rest)).2 text rest

/-- The letter is what the text in front of some other begins with. -/
def Letter.Fits (rest : Str) : Letter → Prop
  | .chr c => c ≠ quote ∧ c ≠ .char '\\' ∧ c ≠ newline ∧
      (c = .char '$' ∨ c = .char '%' → rest.head? ≠ some (.char '\x7b'))
  | .escape text =>
      (∃ c ∈ str "nrt\"\\", text = [.char '\\', c]) ∨ text = str "$$\x7b" ∨ text = str "%%\x7b"
  | .interpolation body =>
      after idents [.interpolation 0] body (str "\x7d" ++ rest) = [.interpolation 0]

def LettersFit : List Letter → Str → Prop
  | [], _ => True
  | letter :: content, rest =>
      letter.Fits idents (lettersText content ++ rest) ∧ LettersFit content rest

/-- The token is what the text in front of some other begins with. -/
def Token.Fits (rest : Str) : Token → Prop
  | .code c => read idents [] c rest = (.code, [])
  | .lineComment opener body => (opener = str "#" ∨ opener = str "//") ∧ newline ∉ body ∧
      (rest = [] ∨ rest.head? = newline)
  | .blockComment body => ¬Contains (str "*/") (body ++ str "*")
  | .string content => LettersFit idents content (quote :: rest)

/-- The tokens are those of their text. -/
def Lexed : List Token → Prop
  | [] => True
  | token :: tokens => token.Fits idents (tokensText tokens) ∧ Lexed tokens

end Tokens

section Bodies

/-- The label of a block, with what is in front of it. -/
inductive Label where
  | quoted (gap : List Token) (content : List Letter)
  | bare (gap : List Token) (word : Str)

def codeOf (text : Str) : List Token := text.map .code

def Label.tokens : Label → List Token
  | .quoted gap content => gap ++ [.string content]
  | .bare gap word => gap ++ codeOf word

/-- A sequence of attributes and blocks. -/
inductive Body where
  | nil
  | attr (indent : List Token) (name : Str) (gap expr : List Token) (others : Body)
  | block (indent : List Token) (type : Str) (labels : List Label) (gap : List Token)
      (inner : Body) (close : List Token) (others : Body)

/-- A block up to its opening brace. -/
def headTokens (type : Str) (labels : List Label) (gap : List Token) : List Token :=
  codeOf type ++ (labels.flatMap Label.tokens ++ (gap ++ [.code (.char '\x7b')]))

/-- An attribute. -/
def attributeTokens (name : Str) (gap expr : List Token) : List Token :=
  codeOf name ++ (gap ++ .code (.char '=') :: expr)

namespace Body

def tokens : Body → List Token
  | .nil => []
  | .attr indent name gap expr others =>
      indent ++ (attributeTokens name gap expr ++ others.tokens)
  | .block indent type labels gap inner close others =>
      indent ++ (headTokens type labels gap ++
        (inner.tokens ++ (close ++ .code (.char '\x7d') :: others.tokens)))

def text (body : Body) : Str := tokensText body.tokens

def append : Body → Body → Body
  | .nil, later => later
  | .attr indent name gap expr others, later =>
      .attr indent name gap expr (others.append later)
  | .block indent type labels gap inner close others, later =>
      .block indent type labels gap inner close (others.append later)

end Body

end Bodies

section WellFormed

variable (idents : WordClass)

/-- White space or a comment. -/
def Token.isWhite : Token → Bool
  | .code c => isSpace c
  | .string _ => false
  | _ => true

/-- White space or a comment within a line. -/
def Token.isInline : Token → Bool
  | .code c => isSpace c && decide (c ≠ newline)
  | .blockComment _ => true
  | _ => false

def AllWhite (tokens : List Token) : Prop := ∀ token ∈ tokens, token.isWhite = true

def AllInline (tokens : List Token) : Prop := ∀ token ∈ tokens, token.isInline = true

/-- The number of open brackets behind a token, unless it closes none or ends the line outside of
all brackets. -/
def Token.depthAfter (depth : Nat) : Token → Option Nat
  | .code c =>
      if c = .char '(' ∨ c = .char '[' ∨ c = .char '\x7b' then some (depth + 1)
      else if c = .char ')' ∨ c = .char ']' ∨ c = .char '\x7d' then
        if depth = 0 then none else some (depth - 1)
      else if c = newline ∧ depth = 0 then none
      else some depth
  | _ => some depth

/-- An expression. -/
def IsExpr (expr : List Token) : Prop :=
  ¬AllWhite expr ∧ expr.foldlM Token.depthAfter 0 = some 0

def IsName (name : Str) : Prop := name ≠ [] ∧ ∀ c ∈ name, isIdentifier idents c = true

/-- The white space in front of an item, which has a line of its own unless it is the first. -/
def IsIndent (first : Bool) (indent : List Token) : Prop :=
  AllWhite indent ∧ (first = true ∨ .code newline ∈ indent)

def Label.WellFormed : Label → Prop
  | .quoted gap content => AllInline gap ∧ content.any isInterpolation = false
  | .bare gap word => AllInline gap ∧ gap ≠ [] ∧ IsName idents word

def Body.WellFormed (first : Bool) : Body → Prop
  | .nil => True
  | .attr indent name gap expr others =>
      IsIndent first indent ∧ IsName idents name ∧ AllInline gap ∧ IsExpr expr ∧
        others.WellFormed false
  | .block indent type labels gap inner close others =>
      IsIndent first indent ∧ IsName idents type ∧ (∀ label ∈ labels, label.WellFormed idents) ∧
        AllInline gap ∧ inner.WellFormed true ∧ AllWhite close ∧ others.WellFormed false

/-- A file of HCL. -/
structure Document where
  body : Body
  tail : List Token
  wellFormed : body.WellFormed idents true
  tailWhite : AllWhite tail
  lexed : Lexed idents (body.tokens ++ tail)

def Document.text {idents : WordClass} (document : Document idents) : Str :=
  tokensText (document.body.tokens ++ document.tail)

end WellFormed

section Decisions

variable (idents : WordClass)

deriving instance DecidableEq for Context

instance (rest : Str) : (letter : Letter) → Decidable (letter.Fits idents rest)
  | .chr _ => inferInstanceAs (Decidable (_ ∧ _ ∧ _ ∧ (_ → _)))
  | .escape _ => inferInstanceAs (Decidable (_ ∨ _ ∨ _))
  | .interpolation _ => inferInstanceAs (Decidable (_ = _))

instance decidableLettersFit : (content : List Letter) → (rest : Str) →
    Decidable (LettersFit idents content rest)
  | [], _ => inferInstanceAs (Decidable True)
  | _ :: content, rest =>
      have := decidableLettersFit content rest
      inferInstanceAs (Decidable (_ ∧ _))

instance (rest : Str) : (token : Token) → Decidable (token.Fits idents rest)
  | .code _ => inferInstanceAs (Decidable (_ = _))
  | .lineComment _ _ => inferInstanceAs (Decidable (_ ∧ _ ∧ _))
  | .blockComment _ => inferInstanceAs (Decidable (¬_))
  | .string _ => inferInstanceAs (Decidable (LettersFit idents _ _))

instance decidableLexed : (tokens : List Token) → Decidable (Lexed idents tokens)
  | [] => inferInstanceAs (Decidable True)
  | _ :: tokens =>
      have := decidableLexed tokens
      inferInstanceAs (Decidable (_ ∧ _))

instance (tokens : List Token) : Decidable (AllWhite tokens) :=
  inferInstanceAs (Decidable (∀ token ∈ tokens, _))

instance (tokens : List Token) : Decidable (AllInline tokens) :=
  inferInstanceAs (Decidable (∀ token ∈ tokens, _))

instance (expr : List Token) : Decidable (IsExpr expr) := inferInstanceAs (Decidable (_ ∧ _))

instance (name : Str) : Decidable (IsName idents name) := inferInstanceAs (Decidable (_ ∧ _))

instance (first : Bool) (indent : List Token) : Decidable (IsIndent first indent) :=
  inferInstanceAs (Decidable (_ ∧ _))

instance : (label : Label) → Decidable (label.WellFormed idents)
  | .quoted _ _ => inferInstanceAs (Decidable (_ ∧ _))
  | .bare _ _ => inferInstanceAs (Decidable (_ ∧ _ ∧ _))

instance decidableWellFormed : (first : Bool) → (body : Body) →
    Decidable (body.WellFormed idents first)
  | _, .nil => inferInstanceAs (Decidable True)
  | _, .attr _ _ _ _ others =>
      have := decidableWellFormed false others
      inferInstanceAs (Decidable (_ ∧ _ ∧ _ ∧ _ ∧ _))
  | _, .block _ _ _ _ inner _ others =>
      have := decidableWellFormed true inner
      have := decidableWellFormed false others
      inferInstanceAs (Decidable (_ ∧ _ ∧ _ ∧ _ ∧ _ ∧ _ ∧ _))

end Decisions

section Texts

variable {idents : WordClass}

@[simp]
theorem tokensText_nil : tokensText [] = [] := rfl

@[simp]
theorem tokensText_append (front back : List Token) :
    tokensText (front ++ back) = tokensText front ++ tokensText back := List.flatMap_append ..

@[simp]
theorem tokensText_cons (token : Token) (tokens : List Token) :
    tokensText (token :: tokens) = token.text ++ tokensText tokens := rfl

@[simp]
theorem tokensText_codeOf (text : Str) : tokensText (codeOf text) = text := by
  induction text with
  | nil => rfl
  | cons c text ih => exact congrArg (c :: ·) ih

@[simp]
theorem lettersText_nil : lettersText [] = [] := rfl

@[simp]
theorem lettersText_cons (letter : Letter) (content : List Letter) :
    lettersText (letter :: content) = letter.text ++ lettersText content := rfl

@[simp]
theorem Body.tokens_append (front back : Body) :
    (front.append back).tokens = front.tokens ++ back.tokens := by
  induction front with
  | nil => rfl
  | attr indent name gap expr others ih => simp [append, tokens, ih]
  | block indent type labels gap inner close others _ ih => simp [append, tokens, ih]

theorem lexed_append {front back : List Token} (lexed : Lexed idents (front ++ back)) :
    Lexed idents back := by
  induction front with
  | nil => exact lexed
  | cons token front ih => exact ih lexed.2

/-- A token is what the text from it on begins with. -/
theorem fits_of_lexed {front back : List Token} {token : Token}
    (lexed : Lexed idents (front ++ token :: back)) : token.Fits idents (tokensText back) :=
  (lexed_append lexed).1

theorem allWhite_newline : AllWhite (codeOf (str "\n")) := by decide

/-- A label in quotation marks that has none, behind white space. -/
def PlainLabel (label : Label) : Prop :=
  ∃ gap content, label = .quoted gap content ∧ tokensText gap ≠ [] ∧ AllSpace (tokensText gap) ∧
    lettersText content ≠ [] ∧ quote ∉ lettersText content

end Texts

end Hcl
