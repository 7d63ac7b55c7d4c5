import TelemetryPlatform.Library.Lexing
import TelemetryPlatform.Library.Text

/-!
# The projected partitions of the data lake

`references/data-lake` derives the location template of the Athena partition projection
from the prefix under which Firehose delivers: the namespaces of Firehose are replaced by
the placeholders of Athena, and the date format is read from the timestamp namespace.

A Firehose prefix and an Athena template are read as the same pieces, or a query looks
elsewhere than the delivery. `Uniform` says of the prefix when they are: all its timestamps
have one format, it spells no placeholder of Athena itself, and no other namespace is in it.
-/

namespace DataLake

open Python Lexing

section Module

def bang : Chr := .char '!'
def opening : Chr := .char '\x7b'
def closing : Chr := .char '\x7d'
def dollar : Chr := .char '$'

/-- `local.firehose_tool_query_token`. -/
def firehoseToolQueryToken : Str := str "!\x7bpartitionKeyFromQuery:tool\x7d"

def timestampOpening : Str := str "!\x7btimestamp:"

/-- `local.firehose_dt_timestamp_token`. -/
def firehoseDtTimestampToken (format : Str) : Str := timestampOpening ++ format ++ [closing]

/-- What `!\{timestamp:([^}]+)\}` captures at the beginning of a text. -/
def matchTimestamp (text : Str) : Option Str := do
  let after ← text.dropPrefix? timestampOpening
  let format := beforeFirst closing after
  if format ≠ [] ∧ format ++ [closing] <+: after then some format else none

/-- `local.firehose_dt_timestamp_format`, the capture of the first match. -/
def firehoseDtTimestampFormat (firehosePrefix : Str) : Option Str :=
  firehosePrefix.tails.findSome? matchTimestamp

/-- The validations of `var.firehose_prefix`. -/
structure Accepted (firehosePrefix : Str) : Prop where
  nonempty : firehosePrefix ≠ []
  tool : Contains firehoseToolQueryToken firehosePrefix
  timestamp : (firehoseDtTimestampFormat firehosePrefix).isSome = true

def toolPlaceholder : Str := str "$\x7btool\x7d"
def dtPlaceholder : Str := str "$\x7bdt\x7d"

/-- The prefix with the placeholders for its namespaces. -/
def projectedPath (format firehosePrefix : Str) : Str :=
  replace (firehoseDtTimestampToken format) dtPlaceholder (by simp [firehoseDtTimestampToken])
    (replace firehoseToolQueryToken toolPlaceholder (by decide) firehosePrefix)

/-- `local.glue_projection_location_template`, where the prefix has a format. -/
def glueProjectionLocationTemplate (bucketName firehosePrefix : Str) : Option Str :=
  (firehoseDtTimestampFormat firehosePrefix).map fun format =>
    str "s3://" ++ bucketName ++ str "/" ++ projectedPath format firehosePrefix

end Module

section Services

/-- A field of the path of a partition. -/
inductive Field where
  | tool
  | time (format : Str)
deriving DecidableEq

/-- The tool of a record, and what the formats make of the instant of its delivery. -/
structure Delivery where
  tool : Str
  format : Str → Str

def Delivery.text (delivery : Delivery) : Field → Str
  | .tool => delivery.tool
  | .time format => delivery.format format

theorem matchTimestamp_eq_some {text format : Str} (found : matchTimestamp text = some format) :
    format ≠ [] ∧ closing ∉ format ∧ firehoseDtTimestampToken format <+: text := by
  unfold matchTimestamp at found
  cases dropped : text.dropPrefix? timestampOpening with
  | none =>
      rw [dropped] at found
      cases found
  | some after =>
      rw [dropped] at found
      simp only [Option.bind_eq_bind, Option.bind_some] at found
      split at found
      · next matched =>
          cases found
          refine ⟨matched.1, not_mem_beforeFirst, ?_⟩
          rw [dropPrefix?_eq_some.mp dropped, firehoseDtTimestampToken, List.append_assoc]
          exact (List.prefix_append_right_inj _).mpr matched.2
      · cases found

/-- The namespaces that Firehose expands. -/
def firehose : Lexer Chr Field where
  tokenAt text :=
    if firehoseToolQueryToken <+: text then some .tool else (matchTimestamp text).map .time
  spell
    | .tool => firehoseToolQueryToken
    | .time format => firehoseDtTimestampToken format
  spell_begins found := by
    split at found
    · next begins =>
        cases found
        exact begins
    · rcases Option.map_eq_some_iff.mp found with ⟨format, matched, rfl⟩
      exact (matchTimestamp_eq_some matched).2.2
  spell_ne_nil
    | .tool => by decide
    | .time format => by simp [firehoseDtTimestampToken]

/-- The placeholders that Athena expands, where the date has a format. -/
def athena (format : Str) : Lexer Chr Field where
  tokenAt text :=
    if toolPlaceholder <+: text then some .tool
    else if dtPlaceholder <+: text then some (.time format) else none
  spell
    | .tool => toolPlaceholder
    | .time _ => dtPlaceholder
  spell_begins found := by
    split at found
    · next begins =>
        cases found
        exact begins
    · split at found
      · next begins =>
          cases found
          exact begins
      · cases found
  spell_ne_nil
    | .tool => List.cons_ne_nil _ _
    | .time _ => List.cons_ne_nil _ _

theorem firehose_tokenAt (text : Str) : firehose.tokenAt text =
    if firehoseToolQueryToken <+: text then some .tool
    else (matchTimestamp text).map .time := rfl

theorem athena_tokenAt (format text : Str) : (athena format).tokenAt text =
    if toolPlaceholder <+: text then some .tool
    else if dtPlaceholder <+: text then some (.time format) else none := rfl

/-- The prefix that Firehose writes for a record. -/
def deliveredPrefix (delivery : Delivery) (firehosePrefix : Str) : Str :=
  fill delivery.text (firehose.scan firehosePrefix)

/-- The location that Athena reads for a record. -/
def projectedLocation (delivery : Delivery) (format template : Str) : Str :=
  fill delivery.text ((athena format).scan template)

/-- A namespace of Firehose is in the text. -/
def HasNamespace (text : Str) : Prop :=
  ∃ body, closing ∉ body ∧ Contains (bang :: opening :: (body ++ [closing])) text

end Services

section Property

/-- `^[a-zA-Z0-9._-]+$`, the validation of the enumerated tools. -/
def ValidTool (tool : Str) : Prop :=
  tool ≠ [] ∧ ∀ c ∈ tool, (0x30 ≤ c.code ∧ c.code ≤ 0x39) ∨ (0x41 ≤ c.code ∧ c.code ≤ 0x5a) ∨
    (0x61 ≤ c.code ∧ c.code ≤ 0x7a) ∨ c ∈ str "._-"

/-- A character of the name of a bucket. -/
def IsBucketChr (c : Chr) : Prop :=
  (0x30 ≤ c.code ∧ c.code ≤ 0x39) ∨ (0x61 ≤ c.code ∧ c.code ≤ 0x7a) ∨ c ∈ str ".-"

instance (c : Chr) : Decidable (IsBucketChr c) := inferInstanceAs (Decidable (_ ∨ _))

/-- `^[a-z0-9][a-z0-9.-]{1,61}[a-z0-9]$`, the validation of the bucket. -/
structure ValidBucket (bucketName : Str) : Prop where
  long : 3 ≤ bucketName.length
  short : bucketName.length ≤ 63
  plain : ∀ c ∈ bucketName, IsBucketChr c
  first : ∀ c ∈ bucketName.head?, c ∉ str ".-"
  last : ∀ c ∈ bucketName.getLast?, c ∉ str ".-"

/-- Athena looks for the records of a tool and an instant where Firehose delivers them, and no
namespace is left in the template. -/
def Agrees (bucketName firehosePrefix : Str) : Prop :=
  ∃ format template, firehoseDtTimestampFormat firehosePrefix = some format ∧
    glueProjectionLocationTemplate bucketName firehosePrefix = some template ∧
    (∀ delivery : Delivery, ValidTool delivery.tool →
      projectedLocation delivery format template =
        str "s3://" ++ bucketName ++ str "/" ++ deliveredPrefix delivery firehosePrefix) ∧
    ¬HasNamespace template

/-- The prefix has no namespaces but the tool's and those of one timestamp format, and no text
that is a placeholder or a namespace by chance. -/
structure Uniform (firehosePrefix : Str) : Prop where
  same : ∀ format, .token (.time format) ∈ firehose.scan firehosePrefix →
    firehoseDtTimestampFormat firehosePrefix = some format
  whole : ∀ format, .token (.time format) ∈ firehose.scan firehosePrefix →
    ¬Contains firehoseToolQueryToken (firehoseDtTimestampToken format)
  plain : ∀ placeholder ∈ [toolPlaceholder, dtPlaceholder],
    ¬placeholder.map Piece.chr <:+: firehose.scan firehosePrefix
  closed : ∀ before after,
    firehose.scan firehosePrefix = before ++ .chr bang :: .chr opening :: after →
    ∀ piece ∈ after, ∃ c, piece = .chr c ∧ c ≠ closing

end Property

section Scans

variable {bucketName firehosePrefix format path : Str}

/-- What is in front of the path in a location. -/
def location (bucketName : Str) : Str := str "s3://" ++ bucketName ++ str "/"

theorem not_mem_location (bucket : ValidBucket bucketName) {c : Chr}
    (foreign : c ∉ str "s3://") (noBucket : ¬IsBucketChr c) : c ∉ location bucketName := by
  intro inside
  simp only [location, List.mem_append] at inside
  rcases inside with (scheme | name) | slash
  · exact foreign scheme
  · exact noBucket (bucket.plain c name)
  · rw [show str "/" = [Chr.char '/'] from rfl, List.mem_singleton] at slash
    rw [slash] at foreign
    exact absurd (by decide) foreign

/-- A placeholder begins with a dollar sign. -/
theorem athena_tokenAt_of_ne {c : Chr} {rest : Str} (other : c ≠ dollar) :
    (athena format).tokenAt (c :: rest) = none := by
  have noTool : ¬toolPlaceholder <+: c :: rest := fun begins =>
    other (List.cons_prefix_cons.mp begins).1.symm
  have noDt : ¬dtPlaceholder <+: c :: rest := fun begins =>
    other (List.cons_prefix_cons.mp begins).1.symm
  rw [athena_tokenAt, if_neg noTool, if_neg noDt]

theorem athena_avoids {front rest : Str} (plain : dollar ∉ front) :
    (athena format).Avoids front rest := by
  apply Lexer.avoids_of_forall
  intro before c behind split
  apply athena_tokenAt_of_ne
  rintro rfl
  exact plain (by simp [split])

theorem scan_location (bucket : ValidBucket bucketName) (path : Str) :
    (athena format).scan (location bucketName ++ path) =
      (location bucketName).map Piece.chr ++ (athena format).scan path :=
  Lexer.scan_append (athena_avoids (not_mem_location bucket (by decide) (by decide)))

theorem hasNamespace_location (bucket : ValidBucket bucketName) :
    HasNamespace (location bucketName ++ path) ↔ HasNamespace path := by
  constructor
  · rintro ⟨body, plain, inside⟩
    have noBang : bang ∉ location bucketName := not_mem_location bucket (by decide) (by decide)
    exact ⟨body, plain, infix_of_infix_append noBang inside⟩
  · rintro ⟨body, plain, inside⟩
    exact ⟨body, plain, inside.trans (List.suffix_append _ _).isInfix⟩

/-- The fillings of the deliveries of valid tools, where no format makes nothing of an instant. -/
def Fills (filling : Field → Str) : Prop :=
  ∃ delivery : Delivery, ValidTool delivery.tool ∧ (∀ format, delivery.format format ≠ []) ∧
    filling = delivery.text

/-- A delivery of a tool with one letter. -/
def delivery (letter : Char) (format : Str → Char) : Delivery where
  tool := [.char letter]
  format text := [.char (format text)]

theorem fills_delivery {letter : Char} (isLetter : letter = 'a' ∨ letter = 'b')
    (format : Str → Char) : Fills (delivery letter format).text := by
  refine ⟨_, ⟨List.cons_ne_nil _ _, ?_⟩, fun text => List.cons_ne_nil _ _, rfl⟩
  intro c cMem
  rw [List.mem_singleton.mp cMem]
  rcases isLetter with rfl | rfl
  · decide
  · decide

theorem separates : Separates Fills := by
  refine ⟨⟨_, fills_delivery (Or.inl rfl) fun _ => 'a'⟩, ?_, ?_, ?_⟩
  · rintro _ ⟨delivery, valid, written, rfl⟩ field
    cases field with
    | tool => exact valid.1
    | time format => exact written format
  · intro field c
    by_cases same : c = .char 'a'
    · refine ⟨_, fills_delivery (Or.inr rfl) fun _ => 'b', ?_⟩
      cases field <;> simp [Delivery.text, delivery, same]
    · refine ⟨_, fills_delivery (Or.inl rfl) fun _ => 'a', ?_⟩
      cases field <;> simp [Delivery.text, delivery, Ne.symm same]
  · intro left right different
    cases left with
    | tool =>
        cases right with
        | tool => exact absurd rfl different
        | time format =>
            refine ⟨_, fills_delivery (Or.inl rfl) fun _ => 'b', ?_⟩
            simp [Delivery.text, delivery]
    | time format =>
        cases right with
        | tool =>
            refine ⟨_, fills_delivery (Or.inl rfl) fun _ => 'b', ?_⟩
            simp [Delivery.text, delivery]
        | time other =>
            refine ⟨_, fills_delivery (Or.inl rfl) fun text =>
              if text = format then 'a' else 'b', ?_⟩
            have apart : other ≠ format := fun same => different (by rw [same])
            simp [Delivery.text, delivery, apart]

/-- Template and prefix agree exactly when they are read as the same pieces. -/
theorem agrees_iff (bucket : ValidBucket bucketName)
    (hasFormat : firehoseDtTimestampFormat firehosePrefix = some format) :
    Agrees bucketName firehosePrefix ↔
      (athena format).scan (projectedPath format firehosePrefix) = firehose.scan firehosePrefix ∧
        ¬HasNamespace (projectedPath format firehosePrefix) := by
  have template : glueProjectionLocationTemplate bucketName firehosePrefix =
      some (location bucketName ++ projectedPath format firehosePrefix) := by
    rw [glueProjectionLocationTemplate, hasFormat]
    rfl
  have located : ∀ d : Delivery, projectedLocation d format
      (location bucketName ++ projectedPath format firehosePrefix) = location bucketName ++
        fill d.text ((athena format).scan (projectedPath format firehosePrefix)) := by
    intro d
    rw [projectedLocation, scan_location bucket, fill_append, fill_map_chr]
  constructor
  · rintro ⟨_, _, format_eq, template_eq, agree, none⟩
    rw [hasFormat, Option.some.injEq] at format_eq
    rw [template, Option.some.injEq] at template_eq
    subst format_eq template_eq
    rw [hasNamespace_location bucket] at none
    refine ⟨eq_of_fill separates ?_, none⟩
    rintro _ ⟨d, valid, _, rfl⟩
    have same := agree d valid
    rw [located] at same
    exact List.append_cancel_left same
  · rintro ⟨same, none⟩
    refine ⟨format, _, hasFormat, template, fun d valid => ?_, ?_⟩
    · rw [located, same]
      rfl
    · rw [hasNamespace_location bucket]
      exact none

end Scans

section Necessary

variable {firehosePrefix format : Str}

theorem time_of_mem_scan {text other : Str}
    (tokenMem : .token (.time other) ∈ (athena format).scan text) : other = format := by
  rcases Lexer.exists_tokenAt tokenMem with ⟨behind, found⟩
  rw [athena_tokenAt] at found
  split at found
  · cases found
  · split at found
    · cases found
      rfl
    · cases found

/-- A template that is scanned spells no placeholder with its characters. -/
theorem plain_of_scan {text placeholder : Str}
    (isPlaceholder : placeholder ∈ [toolPlaceholder, dtPlaceholder]) :
    ¬placeholder.map Piece.chr <:+: (athena format).scan text := by
  rintro ⟨before, after, split⟩
  have nonempty : ∃ rest, placeholder = dollar :: rest := by
    rcases List.mem_pair.mp isPlaceholder with rfl | rfl
    · exact ⟨_, rfl⟩
    · exact ⟨_, rfl⟩
  rcases nonempty with ⟨rest, rfl⟩
  rw [List.append_assoc, List.map_cons, List.cons_append] at split
  have none := Lexer.tokenAt_of_scan split.symm
  rw [fill_append, fill_map_chr, ← List.cons_append] at none
  rw [athena_tokenAt] at none
  rcases List.mem_pair.mp isPlaceholder with same | same
  · rw [same, if_pos (List.prefix_append _ _)] at none
    cases none
  · rw [same] at none
    split at none
    · cases none
    · rw [if_pos (List.prefix_append _ _)] at none
      cases none

/-- A namespace that is opened in front of a closing brace. -/
theorem hasNamespace_of_mem {before after : Str} (closes : closing ∈ after) :
    HasNamespace (before ++ bang :: opening :: after) := by
  rcases beforeFirst_cases closing after with none | ⟨rest, split⟩
  · rw [none] at closes
    exact absurd closes not_mem_beforeFirst
  · refine ⟨beforeFirst closing after, not_mem_beforeFirst, before, rest, ?_⟩
    simp only [List.append_assoc, List.cons_append, List.nil_append]
    rw [← split]

theorem closing_mem_fill {pieces : List (Piece Chr Field)} {piece : Piece Chr Field}
    (pieceMem : piece ∈ pieces) (closes : ∀ c, piece = .chr c → c = closing) :
    closing ∈ fill (athena format).spell pieces := by
  rcases List.append_of_mem pieceMem with ⟨before, after, rfl⟩
  rw [fill_append]
  apply List.mem_append_right
  cases piece with
  | chr c =>
      rw [closes c rfl, fill_chr]
      exact List.mem_cons_self
  | token field =>
      rw [fill_token]
      apply List.mem_append_left
      cases field with
      | tool => exact (by decide : closing ∈ toolPlaceholder)
      | time other => exact (by decide : closing ∈ dtPlaceholder)

/-- Everything behind an opened namespace is a character that does not close it. -/
theorem closed_of_scan {before after : List (Piece Chr Field)} {path : Str}
    (scanned : (athena format).scan path = before ++ .chr bang :: .chr opening :: after)
    (none : ¬HasNamespace path) : ∀ piece ∈ after, ∃ c, piece = .chr c ∧ c ≠ closing := by
  intro piece pieceMem
  by_contra closes
  apply none
  rw [← (athena format).fill_scan path, scanned, fill_append, fill_chr, fill_chr]
  apply hasNamespace_of_mem
  apply closing_mem_fill pieceMem
  rintro c rfl
  by_contra other
  exact closes ⟨c, rfl, other⟩

/-- A text that ends with its only closing brace is not found in front of it. -/
theorem not_begins_of_closing {text word behind : Str} (plain : closing ∉ text)
    (plainWord : closing ∉ word) (different : text ≠ word) :
    ¬word ++ [closing] <+: text ++ closing :: behind := by
  rintro ⟨more, same⟩
  rw [List.append_assoc] at same
  have front := congrArg (beforeFirst closing) same
  rw [List.singleton_append, beforeFirst_append plainWord, beforeFirst_append plain] at front
  exact different front.symm

/-- The token of the tool without its closing brace. -/
def toolBody : Str := str "!\x7bpartitionKeyFromQuery:tool"

theorem firehoseToolQueryToken_eq : firehoseToolQueryToken = toolBody ++ [closing] := by decide

theorem closing_not_mem_toolBody : closing ∉ toolBody := by decide

/-- The formats that are read have no closing brace. -/
theorem closing_not_mem_format (tokenMem : .token (.time format) ∈ firehose.scan firehosePrefix) :
    closing ∉ timestampOpening ++ format := by
  rcases Lexer.exists_tokenAt tokenMem with ⟨behind, found⟩
  rw [firehose_tokenAt] at found
  split at found
  · cases found
  · rcases Option.map_eq_some_iff.mp found with ⟨other, matched, same⟩
    cases same
    rw [List.mem_append, not_or]
    exact ⟨by decide, (matchTimestamp_eq_some matched).2.1⟩

/-- A timestamp that contains the token of the tool ends with it. -/
theorem exists_front (plain : closing ∉ timestampOpening ++ format)
    (contained : Contains firehoseToolQueryToken (firehoseDtTimestampToken format)) :
    ∃ front, timestampOpening ++ format = bang :: opening :: front ++ toolBody := by
  rcases contained with ⟨before, after, split⟩
  have whole : (before ++ toolBody) ++ closing :: after =
      (timestampOpening ++ format) ++ [closing] := by
    rw [firehoseDtTimestampToken, firehoseToolQueryToken_eq] at split
    simpa using split
  have same : before ++ toolBody = timestampOpening ++ format := by
    rcases List.append_eq_append_iff.mp whole with ⟨more, body, rest⟩ | ⟨more, body, rest⟩
    · cases more with
      | nil => simpa using body.symm
      | cons c more =>
          rw [List.cons_append] at rest
          have closes : c = closing := (List.cons.inj rest).1.symm
          apply absurd _ plain
          rw [body, closes]
          simp
    · cases more with
      | nil => simpa using body
      | cons c more =>
          have lengths := congrArg List.length rest
          simp at lengths
  have begins := congrArg (List.take 3) same
  have opened : (timestampOpening ++ format).take 3 = [bang, opening, .char 't'] := rfl
  rw [opened] at begins
  match before, begins with
  | [], begins => exact absurd begins (by decide)
  | [c], begins =>
      have second := (List.cons.inj (List.cons.inj begins).2).1
      exact absurd second (by decide)
  | c :: d :: front, begins =>
      rcases List.cons.inj begins with ⟨first, later⟩
      rw [first, (List.cons.inj later).1] at same
      exact ⟨front, same.symm⟩

/-- No token of the tool begins in front of one that ends a text with its only closing brace. -/
theorem avoids_toolQueryToken {front behind : Str} (plain : closing ∉ front)
    {nonempty : firehoseToolQueryToken ≠ []} :
    (literal firehoseToolQueryToken nonempty).Avoids front (firehoseToolQueryToken ++ behind) := by
  apply Lexer.avoids_of_forall
  intro before c rest split
  rw [tokenAt_literal, firehoseToolQueryToken_eq]
  have plainText : closing ∉ c :: rest ++ toolBody := by
    rw [List.mem_append, not_or]
    refine ⟨fun inside => plain ?_, closing_not_mem_toolBody⟩
    rw [split]
    exact List.mem_append_right _ inside
  have different : c :: rest ++ toolBody ≠ toolBody := by
    intro same
    have lengths := congrArg List.length same
    rw [List.length_append, List.length_cons] at lengths
    omega
  have absent : ¬toolBody ++ [closing] <+: c :: rest ++ toolBody ++ closing :: behind :=
    not_begins_of_closing plainText closing_not_mem_toolBody different
  simpa using absent

/-- No timestamp of a prefix that agrees contains the token of the tool. -/
theorem whole_of_none (none : ¬HasNamespace (projectedPath format firehosePrefix))
    (tokenMem : .token (.time format) ∈ firehose.scan firehosePrefix) :
    ¬Contains firehoseToolQueryToken (firehoseDtTimestampToken format) := by
  intro contained
  rcases exists_front (closing_not_mem_format tokenMem) contained with ⟨front, body⟩
  let projected := replace firehoseToolQueryToken toolPlaceholder (by decide) firehosePrefix
  -- the token of the tool is gone, and the timestamps with it
  have absent : ¬firehoseToolQueryToken <:+: projected :=
    not_infix_replace (by decide) (by decide) firehosePrefix
  have kept : projectedPath format firehosePrefix = projected :=
    replace_eq_self fun inside => absent (contained.trans inside)
  apply none
  rw [kept]
  rcases List.append_of_mem tokenMem with ⟨before, after, split⟩
  have spelled : firehosePrefix = fill firehose.spell before ++
      bang :: (opening :: front ++ (firehoseToolQueryToken ++ fill firehose.spell after)) := by
    rw [← firehose.fill_scan firehosePrefix, split, fill_append, fill_token]
    change _ ++ (timestampOpening ++ format ++ [closing] ++ _) = _
    rw [body, firehoseToolQueryToken_eq]
    simp
  have plain : closing ∉ bang :: opening :: front := by
    intro inside
    apply closing_not_mem_format tokenMem
    rw [body]
    exact List.mem_append_left _ inside
  have replaced : projected = replace firehoseToolQueryToken toolPlaceholder (by decide)
      (fill firehose.spell before) ++ bang :: opening :: (front ++ (toolPlaceholder ++
        replace firehoseToolQueryToken toolPlaceholder (by decide)
          (fill firehose.spell after))) := by
    have apart : projected = replace firehoseToolQueryToken toolPlaceholder (by decide)
        (fill firehose.spell before) ++ replace firehoseToolQueryToken toolPlaceholder (by decide)
          (bang :: (opening :: front ++ (firehoseToolQueryToken ++
              fill firehose.spell after))) := by
      simp only [projected]
      rw [spelled]
      exact replace_boundary (by decide) _ _
    rw [apart, ← List.cons_append, ← List.cons_append, replace_append (avoids_toolQueryToken plain),
      replace_found]
    rfl
  rw [replaced]
  apply hasNamespace_of_mem
  apply List.mem_append_right
  exact List.mem_append_left _ (by decide)

end Necessary

section Sufficient

variable {firehosePrefix format : Str} {before after : List (Piece Chr Field)}

/-- The texts after the first replacement. -/
def halfway : Field → Str
  | .tool => toolPlaceholder
  | .time format => firehoseDtTimestampToken format

/-- No token of the tool begins in a timestamp that does not contain one. -/
theorem avoids_timestamp (plain : closing ∉ timestampOpening ++ format)
    (whole : ¬Contains firehoseToolQueryToken (firehoseDtTimestampToken format)) (rest : Str)
    {nonempty : firehoseToolQueryToken ≠ []} :
    (literal firehoseToolQueryToken nonempty).Avoids (firehoseDtTimestampToken format) rest := by
  apply Lexer.avoids_of_forall
  intro before c behind split
  rw [tokenAt_literal, firehoseToolQueryToken_eq]
  have ends : ∃ text, c :: behind = text ++ [closing] ∧
      timestampOpening ++ format = before ++ text := by
    rcases List.eq_nil_or_concat (c :: behind) with impossible | ⟨text, last, concat⟩
    · cases impossible
    · rw [List.concat_eq_append] at concat
      rw [concat, firehoseDtTimestampToken, ← List.append_assoc] at split
      rcases List.append_inj' split rfl with ⟨front, last_eq⟩
      refine ⟨text, ?_, front⟩
      rw [concat, (List.cons.inj last_eq).1]
  rcases ends with ⟨text, text_eq, front⟩
  have plainText : closing ∉ text := fun inside => plain (by
    rw [front]
    exact List.mem_append_right _ inside)
  have different : text ≠ toolBody := by
    rintro rfl
    apply whole
    rw [firehoseDtTimestampToken, front, List.append_assoc, firehoseToolQueryToken_eq]
    exact (List.suffix_append before _).isInfix
  have absent : ¬toolBody ++ [closing] <+: text ++ closing :: rest :=
    not_begins_of_closing plainText closing_not_mem_toolBody different
  rw [← List.cons_append, text_eq, List.append_assoc]
  exact absent

/-- The first replacement is the one of the tokens of the tool. -/
theorem replace_tool (uniform : Uniform firehosePrefix)
    (split : firehose.scan firehosePrefix = before ++ after) :
    replace firehoseToolQueryToken toolPlaceholder (by decide) (fill firehose.spell after) =
      fill halfway after := by
  induction after generalizing before with
  | nil => rfl
  | cons piece after ih =>
      have rest := @ih (before ++ [piece]) (by simp [split])
      cases piece with
      | chr c =>
          have none := Lexer.tokenAt_of_scan split
          have absent : ¬firehoseToolQueryToken <+: c :: fill firehose.spell after := by
            intro begins
            rw [firehose_tokenAt, if_pos begins] at none
            cases none
          rw [fill_chr, replace_other absent, rest, fill_chr]
      | token field =>
          have tokenMem : .token field ∈ firehose.scan firehosePrefix := by simp [split]
          rw [fill_token, fill_token]
          cases field with
          | tool => exact replace_found.trans (by rw [rest]; rfl)
          | time other =>
              have avoids : (literal firehoseToolQueryToken (by decide)).Avoids
                  (firehoseDtTimestampToken other) (fill firehose.spell after) :=
                avoids_timestamp (closing_not_mem_format tokenMem) (uniform.whole other tokenMem) _
              exact (replace_append avoids).trans (by rw [rest]; rfl)

/-- No namespace begins at a character, whatever texts the tokens have that begin with no opening
brace. -/
theorem not_begins_opened {filling : Field → Str}
    (heads : ∀ field, ∃ c rest, filling field = c :: rest ∧ c ≠ opening)
    (uniform : Uniform firehosePrefix) {c : Chr} {word : Str}
    (split : firehose.scan firehosePrefix = before ++ .chr c :: after) (closes : closing ∈ word) :
    ¬bang :: opening :: word <+: c :: fill filling after := by
  intro begins
  rcases List.cons_prefix_cons.mp begins with ⟨rfl, opened⟩
  cases after with
  | nil => cases List.prefix_nil.mp opened
  | cons piece after =>
      cases piece with
      | token field =>
          rcases heads field with ⟨d, rest, filled, other⟩
          rw [fill_token, filled, List.cons_append] at opened
          exact other (List.cons_prefix_cons.mp opened).1.symm
      | chr d =>
          rw [fill_chr] at opened
          rcases List.cons_prefix_cons.mp opened with ⟨rfl, inside⟩
          have characters := uniform.closed before after split
          have member := inside.subset closes
          rw [fill, List.mem_flatMap] at member
          rcases member with ⟨piece, pieceMem, cMem⟩
          rcases characters piece pieceMem with ⟨e, rfl, other⟩
          exact other (List.mem_singleton.mp cMem).symm

/-- The second replacement is the one of the timestamps. -/
theorem replace_timestamp (uniform : Uniform firehosePrefix)
    (hasFormat : firehoseDtTimestampFormat firehosePrefix = some format)
    (split : firehose.scan firehosePrefix = before ++ after)
    {nonempty : firehoseDtTimestampToken format ≠ []} :
    replace (firehoseDtTimestampToken format) dtPlaceholder nonempty (fill halfway after) =
      fill (athena format).spell after := by
  induction after generalizing before with
  | nil => rfl
  | cons piece after ih =>
      have rest := @ih (before ++ [piece]) (by simp [split])
      cases piece with
      | chr c =>
          have heads : ∀ field, ∃ c rest, halfway field = c :: rest ∧ c ≠ opening := by
            intro field
            cases field with
            | tool => exact ⟨_, _, rfl, by decide⟩
            | time other => exact ⟨_, _, rfl, by decide⟩
          have absent : ¬firehoseDtTimestampToken format <+: c :: fill halfway after :=
            not_begins_opened heads uniform split (List.mem_append_right _ List.mem_cons_self)
          rw [fill_chr, replace_other absent, rest, fill_chr]
      | token field =>
          rw [fill_token, fill_token]
          cases field with
          | tool =>
              have avoids : (literal (firehoseDtTimestampToken format) nonempty).Avoids
                  toolPlaceholder (fill halfway after) := by
                apply Lexer.avoids_of_forall
                intro front c behind front_eq
                rw [tokenAt_literal]
                intro begins
                have isBang : bang = c := (List.cons_prefix_cons.mp begins).1
                have member : c ∈ toolPlaceholder := by simp [front_eq]
                rw [← isBang] at member
                exact absurd member (by decide)
              exact (replace_append avoids).trans (by rw [rest]; rfl)
          | time other =>
              have same := uniform.same other (by simp [split])
              rw [hasFormat, Option.some.injEq] at same
              subst same
              exact replace_found.trans (by rw [rest]; rfl)

theorem projectedPath_eq (uniform : Uniform firehosePrefix)
    (hasFormat : firehoseDtTimestampFormat firehosePrefix = some format) :
    projectedPath format firehosePrefix =
      fill (athena format).spell (firehose.scan firehosePrefix) := by
  have whole : firehose.scan firehosePrefix = [] ++ firehose.scan firehosePrefix := rfl
  have first := replace_tool uniform whole
  rw [firehose.fill_scan] at first
  rw [projectedPath, first, replace_timestamp uniform hasFormat whole]

/-- Characters that are no dollar sign are characters of the pieces. -/
theorem exists_of_begins {word : Str} (plain : dollar ∉ word)
    (begins : word <+: fill (athena format).spell after) :
    ∃ rest, after = word.map Piece.chr ++ rest := by
  induction word generalizing after with
  | nil => exact ⟨after, rfl⟩
  | cons c word ih =>
      rcases not_or.mp (mt List.mem_cons.mpr plain) with ⟨other, plain⟩
      cases after with
      | nil => cases List.prefix_nil.mp begins
      | cons piece after =>
          cases piece with
          | chr d =>
              rw [fill_chr] at begins
              rcases List.cons_prefix_cons.mp begins with ⟨rfl, later⟩
              rcases ih plain later with ⟨rest, rfl⟩
              exact ⟨rest, rfl⟩
          | token field =>
              have spelled : ∃ text, (athena format).spell field = dollar :: text := by
                cases field with
                | tool => exact ⟨_, rfl⟩
                | time other => exact ⟨_, rfl⟩
              rcases spelled with ⟨text, spelled⟩
              rw [fill_token, spelled, List.cons_append] at begins
              exact absurd (List.cons_prefix_cons.mp begins).1.symm other

/-- No placeholder begins at a character. -/
theorem not_begins_placeholder (uniform : Uniform firehosePrefix) {c : Chr} {placeholder : Str}
    (isPlaceholder : placeholder ∈ [toolPlaceholder, dtPlaceholder])
    (split : firehose.scan firehosePrefix = before ++ .chr c :: after) :
    ¬placeholder <+: c :: fill (athena format).spell after := by
  intro begins
  have parts : ∃ word, placeholder = dollar :: word ∧ dollar ∉ word := by
    rcases List.mem_pair.mp isPlaceholder with rfl | rfl
    · exact ⟨_, rfl, by decide⟩
    · exact ⟨_, rfl, by decide⟩
  rcases parts with ⟨word, rfl, plain⟩
  rcases List.cons_prefix_cons.mp begins with ⟨rfl, inside⟩
  rcases exists_of_begins plain inside with ⟨rest, rfl⟩
  apply uniform.plain _ isPlaceholder
  rw [split]
  exact ⟨before, rest, by simp⟩

/-- The template is read as the pieces of the prefix. -/
theorem scan_fill (uniform : Uniform firehosePrefix)
    (hasFormat : firehoseDtTimestampFormat firehosePrefix = some format)
    (split : firehose.scan firehosePrefix = before ++ after) :
    (athena format).scan (fill (athena format).spell after) = after := by
  induction after generalizing before with
  | nil => rfl
  | cons piece after ih =>
      have rest := @ih (before ++ [piece]) (by simp [split])
      cases piece with
      | chr c =>
          have none : (athena format).tokenAt (c :: fill (athena format).spell after) = none := by
            rw [athena_tokenAt, if_neg (not_begins_placeholder uniform (by simp) split),
              if_neg (not_begins_placeholder uniform (by simp) split)]
          rw [fill_chr, Lexer.scan_chr none, rest]
      | token field =>
          have found : (athena format).tokenAt ((athena format).spell field ++
              fill (athena format).spell after) = some field := by
            cases field with
            | tool =>
                change (athena format).tokenAt (toolPlaceholder ++ _) = _
                rw [athena_tokenAt, if_pos (List.prefix_append _ _)]
            | time other =>
                have same := uniform.same other (by simp [split])
                rw [hasFormat, Option.some.injEq] at same
                subst same
                have noTool : ¬toolPlaceholder <+: dtPlaceholder ++
                    fill (athena format).spell after := by
                  intro begins
                  have third := (List.cons_prefix_cons.mp (List.cons_prefix_cons.mp
                    (List.cons_prefix_cons.mp begins).2).2).1
                  exact absurd third (by decide)
                change (athena format).tokenAt (dtPlaceholder ++ _) = _
                rw [athena_tokenAt, if_neg noTool, if_pos (List.prefix_append _ _)]
          rw [fill_token, Lexer.scan_token found, rest]

/-- No namespace is left in the template. -/
theorem not_hasNamespace (uniform : Uniform firehosePrefix)
    (split : firehose.scan firehosePrefix = before ++ after) :
    ¬HasNamespace (fill (athena format).spell after) := by
  have heads : ∀ field, ∃ c rest, (athena format).spell field = c :: rest ∧ c ≠ opening := by
    intro field
    cases field with
    | tool => exact ⟨_, _, rfl, by decide⟩
    | time other => exact ⟨_, _, rfl, by decide⟩
  induction after generalizing before with
  | nil =>
      rintro ⟨body, _, inside⟩
      cases List.infix_nil.mp inside
  | cons piece after ih =>
      have rest := @ih (before ++ [piece]) (by simp [split])
      rintro ⟨body, plain, inside⟩
      cases piece with
      | chr c =>
          rw [fill_chr] at inside
          rcases List.infix_cons_iff.mp inside with begins | inside
          · exact not_begins_opened heads uniform split (by simp) begins
          · exact rest ⟨body, plain, inside⟩
      | token field =>
          rw [fill_token] at inside
          have noBang : bang ∉ (athena format).spell field := by
            cases field with
            | tool => exact (by decide : bang ∉ toolPlaceholder)
            | time other => exact (by decide : bang ∉ dtPlaceholder)
          exact rest ⟨body, plain, infix_of_infix_append noBang inside⟩

end Sufficient

namespace Sample

def bucketName : Str := str "lake"

theorem validBucket : ValidBucket bucketName :=
  ⟨by decide, by decide, by decide +kernel, by decide, by decide⟩

def date : Str := str "yyyy-MM-dd"

/-- The default of `var.firehose_prefix`. -/
def firehosePrefix : Str :=
  str "raw/tool=!\x7bpartitionKeyFromQuery:tool\x7d/dt=!\x7btimestamp:yyyy-MM-dd\x7d/"

/-- A prefix with a second timestamp. -/
def hourly : Str := firehosePrefix ++ str "hour=!\x7btimestamp:HH\x7d/"

theorem format_eq : firehoseDtTimestampFormat firehosePrefix = some date := by decide +kernel

theorem hourly_eq : firehoseDtTimestampFormat hourly = some date := by decide +kernel

theorem accepted : Accepted firehosePrefix :=
  ⟨List.cons_ne_nil _ _, by decide +kernel, by rw [format_eq]; rfl⟩

theorem accepted_hourly : Accepted hourly :=
  ⟨List.cons_ne_nil _ _, by decide +kernel, by rw [hourly_eq]; rfl⟩

theorem scan_eq : firehose.scan firehosePrefix = (str "raw/tool=").map .chr ++ .token .tool ::
    ((str "/dt=").map .chr ++ .token (.time date) :: [.chr (.char '/')]) := by decide +kernel

theorem uniform : Uniform firehosePrefix := by
  have only : ∀ format, .token (.time format) ∈ firehose.scan firehosePrefix → format = date := by
    intro format tokenMem
    rw [scan_eq] at tokenMem
    simpa using tokenMem
  have noBang : .chr bang ∉ firehose.scan firehosePrefix := by decide +kernel
  refine ⟨?_, ?_, ?_, ?_⟩
  · intro format tokenMem
    rw [format_eq, only format tokenMem]
  · intro format tokenMem
    rw [only format tokenMem]
    decide +kernel
  · decide +kernel
  · intro before after split
    apply absurd _ noBang
    rw [split]
    simp

end Sample

section Projection

variable {firehosePrefix : Str}

/--
For every prefix that the validations accept: Athena looks for the records of every tool and
instant in the location where Firehose delivers them, and no namespace is left in the template,
exactly when the prefix is uniform.
-/
theorem projection_agrees_iff (accepted : Accepted firehosePrefix) :
    (∀ bucketName, ValidBucket bucketName → Agrees bucketName firehosePrefix) ↔
      Uniform firehosePrefix := by
  rcases Option.isSome_iff_exists.mp accepted.timestamp with ⟨format, hasFormat⟩
  constructor
  · intro agrees
    have bucket := Sample.validBucket
    rcases (agrees_iff bucket hasFormat).mp (agrees _ bucket) with ⟨same, none⟩
    refine ⟨?_, ?_, ?_, ?_⟩
    · intro other tokenMem
      rw [← same] at tokenMem
      rw [hasFormat, time_of_mem_scan tokenMem]
    · intro other tokenMem
      have format_eq : other = format := by
        rw [← same] at tokenMem
        exact time_of_mem_scan tokenMem
      rw [format_eq] at tokenMem ⊢
      exact whole_of_none none tokenMem
    · intro placeholder isPlaceholder
      rw [← same]
      exact plain_of_scan isPlaceholder
    · intro before after split
      rw [← same] at split
      exact closed_of_scan split none
  · intro uniform bucketName bucket
    have whole : firehose.scan firehosePrefix = [] ++ firehose.scan firehosePrefix := rfl
    rw [agrees_iff bucket hasFormat, projectedPath_eq uniform hasFormat]
    exact ⟨scan_fill uniform hasFormat whole, not_hasNamespace uniform whole⟩

/-- The default prefix agrees with its projection. -/
theorem projection_agrees_sample : Accepted Sample.firehosePrefix ∧
    ∀ bucketName, ValidBucket bucketName → Agrees bucketName Sample.firehosePrefix :=
  ⟨Sample.accepted, (projection_agrees_iff Sample.accepted).mpr Sample.uniform⟩

/-- A prefix with a second timestamp is accepted, and its projection leaves a namespace as it is. -/
theorem not_agrees_hourly : Accepted Sample.hourly ∧ ValidBucket Sample.bucketName ∧
    ¬Agrees Sample.bucketName Sample.hourly := by
  refine ⟨Sample.accepted_hourly, Sample.validBucket, ?_⟩
  rw [agrees_iff Sample.validBucket Sample.hourly_eq]
  rintro ⟨same, _⟩
  have tokenMem : .token (.time (str "HH")) ∈ firehose.scan Sample.hourly := by decide +kernel
  rw [← same] at tokenMem
  exact absurd (time_of_mem_scan tokenMem) (by decide)

end Projection

end DataLake
