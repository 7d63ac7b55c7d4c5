import TelemetryPlatform.CwlSplit.Rows

/-!
# Re-ingestion takes one hop

What the transform puts back into its own delivery stream comes to it again. It
does not go round: every byte record the transform produces is UTF-8 text, no
UTF-8 text starts with the gzip magic, and a record without it is answered `Ok`
with its data unchanged. Reshaping is stable as well, since a row carries the
top-level `tool` that the classifier lets through.
-/

namespace CwlSplit

open Python Interaction

variable {rt : Runtime} {config : Config}

section Bytes

/-- No text starts with the gzip magic: its second byte would continue a character. -/
theorem isGzip_of_encode {text : Str} {bytes : Bytes} (encoded : encode text = .ok bytes) :
    isGzip bytes = false := by
  simp only [isGzip, decide_eq_false_iff_not]
  intro magic
  rcases bytes with _ | ⟨first, _ | ⟨second, rest⟩⟩
  · simp at magic
  · simp at magic
  · simp only [List.take_succ_cons, List.take_zero, List.cons.injEq, and_true] at magic
    rcases magic with ⟨rfl, rfl⟩
    have second := not_continuation_of_encode encoded (by decide)
    simp at second

end Bytes

section Idempotence

/-- The text of a row passes through the classifier. -/
theorem exists_passing_text {now : List Char} {message : Str} {rows : List Bytes}
    (reshaped : reshapeRecords rt config now message = .ok rows) :
    ∀ row ∈ rows, ∃ text, encode text = .ok row ∧ kindOf rt text = .passes := by
  intro row rowMem
  cases found : kindOf rt message with
  | unreadable error => simp [reshapeRecords_eq, found] at reshaped
  | passes =>
      simp only [reshapeRecords_eq, found] at reshaped
      cases encoded : encode message with
      | error error => simp [encoded, Except.map] at reshaped
      | ok original =>
          simp only [encoded, Except.map, Except.ok.injEq] at reshaped
          subst reshaped
          refine ⟨message, ?_, found⟩
          rw [encoded, List.mem_singleton.mp rowMem]
  | emf obj =>
      have named : (kindOf rt message).serviceName? = some (emfServiceName rt obj) := by
        simp only [found, Kind.serviceName?]
      rcases tool_of_reshaped named reshaped with ⟨_, tool, _, _, each⟩
      rcases each row rowMem with ⟨text, entries, encoded, loaded, toolFound⟩
      exact ⟨text, encoded, kindOf_of_tool loaded (by simp [toolFound])⟩
  | structured obj body =>
      have named : (kindOf rt message).serviceName? = some (claudeServiceName rt obj) := by
        simp only [found, Kind.serviceName?]
      rcases tool_of_reshaped named reshaped with ⟨_, tool, _, _, each⟩
      rcases each row rowMem with ⟨text, entries, encoded, loaded, toolFound⟩
      exact ⟨text, encoded, kindOf_of_tool loaded (by simp [toolFound])⟩

/-- A message that passes is re-ingested as it was received. -/
theorem reshapeRecords_of_passes (config : Config) (now : List Char) {message : Str}
    {original : Bytes}
    (passes : kindOf rt message = .passes) (encoded : encode message = .ok original) :
    reshapeRecords rt config now message = .ok [original] := by
  simp [reshapeRecords_eq, passes, encoded, Except.map]

/-- Every byte record for a message is the text of a row or of the message. -/
theorem exists_encode_of_contribution {now : List Char} {message : Str} {records : List Bytes}
    (contributed : contribution rt config now message = .ok records) :
    ∀ record ∈ records, ∃ text, encode text = .ok record := by
  intro record recordMem
  rw [contribution] at contributed
  cases reshaped : reshapeRecords rt config now message with
  | ok rows =>
      simp only [reshaped, Except.ok.injEq] at contributed
      subst contributed
      rcases exists_passing_text reshaped record recordMem with ⟨text, encoded, _⟩
      exact ⟨text, encoded⟩
  | error error =>
      simp only [reshaped] at contributed
      rcases bind_eq_ok.mp contributed with ⟨service, _, rest⟩
      rcases bind_eq_ok.mp rest with ⟨original, encoded, returned⟩
      cases returned
      exact ⟨message, List.mem_singleton.mp recordMem ▸ encoded⟩

end Idempotence

section Hop

/-- The answer to a record that is let through. -/
def unchanged (input : InputRecord) : OutputRecord := ⟨input.recordId, .ok, some input.data⟩

/-- A record that is not compressed is let through without a call. -/
theorem transformRecord_of_plain {input : InputRecord} {data : Bytes}
    (decoded : rt.b64decode input.data = .ok data) (plain : isGzip data = false) :
    transformRecord rt config input = .ret (unchanged input) := by
  simp [transformRecord, decoded, plain, Program.ofExcept, unchanged]

/-- A batch in which no record is compressed is let through without a call. -/
theorem handler_of_plain {inputs : List InputRecord}
    (plain : ∀ input ∈ inputs, ∃ data, rt.b64decode input.data = .ok data ∧ isGzip data = false) :
    handler rt config inputs = .ret (inputs.map unchanged) := by
  induction inputs with
  | nil => rfl
  | cons input inputs ih =>
      rcases plain input List.mem_cons_self with ⟨data, decoded, notGzip⟩
      have others := ih fun other otherMem => plain other (List.mem_cons_of_mem _ otherMem)
      simp only [handler] at others
      simp [handler, List.mapM_cons, transformRecord_of_plain decoded notGzip, others]

/-- In any batch, a record that is not compressed is answered at its place and without a call. -/
theorem handler_at_plain {before after : List InputRecord} {input : InputRecord} {data : Bytes}
    (decoded : rt.b64decode input.data = .ok data) (plain : isGzip data = false) :
    handler rt config (before ++ input :: after) = do
      let first ← handler rt config before
      let rest ← handler rt config after
      return first ++ unchanged input :: rest := by
  simp [handler, List.mapM_append, List.mapM_cons, transformRecord_of_plain decoded plain]

/--
The byte records produced for a message are not compressed, and the handler
answers each of them unchanged and without a call, in any batch; reshaping a row
again gives the row.
-/
theorem one_hop (rt : Runtime) (config : Config) (now : List Char) (message : Str) :
    (∀ records, contribution rt config now message = .ok records →
      ∀ record ∈ records, isGzip record = false ∧
        ∀ input : InputRecord, rt.b64decode input.data = .ok record →
          handler rt config [input] = .ret [unchanged input] ∧
            ∀ before after, handler rt config (before ++ input :: after) = do
              let first ← handler rt config before
              let rest ← handler rt config after
              return first ++ unchanged input :: rest) ∧
      ∀ rows, reshapeRecords rt config now message = .ok rows → ∀ row ∈ rows, ∃ text,
        encode text = .ok row ∧ (∀ other, encode other = .ok row → other = text) ∧
          ∀ later, reshapeRecords rt config later text = .ok [row] := by
  refine ⟨?_, ?_⟩
  · intro records contributed record recordMem
    rcases exists_encode_of_contribution contributed record recordMem with ⟨text, encoded⟩
    have notGzip : isGzip record = false := isGzip_of_encode encoded
    refine ⟨notGzip, ?_⟩
    intro input decoded
    refine ⟨?_, ?_⟩
    · apply handler_of_plain
      intro other otherMem
      rw [List.mem_singleton.mp otherMem]
      exact ⟨record, decoded, notGzip⟩
    · intro before after
      exact handler_at_plain decoded notGzip
  · intro rows reshaped row rowMem
    rcases exists_passing_text reshaped row rowMem with ⟨text, encoded, passes⟩
    refine ⟨text, encoded, ?_, ?_⟩
    · intro other otherEncoded
      exact encode_injective otherEncoded encoded
    · intro later
      exact reshapeRecords_of_passes config later passes encoded

namespace Sample

/-- A structured record that carries no time. -/
@[irreducible]
def structuredMessage : Str :=
  str ("\x7b\"resource\":\x7b\"service.name\":\"claude-code\"\x7d,\"attributes\":\x7b\x7d," ++
    "\"body\":\"x\"\x7d")

/-- The row of `structuredMessage` at a reading of the clock. -/
def structuredRow (now : String) : Bytes :=
  ("\x7b\"timestamp\":\"" ++ now ++ "\",\"tool\":\"claude-code\",\"event_type\":\"x\"," ++
    "\"payload\":\"\x7b\\\"resource_service_name\\\":\\\"claude-code\\\"," ++
    "\\\"otel_body\\\":\\\"x\\\"\x7d\"\x7d").toList.map fun c => UInt8.ofNat c.toNat

theorem reshapeRecords_structured :
    reshapeRecords Runtime.whole settings now structuredMessage =
      .ok [structuredRow "2026-07-17T00:00:00Z"] := by
  decide +kernel

end Sample

theorem one_hop_structured :
    ∃ text, encode text = .ok (Sample.structuredRow "2026-07-17T00:00:00Z") ∧
      ∀ later, reshapeRecords Runtime.whole Sample.settings later text =
        .ok [Sample.structuredRow "2026-07-17T00:00:00Z"] := by
  rcases (one_hop Runtime.whole Sample.settings Sample.now Sample.structuredMessage).2 _
    Sample.reshapeRecords_structured _ List.mem_cons_self with ⟨text, encoded, _, stable⟩
  exact ⟨text, encoded, stable⟩

end Hop

end CwlSplit
