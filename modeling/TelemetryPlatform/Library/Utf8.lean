import TelemetryPlatform.Library.Python

/-!
# Facts about UTF-8

Encoding is injective, so that bytes name at most one text, and a byte that
continues a character never follows an ASCII byte or starts a text.
-/

namespace Python

theorem mapM_utf8_eq_some {text : Str} {pieces : List Bytes} :
    text.mapM Chr.utf8 = some pieces ↔
      ∃ literal : List Char, text = literal.map .char ∧
        pieces = literal.map String.utf8EncodeChar := by
  induction text generalizing pieces with
  | nil =>
      simp only [List.mapM_nil, Option.pure_def, Option.some.injEq]
      constructor
      · rintro rfl
        exact ⟨[], rfl, rfl⟩
      · rintro ⟨literal, same, rfl⟩
        simp [List.map_eq_nil_iff.mp same.symm]
  | cons c rest ih =>
      cases c with
      | surrogate unit =>
          simp only [List.mapM_cons, Chr.utf8, Option.bind_eq_bind, Option.bind_none, reduceCtorEq,
            false_iff, not_exists, not_and]
          intro literal same
          cases literal <;> cases same
      | char scalar =>
          simp only [List.mapM_cons, Chr.utf8, Option.bind_eq_bind, Option.bind_some,
            Option.pure_def, Option.bind_eq_some_iff, Option.some.injEq]
          constructor
          · rintro ⟨others, found, rfl⟩
            rcases ih.mp found with ⟨literal, rfl, rfl⟩
            exact ⟨scalar :: literal, rfl, rfl⟩
          · rintro ⟨literal, same, rfl⟩
            cases literal with
            | nil => cases same
            | cons first literal =>
                cases same
                exact ⟨_, ih.mpr ⟨literal, rfl, rfl⟩, rfl⟩

/-- The encoded texts and their bytes. -/
theorem encode_eq_ok_iff {text : Str} {bytes : Bytes} :
    encode text = .ok bytes ↔
      ∃ literal : List Char, text = literal.map .char ∧
        bytes = literal.flatMap String.utf8EncodeChar := by
  rw [encode]
  constructor
  · intro encoded
    split at encoded
    · next pieces found =>
        rcases mapM_utf8_eq_some.mp found with ⟨literal, text_eq, rfl⟩
        cases encoded
        exact ⟨literal, text_eq, (List.flatMap_def ..).symm⟩
    · cases encoded
  · rintro ⟨literal, text_eq, rfl⟩
    simp only [mapM_utf8_eq_some.mpr ⟨literal, text_eq, rfl⟩, List.flatMap_def]

/-- Two texts with the same bytes are the same text. -/
theorem encode_injective {left right : Str} {bytes : Bytes} (leftBytes : encode left = .ok bytes)
    (rightBytes : encode right = .ok bytes) : left = right := by
  rcases encode_eq_ok_iff.mp leftBytes with ⟨leftChars, rfl, rfl⟩
  rcases encode_eq_ok_iff.mp rightBytes with ⟨rightChars, rfl, same⟩
  have encoded : leftChars.utf8Encode = rightChars.utf8Encode := by
    simp only [List.utf8Encode, same]
  have strings : String.ofList leftChars = String.ofList rightChars := by
    apply String.toByteArray_inj.mp
    simp only [String.toByteArray_ofList, encoded]
  have chars := congrArg String.toList strings
  simp only [String.toList_ofList] at chars
  rw [chars]

/-- The first byte of a character is the whole of it or at least `0xc0`. -/
theorem utf8EncodeChar_cons (c : Char) :
    ∃ first rest, String.utf8EncodeChar c = first :: rest ∧
      (first.toNat < 0x80 ∧ rest = [] ∨ 0xc0 ≤ first.toNat) := by
  unfold String.utf8EncodeChar
  dsimp only
  split
  · refine ⟨_, _, rfl, Or.inl ⟨?_, rfl⟩⟩
    simp only [UInt8.toNat_ofNat']
    omega
  split
  · refine ⟨_, _, rfl, Or.inr ?_⟩
    simp only [UInt8.toNat_ofNat']
    omega
  split
  · refine ⟨_, _, rfl, Or.inr ?_⟩
    simp only [UInt8.toNat_ofNat']
    omega
  · refine ⟨_, _, rfl, Or.inr ?_⟩
    simp only [UInt8.toNat_ofNat']
    omega

/-- Behind an ASCII byte a text ends or a new character starts. -/
theorem not_continuation_of_encode {text : Str} {first second : UInt8} {rest : Bytes}
    (encoded : encode text = .ok (first :: second :: rest)) (ascii : first.toNat < 0x80) :
    second.toNat < 0x80 ∨ 0xc0 ≤ second.toNat := by
  rcases encode_eq_ok_iff.mp encoded with ⟨literal, rfl, bytes_eq⟩
  cases literal with
  | nil => cases bytes_eq
  | cons c literal =>
      rcases utf8EncodeChar_cons c with ⟨lead, tail, written, ⟨_, rfl⟩ | large⟩
      · cases literal with
        | nil => simp [written] at bytes_eq
        | cons c' literal =>
            rcases utf8EncodeChar_cons c' with ⟨lead', tail', written', head⟩
            simp only [List.flatMap_cons, written, written', List.cons_append, List.nil_append,
              List.cons.injEq] at bytes_eq
            rcases bytes_eq with ⟨_, rfl, _⟩
            rcases head with ⟨small, _⟩ | large
            · exact Or.inl small
            · exact Or.inr large
      · simp only [List.flatMap_cons, written, List.cons_append, List.cons.injEq] at bytes_eq
        rcases bytes_eq with ⟨rfl, _⟩
        omega

end Python
