import TelemetryPlatform.Copyability.CommonRows
import TelemetryPlatform.Library.Rollback

/-!
# Seeded rows are taken back

A row that was seeded is taken out again, and the file is as it was, the order of its
keys included. The zone id is put back before the rows are: that is no matter, since to
seed a row and to set the zone id of an account that has one do not interfere.
-/

namespace Copyability

open Python

variable {rt : Runtime} {spec : SeedSpec rt}

section Documents

theorem ofPython_eq_ok {α : Type} {result : Except Exc α} {value : α} :
    ofPython result = .ok value ↔ result = .ok value := by
  cases result with
  | error exc => exact iff_of_false (fun same => by cases same) (fun same => by cases same)
  | ok own =>
      constructor
      · intro same
        cases same
        rfl
      · intro same
        cases same
        rfl

/-- A seed adds its key to a dictionary that lacks it. -/
theorem addKey_eq_ok {container seeded : rt.Value} :
    addKey spec container = .ok seeded ↔ ∃ entries, container = .obj entries ∧
      dictGet? entries spec.key = none ∧ seeded = .obj (dictSet entries spec.key spec.value) := by
  constructor
  · intro added
    unfold addKey at added
    rcases bind_eq_ok.mp added with ⟨present, contained, rest⟩
    cases present with
    | true => cases rest
    | false =>
        cases container with
        | obj entries =>
            cases rest
            have absent : (dictGet? entries spec.key).isSome = false := Except.ok.inj contained
            exact ⟨entries, rfl, by simpa using absent, rfl⟩
        | _ => cases rest
  · rintro ⟨entries, rfl, absent, rfl⟩
    have contained : (Json.obj entries : rt.Value).contains spec.key = .ok false := by
      rw [Json.contains, absent]
      rfl
    rw [addKey, contained]
    rfl

theorem deleteKey_obj {entries : List (Str × rt.Value)}
    (present : (dictGet? entries spec.key).isSome) :
    deleteKey spec (.obj entries) = .ok (.obj (dictDel entries spec.key)) := by
  have contained : (Json.obj entries : rt.Value).contains spec.key = .ok true := by
    rw [Json.contains, present]
  rw [deleteKey, contained]
  rfl

/-- The documents a row can be seeded in. -/
theorem seedDoc_eq_ok {data seeded : rt.Value} :
    seedDoc spec data = .ok seeded ↔ ∃ entries, data = .obj entries ∧
      ((spec.parentKey = none ∧ dictGet? entries spec.key = none ∧
          seeded = .obj (dictSet entries spec.key spec.value)) ∨
        ∃ parentKey inner, spec.parentKey = some parentKey ∧
          dictGet? entries parentKey = some (.obj inner) ∧ dictGet? inner spec.key = none ∧
          seeded = .obj (dictSet entries parentKey
            (.obj (dictSet inner spec.key spec.value)))) := by
  rw [seedDoc]
  cases parent : spec.parentKey with
  | none =>
      dsimp only
      rw [addKey_eq_ok]
      simp
  | some parentKey =>
      dsimp only
      constructor
      · intro seeding
        cases data with
        | obj entries =>
            refine ⟨entries, rfl, Or.inr ?_⟩
            dsimp only at seeding
            split at seeding
            · next inner found =>
                rcases bind_eq_ok.mp seeding with ⟨container, added, rest⟩
                cases rest
                rcases addKey_eq_ok.mp added with ⟨own, same, absent, rfl⟩
                cases same
                exact ⟨parentKey, inner, rfl, found, absent, rfl⟩
            · cases seeding
        | _ => cases seeding
      · rintro ⟨entries, rfl, ⟨noParent, _⟩ | ⟨own, inner, same, found, absent, rfl⟩⟩
        · cases noParent
        · cases same
          have added := addKey_eq_ok.mpr ⟨inner, rfl, absent, rfl⟩
          dsimp only
          rw [found]
          dsimp only
          rw [added]
          rfl

/-- A seeded row is taken out. -/
theorem restoreDoc_seedDoc {data seeded : rt.Value} (seeding : seedDoc spec data = .ok seeded) :
    restoreDoc spec seeded = .ok data := by
  rcases seedDoc_eq_ok.mp seeding with
    ⟨entries, rfl, ⟨noParent, absent, rfl⟩ | ⟨parentKey, inner, parent, found, absent, rfl⟩⟩
  · have present : (dictGet? (dictSet entries spec.key spec.value) spec.key).isSome := by
      simp [dictGet?_dictSet]
    rw [restoreDoc, noParent]
    dsimp only
    rw [deleteKey_obj present, dictDel_dictSet absent]
  · have present : (dictGet? (dictSet inner spec.key spec.value) spec.key).isSome := by
      simp [dictGet?_dictSet]
    have foundThen : dictGet? (dictSet entries parentKey
        (.obj (dictSet inner spec.key spec.value))) parentKey =
          some (.obj (dictSet inner spec.key spec.value)) := by
      simp [dictGet?_dictSet]
    rw [restoreDoc, parent]
    dsimp only
    rw [foundThen]
    dsimp only
    rw [deleteKey_obj present, dictDel_dictSet absent]
    change Except.ok (Json.obj (dictSet (dictSet entries parentKey _) parentKey (.obj inner))) = _
    rw [dictSet_dictSet, dictSet_same found]

/-- The owner account has a zone id. -/
def Zoned (data : rt.Value) : Prop :=
  ∃ entries owner, data = .obj entries ∧ dictGet? entries dnsOwnerAccountId = some (.obj owner) ∧
    (dictGet? owner dnsOwnerZoneId).isSome

/-- The document with another zone id. -/
def withZone (zone : Str) (data : rt.Value) : rt.Value := (setZone data zone).toOption.getD data

theorem setZone_eq {entries owner : List (Str × rt.Value)} (zone : Str)
    (found : dictGet? entries dnsOwnerAccountId = some (.obj owner)) :
    setZone (.obj entries : rt.Value) zone = .ok (.obj (dictSet entries dnsOwnerAccountId
      (.obj (dictSet owner dnsOwnerZoneId (.str zone))))) := by
  unfold setZone Json.subscript
  dsimp only
  rw [found]
  rfl

theorem withZone_eq {entries owner : List (Str × rt.Value)} (zone : Str)
    (found : dictGet? entries dnsOwnerAccountId = some (.obj owner)) :
    withZone zone (.obj entries : rt.Value) = .obj (dictSet entries dnsOwnerAccountId
      (.obj (dictSet owner dnsOwnerZoneId (.str zone)))) := by
  rw [withZone, setZone_eq zone found]
  rfl

/-- A row is seeded in a document that has another zone id as it is in the document. -/
theorem seedDoc_withZone {data seeded : rt.Value} (zone : Str) (zoned : Zoned data)
    (seeding : seedDoc spec data = .ok seeded) :
    Zoned seeded ∧ seedDoc spec (withZone zone data) = .ok (withZone zone seeded) := by
  rcases zoned with ⟨own, owner, rfl, account, zoneId⟩
  have accountThere : (dictGet? own dnsOwnerAccountId).isSome := Option.isSome_of_eq_some account
  rcases seedDoc_eq_ok.mp seeding with
    ⟨entries, same, ⟨noParent, absent, rfl⟩ | ⟨parentKey, inner, parent, found, absent, rfl⟩⟩
  · cases same
    have different : dnsOwnerAccountId ≠ spec.key := by
      intro same
      rw [same, absent] at account
      cases account
    have accountThen : dictGet? (dictSet own spec.key spec.value) dnsOwnerAccountId =
        some (.obj owner) := by
      rw [dictGet?_dictSet, if_neg different.symm, account]
    refine ⟨⟨_, owner, rfl, accountThen, zoneId⟩, ?_⟩
    rw [withZone_eq zone account, withZone_eq zone accountThen]
    apply seedDoc_eq_ok.mpr
    refine ⟨_, rfl, Or.inl ⟨noParent, ?_, ?_⟩⟩
    · rw [dictGet?_dictSet, if_neg different, absent]
    · rw [dictSet_comm different accountThere]
  · cases same
    by_cases inOwner : parentKey = dnsOwnerAccountId
    · subst inOwner
      rw [account] at found
      cases found
      have different : dnsOwnerZoneId ≠ spec.key := by
        intro same
        rw [same, absent] at zoneId
        cases zoneId
      have accountThen : dictGet? (dictSet own dnsOwnerAccountId
          (.obj (dictSet owner spec.key spec.value))) dnsOwnerAccountId =
            some (.obj (dictSet owner spec.key spec.value)) := by
        rw [dictGet?_dictSet, if_pos rfl]
      have zoneIdThen : (dictGet? (dictSet owner spec.key spec.value) dnsOwnerZoneId).isSome := by
        rw [dictGet?_dictSet, if_neg different.symm]
        exact zoneId
      refine ⟨⟨_, _, rfl, accountThen, zoneIdThen⟩, ?_⟩
      rw [withZone_eq zone account, withZone_eq zone accountThen]
      apply seedDoc_eq_ok.mpr
      refine ⟨_, rfl, Or.inr ⟨dnsOwnerAccountId, dictSet owner dnsOwnerZoneId (.str zone), parent,
        ?_, ?_, ?_⟩⟩
      · rw [dictGet?_dictSet, if_pos rfl]
      · rw [dictGet?_dictSet, if_neg different, absent]
      · rw [dictSet_dictSet, dictSet_dictSet, dictSet_comm different zoneId]
    · have accountThen : dictGet? (dictSet own parentKey
          (.obj (dictSet inner spec.key spec.value))) dnsOwnerAccountId = some (.obj owner) := by
        rw [dictGet?_dictSet, if_neg inOwner, account]
      refine ⟨⟨_, owner, rfl, accountThen, zoneId⟩, ?_⟩
      rw [withZone_eq zone account, withZone_eq zone accountThen]
      apply seedDoc_eq_ok.mpr
      refine ⟨_, rfl, Or.inr ⟨parentKey, inner, parent, ?_, absent, ?_⟩⟩
      · rw [dictGet?_dictSet, if_neg (Ne.symm inOwner), found]
      · rw [dictSet_comm (Ne.symm inOwner) accountThere]

end Documents

section Files

variable {accountsJson : PosixPath} {common seeded : Common rt}

@[simp]
theorem write_write (common : Common rt) (file : PosixPath) (data other : rt.Value) :
    (common.write file data).write file other = common.write file other :=
  Function.update_idem _ _ common

theorem write_comm (common : Common rt) {file other : PosixPath} (different : file ≠ other)
    (data new : rt.Value) :
    (common.write file data).write other new = (common.write other new).write file data :=
  Function.update_comm different _ _ common

theorem write_same {file : PosixPath} {data : rt.Value}
    (content : common file = some (.parsed data)) : common.write file data = common := by
  unfold Common.write
  rw [← content]
  exact Function.update_eq_self file common

@[simp]
theorem write_self (common : Common rt) (file : PosixPath) (data : rt.Value) :
    common.write file data file = some (.parsed data) := Function.update_self ..

theorem write_of_ne (common : Common rt) {file other : PosixPath} (different : other ≠ file)
    (data : rt.Value) : common.write file data other = common other :=
  Function.update_of_ne different _ common

/-- The common files with another zone id in `accounts.json`. -/
def Common.withZone (accountsJson : PosixPath) (zone : Str) (common : Common rt) : Common rt :=
  match common accountsJson with
  | some (.parsed data) => common.write accountsJson (Copyability.withZone zone data)
  | _ => common

/-- The zone id can be put back. -/
def Common.Zoned (accountsJson : PosixPath) (common : Common rt) : Prop :=
  ∃ data, common accountsJson = some (.parsed data) ∧ Copyability.Zoned data

theorem withZone_parsed {data : rt.Value} (zone : Str)
    (content : common accountsJson = some (.parsed data)) :
    common.withZone accountsJson zone =
      common.write accountsJson (Copyability.withZone zone data) := by
  rw [Common.withZone, content]

theorem restoreDnsOwnerZoneId_zoned (zone : Str) (zoned : common.Zoned accountsJson) :
    restoreDnsOwnerZoneId accountsJson zone common = .ok (common.withZone accountsJson zone) := by
  rcases zoned with ⟨data, content, entries, owner, rfl, account, zoneId⟩
  have contained : (Json.obj entries : rt.Value).contains dnsOwnerAccountId = .ok true := by
    rw [Json.contains, account]
    rfl
  rw [withZone_parsed zone content, withZone_eq zone account]
  unfold restoreDnsOwnerZoneId loadDoc
  rw [content]
  dsimp only
  rw [ok_bind, contained, setZone_eq zone account]
  rfl

theorem readRow_parsed {verb missingRemedy malformedRemedy : String} {file : PosixPath}
    {data : rt.Value} :
    readRow verb missingRemedy malformedRemedy common file = .ok data ↔
      common file = some (.parsed data) := by
  unfold readRow
  rcases common file with _ | ⟨own⟩ | text | exc
  · simp
  · simp
  · simp
  · simp

theorem loadDoc_parsed {file : PosixPath} {data : rt.Value} :
    loadDoc common file = .ok data ↔ common file = some (.parsed data) := by
  unfold loadDoc
  rcases common file with _ | ⟨own⟩ | text | exc
  · simp
  · simp
  · simp
  · simp

/-- What `_seed_common_row` does to the files. -/
theorem seedCommonRow_eq_ok : seedCommonRow spec common = .ok seeded ↔
    ∃ data row, common spec.jsonFile = some (.parsed data) ∧ seedDoc spec data = .ok row ∧
      seeded = common.write spec.jsonFile row := by
  rw [seedCommonRow]
  constructor
  · intro seeding
    rcases bind_eq_ok.mp seeding with ⟨data, read, rest⟩
    rcases bind_eq_ok.mp rest with ⟨row, added, written⟩
    cases written
    exact ⟨data, row, readRow_parsed.mp read, added, rfl⟩
  · rintro ⟨data, row, content, added, rfl⟩
    rw [readRow_parsed.mpr content, ok_bind, added]
    rfl

theorem restoreCommonRow_eq_ok {data row : rt.Value}
    (content : common spec.jsonFile = some (.parsed data))
    (restored : restoreDoc spec data = .ok row) :
    restoreCommonRow spec common = .ok (common.write spec.jsonFile row) := by
  rw [restoreCommonRow, readRow_parsed.mpr content, ok_bind, restored]
  rfl

/-- A seeded row is taken out of the files, also when the zone id was put back before. -/
theorem restoreCommonRow_seedCommonRow (zone : Str) (zoned : common.Zoned accountsJson)
    (seeding : seedCommonRow spec common = .ok seeded) :
    seeded.Zoned accountsJson ∧
      restoreCommonRow spec (seeded.withZone accountsJson zone) =
        .ok (common.withZone accountsJson zone) := by
  rcases seedCommonRow_eq_ok.mp seeding with ⟨data, row, content, added, rfl⟩
  rcases zoned with ⟨accounts, accountsContent, zoned⟩
  by_cases same : accountsJson = spec.jsonFile
  · rw [← same] at content ⊢
    rw [content] at accountsContent
    cases accountsContent
    rcases seedDoc_withZone zone zoned added with ⟨zonedThen, addedThen⟩
    have written : common.write accountsJson row accountsJson = some (.parsed row) :=
      write_self common accountsJson row
    refine ⟨⟨row, written, zonedThen⟩, ?_⟩
    rw [withZone_parsed zone written, withZone_parsed zone content, write_write]
    have contentThen : common.write accountsJson (Copyability.withZone zone row) spec.jsonFile =
        some (.parsed (Copyability.withZone zone row)) := by
      rw [← same]
      exact write_self common accountsJson _
    rw [restoreCommonRow_eq_ok contentThen (restoreDoc_seedDoc addedThen), ← same, write_write]
  · have untouched : common.write spec.jsonFile row accountsJson = some (.parsed accounts) :=
      (write_of_ne common same row).trans accountsContent
    refine ⟨⟨accounts, untouched, zoned⟩, ?_⟩
    rw [withZone_parsed zone untouched, withZone_parsed zone accountsContent]
    have contentThen : (common.write spec.jsonFile row).write accountsJson
        (Copyability.withZone zone accounts) spec.jsonFile = some (.parsed row) := by
      rw [write_of_ne _ (Ne.symm same), write_self]
    have contentBefore : common.write accountsJson (Copyability.withZone zone accounts)
        spec.jsonFile = some (.parsed data) := by
      rw [write_of_ne _ (Ne.symm same), content]
    rw [restoreCommonRow_eq_ok contentThen (restoreDoc_seedDoc added),
      write_comm common (Ne.symm same), write_write, write_same contentBefore]

end Files

end Copyability
