import TelemetryPlatform.Library.Dict
import TelemetryPlatform.Library.JsonText

/-!
# What documents hand down to their parts

A property of documents is hereditary when every item and every member of a
document that has it has it too. What a program picks out of a document that was
read, however deep, then has the property without a walk through the document:
that it can be written and read back, that its strings can be encoded, and that
it nests less deeply than the whole.
-/

namespace Python

namespace Json

variable {Float : Type}

/-- `holds` passes from a document to its parts, and with it `ofText` to the strings and keys. -/
structure Hereditary (holds : Json Float → Prop) (ofText : Str → Prop) : Prop where
  null : holds .null
  str : ∀ text, holds (.str text) ↔ ofText text
  item : ∀ items, holds (.arr items) → ∀ item ∈ items, holds item
  member : ∀ entries, holds (.obj entries) → ∀ entry ∈ entries, ofText entry.1 ∧ holds entry.2

namespace Hereditary

variable {holds : Json Float → Prop} {ofText : Str → Prop}

theorem getD_null (hereditary : Hereditary holds ofText) {entries : List (Str × Json Float)}
    (each : ∀ entry ∈ entries, ofText entry.1 ∧ holds entry.2) (key : Str) :
    holds ((dictGet? entries key).getD .null) := by
  cases found : dictGet? entries key with
  | none => exact hereditary.null
  | some value => exact (each _ (mem_of_dictGet? found)).2

end Hereditary

theorem encodableItems_iff {items : List (Json Float)} :
    Encodable.encodableItems items ↔ ∀ item ∈ items, item.Encodable := by
  induction items with
  | nil => simp [Encodable.encodableItems]
  | cons item rest ih => simp [Encodable.encodableItems, ih]

theorem encodableMembers_iff {entries : List (Str × Json Float)} :
    Encodable.encodableMembers entries ↔
      ∀ entry ∈ entries, Python.Encodable entry.1 ∧ entry.2.Encodable := by
  induction entries with
  | nil => simp [Encodable.encodableMembers]
  | cons entry rest ih => simp [Encodable.encodableMembers, ih, and_assoc]

theorem hereditary_encodable :
    Hereditary (Encodable : Json Float → Prop) Python.Encodable where
  null := trivial
  str := fun _ => Iff.rfl
  item := fun _ encodable => encodableItems_iff.mp encodable
  member := fun _ encodable => encodableMembers_iff.mp encodable

/-- The parts of a document nest less deeply than the document. -/
theorem hereditary_depth {limit : Nat} (positive : 1 ≤ limit) :
    Hereditary (fun value : Json Float => value.depth + 1 ≤ limit) (fun _ => True) where
  null := by simpa [depth] using positive
  str := by simpa [depth] using positive
  item := by
    intro items within item itemMem
    simp only [depth] at within
    have each := depthItems_le_iff.mp (Nat.le_refl (depth.depthItems items)) item itemMem
    omega
  member := by
    intro entries within entry entryMem
    simp only [depth] at within
    have each := depthEntries_le_iff.mp (Nat.le_refl (depth.depthEntries entries)) entry entryMem
    exact ⟨trivial, by omega⟩

/-- The members of an object nest less deeply than the object. -/
theorem depth_member (entries : List (Str × Json Float)) :
    ∀ entry ∈ entries, True ∧ entry.2.depth + 1 ≤ (obj entries).depth := by
  intro entry entryMem
  have each := depthEntries_le_iff.mp (Nat.le_refl (depth.depthEntries entries)) entry entryMem
  simp only [depth]
  exact ⟨trivial, by omega⟩

theorem encodable_dictWrites {writes : List (Str × Json Float)}
    (each : ∀ write ∈ writes, Python.Encodable write.1 ∧ write.2.Encodable) :
    (obj (dictWrites [] writes)).Encodable := by
  apply encodableMembers_iff.mpr
  intro entry entryMem
  exact each entry (mem_writes_of_mem_dictWrites entryMem)

theorem depth_obj_le {entries : List (Str × Json Float)} {limit : Nat} (positive : 1 ≤ limit)
    (each : ∀ entry ∈ entries, entry.2.depth + 1 ≤ limit) : (obj entries).depth ≤ limit := by
  have members : depth.depthEntries entries ≤ limit - 1 := by
    apply depthEntries_le_iff.mpr
    intro entry entryMem
    have shallow := each entry entryMem
    omega
  simp only [depth]
  omega

theorem depth_dictWrites_le {writes : List (Str × Json Float)} {limit : Nat}
    (positive : 1 ≤ limit) (each : ∀ write ∈ writes, write.2.depth + 1 ≤ limit) :
    (obj (dictWrites [] writes)).depth ≤ limit := by
  apply depth_obj_le positive
  intro entry entryMem
  exact each entry (mem_writes_of_mem_dictWrites entryMem)

/-- Replacing a member by one that nests no deeper makes a document no deeper. -/
theorem depth_dictSet_le {entries : List (Str × Json Float)} {key : Str} {old new : Json Float}
    (found : dictGet? entries key = some old) (shallower : new.depth ≤ old.depth) :
    (obj (dictSet entries key new)).depth ≤ (obj entries).depth := by
  have positive : 1 ≤ (obj entries).depth := by
    simp only [depth]
    omega
  apply depth_obj_le positive
  intro entry entryMem
  rcases mem_of_mem_dictSet entryMem with rfl | kept
  · have within := (depth_member entries _ (mem_of_dictGet? found)).2
    simp only at within ⊢
    omega
  · exact (depth_member entries entry kept).2

/-- Repeating an item of a list makes it no deeper. -/
theorem depth_arr_append_le {items again : List (Json Float)} (repeated : ∀ item ∈ again,
    item ∈ items) :
    (arr (items ++ again)).depth ≤ (arr items).depth := by
  have each := depthItems_le_iff.mp (Nat.le_refl (depth.depthItems items))
  have within : depth.depthItems (items ++ again) ≤ depth.depthItems items := by
    apply depthItems_le_iff.mpr
    intro item itemMem
    rcases List.mem_append.mp itemMem with old | new
    · exact each item old
    · exact each item (repeated item new)
  simp only [depth]
  omega

end Json

namespace Runtime

variable {rt : Runtime}

theorem readsBack_dictWrites {writes : List (Str × rt.Value)}
    (each : ∀ write ∈ writes, rt.ReadsBack write.2) :
    rt.ReadsBack (.obj (dictWrites [] writes)) := by
  refine ⟨nodup_keys_dictWrites_nil writes, ?_⟩
  apply membersReadBack_iff.mpr
  intro entry entryMem
  exact each entry (mem_writes_of_mem_dictWrites entryMem)

theorem readsBack_dictSet {entries : List (Str × rt.Value)} (reads : rt.ReadsBack (.obj entries))
    (key : Str) {value : rt.Value} (valueReads : rt.ReadsBack value) :
    rt.ReadsBack (.obj (dictSet entries key value)) := by
  refine ⟨nodup_keys_dictSet reads.1, ?_⟩
  apply membersReadBack_iff.mpr
  intro entry entryMem
  rcases mem_of_mem_dictSet entryMem with rfl | kept
  · exact valueReads
  · exact membersReadBack_iff.mp reads.2 entry kept

theorem hereditary_readsBack : Json.Hereditary rt.ReadsBack (fun _ => True) where
  null := trivial
  str := fun _ => Iff.rfl
  item := fun _ reads => itemsReadBack_iff.mp reads
  member := fun _ reads entry entryMem => ⟨trivial, membersReadBack_iff.mp reads.2 entry entryMem⟩

end Runtime

end Python
