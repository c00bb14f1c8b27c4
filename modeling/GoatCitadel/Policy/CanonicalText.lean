import GoatCitadel.Policy.JsonParse
import GoatCitadel.Support.Separated

/-!
# Canonical texts identify values

`canonicalize` prints a value as it walks through it: the keys of an object are sorted,
and each member is looked up under its key.  For values whose keys are distinct this is
the text of the value with its members sorted, which is read back as the value.
-/

namespace GoatCitadel.Policy

open GoatCitadel.Support
open JsonValue (Everywhere quotedTail)

/-! ## Printing -/

/-- The keys of an object, sorted, with their printed members. -/
def printSorted (printed : List (String × List Char)) : List (List Char) :=
  ((printed.map Prod.fst).insertionSort fun a b => utf16Le a b = true).map fun key =>
    '"' :: (quotedTail key.toList ++ ':' :: (printed.lookup key).getD [])

mutual

def canonicalize : JsonValue → List Char
  | .array items => '[' :: ([','].intercalate (canonicalizeItems items) ++ [']'])
  | .object fields =>
      '\x7b' :: ([','].intercalate (printSorted (canonicalizeFields fields)) ++ ['\x7d'])
  | .null => JsonValue.chars .null
  | .bool value => JsonValue.chars (.bool value)
  | .number text => JsonValue.chars (.number text)
  | .string value => JsonValue.chars (.string value)

def canonicalizeItems : List JsonValue → List (List Char)
  | [] => []
  | item :: items => canonicalize item :: canonicalizeItems items

def canonicalizeFields : List (String × JsonValue) → List (String × List Char)
  | [] => []
  | (key, value) :: fields => (key, canonicalize value) :: canonicalizeFields fields

end

/-- The text of a value. -/
def canonicalText (value : JsonValue) : String :=
  String.ofList (canonicalize value)

/-! ## The sorted value -/

section

theorem canonicalizeItems_eq_map (items : List JsonValue) :
    canonicalizeItems items = items.map canonicalize := by
  induction items with
  | nil => rfl
  | cons item items ih => rw [canonicalizeItems, ih, List.map_cons]

theorem canonicalizeFields_eq_map (fields : List (String × JsonValue)) :
    canonicalizeFields fields = fields.map fun field => (field.1, canonicalize field.2) := by
  induction fields with
  | nil => rfl
  | cons field fields ih => rw [canonicalizeFields, ih, List.map_cons]

/-- The items of an array are separated by commas. -/
theorem itemChars_eq_intercalate (items : List JsonValue) :
    JsonValue.itemChars true items = [','].intercalate (items.map JsonValue.chars) ++ [']'] := by
  induction items with
  | nil => rfl
  | cons item items ih =>
      rw [JsonValue.itemChars, if_pos rfl, List.nil_append, List.map_cons]
      cases items with
      | nil =>
          rw [List.map_nil, List.intercalate_singleton]
          rfl
      | cons next items =>
          have hne : (next :: items).map JsonValue.chars ≠ [] := List.cons_ne_nil _ _
          rw [JsonValue.itemChars, if_pos rfl, List.nil_append] at ih
          rw [JsonValue.itemChars, if_neg Bool.false_ne_true, List.singleton_append, ih,
            intercalate_cons hne, List.append_assoc, List.cons_append]

/-- A member of an object, as it is printed. -/
def memberChars (field : String × JsonValue) : List Char :=
  '"' :: (quotedTail field.1.toList ++ ':' :: JsonValue.chars field.2)

theorem fieldChars_eq_intercalate (fields : List (String × JsonValue)) :
    JsonValue.fieldChars true fields = [','].intercalate (fields.map memberChars) ++ ['\x7d'] := by
  have hmember : ∀ (field : String × JsonValue) (rest : List Char),
      '"' :: (quotedTail field.1.toList ++ ':' :: (JsonValue.chars field.2 ++ rest)) =
        memberChars field ++ rest := by
    intro field rest
    simp [memberChars, List.append_assoc]
  induction fields with
  | nil => rfl
  | cons field fields ih =>
      rw [JsonValue.fieldChars, if_pos rfl, List.nil_append, hmember, List.map_cons]
      cases fields with
      | nil =>
          rw [List.map_nil, List.intercalate_singleton]
          rfl
      | cons next fields =>
          have hne : (next :: fields).map memberChars ≠ [] := List.cons_ne_nil _ _
          rw [JsonValue.fieldChars, if_pos rfl, List.nil_append] at ih
          rw [JsonValue.fieldChars, if_neg Bool.false_ne_true, List.singleton_append, ih,
            intercalate_cons hne, List.append_assoc, List.cons_append]

/-- A key finds its own member when the keys are distinct. -/
theorem lookup_of_mem {α : Type*} {entries : List (String × α)}
    (hkeys : (entries.map Prod.fst).Nodup) {entry : String × α} (h : entry ∈ entries) :
    entries.lookup entry.1 = some entry.2 := by
  induction entries with
  | nil => exact absurd h List.not_mem_nil
  | cons first entries ih =>
      obtain ⟨hfirst, hrest⟩ := List.nodup_cons.mp hkeys
      rw [List.lookup_cons]
      obtain rfl | hmem := List.mem_cons.mp h
      · rw [beq_self_eq_true]
      · have hne : (entry.1 == first.1) = false := by
          rw [beq_eq_false_iff_ne]
          intro hsame
          exact hfirst (hsame ▸ List.mem_map_of_mem hmem)
        rw [hne]
        exact ih hrest hmem

/-- The sorted keys with their members are the sorted members. -/
theorem printSorted_eq_map {printed : List (String × List Char)}
    (hkeys : (printed.map Prod.fst).Nodup) :
    printSorted printed = (printed.insertionSort fun a b => utf16Le a.1 b.1 = true).map
      fun entry => '"' :: (quotedTail entry.1.toList ++ ':' :: entry.2) := by
  have hsort := List.map_insertionSort (r := fun a b => utf16Le a.1 b.1 = true)
    (s := fun a b => utf16Le a b = true) Prod.fst printed fun _ _ _ _ => Iff.rfl
  rw [printSorted, ← hsort, List.map_map]
  refine List.map_congr_left fun entry hentry => ?_
  rw [List.mem_insertionSort] at hentry
  rw [Function.comp_apply, lookup_of_mem hkeys hentry]
  rfl

/-- What is printed is the value with its members sorted. -/
theorem canonicalize_eq_chars {value : JsonValue} (h : value.Everywhere DistinctKeys) :
    canonicalize value = JsonValue.chars (sortMembers value) := by
  unfold sortMembers
  induction value using JsonValue.byMembers with
  | null => rfl
  | bool value => rfl
  | number text => rfl
  | string value => rfl
  | array items ih =>
      rw [canonicalize, canonicalizeItems_eq_map, rearrange_array, JsonValue.chars,
        itemChars_eq_intercalate, List.map_map]
      congr 3
      exact List.map_congr_left fun item hitem => ih item hitem (h.of_array item hitem)
  | object fields ih =>
      have hprinted : canonicalizeFields fields =
          fields.map fun field => (field.1, JsonValue.chars (rearrange sortByKey field.2)) := by
        rw [canonicalizeFields_eq_map]
        refine List.map_congr_left fun field hfield => ?_
        rw [ih field hfield (h.of_object field hfield)]
      have hkeys : ((canonicalizeFields fields).map Prod.fst).Nodup := by
        rw [canonicalizeFields_eq_map, List.map_map]
        exact h.here
      have hsort := List.map_insertionSort
        (r := fun (a b : String × JsonValue) => utf16Le a.1 b.1 = true)
        (s := fun (a b : String × List Char) => utf16Le a.1 b.1 = true)
        (fun field => (field.1, JsonValue.chars field.2))
        (fields.map fun field => (field.1, rearrange sortByKey field.2)) fun _ _ _ _ => Iff.rfl
      have hfields : canonicalizeFields fields =
          (fields.map fun field => (field.1, rearrange sortByKey field.2)).map
            fun field => (field.1, JsonValue.chars field.2) := by
        rw [hprinted, List.map_map]
        rfl
      rw [canonicalize, printSorted_eq_map hkeys, rearrange_object, JsonValue.chars,
        fieldChars_eq_intercalate, hfields, ← hsort, List.map_map]
      rfl

theorem canonicalText_eq {value : JsonValue} (h : value.Everywhere DistinctKeys) :
    canonicalText value = canonicalJsonString value := by
  unfold canonicalText canonicalJsonString JsonValue.stringify
  rw [canonicalize_eq_chars h]

/-- What is restored from the text of a value is the value, the order of members aside. -/
theorem sameJson_restored {value : JsonValue} (h : value.Everywhere DistinctKeys) :
    SameJson (restored value) value := by
  have hsorted := distinctKeys_rearrange canonical_sortByKey.perm h
  unfold SameJson restored relisted normalizeKeys sortMembers
  rw [rearrange_rearrange canonical_normalizeKeys ownOrder_perm _ hsorted,
    rearrange_rearrange canonical_normalizeKeys canonical_sortByKey.perm _ h]

end

/-- Two values have one canonical text exactly when they are equal with the order of
members ignored, and the text of a value is read back as the value. -/
theorem canonicalText_identifies {format : NumberFormat} {value other : JsonValue}
    (hvalue : Readable format value) (hother : Readable format other) :
    (canonicalText value = canonicalText other ↔ SameJson value other) ∧
      ∃ parsed, jsonParse format (canonicalText value) = some parsed ∧
        SameJson parsed value := by
  rw [canonicalText_eq hvalue.1, canonicalText_eq hother.1]
  constructor
  · exact canonicalJsonString_eq_iff hvalue.valid hother.valid
  · exact ⟨restored value, jsonParse_canonicalJsonString hvalue, sameJson_restored hvalue.1⟩

/-- The natural numbers among the numbers. -/
def NumberFormat.digits : NumberFormat where
  read := fun text =>
    if text.toList ≠ [] ∧ text.toList.all Char.isDigit = true then some text else none
  read_nat := by
    intro n _
    have hne : (toString n).toList ≠ [] := by
      rw [Nat.toString_eq_repr, Nat.toList_repr]
      exact Nat.toDigits_ne_nil
    have hdigits : (toString n).toList.all Char.isDigit = true := by
      rw [Nat.toString_eq_repr, Nat.toList_repr, List.all_eq_true]
      intro c hc
      exact Nat.isDigit_of_mem_toDigits (by decide) (by decide) hc
    exact if_pos ⟨hne, hdigits⟩

/-- A value whose members are listed in another order than that of their keys. -/
theorem canonicalText_of_unsorted :
    let value : JsonValue :=
      .object [("b", .number "1"), ("a", .array [.bool true, .null, .string "é\n"])]
    let other : JsonValue :=
      .object [("a", .array [.bool true, .null, .string "é\n"]), ("b", .number "1")]
    (canonicalText value = canonicalText other ↔ SameJson value other) ∧
      ∃ parsed, jsonParse .digits (canonicalText value) = some parsed ∧
        SameJson parsed value := by
  intro value other
  have hnumeral : ∀ c ∈ "1".toList, JsonValue.isNumeralChar c = true := by
    intro c hc
    obtain rfl := List.mem_singleton.mp hc
    rfl
  have hnumber : Reads .digits (.number "1") :=
    ⟨⟨by decide, hnumeral⟩, by decide⟩
  have hreads : ∀ field ∈ [("b", JsonValue.number "1"),
      ("a", .array [.bool true, .null, .string "é\n"])],
        Readable .digits field.2 := by
    intro field hfield
    obtain rfl | hfield := List.mem_cons.mp hfield
    · exact ⟨.number trivial, .number hnumber⟩
    · obtain rfl := List.mem_singleton.mp hfield
      constructor
      · refine .array trivial ?_
        simp only [List.forall_mem_cons]
        exact ⟨.bool trivial, .null trivial, .string trivial, by simp⟩
      · refine .array trivial ?_
        simp only [List.forall_mem_cons]
        exact ⟨.bool trivial, .null trivial, .string trivial, by simp⟩
  have hvalue : Readable .digits value :=
    ⟨.object (by unfold DistinctKeys; decide) fun field hfield => (hreads field hfield).1,
      .object trivial fun field hfield => (hreads field hfield).2⟩
  have hswap : ∀ field ∈ [("a", JsonValue.array [.bool true, .null, .string "é\n"]),
      ("b", .number "1")], Readable .digits field.2 := by
    intro field hfield
    apply hreads
    rw [(List.Perm.swap _ _ _).mem_iff]
    exact hfield
  have hother : Readable .digits other :=
    ⟨.object (by unfold DistinctKeys; decide) fun field hfield => (hswap field hfield).1,
      .object trivial fun field hfield => (hswap field hfield).2⟩
  exact canonicalText_identifies hvalue hother

end GoatCitadel.Policy
