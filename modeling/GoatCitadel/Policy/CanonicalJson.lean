import GoatCitadel.Policy.ApprovedRequests

/-!
# Canonical JSON

`canonicalJsonString` prints a JSON value with the members of its objects in the
order of their keys, code unit by code unit.  Members that are `undefined` are
not part of the value.
-/

namespace GoatCitadel.Policy

open GoatCitadel.Support

/-- The members in the order of their keys. -/
def sortByKey (fields : JsonObject) : JsonObject :=
  fields.insertionSort fun a b => utf16Le a.1 b.1 = true

/-- The value with the members of every object in the order of their keys. -/
def sortMembers : JsonValue → JsonValue :=
  rearrange sortByKey

def canonicalJsonString (value : JsonValue) : String :=
  (sortMembers value).stringify

/-- The order of `Array.prototype.sort` on keys. -/
def utf16Collation : Collation where
  le := utf16Le
  total := utf16Le_total
  trans := utf16Le_trans

/-! ## Values with their members in another order -/

/-- An order that only depends on the members, when their keys are distinct. -/
structure Canonical (order : JsonObject → JsonObject) : Prop where
  perm : ∀ fields, (order fields).Perm fields
  eq_of_perm : ∀ {fields fields' : JsonObject}, fields.Perm fields' →
    (fields.map Prod.fst).Nodup → order fields = order fields'

section Orders

variable {order order' : JsonObject → JsonObject}

/-- The keys of the members, in another order. -/
theorem keys_rearranged (horder : ∀ fields, (order fields).Perm fields) (fields : JsonObject) :
    ((order (fields.map fun field => (field.1, rearrange order field.2))).map Prod.fst).Perm
      (fields.map Prod.fst) := by
  refine ((horder _).map Prod.fst).trans ?_
  rw [List.map_map]
  exact List.Perm.refl _

theorem distinctKeys_rearrange (horder : ∀ fields, (order fields).Perm fields)
    {value : JsonValue} (h : value.Everywhere DistinctKeys) :
    (rearrange order value).Everywhere DistinctKeys :=
  everywhere_rearrange (fun fields => (horder fields).subset) id
    (fun hdistinct => (keys_rearranged horder _).nodup_iff.mpr hdistinct) value h

theorem printsNumerals_rearrange (horder : ∀ fields, (order fields).Perm fields)
    {value : JsonValue} (h : value.Everywhere JsonValue.PrintsNumerals) :
    (rearrange order value).Everywhere JsonValue.PrintsNumerals :=
  everywhere_rearrange (fun fields => (horder fields).subset) (fun _ => trivial)
    (fun _ => trivial) value h

/-- A canonical order forgets the order that the members had. -/
theorem rearrange_rearrange (hcanonical : Canonical order)
    (horder' : ∀ fields, (order' fields).Perm fields) (value : JsonValue)
    (hkeys : value.Everywhere DistinctKeys) :
    rearrange order (rearrange order' value) = rearrange order value := by
  induction value using JsonValue.byMembers with
  | null => rfl
  | bool value => rfl
  | number text => rfl
  | string value => rfl
  | array items ih =>
      simp only [rearrange_array, List.map_map]
      congr 1
      refine List.map_congr_left fun item hitem => ?_
      exact ih item hitem (hkeys.of_array item hitem)
  | object fields ih =>
      simp only [rearrange_object]
      congr 1
      apply hcanonical.eq_of_perm
      · refine ((horder' _).map _).trans ?_
        rw [List.map_map]
        have hmembers : ∀ field ∈ fields,
            (field.1, rearrange order (rearrange order' field.2)) =
              (field.1, rearrange order field.2) := by
          intro field hfield
          rw [ih field hfield (hkeys.of_object field hfield)]
        rw [← List.map_congr_left hmembers]
        exact List.Perm.refl _
      · have hdistinct : (fields.map Prod.fst).Nodup := hkeys.here
        rw [List.map_map]
        refine (((horder' _).map Prod.fst).nodup_iff).mpr ?_
        rw [List.map_map]
        exact hdistinct

/-- Sorting by the keys. -/
theorem canonical_insertionSort {le : String → String → Prop} [DecidableRel le]
    (htotal : ∀ a b, le a b ∨ le b a) (htrans : ∀ a b c, le a b → le b c → le a c)
    (hanti : ∀ a b, le a b → le b a → a = b) :
    Canonical fun fields => fields.insertionSort fun a b => le a.1 b.1 where
  perm := fun fields => List.perm_insertionSort _ fields
  eq_of_perm := by
    intro fields fields' hperm hkeys
    apply insertionSort_eq_of_perm (fun a b => htotal a.1 b.1)
      (fun a b c => htrans a.1 b.1 c.1) hperm
    intro a ha b hb hab hba
    exact field_eq_of_key_eq hkeys ha hb (hanti a.1 b.1 hab hba)

theorem canonical_sortByKey : Canonical sortByKey :=
  canonical_insertionSort utf16Le_total utf16Le_trans fun _ _ => utf16Le_antisymm

theorem canonical_normalizeKeys :
    Canonical fun fields => fields.insertionSort fun a b => a.1 ≤ b.1 :=
  canonical_insertionSort (fun a b => le_total a b) (fun _ _ _ h h' => le_trans h h')
    fun _ _ h h' => le_antisymm h h'

/-- The canonical text tells two values apart, the order of members aside. -/
theorem canonicalJsonString_eq_iff {value other : JsonValue} (hvalue : value.Valid)
    (hother : other.Valid) :
    canonicalJsonString value = canonicalJsonString other ↔ SameJson value other := by
  unfold canonicalJsonString SameJson sortMembers normalizeKeys
  constructor
  · intro h
    have hsorted := JsonValue.eq_of_stringify
      (printsNumerals_rearrange canonical_sortByKey.perm hvalue.2)
      (printsNumerals_rearrange canonical_sortByKey.perm hother.2) h
    rw [← rearrange_rearrange canonical_normalizeKeys canonical_sortByKey.perm value hvalue.1,
      hsorted, rearrange_rearrange canonical_normalizeKeys canonical_sortByKey.perm other
        hother.1]
  · intro h
    rw [← rearrange_rearrange canonical_sortByKey canonical_normalizeKeys.perm value hvalue.1,
      h, rearrange_rearrange canonical_sortByKey canonical_normalizeKeys.perm other hother.1]

end Orders

end GoatCitadel.Policy
