import GoatCitadel.Policy.JsonText
import GoatCitadel.Support.StableSort
import GoatCitadel.Policy.Store
import Mathlib.Data.Nat.Digits.Defs
import Mathlib.Data.String.Basic

/-!
# An approval admits the approved request

`requestMatchesPendingApproval` compares the trees of two requests through
`stableStringify`, which rebuilds every object key by key, in the order of the
locale, and prints the result.

Two things go wrong on the way.  A member named `__proto__` is assigned to the
prototype of the rebuilt object and not printed, so a request may carry one that
was never approved.  And keys that the locale considers equal stay in the order
in which they were inserted, so an approved request may be refused.  Apart from
that the text is the same exactly when the trees are the same JSON values.
-/

namespace GoatCitadel.Policy

open GoatCitadel.Support

/-! ## Rebuilding a value -/

/-- The order of `localeCompare`, which may consider different texts equal. -/
structure Collation where
  le : String → String → Bool
  total : ∀ a b, le a b = true ∨ le b a = true
  trans : ∀ a b c, le a b = true → le b c = true → le a c = true

/-- The assignment `acc[key] = value` on a plain object.  An assignment to
`__proto__` sets the prototype and no member. -/
def assign (acc : JsonObject) (field : String × JsonValue) : JsonObject :=
  if field.1 = "__proto__" then acc
  else if acc.any fun other => other.1 = field.1 then
    acc.map fun other => if other.1 = field.1 then field else other
  else acc ++ [field]

/-- The number of a key that is an array index in its canonical form. -/
def arrayIndex? (key : String) : Option Nat :=
  let digits := key.toList
  if !digits.isEmpty && digits.all Char.isDigit &&
      (digits = ['0'] || digits.head? ≠ some '0') then
    let index := digits.foldl (fun n c => 10 * n + (c.toNat - 48)) 0
    if index < 4294967295 then some index else none
  else none

/-- The order in which the own members of an object are listed: array indices in
their order, then the other keys as they were inserted. -/
def ownOrder (fields : JsonObject) : JsonObject :=
  (fields.filter fun field => (arrayIndex? field.1).isSome).insertionSort
      (fun a b => (arrayIndex? a.1).getD 0 ≤ (arrayIndex? b.1).getD 0) ++
    fields.filter fun field => !(arrayIndex? field.1).isSome

mutual

/-- The value with the members of every object rebuilt. -/
def rearrange (order : JsonObject → JsonObject) : JsonValue → JsonValue
  | .array items => .array (rearrangeItems order items)
  | .object fields => .object (order (rearrangeFields order fields))
  | .null => .null
  | .bool value => .bool value
  | .number text => .number text
  | .string value => .string value

def rearrangeItems (order : JsonObject → JsonObject) : List JsonValue → List JsonValue
  | [] => []
  | item :: items => rearrange order item :: rearrangeItems order items

/-- The members with their values rebuilt. -/
def rearrangeFields (order : JsonObject → JsonObject) :
    List (String × JsonValue) → List (String × JsonValue)
  | [] => []
  | (key, value) :: fields => (key, rearrange order value) :: rearrangeFields order fields

end

theorem rearrange_array {order : JsonObject → JsonObject} (items : List JsonValue) :
    rearrange order (.array items) = .array (items.map (rearrange order)) := by
  rw [rearrange]
  congr 1
  induction items with
  | nil => rfl
  | cons item items ih => rw [rearrangeItems, ih, List.map_cons]

theorem rearrange_object {order : JsonObject → JsonObject} (fields : JsonObject) :
    rearrange order (.object fields) =
      .object (order (fields.map fun field => (field.1, rearrange order field.2))) := by
  rw [rearrange]
  congr 2
  induction fields with
  | nil => rfl
  | cons field fields ih => rw [rearrangeFields, ih, List.map_cons]

/-- Two rebuildings in one, when the first does not look at the values. -/
theorem rearrange_comp {order order' : JsonObject → JsonObject}
    (horder' : ∀ (change : JsonValue → JsonValue) (fields : JsonObject),
      (order' fields).map (fun field => (field.1, change field.2)) =
        order' (fields.map fun field => (field.1, change field.2))) (value : JsonValue) :
    rearrange order (rearrange order' value) =
      rearrange (fun fields => order (order' fields)) value := by
  induction value using JsonValue.byMembers with
  | null => rfl
  | bool value => rfl
  | number text => rfl
  | string value => rfl
  | array items ih =>
      rw [rearrange_array, rearrange_array, rearrange_array, List.map_map]
      exact congrArg JsonValue.array (List.map_congr_left ih)
  | object fields ih =>
      rw [rearrange_object, rearrange_object, rearrange_object, horder', List.map_map]
      congr 3
      refine List.map_congr_left fun field hfield => ?_
      rw [Function.comp_apply, ih field hfield]

/-- `sortValue` -/
def sortValue (collation : Collation) : JsonValue → JsonValue :=
  rearrange fun fields =>
    ownOrder ((fields.insertionSort fun a b => collation.le a.1 b.1 = true).foldl assign [])

/-- `stableStringify` -/
def stableStringify (collation : Collation) (value : JsonValue) : String :=
  (sortValue collation value).stringify

/-! ## JSON values, with the order of members ignored -/

/-- The value with the members of every object in the order of their keys. -/
def normalizeKeys : JsonValue → JsonValue :=
  rearrange fun fields => fields.insertionSort fun a b => a.1 ≤ b.1

/-- The values are equal when the order of the members is ignored. -/
def SameJson (value other : JsonValue) : Prop :=
  normalizeKeys value = normalizeKeys other

/-- The keys of an object are distinct. -/
def DistinctKeys : JsonValue → Prop
  | .object fields => (fields.map Prod.fst).Nodup
  | _ => True

/-- The value is one that JSON can express: keys are distinct and numbers are
numerals. -/
def JsonValue.Valid (value : JsonValue) : Prop :=
  value.Everywhere DistinctKeys ∧ value.Everywhere JsonValue.PrintsNumerals

/-- The value without the members named `__proto__`. -/
def dropProto : JsonValue → JsonValue :=
  rearrange fun fields => fields.filter fun field => decide (field.1 ≠ "__proto__")

theorem dropProto_array (items : List JsonValue) :
    dropProto (.array items) = .array (items.map dropProto) :=
  rearrange_array items

theorem dropProto_object (fields : JsonObject) :
    dropProto (.object fields) = .object ((fields.map fun field =>
      (field.1, dropProto field.2)).filter fun field => decide (field.1 ≠ "__proto__")) :=
  rearrange_object fields

/-- The locale considers the keys equal. -/
def Collation.Tied (collation : Collation) (a b : String) : Prop :=
  collation.le a b = true ∧ collation.le b a = true

/-- A key that a rebuilt object lists in the order of the locale. -/
def ListedByLocale (key : String) : Prop :=
  key ≠ "__proto__" ∧ arrayIndex? key = none

/-- No two keys that are equal for the locale were inserted in one order here and
in the other order there. -/
def TiesInOrder (collation : Collation) (fields other : JsonObject) : Prop :=
  ∀ a b, collation.Tied a b → ListedByLocale a → ListedByLocale b →
    [a, b].Sublist (fields.map Prod.fst) → ¬[b, a].Sublist (other.map Prod.fst)

section

variable (collation : Collation)

mutual

/-- Keys that are equal for the locale stand in the same order in both values, in
every pair of objects found at the same place. -/
def TiesKept : JsonValue → JsonValue → Prop
  | .array items, .array items' => TiesKeptItems items items'
  | .object fields, .object fields' =>
      TiesInOrder collation fields fields' ∧ TiesKeptFields fields fields'
  | _, _ => True

def TiesKeptItems : List JsonValue → List JsonValue → Prop
  | item :: items, item' :: items' => TiesKept item item' ∧ TiesKeptItems items items'
  | _, _ => True

def TiesKeptFields : List (String × JsonValue) → JsonObject → Prop
  | [], _ => True
  | (key, value) :: fields, other =>
      (key ≠ "__proto__" → ∀ value', (key, value') ∈ other → TiesKept value value') ∧
        TiesKeptFields fields other

end

end

/-! ## Array indices -/

/-- The number that a list of digits writes, by its digits from the last one on. -/
theorem foldl_digits (digits : List Char) :
    digits.foldl (fun n c => 10 * n + (c.toNat - 48)) 0 =
      Nat.ofDigits 10 (digits.reverse.map fun c => c.toNat - 48) := by
  rw [Nat.ofDigits_eq_foldr, List.foldr_map, List.foldr_reverse]
  simp only [Nat.cast_id, Nat.add_comm]

/-- Digits without a leading zero are the digits of the number they write. -/
theorem digits_foldl {digits : List Char} (hdigits : digits.all Char.isDigit = true)
    (hhead : digits.head? ≠ some '0') :
    Nat.digits 10 (digits.foldl (fun n c => 10 * n + (c.toNat - 48)) 0) =
      digits.reverse.map fun c => c.toNat - 48 := by
  rw [foldl_digits]
  refine Nat.digits_ofDigits 10 (by decide) _ ?_ ?_
  · intro d hd
    obtain ⟨c, hc, rfl⟩ := List.mem_map.mp hd
    have := isDigit_range (List.all_eq_true.mp hdigits c (List.mem_reverse.mp hc))
    omega
  · intro hne
    cases digits with
    | nil => simp at hne
    | cons c digits =>
        have hrange := isDigit_range (List.all_eq_true.mp hdigits c List.mem_cons_self)
        have hzero : c ≠ '0' := fun h => hhead (by rw [List.head?_cons, h])
        have hval : c.toNat ≠ 48 := fun h => hzero (Char.toNat_inj.mp h)
        simp only [List.reverse_cons, List.map_append, List.map_cons, List.map_nil,
          List.getLast_append_singleton]
        omega

theorem eq_of_digit_values {digits digits' : List Char}
    (hdigits : digits.all Char.isDigit = true) (hdigits' : digits'.all Char.isDigit = true)
    (h : digits.map (fun c => c.toNat - 48) = digits'.map fun c => c.toNat - 48) :
    digits = digits' := by
  induction digits generalizing digits' with
  | nil => exact (List.map_eq_nil_iff.mp h.symm).symm
  | cons c digits ih =>
      cases digits' with
      | nil => simp at h
      | cons c' digits' =>
          rw [List.all_cons, Bool.and_eq_true] at hdigits hdigits'
          rw [List.map_cons, List.map_cons] at h
          obtain ⟨hhead, htail⟩ := List.cons.inj h
          have hrange := isDigit_range hdigits.1
          have hrange' := isDigit_range hdigits'.1
          have hchar : c = c' := Char.toNat_inj.mp (by omega)
          rw [hchar, ih hdigits.2 hdigits'.2 htail]

/-- A key that is an array index is the numeral of its number. -/
theorem arrayIndex?_inj {key key' : String} {index : Nat} (h : arrayIndex? key = some index)
    (h' : arrayIndex? key' = some index) : key = key' := by
  have hcanonical : ∀ {key : String}, arrayIndex? key = some index →
      key.toList.all Char.isDigit = true ∧
        (key.toList = ['0'] ∧ index = 0 ∨
          key.toList ≠ [] ∧
            Nat.digits 10 index = key.toList.reverse.map fun c => c.toNat - 48) := by
    intro key h
    simp only [arrayIndex?, Option.ite_none_right_eq_some, Option.some.injEq, Bool.and_eq_true,
      Bool.or_eq_true, decide_eq_true_eq, Bool.not_eq_true', List.isEmpty_eq_false_iff] at h
    obtain ⟨⟨⟨hne, hdigits⟩, hhead⟩, -, hvalue⟩ := h
    refine ⟨hdigits, ?_⟩
    rcases hhead with hzero | hhead
    · rw [hzero] at hvalue
      exact .inl ⟨hzero, hvalue.symm⟩
    · rw [← hvalue]
      exact .inr ⟨hne, digits_foldl hdigits hhead⟩
  obtain ⟨hdigits, hform⟩ := hcanonical h
  obtain ⟨hdigits', hform'⟩ := hcanonical h'
  refine String.toList_inj.mp ?_
  rcases hform with ⟨hzero, hindex⟩ | ⟨hne, hform⟩ <;>
    rcases hform' with ⟨hzero', hindex'⟩ | ⟨hne', hform'⟩
  · rw [hzero, hzero']
  · simp [hindex, hne'] at hform'
  · simp [hindex', hne] at hform
  · refine eq_of_digit_values hdigits hdigits' ?_
    have hreverse := hform.symm.trans hform'
    rw [List.map_reverse, List.map_reverse] at hreverse
    exact List.reverse_injective hreverse

/-! ## What rebuilding does to an object -/

theorem field_eq_of_key_eq {fields : JsonObject} (hkeys : (fields.map Prod.fst).Nodup)
    {a b : String × JsonValue} (ha : a ∈ fields) (hb : b ∈ fields) (h : a.1 = b.1) :
    a = b :=
  List.inj_on_of_nodup_map hkeys ha hb h

/-- Under distinct keys, the members are assigned one after the other and only
`__proto__` is lost. -/
theorem foldl_assign {acc fields : JsonObject}
    (hkeys : ((acc ++ fields).map Prod.fst).Nodup) :
    fields.foldl assign acc =
      acc ++ fields.filter fun field => decide (field.1 ≠ "__proto__") := by
  induction fields generalizing acc with
  | nil => simp
  | cons field fields ih =>
      rw [List.foldl_cons]
      have hmove : acc ++ field :: fields = acc ++ [field] ++ fields := by simp
      by_cases hproto : field.1 = "__proto__"
      · have hsub : ((acc ++ fields).map Prod.fst).Nodup := by
          refine hkeys.sublist (List.Sublist.map _ ?_)
          exact List.Sublist.append_left (List.sublist_cons_self field fields) acc
        rw [assign, if_pos hproto, ih hsub, List.filter_cons_of_neg (by simp [hproto])]
      · have hnew : ¬(acc.any fun other => other.1 = field.1) = true := by
          intro hany
          obtain ⟨other, hother, hsame⟩ := List.any_eq_true.mp hany
          rw [List.map_append, List.nodup_append] at hkeys
          refine hkeys.2.2 other.1 (List.mem_map_of_mem hother) field.1 ?_
            (of_decide_eq_true hsame)
          exact List.mem_map_of_mem List.mem_cons_self
        rw [hmove] at hkeys
        rw [assign, if_neg hproto, if_neg hnew, ih hkeys,
          List.filter_cons_of_pos (by simp [hproto])]
        simp

theorem ownOrder_perm (fields : JsonObject) : (ownOrder fields).Perm fields := by
  refine ((List.perm_insertionSort _ _).append_right _).trans ?_
  exact List.filter_append_perm _ fields

section

variable {collation : Collation} {fields : JsonObject} {other : JsonObject}
  {change : JsonValue → JsonValue}

/-- Members with their keys kept and their values changed, `__proto__` left out. -/
def memberwise (change : JsonValue → JsonValue) (fields : JsonObject) : JsonObject :=
  (fields.map fun field => (field.1, change field.2)).filter
    fun field => decide (field.1 ≠ "__proto__")

theorem memberwise_congr {change' : JsonValue → JsonValue}
    (h : ∀ field ∈ fields, change field.2 = change' field.2) :
    memberwise change fields = memberwise change' fields := by
  unfold memberwise
  congr 1
  refine List.map_congr_left fun field hfield => ?_
  rw [h field hfield]

/-- Two changes one after the other. -/
theorem map_memberwise (change change' : JsonValue → JsonValue) (fields : JsonObject) :
    (memberwise change fields).map (fun field => (field.1, change' field.2)) =
      memberwise (fun value => change' (change value)) fields := by
  unfold memberwise
  rw [List.filter_map, List.map_map, List.filter_map]
  rfl

theorem memberwise_keys_nodup (change : JsonValue → JsonValue)
    (hkeys : (fields.map Prod.fst).Nodup) :
    ((memberwise change fields).map Prod.fst).Nodup := by
  have hmapped : ((fields.map fun field => (field.1, change field.2)).map
      Prod.fst).Nodup := by
    rw [List.map_map]
    exact hkeys
  exact hmapped.sublist (List.filter_sublist.map _)

/-- The members with their values rebuilt, in the order of the locale. -/
def sortedFields (collation : Collation) (fields : JsonObject) : JsonObject :=
  (fields.map fun field => (field.1, sortValue collation field.2)).insertionSort
    fun a b => collation.le a.1 b.1 = true

/-- The members of a rebuilt object. -/
def rebuilt (collation : Collation) (fields : JsonObject) : JsonObject :=
  ownOrder ((sortedFields collation fields).foldl assign [])

theorem sortValue_object :
    sortValue collation (.object fields) = .object (rebuilt collation fields) :=
  rearrange_object fields

theorem sortValue_array {items : List JsonValue} :
    sortValue collation (.array items) = .array (items.map (sortValue collation)) :=
  rearrange_array items

theorem sortedFields_perm :
    (sortedFields collation fields).Perm
      (fields.map fun field => (field.1, sortValue collation field.2)) :=
  List.perm_insertionSort _ _

/-- The sorted members that a rebuilt object is made of. -/
theorem foldl_assign_sorted (hkeys : (fields.map Prod.fst).Nodup) :
    (sortedFields collation fields).foldl assign [] =
      (sortedFields collation fields).filter fun field => decide (field.1 ≠ "__proto__") := by
  have hsortedKeys : ((([] : JsonObject) ++ sortedFields collation fields).map
      Prod.fst).Nodup := by
    rw [List.nil_append]
    refine (sortedFields_perm.map Prod.fst).nodup_iff.mpr ?_
    rw [List.map_map]
    exact hkeys
  rw [foldl_assign hsortedKeys, List.nil_append]

/-- The members of a rebuilt object are the members with other keys than
`__proto__`, rebuilt. -/
theorem rebuilt_perm (hkeys : (fields.map Prod.fst).Nodup) :
    (rebuilt collation fields).Perm (memberwise (sortValue collation) fields) := by
  refine (ownOrder_perm _).trans ?_
  rw [foldl_assign_sorted hkeys]
  exact sortedFields_perm.filter _

/-- Rebuilding a value drops its `__proto__` members and changes the order of the
others. -/
theorem normalizeKeys_sortValue (value : JsonValue)
    (hkeys : value.Everywhere DistinctKeys) :
    normalizeKeys (sortValue collation value) = normalizeKeys (dropProto value) := by
  induction value using JsonValue.byMembers with
  | null => rfl
  | bool value => rfl
  | number text => rfl
  | string value => rfl
  | array items ih =>
      rw [sortValue_array, dropProto, rearrange_array, normalizeKeys, rearrange_array,
        rearrange_array, List.map_map, List.map_map]
      congr 1
      refine List.map_congr_left fun item hitem => ?_
      exact ih item hitem (hkeys.of_array item hitem)
  | object fields ih =>
      have hdistinct : (fields.map Prod.fst).Nodup := hkeys.here
      have hperm := (@rebuilt_perm collation fields hdistinct).map
        fun field => (field.1, normalizeKeys field.2)
      have hvalues : memberwise (fun value => normalizeKeys (sortValue collation value))
          fields = memberwise (fun value => normalizeKeys (dropProto value)) fields :=
        memberwise_congr fun field hfield =>
          ih field hfield (hkeys.of_object field hfield)
      rw [map_memberwise, hvalues, ← map_memberwise] at hperm
      rw [sortValue_object, dropProto, rearrange_object, normalizeKeys, rearrange_object,
        rearrange_object]
      congr 1
      refine (insertionSort_eq_of_perm
        (fun a b : String × JsonValue => le_total a.1 b.1)
        (fun _ _ _ h h' => le_trans h h') hperm.symm ?_).symm
      rw [map_memberwise]
      intro a ha b hb hab hba
      exact field_eq_of_key_eq (memberwise_keys_nodup _ hdistinct) ha hb
        (le_antisymm hab hba)

/-! ## Keys that are equal for the locale -/

/-- Where the object with these members stands in the list of keys of its rebuilt
form: array indices first, then the order of the locale, then that of insertion. -/
def ListedBefore (collation : Collation) (fields : JsonObject) (a b : String) : Prop :=
  match arrayIndex? a, arrayIndex? b with
  | some i, some j => i ≤ j
  | some _, none => True
  | none, some _ => False
  | none, none => collation.le a b = true ∧
      (collation.le b a = true → [a, b].Sublist (fields.map Prod.fst))

theorem listedBefore_antisymm (hkeys : (fields.map Prod.fst).Nodup) {a b : String}
    (hab : ListedBefore collation fields a b) (hba : ListedBefore collation fields b a) :
    a = b := by
  unfold ListedBefore at hab hba
  rcases ha : arrayIndex? a with _ | i <;> rcases hb : arrayIndex? b with _ | j <;>
    simp only [ha, hb] at hab hba
  · exact absurd (hba.2 hab.1) (not_pair_sublist_swap hkeys (hab.2 hba.1))
  · have hsame : i = j := by omega
    exact arrayIndex?_inj ha (hsame ▸ hb)

/-- The members with other keys than array indices keep the order of the locale,
and of insertion where the locale has none. -/
theorem sorted_pairwise (hkeys : (fields.map Prod.fst).Nodup) :
    (sortedFields collation fields).Pairwise fun a b =>
      collation.le a.1 b.1 = true ∧
        (collation.le b.1 a.1 = true → [a.1, b.1].Sublist (fields.map Prod.fst)) := by
  have hsame : (fields.map fun field => (field.1, sortValue collation field.2)).map Prod.fst =
      fields.map Prod.fst := by
    rw [List.map_map]
    rfl
  have hnodup : (fields.map fun field => (field.1, sortValue collation field.2)).Nodup := by
    refine List.Nodup.of_map Prod.fst ?_
    rw [hsame]
    exact hkeys
  refine (pairwise_insertionSort_stable (fun a b => collation.total a.1 b.1)
    (fun a b c => collation.trans a.1 b.1 c.1) hnodup).imp ?_
  rintro a b ⟨hab, hstable⟩
  refine ⟨hab, fun hba => ?_⟩
  have hpair := (hstable hba).map Prod.fst
  rw [hsame] at hpair
  exact hpair

theorem rebuilt_pairwise (hkeys : (fields.map Prod.fst).Nodup) :
    ((rebuilt collation fields).map Prod.fst).Pairwise
      (ListedBefore collation fields) := by
  rw [rebuilt, foldl_assign_sorted hkeys, ownOrder, List.pairwise_map,
    List.pairwise_append]
  refine ⟨?_, ?_, ?_⟩
  · have : Std.Total fun a b : String × JsonValue =>
        (arrayIndex? a.1).getD 0 ≤ (arrayIndex? b.1).getD 0 := ⟨fun _ _ => Nat.le_total _ _⟩
    have : IsTrans (String × JsonValue) fun a b =>
        (arrayIndex? a.1).getD 0 ≤ (arrayIndex? b.1).getD 0 := ⟨fun _ _ _ => Nat.le_trans⟩
    refine (List.pairwise_insertionSort _ _).imp_of_mem fun ha hb hle => ?_
    have hindex := (List.mem_filter.mp ((List.perm_insertionSort _ _).mem_iff.mp ha)).2
    have hindex' := (List.mem_filter.mp ((List.perm_insertionSort _ _).mem_iff.mp hb)).2
    obtain ⟨i, hi⟩ := Option.isSome_iff_exists.mp hindex
    obtain ⟨j, hj⟩ := Option.isSome_iff_exists.mp hindex'
    simpa [ListedBefore, hi, hj] using hle
  · refine List.Pairwise.imp_of_mem ?_ ((sorted_pairwise hkeys).sublist
      (List.filter_sublist.trans List.filter_sublist))
    intro a b ha hb hordered
    have hindex := (List.mem_filter.mp ha).2
    have hindex' := (List.mem_filter.mp hb).2
    rw [Bool.not_eq_true', Option.isSome_eq_false_iff, Option.isNone_iff_eq_none] at hindex hindex'
    simpa [ListedBefore, hindex, hindex'] using hordered
  · intro a ha b hb
    have hindex := (List.mem_filter.mp ((List.perm_insertionSort _ _).mem_iff.mp ha)).2
    have hindex' := (List.mem_filter.mp hb).2
    rw [Bool.not_eq_true', Option.isSome_eq_false_iff, Option.isNone_iff_eq_none] at hindex'
    obtain ⟨i, hi⟩ := Option.isSome_iff_exists.mp hindex
    simp [ListedBefore, hi, hindex']

theorem listedBefore_of_sublist (hkeys : (fields.map Prod.fst).Nodup) {a b : String}
    (h : [a, b].Sublist ((rebuilt collation fields).map Prod.fst)) :
    ListedBefore collation fields a b :=
  List.pairwise_iff_forall_sublist.mp (rebuilt_pairwise hkeys) h

theorem mem_memberwise_iff {field : String × JsonValue} :
    field ∈ memberwise change fields ↔
      field.1 ≠ "__proto__" ∧ ∃ value, (field.1, value) ∈ fields ∧ change value = field.2 := by
  rw [memberwise, List.mem_filter, List.mem_map, decide_eq_true_eq, and_comm]
  refine and_congr_right fun _ => ?_
  constructor
  · rintro ⟨original, horiginal, rfl⟩
    exact ⟨original.2, horiginal, rfl⟩
  · rintro ⟨value, hvalue, hchange⟩
    exact ⟨(field.1, value), hvalue, Prod.ext rfl hchange⟩

theorem mem_rebuilt_iff (hkeys : (fields.map Prod.fst).Nodup)
    {field : String × JsonValue} :
    field ∈ rebuilt collation fields ↔ field.1 ≠ "__proto__" ∧
      ∃ value, (field.1, value) ∈ fields ∧ sortValue collation value = field.2 := by
  rw [(rebuilt_perm hkeys).mem_iff, mem_memberwise_iff]

theorem rebuilt_keys_nodup (hkeys : (fields.map Prod.fst).Nodup) :
    ((rebuilt collation fields).map Prod.fst).Nodup :=
  ((rebuilt_perm hkeys).map Prod.fst).nodup_iff.mpr (memberwise_keys_nodup _ hkeys)

/-- A tie of the rebuilt object is listed as it was inserted. -/
theorem tie_inserted {a b : String} (htied : collation.Tied a b) (ha : ListedByLocale a)
    (hb : ListedByLocale b) (h : ListedBefore collation fields a b) :
    [a, b].Sublist (fields.map Prod.fst) := by
  simp only [ListedBefore, ha.2, hb.2] at h
  exact h.2 htied.2

/-- When two objects are rebuilt to the same one, keys that are equal for the
locale were inserted into both in the same order. -/
theorem tiesInOrder_of_rebuilt (hkeys : (fields.map Prod.fst).Nodup)
    (hkeys' : (other.map Prod.fst).Nodup) (h : rebuilt collation fields = rebuilt collation other) :
    TiesInOrder collation fields other := by
  intro a b htied ha hb hinserted hswapped
  have hlisted : ∀ {key : String}, key ∈ fields.map Prod.fst → key ≠ "__proto__" →
      key ∈ (rebuilt collation fields).map Prod.fst := by
    intro key hkey hproto
    obtain ⟨field, hfield, rfl⟩ := List.mem_map.mp hkey
    refine List.mem_map.mpr ⟨(field.1, sortValue collation field.2), ?_, rfl⟩
    exact (mem_rebuilt_iff hkeys).mpr ⟨hproto, field.2, hfield, rfl⟩
  have hne : a ≠ b := List.pairwise_iff_forall_sublist.mp hkeys hinserted
  rcases pair_sublist_or (hlisted (hinserted.subset (by simp)) ha.1)
    (hlisted (hinserted.subset (by simp)) hb.1) hne with hpair | hpair
  · rw [h] at hpair
    have hbefore := listedBefore_of_sublist hkeys' hpair
    exact not_pair_sublist_swap hkeys' (tie_inserted htied ha hb hbefore) hswapped
  · have hbefore := listedBefore_of_sublist hkeys hpair
    exact not_pair_sublist_swap hkeys hinserted (tie_inserted htied.symm hb ha hbefore)

/-- Objects with the same rebuilt members are rebuilt to the same one when keys
that are equal for the locale were inserted in the same order. -/
theorem rebuilt_eq_of_tiesInOrder (hkeys : (fields.map Prod.fst).Nodup)
    (hkeys' : (other.map Prod.fst).Nodup) (hmembers : (memberwise (sortValue collation) fields).Perm
      (memberwise (sortValue collation) other)) (hties : TiesInOrder collation fields other) :
    rebuilt collation fields = rebuilt collation other := by
  have hperm : (rebuilt collation fields).Perm (rebuilt collation other) :=
    (rebuilt_perm hkeys).trans (hmembers.trans (rebuilt_perm hkeys').symm)
  have hinserted : ∀ {key : String}, key ∈ (rebuilt collation fields).map Prod.fst →
      key ≠ "__proto__" ∧ key ∈ fields.map Prod.fst := by
    intro key hkey
    obtain ⟨field, hfield, rfl⟩ := List.mem_map.mp hkey
    obtain ⟨hproto, value, hvalue, -⟩ := (mem_rebuilt_iff hkeys).mp hfield
    exact ⟨hproto, List.mem_map.mpr ⟨(field.1, value), hvalue, rfl⟩⟩
  -- The second list is ordered by the first object as well.
  have hordered : ((rebuilt collation other).map Prod.fst).Pairwise
      (ListedBefore collation fields) := by
    rw [List.pairwise_iff_forall_sublist]
    intro a b hpair
    have hbefore := listedBefore_of_sublist hkeys' hpair
    have hne : a ≠ b :=
      List.pairwise_iff_forall_sublist.mp (rebuilt_keys_nodup hkeys') hpair
    obtain ⟨haproto, ha⟩ := hinserted ((hperm.map Prod.fst).mem_iff.mpr
      (hpair.subset (a := a) (by simp)))
    obtain ⟨hbproto, hb⟩ := hinserted ((hperm.map Prod.fst).mem_iff.mpr
      (hpair.subset (a := b) (by simp)))
    unfold ListedBefore at hbefore ⊢
    rcases hindex : arrayIndex? a with _ | i <;> rcases hindex' : arrayIndex? b with _ | j <;>
      simp only [hindex, hindex'] at hbefore ⊢
    · refine ⟨hbefore.1, fun hba => ?_⟩
      refine (pair_sublist_or ha hb hne).resolve_right fun hswap => ?_
      exact hties b a ⟨hba, hbefore.1⟩ ⟨hbproto, hindex'⟩ ⟨haproto, hindex⟩ hswap
        (hbefore.2 hba)
    · exact hbefore
  refine List.Perm.eq_of_pairwise ?_ (List.pairwise_map.mp (rebuilt_pairwise hkeys))
    (List.pairwise_map.mp hordered) hperm
  intro a b ha hb hab hba
  exact field_eq_of_key_eq (rebuilt_keys_nodup hkeys) ha (hperm.mem_iff.mpr hb)
    (listedBefore_antisymm hkeys hab hba)

theorem tiesKeptFields_iff {members : List (String × JsonValue)} :
    TiesKeptFields collation members other ↔ ∀ field ∈ members, field.1 ≠ "__proto__" →
      ∀ value, (field.1, value) ∈ other → TiesKept collation field.2 value := by
  induction members with
  | nil => simp [TiesKeptFields]
  | cons field members ih => rw [TiesKeptFields, ih, List.forall_mem_cons]

theorem tiesKeptItems_of_map_eq {items items' : List JsonValue}
    (hitems : ∀ item ∈ items, ∀ other ∈ items',
      sortValue collation item = sortValue collation other → TiesKept collation item other)
    (h : items.map (sortValue collation) = items'.map (sortValue collation)) :
    TiesKeptItems collation items items' := by
  induction items generalizing items' with
  | nil => simp [TiesKeptItems]
  | cons item items ih =>
      cases items' with
      | nil => simp [TiesKeptItems]
      | cons item' items' =>
          rw [List.map_cons, List.map_cons, List.cons.injEq] at h
          rw [TiesKeptItems]
          refine ⟨hitems item List.mem_cons_self item' List.mem_cons_self h.1, ?_⟩
          refine ih (fun x hx y hy => ?_) h.2
          exact hitems x (List.mem_cons_of_mem item hx) y (List.mem_cons_of_mem item' hy)

/-- Values with the same rebuilt form keep each other's ties. -/
theorem tiesKept_of_sortValue (value : JsonValue) (hkeys : value.Everywhere DistinctKeys)
    {other : JsonValue} (hkeys' : other.Everywhere DistinctKeys)
    (h : sortValue collation value = sortValue collation other) :
    TiesKept collation value other := by
  induction value using JsonValue.byMembers generalizing other with
  | null => simp [TiesKept]
  | bool flag => simp [TiesKept]
  | number text => simp [TiesKept]
  | string text => simp [TiesKept]
  | array items ih =>
      match other, hkeys', h with
      | .array items', hkeys', h =>
          rw [sortValue_array, sortValue_array, JsonValue.array.injEq] at h
          rw [TiesKept]
          refine tiesKeptItems_of_map_eq (fun item hitem other hother => ?_) h
          exact ih item hitem (hkeys.of_array item hitem) (hkeys'.of_array other hother)
      | .null, _, _ | .bool _, _, _ | .number _, _, _ | .string _, _, _ | .object _, _, _ =>
          simp [TiesKept]
  | object fields ih =>
      match other, hkeys', h with
      | .object fields', hkeys', h =>
          rw [sortValue_object, sortValue_object, JsonValue.object.injEq] at h
          rw [TiesKept]
          refine ⟨tiesInOrder_of_rebuilt hkeys.here hkeys'.here h, ?_⟩
          rw [tiesKeptFields_iff]
          intro field hfield hproto value hvalue
          have hlisted : (field.1, sortValue collation field.2) ∈ rebuilt collation fields :=
            (mem_rebuilt_iff hkeys.here).mpr ⟨hproto, field.2, hfield, rfl⟩
          rw [h] at hlisted
          obtain ⟨-, value', hvalue', hsame⟩ := (mem_rebuilt_iff hkeys'.here).mp hlisted
          have heq : value' = value :=
            congrArg Prod.snd (field_eq_of_key_eq hkeys'.here hvalue' hvalue rfl)
          subst heq
          exact ih field hfield (hkeys.of_object field hfield) (hkeys'.of_object _ hvalue)
            hsame.symm
      | .null, _, _ | .bool _, _, _ | .number _, _, _ | .string _, _, _ | .array _, _, _ =>
          simp [TiesKept]

/-- The same members, when the order is ignored. -/
theorem members_perm_of_sameJson
    (h : SameJson (dropProto (.object fields)) (dropProto (.object other))) :
    (memberwise (fun value => normalizeKeys (dropProto value)) fields).Perm
      (memberwise (fun value => normalizeKeys (dropProto value)) other) := by
  have hform : ∀ members : JsonObject, normalizeKeys (dropProto (.object members)) =
      .object ((memberwise (fun value => normalizeKeys (dropProto value)) members).insertionSort
        fun a b => a.1 ≤ b.1) := by
    intro members
    rw [← map_memberwise, dropProto, rearrange_object, normalizeKeys, rearrange_object]
    rfl
  rw [SameJson, hform, hform, JsonValue.object.injEq] at h
  have hleft := List.perm_insertionSort (fun a b => a.1 ≤ b.1)
    (memberwise (fun value => normalizeKeys (dropProto value)) fields)
  rw [h] at hleft
  exact hleft.symm.trans (List.perm_insertionSort _ _)

theorem map_sortValue_eq_of_tiesKept {items items' : List JsonValue}
    (hitems : ∀ item ∈ items, ∀ other ∈ items',
      SameJson (dropProto item) (dropProto other) → TiesKept collation item other →
        sortValue collation item = sortValue collation other)
    (hsame : items.map (fun item => normalizeKeys (dropProto item)) =
      items'.map fun item => normalizeKeys (dropProto item))
    (hties : TiesKeptItems collation items items') :
    items.map (sortValue collation) = items'.map (sortValue collation) := by
  induction items generalizing items' with
  | nil =>
      cases items' with
      | nil => rfl
      | cons item' items' => cases hsame
  | cons item items ih =>
      cases items' with
      | nil => cases hsame
      | cons item' items' =>
          rw [List.map_cons, List.map_cons, List.cons.injEq] at hsame
          rw [TiesKeptItems] at hties
          have hhead := hitems item List.mem_cons_self item' List.mem_cons_self hsame.1 hties.1
          have htail := ih (fun x hx y hy =>
            hitems x (List.mem_cons_of_mem item hx) y (List.mem_cons_of_mem item' hy))
            hsame.2 hties.2
          rw [List.map_cons, List.map_cons, hhead, htail]

/-- Values that are the same apart from `__proto__` members and keep each other's
ties have the same rebuilt form. -/
theorem sortValue_eq_of_tiesKept (value : JsonValue)
    (hkeys : value.Everywhere DistinctKeys) {other : JsonValue}
    (hkeys' : other.Everywhere DistinctKeys)
    (hsame : SameJson (dropProto value) (dropProto other))
    (hties : TiesKept collation value other) :
    sortValue collation value = sortValue collation other := by
  induction value using JsonValue.byMembers generalizing other with
  | null => cases other <;> simp_all [SameJson, dropProto, normalizeKeys, sortValue, rearrange]
  | bool flag => cases other <;> simp_all [SameJson, dropProto, normalizeKeys, sortValue, rearrange]
  | number text =>
      cases other <;> simp_all [SameJson, dropProto, normalizeKeys, sortValue, rearrange]
  | string text =>
      cases other <;> simp_all [SameJson, dropProto, normalizeKeys, sortValue, rearrange]
  | array items ih =>
      match other, hkeys', hsame, hties with
      | .array items', hkeys', hsame, hties =>
          rw [SameJson, dropProto, rearrange_array, rearrange_array, normalizeKeys,
            rearrange_array, rearrange_array, JsonValue.array.injEq, List.map_map,
            List.map_map] at hsame
          rw [TiesKept] at hties
          rw [sortValue_array, sortValue_array, JsonValue.array.injEq]
          refine map_sortValue_eq_of_tiesKept (fun item hitem other hother => ?_) hsame hties
          exact ih item hitem (hkeys.of_array item hitem) (hkeys'.of_array other hother)
      | .null, _, hsame, _ | .bool _, _, hsame, _ | .number _, _, hsame, _
      | .string _, _, hsame, _ | .object _, _, hsame, _ => cases hsame
  | object fields ih =>
      match other, hkeys', hsame, hties with
      | .object fields', hkeys', hsame, hties =>
          have hmembers := members_perm_of_sameJson hsame
          rw [TiesKept, tiesKeptFields_iff] at hties
          have hvalues : ∀ {field : String × JsonValue} {value : JsonValue},
              field ∈ fields → (field.1, value) ∈ fields' → field.1 ≠ "__proto__" →
              normalizeKeys (dropProto value) = normalizeKeys (dropProto field.2) →
              sortValue collation field.2 = sortValue collation value := by
            intro field value hfield hvalue hproto hnormal
            exact ih field hfield (hkeys.of_object field hfield) (hkeys'.of_object _ hvalue)
              hnormal.symm (hties.2 field hfield hproto value hvalue)
          have hperm : (memberwise (sortValue collation) fields).Perm
              (memberwise (sortValue collation) fields') := by
            refine (List.perm_ext_iff_of_nodup
              (memberwise_keys_nodup _ hkeys.here).of_map
              (memberwise_keys_nodup _ hkeys'.here).of_map).mpr fun field => ?_
            rw [mem_memberwise_iff, mem_memberwise_iff]
            refine and_congr_right fun hproto => ?_
            constructor
            · rintro ⟨value, hvalue, hsorted⟩
              have hnormal := (hmembers.mem_iff
                (a := (field.1, normalizeKeys (dropProto value)))).mp
                  (mem_memberwise_iff.mpr ⟨hproto, value, hvalue, rfl⟩)
              obtain ⟨-, value', hvalue', hsame'⟩ := mem_memberwise_iff.mp hnormal
              exact ⟨value', hvalue', (hvalues hvalue hvalue' hproto hsame').symm.trans hsorted⟩
            · rintro ⟨value', hvalue', hsorted⟩
              have hnormal := (hmembers.mem_iff
                (a := (field.1, normalizeKeys (dropProto value')))).mpr
                  (mem_memberwise_iff.mpr ⟨hproto, value', hvalue', rfl⟩)
              obtain ⟨-, value, hvalue, hsame'⟩ := mem_memberwise_iff.mp hnormal
              exact ⟨value, hvalue, (hvalues hvalue hvalue' hproto hsame'.symm).trans hsorted⟩
          rw [sortValue_object, sortValue_object,
            rebuilt_eq_of_tiesInOrder hkeys.here hkeys'.here hperm hties.1]
      | .null, _, hsame, _ | .bool _, _, hsame, _ | .number _, _, hsame, _
      | .string _, _, hsame, _ | .array _, _, hsame, _ => cases hsame

theorem mem_of_mem_foldl_assign {acc : JsonObject} {field : String × JsonValue}
    (h : field ∈ fields.foldl assign acc) : field ∈ acc ∨ field ∈ fields := by
  induction fields generalizing acc with
  | nil => exact .inl h
  | cons first fields ih =>
      obtain hacc | hrest := ih h
      · unfold assign at hacc
        split_ifs at hacc
        · exact .inl hacc
        · obtain ⟨other, hother, rfl⟩ := List.mem_map.mp hacc
          split
          · exact .inr List.mem_cons_self
          · exact .inl hother
        · obtain hold | hnew := List.mem_append.mp hacc
          · exact .inl hold
          · exact .inr (List.mem_singleton.mp hnew ▸ List.mem_cons_self)
      · exact .inr (List.mem_cons_of_mem _ hrest)

/-- A property that the arrays and the objects keep holds everywhere in a rebuilt value. -/
theorem everywhere_rearrange {order : JsonObject → JsonObject} {p : JsonValue → Prop}
    (horder : ∀ fields, order fields ⊆ fields)
    (harray : ∀ {items : List JsonValue}, p (.array items) →
      p (.array (items.map (rearrange order))))
    (hobject : ∀ {fields : JsonObject}, p (.object fields) →
      p (.object (order (fields.map fun field => (field.1, rearrange order field.2)))))
    (value : JsonValue) (h : value.Everywhere p) : (rearrange order value).Everywhere p := by
  induction value using JsonValue.byMembers with
  | null => exact h
  | bool value => exact h
  | number text => exact h
  | string value => exact h
  | array items ih =>
      rw [rearrange_array]
      refine .array (harray h.here) fun item hitem => ?_
      obtain ⟨original, horiginal, rfl⟩ := List.mem_map.mp hitem
      exact ih original horiginal (h.of_array original horiginal)
  | object fields ih =>
      rw [rearrange_object]
      refine .object (hobject h.here) fun field hfield => ?_
      obtain ⟨original, horiginal, rfl⟩ := List.mem_map.mp (horder _ hfield)
      exact ih original horiginal (h.of_object original horiginal)

/-- Rebuilding a value makes no members. -/
theorem sortValue_subset (fields : JsonObject) :
    ownOrder ((fields.insertionSort fun a b => collation.le a.1 b.1 = true).foldl assign []) ⊆
      fields := by
  intro field hfield
  have hassigned := (ownOrder_perm _).mem_iff.mp hfield
  obtain hnone | hsorted := mem_of_mem_foldl_assign hassigned
  · cases hnone
  · exact (List.perm_insertionSort _ _).mem_iff.mp hsorted

/-- A rebuilt value prints its numbers as the value does. -/
theorem printsNumerals_sortValue (value : JsonValue)
    (h : value.Everywhere JsonValue.PrintsNumerals) :
    (sortValue collation value).Everywhere JsonValue.PrintsNumerals :=
  everywhere_rearrange sortValue_subset (fun _ => trivial) (fun _ => trivial) value h

/-- Two values have the same text exactly when they are the same apart from
`__proto__` members and keep each other's ties. -/
theorem stableStringify_eq_iff {value other : JsonValue} (hvalue : value.Valid)
    (hother : other.Valid) :
    stableStringify collation value = stableStringify collation other ↔
      SameJson (dropProto value) (dropProto other) ∧ TiesKept collation value other := by
  constructor
  · intro h
    have hsorted : sortValue collation value = sortValue collation other :=
      JsonValue.eq_of_stringify (printsNumerals_sortValue value hvalue.2)
        (printsNumerals_sortValue other hother.2) h
    refine ⟨?_, tiesKept_of_sortValue value hvalue.1 hother.1 hsorted⟩
    calc
      normalizeKeys (dropProto value) = normalizeKeys (sortValue collation value) :=
        (normalizeKeys_sortValue value hvalue.1).symm
      _ = normalizeKeys (sortValue collation other) := by rw [hsorted]
      _ = normalizeKeys (dropProto other) := normalizeKeys_sortValue other hother.1
  · rintro ⟨hsame, hties⟩
    rw [stableStringify, sortValue_eq_of_tiesKept value hvalue.1 hother.1 hsame hties,
      stableStringify]

/-- Dropping `__proto__` members and ordering the others can be done in either order. -/
theorem dropProto_normalizeKeys (value : JsonValue) :
    dropProto (normalizeKeys value) = normalizeKeys (dropProto value) := by
  have hsort := @rearrange_comp (fun fields => fields.filter fun field => field.1 ≠ "__proto__")
    (fun fields => fields.insertionSort fun a b => a.1 ≤ b.1)
    (fun _ _ => List.map_insertionSort _ _ _ _ fun _ _ _ _ => Iff.rfl) value
  have hfilter := @rearrange_comp (fun fields => fields.insertionSort fun a b => a.1 ≤ b.1)
    (fun fields => fields.filter fun field => field.1 ≠ "__proto__")
    (fun _ _ => by rw [List.filter_map]; rfl) value
  rw [dropProto, normalizeKeys, hsort, hfilter]
  congr 1
  funext fields
  exact filter_insertionSort (fun a b : String × JsonValue => le_total a.1 b.1)
    (fun _ _ _ h h' => le_trans h h') _ _

theorem SameJson.dropProto {value other : JsonValue} (h : SameJson value other) :
    SameJson (dropProto value) (dropProto other) := by
  rw [SameJson, ← dropProto_normalizeKeys, ← dropProto_normalizeKeys, h]

end

/-! ## Requests -/

/-- The trees of a request that are compared through their text. -/
def comparedTrees (request : ToolRequest) : List JsonValue :=
  [.array ((request.sourceAttribution.getD []).map .object),
    .object (request.authContext.getD []),
    request.runtimeSkillApplications.getD (.array []),
    request.writePathRepair.getD (.object []),
    request.presentationGrounding.getD (.object []),
    .object (request.args.getD [])]

/-- The requests agree on the fields that are compared as they are. -/
structure FieldsAgree (stored request : ToolRequest) : Prop where
  toolName : stored.toolName = request.toolName
  agentId : stored.agentId = request.agentId
  sessionId : stored.sessionId = request.sessionId
  turnId : stored.turnId = request.turnId
  toolRunId : stored.toolRunId = request.toolRunId
  workspaceId : stored.workspaceId = request.workspaceId
  taskId : stored.taskId = request.taskId
  runId : stored.runId = request.runId
  trustLevel : resolveToolTrustLevel stored = resolveToolTrustLevel request
  permissionProfileId :
    governanceField (·.permissionProfileId) (·.permissionProfileId) stored =
      governanceField (·.permissionProfileId) (·.permissionProfileId) request
  localOperatorOverrideId :
    governanceField (·.localOperatorOverrideId) (·.localOperatorOverrideId) stored =
      governanceField (·.localOperatorOverrideId) (·.localOperatorOverrideId) request
  surface : governanceField (·.surface) (·.surface) stored =
    governanceField (·.surface) (·.surface) request
  dryRun : stored.dryRun = request.dryRun
  externalRuntime : stored.externalRuntime = request.externalRuntime

/-- The requests are the same for an approval: the fields agree, and the trees are
equal as JSON values. -/
def RequestsAgree (stored request : ToolRequest) : Prop :=
  FieldsAgree stored request ∧
    List.Forall₂ SameJson (comparedTrees stored) (comparedTrees request)

/-- The requests differ, but only in members named `__proto__`. -/
def DifferInProtoOnly (collation : Collation) (stored request : ToolRequest) : Prop :=
  FieldsAgree stored request ∧
    List.Forall₂ (fun value other => SameJson (dropProto value) (dropProto other) ∧
      TiesKept collation value other) (comparedTrees stored) (comparedTrees request) ∧
    ¬List.Forall₂ SameJson (comparedTrees stored) (comparedTrees request)

/-- The requests agree, but keys that are equal for the locale were inserted into
them in different orders. -/
def AgreeWithTiesReordered (collation : Collation) (stored request : ToolRequest) : Prop :=
  RequestsAgree stored request ∧
    ¬List.Forall₂ (TiesKept collation) (comparedTrees stored) (comparedTrees request)

/-- The trees of the request are JSON values. -/
def ToolRequest.IsJson (request : ToolRequest) : Prop :=
  ∀ tree ∈ comparedTrees request, tree.Valid

theorem requestMatchesPendingApproval_iff {text : StableStringify}
    {request stored : ToolRequest} :
    requestMatchesPendingApproval text request stored = true ↔
      FieldsAgree stored request ∧
        List.Forall₂ (fun value other => text value = text other)
          (comparedTrees stored) (comparedTrees request) := by
  simp only [requestMatchesPendingApproval, comparedTrees, Bool.and_eq_true,
    decide_eq_true_eq, List.forall₂_cons, List.forall₂_nil_left_iff, and_true]
  constructor
  · rintro ⟨⟨⟨⟨⟨⟨⟨⟨⟨⟨⟨⟨⟨⟨⟨⟨⟨⟨⟨h1, h2⟩, h3⟩, h4⟩, h5⟩, h6⟩, h7⟩, h8⟩, h9⟩, h10⟩, h11⟩, h12⟩,
      t1⟩, t2⟩, h13⟩, h14⟩, t3⟩, t4⟩, t5⟩, t6⟩
    exact ⟨⟨h1, h2, h3, h4, h5, h6, h7, h8, h9, h10, h11, h12, h13, h14⟩,
      t1, t2, t3, t4, t5, t6⟩
  · rintro ⟨⟨h1, h2, h3, h4, h5, h6, h7, h8, h9, h10, h11, h12, h13, h14⟩,
      t1, t2, t3, t4, t5, t6⟩
    exact ⟨⟨⟨⟨⟨⟨⟨⟨⟨⟨⟨⟨⟨⟨⟨⟨⟨⟨⟨h1, h2⟩, h3⟩, h4⟩, h5⟩, h6⟩, h7⟩, h8⟩, h9⟩, h10⟩, h11⟩, h12⟩,
      t1⟩, t2⟩, h13⟩, h14⟩, t3⟩, t4⟩, t5⟩, t6⟩

theorem forall₂_imp_of_mem {α β : Type*} {r r' : α → β → Prop} {l : List α} {l' : List β}
    (h : ∀ a ∈ l, ∀ b ∈ l', r a b → r' a b) (hr : List.Forall₂ r l l') :
    List.Forall₂ r' l l' := by
  obtain ⟨hlength, hzip⟩ := List.forall₂_iff_zip.mp hr
  refine List.forall₂_iff_zip.mpr ⟨hlength, fun hpair => ?_⟩
  obtain ⟨ha, hb⟩ := List.of_mem_zip hpair
  exact h _ ha _ hb (hzip hpair)

/-- A request matches the stored one exactly when the two agree apart from
`__proto__` members and keep each other's ties. -/
theorem requestMatches_iff {collation : Collation} {request stored : ToolRequest}
    (hrequest : request.IsJson) (hstored : stored.IsJson) :
    requestMatchesPendingApproval (stableStringify collation) request stored = true ↔
      FieldsAgree stored request ∧
        List.Forall₂ (fun value other => SameJson (dropProto value) (dropProto other) ∧
          TiesKept collation value other) (comparedTrees stored) (comparedTrees request) := by
  have htext : ∀ value ∈ comparedTrees stored, ∀ other ∈ comparedTrees request,
      (stableStringify collation value = stableStringify collation other ↔
        SameJson (dropProto value) (dropProto other) ∧ TiesKept collation value other) := by
    intro value hvalue other hother
    exact stableStringify_eq_iff (hstored value hvalue) (hrequest other hother)
  rw [requestMatchesPendingApproval_iff]
  refine and_congr_right fun _ => ⟨?_, ?_⟩
  · exact forall₂_imp_of_mem fun value hvalue other hother => (htext value hvalue other hother).mp
  · exact forall₂_imp_of_mem fun value hvalue other hother => (htext value hvalue other hother).mpr

/-- Where two requests agree, only the ties decide whether they match. -/
theorem forall₂_tiesKept_iff {collation : Collation} {request stored : ToolRequest}
    (hsame : List.Forall₂ SameJson (comparedTrees stored) (comparedTrees request)) :
    List.Forall₂ (fun value other => SameJson (dropProto value) (dropProto other) ∧
        TiesKept collation value other) (comparedTrees stored) (comparedTrees request) ↔
      List.Forall₂ (TiesKept collation) (comparedTrees stored) (comparedTrees request) := by
  constructor
  · exact List.Forall₂.imp fun _ _ h => h.2
  · have hdropped : List.Forall₂ (fun value other =>
        SameJson (dropProto value) (dropProto other)) (comparedTrees stored)
        (comparedTrees request) := hsame.imp fun _ _ h => h.dropProto
    exact List.Forall₂.mp (fun _ _ h h' => ⟨h, h'⟩) hdropped

/-- A reference to an approval that waits and is approved passes verification
exactly when the request matches the stored one. -/
theorem getVerifiedApprovalBypassId_eq_some_iff {text : StableStringify} {store : Store}
    {now : Nat} {request : ToolRequest} {approvalId : String}
    {pending : PendingApprovalAction}
    (hreference : extractApprovalId request = some approvalId)
    (hpending : store.findFreshPending now approvalId = some pending)
    (htype : pending.actionType = .toolInvoke)
    (happroved : store.isApproved approvalId = true) :
    getVerifiedApprovalBypassId text store now request = some approvalId ↔
      requestMatchesPendingApproval text request pending.request = true := by
  have hwaits : pending.resolutionStatus = .pending := by
    have hfresh := (Option.filter_eq_some_iff.mp hpending).2
    exact of_decide_eq_true (Bool.and_eq_true_iff.mp hfresh).1
  simp [getVerifiedApprovalBypassId, hreference, hpending, verifyPendingRow, htype, hwaits,
    happroved]

/-- For an approval that waits and is approved: the approval admits exactly the
requests that agree with the stored one, if and only if the request neither
differs from it in `__proto__` members only nor agrees with it while keys that are
equal for the locale were inserted in another order. -/
theorem approval_admits_approved_iff {collation : Collation} {store : Store} {now : Nat}
    {request : ToolRequest} {approvalId : String} {pending : PendingApprovalAction}
    (hreference : extractApprovalId request = some approvalId)
    (hpending : store.findFreshPending now approvalId = some pending)
    (htype : pending.actionType = .toolInvoke)
    (happroved : store.isApproved approvalId = true)
    (hrequest : request.IsJson) (hstored : pending.request.IsJson) :
    (getVerifiedApprovalBypassId (stableStringify collation) store now request =
        some approvalId ↔ RequestsAgree pending.request request) ↔
      ¬DifferInProtoOnly collation pending.request request ∧
        ¬AgreeWithTiesReordered collation pending.request request := by
  rw [getVerifiedApprovalBypassId_eq_some_iff hreference hpending htype happroved,
    requestMatches_iff hrequest hstored]
  have hties := @forall₂_tiesKept_iff collation request pending.request
  unfold DifferInProtoOnly AgreeWithTiesReordered RequestsAgree
  constructor
  · intro h
    constructor
    · rintro ⟨hfields, hmatch, hdiffer⟩
      exact hdiffer (h.mp ⟨hfields, hmatch⟩).2
    · rintro ⟨⟨hfields, hsame⟩, hreordered⟩
      exact hreordered ((hties hsame).mp (h.mpr ⟨hfields, hsame⟩).2)
  · rintro ⟨hproto, hreordered⟩
    constructor
    · rintro ⟨hfields, hmatch⟩
      refine ⟨hfields, ?_⟩
      by_contra hdiffer
      exact hproto ⟨hfields, hmatch, hdiffer⟩
    · rintro ⟨hfields, hsame⟩
      refine ⟨hfields, (hties hsame).mpr ?_⟩
      by_contra hdiffer
      exact hreordered ⟨⟨hfields, hsame⟩, hdiffer⟩

/-! ## A request to write a file -/

def codePointCollation : Collation where
  le a b := decide (a ≤ b)
  total a b := by simpa using le_total a b
  trans a b c hab hbc := by
    simp only [decide_eq_true_eq] at *
    exact le_trans hab hbc

def writeRequest (args : JsonObject) : ToolRequest :=
  { toolName := "fs.write", agentId := "agent", sessionId := "session", args := some args,
    consentReason := some "approval:a1" }

def approvedWrite : PendingApprovalAction :=
  { actionType := .toolInvoke,
    request := writeRequest [("path", .string "notes.txt"), ("content", .string "text")],
    createdAt := 0, expiresAt := none, resolutionStatus := .pending }

def approvedWriteStore : Store :=
  { dialect := .sqlite, grants := [], decisions := [],
    pendingActions := fun id => if id = "a1" then some approvedWrite else none,
    approvals := fun id => if id = "a1" then some .approved else none,
    registrations := fun _ => none, listWards := fun _ => [],
    sessionWorkspace := fun _ => none }

def swappedWrite : ToolRequest :=
  writeRequest [("content", .string "text"), ("path", .string "notes.txt")]

def protoWrite : ToolRequest :=
  writeRequest [("path", .string "notes.txt"), ("content", .string "text"),
    ("__proto__", .object [("append", .bool true)])]

theorem writeRequest_isJson {args : JsonObject}
    (hargs : JsonValue.Valid (.object args)) : (writeRequest args).IsJson := by
  have hempty : JsonValue.Valid (.object []) :=
    ⟨.object List.nodup_nil (by simp), .object trivial (by simp)⟩
  have hnone : JsonValue.Valid (.array []) :=
    ⟨.array trivial (by simp), .array trivial (by simp)⟩
  intro tree htree
  simp only [comparedTrees, writeRequest, Option.getD_none, Option.getD_some, List.map_nil,
    List.mem_cons, List.not_mem_nil, or_false] at htree
  rcases htree with rfl | rfl | rfl | rfl | rfl | rfl
  · exact hnone
  · exact hempty
  · exact hnone
  · exact hempty
  · exact hempty
  · exact hargs

theorem valid_of_texts {args : JsonObject} (hkeys : (args.map Prod.fst).Nodup)
    (htexts : ∀ field ∈ args, ∃ text, field.2 = .string text) :
    JsonValue.Valid (.object args) := by
  refine ⟨.object hkeys ?_, .object trivial ?_⟩ <;> intro field hfield
  · obtain ⟨text, htext⟩ := htexts field hfield
    rw [htext]
    exact .string trivial
  · obtain ⟨text, htext⟩ := htexts field hfield
    rw [htext]
    exact .string trivial

theorem swappedWrite_admitted_iff :
    (getVerifiedApprovalBypassId (stableStringify codePointCollation) approvedWriteStore 1
        swappedWrite = some "a1" ↔ RequestsAgree approvedWrite.request swappedWrite) ↔
      ¬DifferInProtoOnly codePointCollation approvedWrite.request swappedWrite ∧
        ¬AgreeWithTiesReordered codePointCollation approvedWrite.request swappedWrite := by
  refine approval_admits_approved_iff (by decide +kernel) rfl rfl rfl
    (writeRequest_isJson ?_) (writeRequest_isJson ?_)
  · exact valid_of_texts (by decide) (by simp)
  · exact valid_of_texts (by decide) (by simp)

/-- A member named `__proto__` that was never approved is let through. -/
theorem proto_member_admitted :
    ¬(getVerifiedApprovalBypassId (stableStringify codePointCollation) approvedWriteStore 1
        protoWrite = some "a1" ↔ RequestsAgree approvedWrite.request protoWrite) := by
  intro h
  have hadmitted : getVerifiedApprovalBypassId (stableStringify codePointCollation)
      approvedWriteStore 1 protoWrite = some "a1" := by decide +kernel
  have htrees := (h.mp hadmitted).2
  simp only [comparedTrees, List.forall₂_cons] at htrees
  obtain ⟨-, -, -, -, -, hargs, -⟩ := htrees
  have hmembers := congrArg List.length (JsonValue.object.inj hargs)
  rw [List.length_insertionSort, List.length_insertionSort] at hmembers
  exact absurd hmembers (by decide)

end GoatCitadel.Policy
