import GoatCitadel.Policy.CanonicalText
import GoatCitadel.Storage.InboundLanes
import GoatCitadel.Support.StableSort

/-!
# What is stored of an inbound payload

The payload of an event is rebuilt with the members of its objects in the order of their keys,
and its text is stored and compared.  The rebuilt objects lose the members named `__proto__`,
and nothing else is lost.
-/

namespace GoatCitadel.Storage.InboundChannelEvents

open GoatCitadel.Support
open GoatCitadel.Policy

/-! ## The size of a value -/

mutual

/-- How many values the deepest value lies in. -/
def nesting : JsonValue → Nat
  | .array items => nestingOfItems items
  | .object fields => nestingOfFields fields
  | .null => 0
  | .bool _ => 0
  | .number _ => 0
  | .string _ => 0

def nestingOfItems : List JsonValue → Nat
  | [] => 0
  | item :: items => max (nesting item + 1) (nestingOfItems items)

def nestingOfFields : List (String × JsonValue) → Nat
  | [] => 0
  | (_, value) :: fields => max (nesting value + 1) (nestingOfFields fields)

end

mutual

/-- The number of keys in the value. -/
def keyTotal : JsonValue → Nat
  | .array items => keyTotalOfItems items
  | .object fields => keyTotalOfFields fields
  | .null => 0
  | .bool _ => 0
  | .number _ => 0
  | .string _ => 0

def keyTotalOfItems : List JsonValue → Nat
  | [] => 0
  | item :: items => keyTotal item + keyTotalOfItems items

def keyTotalOfFields : List (String × JsonValue) → Nat
  | [] => 0
  | (_, value) :: fields => 1 + keyTotal value + keyTotalOfFields fields

end

theorem nestingOfItems_le_iff {items : List JsonValue} {n : Nat} :
    nestingOfItems items ≤ n ↔ ∀ item ∈ items, nesting item + 1 ≤ n := by
  induction items with
  | nil => simp [nestingOfItems]
  | cons item items ih => rw [nestingOfItems, max_le_iff, ih, List.forall_mem_cons]

theorem nestingOfFields_le_iff {fields : JsonObject} {n : Nat} :
    nestingOfFields fields ≤ n ↔ ∀ field ∈ fields, nesting field.2 + 1 ≤ n := by
  induction fields with
  | nil => simp [nestingOfFields]
  | cons field fields ih => rw [nestingOfFields, max_le_iff, ih, List.forall_mem_cons]

theorem keyTotalOfItems_eq_sum (items : List JsonValue) :
    keyTotalOfItems items = (items.map keyTotal).sum := by
  induction items with
  | nil => rfl
  | cons item items ih => rw [keyTotalOfItems, ih, List.map_cons, List.sum_cons]

theorem keyTotalOfFields_eq_sum (fields : JsonObject) :
    keyTotalOfFields fields = (fields.map fun field => 1 + keyTotal field.2).sum := by
  induction fields with
  | nil => rfl
  | cons field fields ih => rw [keyTotalOfFields, ih, List.map_cons, List.sum_cons]

/-! ## The visit -/

/-- The members of an object as they are assigned to a new one. -/
def assigned (fields : JsonObject) : JsonObject :=
  ownOrder (fields.foldl assign [])

/-- What `visit` returns, when it does not throw. -/
def visited (value : JsonValue) : JsonValue :=
  rearrange assigned value

/-- The visit of a value at a depth: when it returns, and what. -/
def Visits (depth : Nat) (value : JsonValue) : Prop :=
  ∀ {keyCount : Nat} {result : JsonValue} {total : Nat}, keyCount ≤ maxPayloadKeys →
    (visit depth keyCount value = .ok (result, total) ↔
      depth + nesting value ≤ maxPayloadDepth ∧ keyCount + keyTotal value ≤ maxPayloadKeys ∧
        result = visited value ∧ total = keyCount + keyTotal value)

theorem visit_leaf_iff {depth keyCount total : Nat} {value result : JsonValue} {message : String}
    (hcount : keyCount ≤ maxPayloadKeys) :
    (if maxPayloadDepth < depth then throw (.payloadTooLarge message)
      else return (value, keyCount) : Except InboundChannelEventError (JsonValue × Nat)) =
        .ok (result, total) ↔
      depth ≤ maxPayloadDepth ∧ keyCount ≤ maxPayloadKeys ∧ result = value ∧
        total = keyCount := by
  by_cases hdepth : maxPayloadDepth < depth
  · rw [if_pos hdepth]
    constructor
    · intro h
      cases h
    · intro h
      exact absurd h.1 (Nat.not_le.mpr hdepth)
  · rw [if_neg hdepth]
    constructor
    · intro h
      obtain ⟨rfl, rfl⟩ := ok_pair_inj h
      exact ⟨Nat.not_lt.mp hdepth, hcount, rfl, rfl⟩
    · rintro ⟨-, -, rfl, rfl⟩
      rfl

theorem visitItems_eq_ok_iff {depth : Nat} {items : List JsonValue}
    (hitems : ∀ item ∈ items, Visits depth item) {keyCount total : Nat}
    {results : List JsonValue} (hcount : keyCount ≤ maxPayloadKeys) :
    visitItems depth keyCount items = .ok (results, total) ↔
      (∀ item ∈ items, depth + nesting item ≤ maxPayloadDepth) ∧
        keyCount + keyTotalOfItems items ≤ maxPayloadKeys ∧ results = items.map visited ∧
        total = keyCount + keyTotalOfItems items := by
  induction items generalizing keyCount total results with
  | nil =>
      constructor
      · intro h
        obtain ⟨rfl, rfl⟩ := ok_pair_inj h
        exact ⟨fun _ hitem => absurd hitem List.not_mem_nil, hcount, rfl, rfl⟩
      · rintro ⟨-, -, rfl, rfl⟩
        rfl
  | cons item items ih =>
      obtain ⟨hitem, hrest⟩ := List.forall_mem_cons.mp hitems
      rw [List.forall_mem_cons, keyTotalOfItems, List.map_cons]
      constructor
      · intro h
        obtain ⟨⟨first, middle⟩, hfirst, h⟩ := bind_eq_ok.mp h
        obtain ⟨⟨others, last⟩, hothers, h⟩ := bind_eq_ok.mp h
        obtain ⟨rfl, rfl⟩ := ok_pair_inj h
        obtain ⟨hdepth, hkeys, rfl, rfl⟩ := (hitem hcount).mp hfirst
        obtain ⟨hdepths, htotal, rfl, rfl⟩ := (ih hrest hkeys).mp hothers
        exact ⟨⟨hdepth, hdepths⟩, by omega, rfl, by omega⟩
      · rintro ⟨⟨hdepth, hdepths⟩, htotal, rfl, rfl⟩
        have hkeys : keyCount + keyTotal item ≤ maxPayloadKeys := by omega
        have hfirst := (hitem hcount).mpr ⟨hdepth, hkeys, rfl, rfl⟩
        have hothers := (ih hrest hkeys).mpr ⟨hdepths, by omega, rfl, rfl⟩
        rw [visitItems, hfirst]
        dsimp only [bind, Except.bind]
        rw [hothers, Nat.add_assoc]
        rfl

theorem visitFields_eq_ok_iff {depth : Nat} {fields : JsonObject}
    (hfields : ∀ field ∈ fields, Visits depth field.2) {keyCount total : Nat}
    {results : JsonObject} (hcount : keyCount ≤ maxPayloadKeys) :
    visitFields depth keyCount fields = .ok (results, total) ↔
      (∀ field ∈ fields, depth + nesting field.2 ≤ maxPayloadDepth) ∧
        keyCount + keyTotalOfFields fields ≤ maxPayloadKeys ∧
        results = fields.map (fun field => (field.1, visited field.2)) ∧
        total = keyCount + keyTotalOfFields fields := by
  induction fields generalizing keyCount total results with
  | nil =>
      constructor
      · intro h
        obtain ⟨rfl, rfl⟩ := ok_pair_inj h
        exact ⟨fun _ hfield => absurd hfield List.not_mem_nil, hcount, rfl, rfl⟩
      · rintro ⟨-, -, rfl, rfl⟩
        rfl
  | cons field fields ih =>
      obtain ⟨key, value⟩ := field
      obtain ⟨hfield, hrest⟩ := List.forall_mem_cons.mp hfields
      have hvalue : Visits depth value := hfield
      rw [List.forall_mem_cons, keyTotalOfFields, List.map_cons, visitFields]
      by_cases hfull : maxPayloadKeys < keyCount + 1
      · rw [if_pos hfull]
        constructor
        · intro h
          cases h
        · rintro ⟨-, htotal, -⟩
          omega
      · rw [if_neg hfull]
        constructor
        · intro h
          obtain ⟨⟨first, middle⟩, hfirst, h⟩ := bind_eq_ok.mp h
          obtain ⟨⟨others, last⟩, hothers, h⟩ := bind_eq_ok.mp h
          obtain ⟨rfl, rfl⟩ := ok_pair_inj h
          obtain ⟨hdepth, hkeys, rfl, rfl⟩ := (hvalue (by omega)).mp hfirst
          obtain ⟨hdepths, htotal, rfl, rfl⟩ := (ih hrest hkeys).mp hothers
          exact ⟨⟨hdepth, hdepths⟩, by omega, rfl, by omega⟩
        · rintro ⟨⟨hdepth, hdepths⟩, htotal, rfl, rfl⟩
          have hkeys : keyCount + 1 + keyTotal value ≤ maxPayloadKeys := by omega
          have hfirst := (hvalue (by omega)).mpr ⟨hdepth, hkeys, rfl, rfl⟩
          have hothers := (ih hrest hkeys).mpr ⟨hdepths, by omega, rfl, rfl⟩
          have hsum : keyCount + (1 + keyTotal value + keyTotalOfFields fields) =
              keyCount + 1 + keyTotal value + keyTotalOfFields fields := by omega
          rw [hfirst]
          dsimp only [bind, Except.bind]
          rw [hothers, hsum]
          rfl

/-- An array or an object is visited one deeper than what it holds. -/
theorem forall_nesting_iff {α : Type} {depth bound : Nat} {members : List α} {height : α → Nat}
    (hdepth : depth ≤ bound) {whole : Nat}
    (hwhole : ∀ n, whole ≤ n ↔ ∀ member ∈ members, height member + 1 ≤ n) :
    (∀ member ∈ members, depth + 1 + height member ≤ bound) ↔ depth + whole ≤ bound := by
  have hsplit : depth + whole ≤ bound ↔ whole ≤ bound - depth := by omega
  rw [hsplit, hwhole]
  refine forall₂_congr fun member _ => ?_
  omega

theorem visits (value : JsonValue) (depth : Nat) : Visits depth value := by
  induction value using JsonValue.byMembers generalizing depth with
  | null => exact visit_leaf_iff
  | bool value => exact visit_leaf_iff
  | number text => exact visit_leaf_iff
  | string value => exact visit_leaf_iff
  | array items ih =>
      intro keyCount result total hcount
      rw [visit, nesting, keyTotal]
      by_cases hdepth : maxPayloadDepth < depth
      · rw [if_pos hdepth]
        constructor
        · intro h
          cases h
        · intro h
          omega
      · rw [if_neg hdepth, ← forall_nesting_iff (Nat.not_lt.mp hdepth)
          fun n => nestingOfItems_le_iff]
        have hitems : ∀ item ∈ items, Visits (depth + 1) item :=
          fun item hitem => ih item hitem _
        constructor
        · intro h
          obtain ⟨⟨results, last⟩, hresults, h⟩ := bind_eq_ok.mp h
          obtain ⟨rfl, rfl⟩ := ok_pair_inj h
          obtain ⟨hdepths, htotal, rfl, rfl⟩ := (visitItems_eq_ok_iff hitems hcount).mp hresults
          refine ⟨hdepths, htotal, ?_, rfl⟩
          rw [visited, rearrange_array]
          rfl
        · rintro ⟨hdepths, htotal, rfl, rfl⟩
          rw [(visitItems_eq_ok_iff hitems hcount).mpr ⟨hdepths, htotal, rfl, rfl⟩, visited,
            rearrange_array]
          rfl
  | object fields ih =>
      intro keyCount result total hcount
      rw [visit, nesting, keyTotal]
      by_cases hdepth : maxPayloadDepth < depth
      · rw [if_pos hdepth]
        constructor
        · intro h
          cases h
        · intro h
          omega
      · rw [if_neg hdepth, ← forall_nesting_iff (Nat.not_lt.mp hdepth)
          fun n => nestingOfFields_le_iff]
        have hfields : ∀ field ∈ fields, Visits (depth + 1) field.2 :=
          fun field hfield => ih field hfield _
        constructor
        · intro h
          obtain ⟨⟨results, last⟩, hresults, h⟩ := bind_eq_ok.mp h
          obtain ⟨rfl, rfl⟩ := ok_pair_inj h
          obtain ⟨hdepths, htotal, rfl, rfl⟩ :=
            (visitFields_eq_ok_iff hfields hcount).mp hresults
          refine ⟨hdepths, htotal, ?_, rfl⟩
          rw [visited, rearrange_object]
          rfl
        · rintro ⟨hdepths, htotal, rfl, rfl⟩
          rw [(visitFields_eq_ok_iff hfields hcount).mpr ⟨hdepths, htotal, rfl, rfl⟩, visited,
            rearrange_object]
          rfl

theorem map_sortByKey (change : JsonValue → JsonValue) (fields : JsonObject) :
    (sortByKey fields).map (fun field => (field.1, change field.2)) =
      sortByKey (fields.map fun field => (field.1, change field.2)) :=
  List.map_insertionSort _ _ _ _ fun _ _ _ _ => Iff.rfl

/-- A payload is rebuilt as `sortValue` rebuilds it, in the order of the code units. -/
theorem visited_sortMembers (value : JsonValue) :
    visited (sortMembers value) = sortValue utf16Collation value :=
  rearrange_comp map_sortByKey value

/-! ## Members named `__proto__` -/

/-- No key of the object is `__proto__`. -/
def NoProtoKey : JsonValue → Prop
  | .object fields => ∀ field ∈ fields, field.1 ≠ "__proto__"
  | _ => True

/-- No object of the value has a member named `__proto__`. -/
def ProtoFree (value : JsonValue) : Prop :=
  value.Everywhere NoProtoKey

theorem dropProto_of_protoFree (value : JsonValue) (h : ProtoFree value) :
    dropProto value = value := by
  unfold ProtoFree at h
  induction value using JsonValue.byMembers with
  | null => rfl
  | bool value => rfl
  | number text => rfl
  | string value => rfl
  | array items ih =>
      rw [dropProto_array]
      congr 1
      have hitems : items.map dropProto = items.map id :=
        List.map_congr_left fun item hitem => ih item hitem (h.of_array item hitem)
      rw [hitems, List.map_id]
  | object fields ih =>
      rw [dropProto_object]
      congr 1
      have hfields : (fields.map fun field => (field.1, dropProto field.2)) = fields.map id := by
        refine List.map_congr_left fun field hfield => ?_
        rw [ih field hfield (h.of_object field hfield)]
        rfl
      rw [hfields, List.map_id]
      exact List.filter_eq_self.mpr fun field hfield => decide_eq_true (h.here field hfield)

theorem protoFree_dropProto (value : JsonValue) : ProtoFree (dropProto value) := by
  unfold ProtoFree
  induction value using JsonValue.byMembers with
  | null => exact .null trivial
  | bool value => exact .bool trivial
  | number text => exact .number trivial
  | string value => exact .string trivial
  | array items ih =>
      rw [dropProto_array]
      refine .array trivial fun item hitem => ?_
      obtain ⟨original, horiginal, rfl⟩ := List.mem_map.mp hitem
      exact ih original horiginal
  | object fields ih =>
      rw [dropProto_object]
      refine .object (fun field hfield => of_decide_eq_true (List.mem_filter.mp hfield).2)
        fun field hfield => ?_
      obtain ⟨original, horiginal, rfl⟩ := List.mem_map.mp (List.mem_of_mem_filter hfield)
      exact ih original horiginal

theorem nesting_dropProto_le (value : JsonValue) : nesting (dropProto value) ≤ nesting value := by
  induction value using JsonValue.byMembers with
  | null => exact le_rfl
  | bool value => exact le_rfl
  | number text => exact le_rfl
  | string value => exact le_rfl
  | array items ih =>
      rw [dropProto_array, nesting, nesting, nestingOfItems_le_iff]
      intro item hitem
      obtain ⟨original, horiginal, rfl⟩ := List.mem_map.mp hitem
      exact (Nat.succ_le_succ (ih original horiginal)).trans
        (nestingOfItems_le_iff.mp le_rfl original horiginal)
  | object fields ih =>
      rw [dropProto_object, nesting, nesting, nestingOfFields_le_iff]
      intro field hfield
      obtain ⟨original, horiginal, rfl⟩ := List.mem_map.mp (List.mem_of_mem_filter hfield)
      exact (Nat.succ_le_succ (ih original horiginal)).trans
        (nestingOfFields_le_iff.mp le_rfl original horiginal)

/-- The keys that are left are as many as before only when none was `__proto__`. -/
theorem keyTotal_dropProto (value : JsonValue) :
    keyTotal (dropProto value) ≤ keyTotal value ∧
      (keyTotal (dropProto value) = keyTotal value → ProtoFree value) := by
  unfold ProtoFree
  induction value using JsonValue.byMembers with
  | null => exact ⟨le_rfl, fun _ => .null trivial⟩
  | bool value => exact ⟨le_rfl, fun _ => .bool trivial⟩
  | number text => exact ⟨le_rfl, fun _ => .number trivial⟩
  | string value => exact ⟨le_rfl, fun _ => .string trivial⟩
  | array items ih =>
      rw [dropProto_array, keyTotal, keyTotal]
      have hitems : keyTotalOfItems (items.map dropProto) ≤ keyTotalOfItems items ∧
          (keyTotalOfItems (items.map dropProto) = keyTotalOfItems items →
            ∀ item ∈ items, item.Everywhere NoProtoKey) := by
        induction items with
        | nil => exact ⟨le_rfl, fun _ _ hitem => absurd hitem List.not_mem_nil⟩
        | cons item items ihItems =>
            obtain ⟨hitem, hrest⟩ := List.forall_mem_cons.mp ih
            obtain ⟨hle, heq⟩ := ihItems hrest
            rw [List.map_cons, keyTotalOfItems, keyTotalOfItems, List.forall_mem_cons]
            refine ⟨Nat.add_le_add hitem.1 hle, fun hsum => ⟨hitem.2 ?_, heq ?_⟩⟩
            · have := hitem.1
              omega
            · have := hitem.1
              omega
      exact ⟨hitems.1, fun hsum => .array trivial (hitems.2 hsum)⟩
  | object fields ih =>
      rw [dropProto_object, keyTotal, keyTotal]
      have hfields : keyTotalOfFields ((fields.map fun field => (field.1, dropProto field.2)).filter
            fun field => decide (field.1 ≠ "__proto__")) ≤ keyTotalOfFields fields ∧
          (keyTotalOfFields ((fields.map fun field => (field.1, dropProto field.2)).filter
              fun field => decide (field.1 ≠ "__proto__")) = keyTotalOfFields fields →
            ∀ field ∈ fields, field.1 ≠ "__proto__" ∧ field.2.Everywhere NoProtoKey) := by
        induction fields with
        | nil => exact ⟨le_rfl, fun _ _ hfield => absurd hfield List.not_mem_nil⟩
        | cons field fields ihFields =>
            obtain ⟨key, value⟩ := field
            obtain ⟨hvalue, hrest⟩ := List.forall_mem_cons.mp ih
            obtain ⟨hle, heq⟩ := ihFields hrest
            have hvalueLe : keyTotal (dropProto value) ≤ keyTotal value := hvalue.1
            rw [List.map_cons, List.forall_mem_cons]
            dsimp only
            by_cases hproto : key = "__proto__"
            · rw [List.filter_cons_of_neg (by simp [hproto]), keyTotalOfFields]
              exact ⟨by omega, fun hsum => by omega⟩
            · rw [List.filter_cons_of_pos (by simp [hproto]), keyTotalOfFields, keyTotalOfFields]
              refine ⟨by omega, fun hsum => ⟨⟨hproto, hvalue.2 ?_⟩, heq (by omega)⟩⟩
              show keyTotal (dropProto value) = keyTotal value
              omega
      exact ⟨hfields.1, fun hsum => .object (fun field hfield => (hfields.2 hsum field hfield).1)
        fun field hfield => (hfields.2 hsum field hfield).2⟩

/-! ## Values with their members in another order -/

section Orders

variable {order : JsonObject → JsonObject} (horder : ∀ fields, (order fields).Perm fields)

include horder

theorem nesting_rearrange (value : JsonValue) :
    nesting (rearrange order value) = nesting value := by
  induction value using JsonValue.byMembers with
  | null => rfl
  | bool value => rfl
  | number text => rfl
  | string value => rfl
  | array items ih =>
      rw [rearrange_array, nesting, nesting]
      refine eq_of_forall_ge_iff fun n => ?_
      rw [nestingOfItems_le_iff, nestingOfItems_le_iff, List.forall_mem_map]
      refine forall₂_congr fun item hitem => ?_
      rw [ih item hitem]
  | object fields ih =>
      rw [rearrange_object, nesting, nesting]
      refine eq_of_forall_ge_iff fun n => ?_
      have hmembers : (∀ field ∈ order (fields.map fun field =>
          (field.1, rearrange order field.2)), nesting field.2 + 1 ≤ n) ↔
            ∀ field ∈ fields.map fun field => (field.1, rearrange order field.2),
              nesting field.2 + 1 ≤ n :=
        forall_congr' fun field => by rw [(horder _).mem_iff]
      rw [nestingOfFields_le_iff, nestingOfFields_le_iff, hmembers, List.forall_mem_map]
      refine forall₂_congr fun field hfield => ?_
      rw [ih field hfield]

theorem keyTotal_rearrange (value : JsonValue) :
    keyTotal (rearrange order value) = keyTotal value := by
  induction value using JsonValue.byMembers with
  | null => rfl
  | bool value => rfl
  | number text => rfl
  | string value => rfl
  | array items ih =>
      rw [rearrange_array, keyTotal, keyTotal, keyTotalOfItems_eq_sum, keyTotalOfItems_eq_sum,
        List.map_map]
      exact congrArg List.sum (List.map_congr_left ih)
  | object fields ih =>
      rw [rearrange_object, keyTotal, keyTotal, keyTotalOfFields_eq_sum,
        keyTotalOfFields_eq_sum, ((horder _).map _).sum_eq, List.map_map]
      refine congrArg List.sum (List.map_congr_left fun field hfield => ?_)
      rw [Function.comp_apply, ih field hfield]

end Orders

/-! ## Rebuilt values -/

section Rebuilt

variable {value other : JsonValue}

theorem distinctKeys_sortValue (h : value.Everywhere DistinctKeys) :
    (sortValue utf16Collation value).Everywhere DistinctKeys :=
  everywhere_rearrange sortValue_subset id rebuilt_keys_nodup value h

theorem readable_sortValue {format : NumberFormat} (h : Readable format value) :
    Readable format (sortValue utf16Collation value) :=
  ⟨distinctKeys_sortValue h.1,
    everywhere_rearrange sortValue_subset (fun _ => trivial) (fun _ => trivial) value h.2⟩

/-- Different keys are never tied in the order of the code units. -/
theorem tiesInOrder_utf16 {fields members : JsonObject} (hkeys : (fields.map Prod.fst).Nodup) :
    TiesInOrder utf16Collation fields members := by
  intro a b htied _ _ hpair
  obtain rfl := utf16Le_antisymm htied.1 htied.2
  exact absurd rfl (List.pairwise_iff_forall_sublist.mp hkeys hpair)

theorem tiesKept_utf16 (value : JsonValue) (hkeys : value.Everywhere DistinctKeys)
    (other : JsonValue) : TiesKept utf16Collation value other := by
  induction value using JsonValue.byMembers generalizing other with
  | null => simp [TiesKept]
  | bool flag => simp [TiesKept]
  | number text => simp [TiesKept]
  | string text => simp [TiesKept]
  | array items ih =>
      cases other with
      | array items' =>
          rw [TiesKept]
          have hitems := hkeys.of_array
          clear hkeys
          induction items generalizing items' with
          | nil => simp [TiesKeptItems]
          | cons item items ihItems =>
              cases items' with
              | nil => simp [TiesKeptItems]
              | cons item' items' =>
                  rw [TiesKeptItems]
                  refine ⟨ih item List.mem_cons_self (hitems item List.mem_cons_self) item', ?_⟩
                  exact ihItems (fun x hx => ih x (List.mem_cons_of_mem item hx)) items'
                    fun x hx => hitems x (List.mem_cons_of_mem item hx)
      | _ => simp [TiesKept]
  | object fields ih =>
      cases other with
      | object fields' =>
          rw [TiesKept, tiesKeptFields_iff]
          refine ⟨tiesInOrder_utf16 hkeys.here, fun field hfield _ value _ => ?_⟩
          exact ih field hfield (hkeys.of_object field hfield) value
      | _ => simp [TiesKept]

/-- Two values are rebuilt to the same one exactly when they are the same apart from members
named `__proto__`. -/
theorem sortValue_eq_iff (hvalue : value.Everywhere DistinctKeys)
    (hother : other.Everywhere DistinctKeys) :
    sortValue utf16Collation value = sortValue utf16Collation other ↔
      SameJson (dropProto value) (dropProto other) := by
  constructor
  · intro h
    unfold SameJson
    rw [← normalizeKeys_sortValue value hvalue, h, normalizeKeys_sortValue other hother]
  · intro h
    exact sortValue_eq_of_tiesKept value hvalue hother h (tiesKept_utf16 value hvalue other)

/-- What was rebuilt is rebuilt as it is. -/
theorem sortValue_sortValue (h : value.Everywhere DistinctKeys) :
    sortValue utf16Collation (sortValue utf16Collation value) =
      sortValue utf16Collation value := by
  have hsorted := distinctKeys_sortValue h
  apply (sortValue_eq_iff hsorted h).mpr
  unfold SameJson
  rw [← dropProto_normalizeKeys, normalizeKeys_sortValue value h, ← dropProto_normalizeKeys]
  exact dropProto_of_protoFree _ (protoFree_dropProto _)

/-- The array indices come first already. -/
theorem ownOrder_append {indexed rest : JsonObject}
    (hsorted : indexed.Pairwise fun a b => (arrayIndex? a.1).getD 0 ≤ (arrayIndex? b.1).getD 0)
    (hindexed : ∀ field ∈ indexed, (arrayIndex? field.1).isSome = true)
    (hrest : ∀ field ∈ rest, (arrayIndex? field.1).isSome = false) :
    ownOrder (indexed ++ rest) = indexed ++ rest := by
  have hnone : rest.filter (fun field => (arrayIndex? field.1).isSome) = [] :=
    List.filter_eq_nil_iff.mpr fun field hfield => by simp [hrest field hfield]
  have hsome : indexed.filter (fun field => !(arrayIndex? field.1).isSome) = [] :=
    List.filter_eq_nil_iff.mpr fun field hfield => by simp [hindexed field hfield]
  have hkept : rest.filter (fun field => !(arrayIndex? field.1).isSome) = rest :=
    List.filter_eq_self.mpr fun field hfield => by simp [hrest field hfield]
  unfold ownOrder
  rw [List.filter_append, List.filter_append, hnone, hsome, hkept,
    List.filter_eq_self.mpr hindexed, List.append_nil, List.nil_append,
    List.Pairwise.insertionSort_eq hsorted]

theorem ownOrder_ownOrder (fields : JsonObject) :
    ownOrder (ownOrder fields) = ownOrder fields := by
  have : Std.Total fun a b : String × JsonValue =>
      (arrayIndex? a.1).getD 0 ≤ (arrayIndex? b.1).getD 0 := ⟨fun _ _ => le_total _ _⟩
  have : IsTrans (String × JsonValue) fun a b =>
      (arrayIndex? a.1).getD 0 ≤ (arrayIndex? b.1).getD 0 := ⟨fun _ _ _ => le_trans⟩
  refine ownOrder_append (List.pairwise_insertionSort _ _) ?_ ?_
  · intro field hfield
    rw [List.mem_insertionSort] at hfield
    exact (List.mem_filter.mp hfield).2
  · intro field hfield
    exact Bool.not_eq_true' _ ▸ (List.mem_filter.mp hfield).2

/-- Members can be left out before or after they are listed. -/
theorem filter_ownOrder (p : String × JsonValue → Bool) (fields : JsonObject) :
    (ownOrder fields).filter p = ownOrder (fields.filter p) := by
  have hswap : ∀ q : String × JsonValue → Bool,
      (fields.filter q).filter p = (fields.filter p).filter q := by
    intro q
    rw [List.filter_filter, List.filter_filter]
    exact congrArg (List.filter · fields) (funext fun field => Bool.and_comm _ _)
  have hsort : ∀ members : JsonObject,
      (members.insertionSort fun a b =>
        (arrayIndex? a.1).getD 0 ≤ (arrayIndex? b.1).getD 0).filter p =
          (members.filter p).insertionSort fun a b =>
            (arrayIndex? a.1).getD 0 ≤ (arrayIndex? b.1).getD 0 :=
    filter_insertionSort
      (r := fun a b : String × JsonValue =>
        (arrayIndex? a.1).getD 0 ≤ (arrayIndex? b.1).getD 0)
      (fun _ _ => le_total _ _) (fun _ _ _ => le_trans) p
  unfold ownOrder
  rw [List.filter_append, hsort, hswap, hswap]

/-- A rebuilt value is read back from its text as it is. -/
theorem relisted_sortValue (value : JsonValue) (h : value.Everywhere DistinctKeys) :
    relisted (sortValue utf16Collation value) = sortValue utf16Collation value := by
  unfold relisted
  induction value using JsonValue.byMembers with
  | null => rfl
  | bool value => rfl
  | number text => rfl
  | string value => rfl
  | array items ih =>
      rw [sortValue_array, rearrange_array, List.map_map]
      congr 1
      exact List.map_congr_left fun item hitem => ih item hitem (h.of_array item hitem)
  | object fields ih =>
      have hmembers : (rebuilt utf16Collation fields).map
          (fun field => (field.1, rearrange ownOrder field.2)) =
            (rebuilt utf16Collation fields).map id := by
        refine List.map_congr_left fun field hfield => ?_
        obtain ⟨-, value, hvalue, hsorted⟩ := (mem_rebuilt_iff h.here).mp hfield
        rw [← hsorted, ih (field.1, value) hvalue (h.of_object _ hvalue), hsorted]
        rfl
      rw [sortValue_object, rearrange_object, hmembers, List.map_id]
      congr 1
      exact ownOrder_ownOrder _

/-- The members of a rebuilt object, in the order in which they are assigned. -/
theorem rebuilt_eq {fields : JsonObject} (hkeys : (fields.map Prod.fst).Nodup) :
    rebuilt utf16Collation fields =
      ownOrder ((sortByKey (fields.map fun field =>
        (field.1, sortValue utf16Collation field.2))).filter
          fun field => decide (field.1 ≠ "__proto__")) := by
  unfold rebuilt
  rw [foldl_assign_sorted hkeys]
  rfl

theorem filter_sortByKey (p : String × JsonValue → Bool) (fields : JsonObject) :
    (sortByKey fields).filter p = sortByKey (fields.filter p) :=
  filter_insertionSort (r := fun a b : String × JsonValue => utf16Le a.1 b.1 = true)
    (fun _ _ => utf16Le_total _ _) (fun _ _ _ => utf16Le_trans _ _ _) p fields

/-- A member of the rebuilt object can be left out before it is rebuilt. -/
theorem filter_rebuilt {fields : JsonObject} (hkeys : (fields.map Prod.fst).Nodup)
    (kept : String → Bool) :
    (rebuilt utf16Collation fields).filter (fun field => kept field.1) =
      rebuilt utf16Collation (fields.filter fun field => kept field.1) := by
  have hfiltered : ((fields.filter fun field => kept field.1).map Prod.fst).Nodup :=
    hkeys.sublist (List.filter_sublist.map _)
  rw [rebuilt_eq hkeys, rebuilt_eq hfiltered, filter_ownOrder, filter_sortByKey,
    filter_sortByKey, filter_sortByKey, List.filter_filter, List.filter_map, List.filter_map,
    List.filter_filter]
  congr 3
  refine List.filter_congr fun field _ => ?_
  exact Bool.and_comm _ _

end Rebuilt

/-! ## Payloads -/

/-- What `normalizePayload` makes of a payload, when it does not throw. -/
structure Normalized (payload fields : JsonObject) (json : String) : Prop where
  depth : nesting (.object payload) ≤ maxPayloadDepth
  keys : keyTotal (.object payload) ≤ maxPayloadKeys
  members : fields = rebuilt utf16Collation payload
  text : json = stableStringify utf16Collation (.object payload)
  bytes : json.utf8ByteSize ≤ maxPayloadBytes

theorem normalizePayload_eq_ok_iff {payload fields : JsonObject} {json : String} :
    normalizePayload payload = .ok (fields, json) ↔ Normalized payload fields json := by
  have hnesting : nesting (sortMembers (.object payload)) = nesting (.object payload) :=
    nesting_rearrange canonical_sortByKey.perm _
  have hkeys : keyTotal (sortMembers (.object payload)) = keyTotal (.object payload) :=
    keyTotal_rearrange canonical_sortByKey.perm _
  have hvisit := @visits (sortMembers (.object payload)) 0 0
    (.object (rebuilt utf16Collation payload)) (keyTotal (.object payload)) (Nat.zero_le _)
  rw [visited_sortMembers, Nat.zero_add, Nat.zero_add, hnesting, hkeys] at hvisit
  constructor
  · intro h
    obtain ⟨⟨value, total⟩, hvalue, hrest⟩ := bind_eq_ok.mp h
    obtain ⟨hdepth, hcount, hresult, -⟩ := (visits _ _ (Nat.zero_le _)).mp hvalue
    rw [Nat.zero_add, hnesting] at hdepth
    rw [Nat.zero_add, hkeys] at hcount
    rw [visited_sortMembers, sortValue_object] at hresult
    subst hresult
    dsimp only at hrest
    split at hrest
    · cases hrest
    · rename_i hbytes
      obtain ⟨rfl, rfl⟩ := ok_pair_inj hrest
      refine ⟨hdepth, hcount, rfl, ?_, Nat.not_lt.mp hbytes⟩
      rw [stableStringify, sortValue_object]
  · rintro ⟨hdepth, hcount, rfl, rfl, hbytes⟩
    unfold normalizePayload
    rw [stableStringify, sortValue_object] at hbytes ⊢
    rw [hvisit.mpr ⟨hdepth, hcount, sortValue_object.symm, rfl⟩]
    exact if_neg (Nat.not_lt.mpr hbytes)

section Payloads

variable {payload other fields fields' : JsonObject} {json json' : String}

theorem Normalized.object_eq (h : Normalized payload fields json) :
    JsonValue.object fields = sortValue utf16Collation (.object payload) := by
  rw [h.members, sortValue_object]

/-- The text is parsed to the members that are kept. -/
theorem Normalized.parsed {format : NumberFormat} (hpayload : Readable format (.object payload))
    (h : Normalized payload fields json) : jsonParse format json = some (.object fields) := by
  rw [h.text, stableStringify, jsonParse_stringify (readable_sortValue hpayload),
    relisted_sortValue _ hpayload.1, h.object_eq]

/-- What is stored is the payload exactly when no member of it is named `__proto__`. -/
theorem Normalized.sameJson_iff (hpayload : (JsonValue.object payload).Everywhere DistinctKeys)
    (h : Normalized payload fields json) :
    SameJson (.object fields) (.object payload) ↔ ProtoFree (.object payload) := by
  unfold SameJson
  rw [h.object_eq, normalizeKeys_sortValue _ hpayload]
  constructor
  · intro hsame
    apply (keyTotal_dropProto _).2
    rw [← keyTotal_rearrange canonical_normalizeKeys.perm, ← normalizeKeys, hsame,
      normalizeKeys, keyTotal_rearrange canonical_normalizeKeys.perm]
  · intro hfree
    rw [dropProto_of_protoFree _ hfree]

/-- Two texts are the same exactly when the payloads are, apart from such members. -/
theorem Normalized.json_eq_iff (hpayload : (JsonValue.object payload).Valid)
    (hother : (JsonValue.object other).Valid) (h : Normalized payload fields json)
    (h' : Normalized other fields' json') :
    json = json' ↔ SameJson (dropProto (.object payload)) (dropProto (.object other)) := by
  rw [h.text, h'.text, stableStringify_eq_iff hpayload hother]
  exact and_iff_left (tiesKept_utf16 _ hpayload.1 _)

/-- What is stored is normalized again as it is. -/
theorem Normalized.again (hpayload : (JsonValue.object payload).Everywhere DistinctKeys)
    (h : Normalized payload fields json) : Normalized fields fields json := by
  have hsize : ∀ measure : JsonValue → Nat,
      (∀ value, measure (normalizeKeys value) = measure value) →
        measure (.object fields) = measure (dropProto (.object payload)) := by
    intro measure hmeasure
    rw [← hmeasure, h.object_eq, normalizeKeys_sortValue _ hpayload, hmeasure]
  have hagain : sortValue utf16Collation (.object fields) = .object fields := by
    rw [h.object_eq, sortValue_sortValue hpayload]
  refine ⟨?_, ?_, ?_, ?_, h.bytes⟩
  · rw [hsize nesting fun value => nesting_rearrange canonical_normalizeKeys.perm value]
    exact (nesting_dropProto_le _).trans h.depth
  · rw [hsize keyTotal fun value => keyTotal_rearrange canonical_normalizeKeys.perm value]
    exact (keyTotal_dropProto _).1.trans h.keys
  · rw [sortValue_object] at hagain
    exact (JsonValue.object.inj hagain).symm
  · rw [h.text, stableStringify, stableStringify, hagain, h.object_eq]

/-- The payload without the key of the accepted revision. -/
def withoutRevision (payload : JsonObject) : JsonObject :=
  payload.filter fun member => decide (member.1 ≠ acceptedRevisionKey)

theorem valid_withoutRevision (h : (JsonValue.object payload).Valid) :
    (JsonValue.object (withoutRevision payload)).Valid := by
  have hkeys : ((withoutRevision payload).map Prod.fst).Nodup :=
    List.Nodup.sublist (List.filter_sublist.map _) h.1.here
  exact ⟨.object hkeys fun member hmember =>
      h.1.of_object member (List.mem_of_mem_filter hmember),
    .object trivial fun member hmember =>
      h.2.of_object member (List.mem_of_mem_filter hmember)⟩

/-- The text that acceptances are compared by is that of the provider payload. -/
theorem Normalized.providerPayload_eq
    (hpayload : (JsonValue.object payload).Everywhere DistinctKeys)
    (h : Normalized payload fields json) :
    providerPayload fields =
      stableStringify utf16Collation (.object (withoutRevision payload)) := by
  have hfilter := filter_rebuilt hpayload.here fun key => decide (key ≠ acceptedRevisionKey)
  unfold providerPayload stableStringify
  rw [h.members, hfilter, sortValue_object]
  rfl

end Payloads

/-! ## What the rows store -/

/-- The row was accepted with a payload. -/
def StoredFrom (runtime : EventRuntime) (payload : JsonObject) (row : InboundChannelEvent) :
    Prop :=
  ∃ json, normalizePayload payload = .ok (row.payload, json) ∧
    row.payloadHash = runtime.sha256 json

def AllStored (runtime : EventRuntime) (store : EventStore) : Prop :=
  ∀ row ∈ store.rows, ∃ payload, StoredFrom runtime payload row

/-- The write of a row leaves its payload. -/
def LeavesPayload (set : InboundChannelEvent → InboundChannelEvent) : Prop :=
  ∀ row, (set row).payload = row.payload ∧ (set row).payloadHash = row.payloadHash

section Stored

variable {runtime : EventRuntime} {store store' : EventStore}
  {claims : List InboundChannelEventClaimToken}

theorem StoredFrom.written {payload : JsonObject} {row : InboundChannelEvent}
    {set : InboundChannelEvent → InboundChannelEvent} (h : StoredFrom runtime payload row)
    (hset : LeavesPayload set) : StoredFrom runtime payload (set row) := by
  obtain ⟨json, hnormalized, hhash⟩ := h
  refine ⟨json, ?_, (hset row).2.trans hhash⟩
  rw [(hset row).1]
  exact hnormalized

theorem AllStored.update {eventId : String} {guard : InboundChannelEvent → Bool}
    {set : InboundChannelEvent → InboundChannelEvent} (h : AllStored runtime store)
    (hset : LeavesPayload set) :
    AllStored runtime ((store.update eventId guard set).getD store) := by
  unfold EventStore.update
  split
  · intro row hrow
    obtain ⟨before, hbefore, rfl⟩ := mem_updateRows.mp hrow
    obtain ⟨payload, hstored⟩ := h before hbefore
    refine ⟨payload, ?_⟩
    split
    · exact hstored.written hset
    · exact hstored
  · exact h

theorem AllStored.claimCandidates {ownerId claimExpiresAt : String} {randomUUID : Nat → String}
    {draw : Nat} {candidates : List InboundChannelEvent} (h : AllStored runtime store)
    (hclaimed : claimCandidates ownerId claimExpiresAt now randomUUID draw candidates store =
      .ok (claims, store')) : AllStored runtime store' := by
  induction candidates generalizing store claims draw with
  | nil =>
      obtain ⟨-, rfl⟩ := ok_pair_inj hclaimed
      exact h
  | cons candidate rest ih =>
      rw [InboundChannelEvents.claimCandidates] at hclaimed
      split at hclaimed
      · exact ih h hclaimed
      · rename_i written hwritten
        have hfirst : AllStored runtime written := by
          have hupdate := @AllStored.update _ _ candidate.eventId
            (fun row => row.status = candidate.status &&
              row.claimGeneration = candidate.claimGeneration &&
              row.claimToken = candidate.claimToken &&
              row.claimOwnerId = candidate.claimOwnerId &&
              row.claimExpiresAt = candidate.claimExpiresAt && row.claimable now)
            (claimedRow (candidate.claimGeneration + 1) (randomUUID draw) ownerId claimExpiresAt
              now) h fun row => ⟨rfl, rfl⟩
          unfold claimStmt at hwritten
          rw [hwritten] at hupdate
          exact hupdate
        obtain ⟨found, -, hrest⟩ := bind_eq_ok.mp hclaimed
        split at hrest
        · cases hrest
        · obtain ⟨⟨restClaims, restStore⟩, hrestClaims, hdone⟩ := bind_eq_ok.mp hrest
          obtain ⟨-, rfl⟩ := ok_pair_inj hdone
          exact ih hfirst hrestClaims

theorem AllStored.recoverAll (listed : List InboundChannelEvent) (h : AllStored runtime store) :
    AllStored runtime
      (listed.foldl (fun store listed => recoverExpiredStmt listed now store) store) := by
  induction listed generalizing store with
  | nil => exact h
  | cons row rows ih => exact ih (h.update fun row => ⟨rfl, rfl⟩)

theorem AllStored.acceptNormalized {input : NormalizedAcceptance} {acceptedAt : String}
    {skipped : Nat} (h : AllStored runtime store) {payload : JsonObject} {json : String}
    (hpayload : normalizePayload payload = .ok (input.payload, json))
    (hhash : input.payloadHash = runtime.sha256 json)
    (haccepted : acceptNormalized runtime input acceptedAt skipped store = .ok store') :
    AllStored runtime store' := by
  have hinserted : AllStored runtime ((insertStmt input acceptedAt skipped store).getD store) := by
    unfold insertStmt
    split
    · exact h
    · intro row hrow
      obtain hold | hnew := List.mem_append.mp hrow
      · exact h row hold
      · rw [List.mem_singleton.mp hnew]
        exact ⟨payload, json, hpayload, hhash⟩
  unfold InboundChannelEvents.acceptNormalized at haccepted
  split at haccepted
  · obtain ⟨_, -, hdone⟩ := bind_eq_ok.mp haccepted
    rw [← Except.ok.inj hdone]
    exact h
  · obtain ⟨found, -, hrest⟩ := bind_eq_ok.mp haccepted
    split at hrest
    · cases hrest
    · dsimp only at hrest
      obtain ⟨event, -, hrest⟩ := bind_eq_ok.mp hrest
      split at hrest
      · obtain ⟨_, -, hdone⟩ := bind_eq_ok.mp hrest
        rw [← Except.ok.inj hdone]
        exact hinserted
      · obtain ⟨other, -, hrest⟩ := bind_eq_ok.mp hrest
        split at hrest
        · cases hrest
        · cases hrest

/-- A normalized acceptance has the payload of its input, normalized. -/
theorem normalizeAcceptance_payload {randomUUID acceptedAt : String}
    {input : InboundChannelEventAcceptInput} {item : NormalizedAcceptance}
    (h : normalizeAcceptance runtime randomUUID acceptedAt input = .ok item) :
    ∃ json, normalizePayload input.payload = .ok (item.payload, json) ∧
      item.payloadHash = runtime.sha256 json := by
  obtain ⟨_, -, h⟩ := bind_eq_ok.mp h
  obtain ⟨⟨payload, json⟩, hpayload, h⟩ := bind_eq_ok.mp h
  iterate 9 obtain ⟨_, -, h⟩ := bind_eq_ok.mp h
  obtain rfl := Except.ok.inj h
  exact ⟨json, hpayload, rfl⟩

theorem AllStored.accept {acceptance : Acceptance} {acceptedAt : String}
    (h : AllStored runtime store)
    (haccepted : accept runtime acceptance acceptedAt store = .ok store') :
    AllStored runtime store' := by
  obtain ⟨now, -, hrest⟩ := bind_eq_ok.mp haccepted
  obtain ⟨item, hitem, hwritten⟩ := bind_eq_ok.mp hrest
  obtain ⟨json, hpayload, hhash⟩ := normalizeAcceptance_payload hitem
  exact h.acceptNormalized hpayload hhash hwritten

/-- The items have payloads that were normalized. -/
def ItemsStored (runtime : EventRuntime) (items : List (NormalizedAcceptance × Nat)) : Prop :=
  ∀ item ∈ items, ∃ payload json, normalizePayload payload = .ok (item.1.payload, json) ∧
    item.1.payloadHash = runtime.sha256 json

theorem itemsStored_of_normalized {acceptances : List Acceptance}
    {items : List (NormalizedAcceptance × Nat)}
    (h : normalizeAcceptances runtime now acceptances = .ok items) : ItemsStored runtime items := by
  induction acceptances generalizing items with
  | nil =>
      obtain rfl := Except.ok.inj h
      exact fun item hitem => absurd hitem List.not_mem_nil
  | cons acceptance rest ih =>
      obtain ⟨item, hitem, h⟩ := bind_eq_ok.mp h
      obtain ⟨others, hothers, h⟩ := bind_eq_ok.mp h
      obtain rfl := Except.ok.inj h
      exact List.forall_mem_cons.mpr
        ⟨⟨_, normalizeAcceptance_payload hitem⟩, ih hothers⟩

theorem AllStored.acceptAll {items : List (NormalizedAcceptance × Nat)}
    (h : AllStored runtime store) (hitems : ItemsStored runtime items)
    (haccepted : acceptAll runtime now items store = .ok store') : AllStored runtime store' := by
  induction items generalizing store with
  | nil =>
      rw [← Except.ok.inj haccepted]
      exact h
  | cons item items ih =>
      obtain ⟨⟨payload, json, hpayload, hhash⟩, hrest⟩ := List.forall_mem_cons.mp hitems
      obtain ⟨written, hwritten, haccepted⟩ := bind_eq_ok.mp haccepted
      exact ih (h.acceptNormalized hpayload hhash hwritten) hrest haccepted

theorem AllStored.acceptMany {acceptances : List Acceptance} {acceptedAt : String}
    {telegramPollRevision : Option String} {connections : Option (String → Option String)}
    (h : AllStored runtime store)
    (haccepted : acceptMany runtime acceptances acceptedAt telegramPollRevision connections
      store = .ok store') : AllStored runtime store' := by
  obtain ⟨now, -, hrest⟩ := bind_eq_ok.mp haccepted
  obtain ⟨items, hitems, hrest⟩ := bind_eq_ok.mp hrest
  have hstored := itemsStored_of_normalized hitems
  split at hrest
  · exact h.acceptAll hstored hrest
  · split at hrest
    · split at hrest
      · cases hrest
      · split at hrest
        · cases hrest
        · obtain ⟨_, -, hwritten⟩ := bind_eq_ok.mp hrest
          exact h.acceptAll hstored hwritten
    · cases hrest

theorem AllStored.claimDue {input : ClaimDueInput} {randomUUID : Nat → String}
    (h : AllStored runtime store)
    (hclaimed : claimDue runtime input now randomUUID store = .ok (claims, store')) :
    AllStored runtime store' := by
  obtain ⟨_, -, hrest⟩ := bind_eq_ok.mp hclaimed
  iterate 4 obtain ⟨_, -, hrest⟩ := bind_eq_ok.mp hrest
  exact h.claimCandidates hrest

theorem AllStored.recoverExpiredClaims {limit : Option Int} (h : AllStored runtime store)
    (hrecovered : recoverExpiredClaims runtime limit now store = .ok store') :
    AllStored runtime store' := by
  obtain ⟨_, -, hrest⟩ := bind_eq_ok.mp hrecovered
  obtain ⟨_, -, hrest⟩ := bind_eq_ok.mp hrest
  rw [← Except.ok.inj hrest]
  exact h.recoverAll _

/-! ### Calls with a token -/

variable {token : InboundChannelEventClaimToken} {now : String}

theorem AllStored.renew {leaseDurationMs : Int} (h : AllStored runtime store)
    (hdone : renew runtime token leaseDurationMs now store = .ok store') :
    AllStored runtime store' := by
  iterate 4 obtain ⟨_, -, hdone⟩ := bind_eq_ok.mp hdone
  rw [← Except.ok.inj hdone]
  exact h.update fun row => ⟨rfl, rfl⟩

theorem AllStored.release {nextAttemptAt lastError : Option String}
    (h : AllStored runtime store)
    (hdone : release runtime token nextAttemptAt lastError now store = .ok store') :
    AllStored runtime store' := by
  iterate 4 obtain ⟨_, -, hdone⟩ := bind_eq_ok.mp hdone
  rw [← Except.ok.inj hdone]
  exact h.update fun row => ⟨rfl, rfl⟩

theorem AllStored.attachLinkage {linkage : InboundChannelEventLinkage}
    (h : AllStored runtime store)
    (hdone : attachLinkage runtime token linkage now store = .ok store') :
    AllStored runtime store' := by
  iterate 2 obtain ⟨_, -, hdone⟩ := bind_eq_ok.mp hdone
  split at hdone
  · rw [← Except.ok.inj hdone]
    exact h
  · iterate 2 obtain ⟨_, -, hdone⟩ := bind_eq_ok.mp hdone
    rw [← Except.ok.inj hdone]
    exact h.update fun row => ⟨rfl, rfl⟩

theorem AllStored.beginBotLoopEvaluation (h : AllStored runtime store)
    (hdone : beginBotLoopEvaluation runtime token now store = .ok store') :
    AllStored runtime store' := by
  iterate 2 obtain ⟨_, -, hdone⟩ := bind_eq_ok.mp hdone
  split at hdone
  · rw [← Except.ok.inj hdone]
    exact h
  · split at hdone
    · rw [← Except.ok.inj hdone]
      exact h
    · rw [← Except.ok.inj hdone]
      exact h.update fun row => ⟨rfl, rfl⟩

theorem AllStored.completeBotLoopEvaluation {decision : CompletedDecision}
    {reason : Option String} (h : AllStored runtime store)
    (hdone : completeBotLoopEvaluation runtime token decision reason now store = .ok store') :
    AllStored runtime store' := by
  iterate 3 obtain ⟨_, -, hdone⟩ := bind_eq_ok.mp hdone
  split at hdone
  · rw [← Except.ok.inj hdone]
    exact h
  · split at hdone
    · rw [← Except.ok.inj hdone]
      exact h
    · split at hdone
      · split at hdone
        · cases hdone
        · rw [← Except.ok.inj hdone]
          exact h
      · split at hdone
        · cases hdone
        · rw [← Except.ok.inj hdone]
          exact h.update fun row => ⟨rfl, rfl⟩

theorem AllStored.transitionCurrent {transition : InboundChannelEventClaimedTransition}
    {nextAttemptAt : Option String} {linkage : InboundChannelEventLinkage}
    {current : InboundChannelEvent} (h : AllStored runtime store)
    (hdone : transitionCurrent token transition nextAttemptAt linkage now current store =
      .ok store') : AllStored runtime store' := by
  obtain ⟨_, -, hdone⟩ := bind_eq_ok.mp hdone
  split at hdone
  · split at hdone
    · rw [← Except.ok.inj hdone]
      exact h
    · obtain ⟨_, -, hdone⟩ := bind_eq_ok.mp hdone
      rw [← Except.ok.inj hdone]
      exact h
  · split at hdone
    · cases hdone
    · iterate 2 obtain ⟨_, -, hdone⟩ := bind_eq_ok.mp hdone
      rw [← Except.ok.inj hdone]
      exact h.update fun row => ⟨rfl, rfl⟩

theorem AllStored.transitionClaimed {transition : InboundChannelEventClaimedTransition}
    (h : AllStored runtime store)
    (hdone : transitionClaimed runtime token transition now store = .ok store') :
    AllStored runtime store' := by
  iterate 2 obtain ⟨_, -, hdone⟩ := bind_eq_ok.mp hdone
  split at hdone
  · cases hdone
  · split at hdone
    · cases hdone
    · split at hdone
      · cases hdone
      · iterate 2 obtain ⟨_, -, hdone⟩ := bind_eq_ok.mp hdone
        split at hdone
        · rw [← Except.ok.inj hdone]
          exact h
        · exact h.transitionCurrent hdone

/-- Whatever call returns, the rows have the payloads that they were accepted with. -/
theorem AllStored.perform {call : InboundCall} (h : AllStored runtime store)
    (hdone : call.perform runtime now store = .ok (claims, store')) : AllStored runtime store' := by
  cases call with
  | accept acceptance => exact h.accept (InboundChannelEvents.map_eq_ok hdone).2
  | acceptMany acceptances telegramPollRevision connections =>
      exact h.acceptMany (InboundChannelEvents.map_eq_ok hdone).2
  | claimDue input randomUUID => exact h.claimDue hdone
  | renew token leaseDurationMs => exact h.renew (InboundChannelEvents.map_eq_ok hdone).2
  | release token nextAttemptAt lastError =>
      exact h.release (InboundChannelEvents.map_eq_ok hdone).2
  | attachLinkage token linkage =>
      exact h.attachLinkage (InboundChannelEvents.map_eq_ok hdone).2
  | beginBotLoopEvaluation token =>
      exact h.beginBotLoopEvaluation (InboundChannelEvents.map_eq_ok hdone).2
  | completeBotLoopEvaluation token decision reason =>
      exact h.completeBotLoopEvaluation (InboundChannelEvents.map_eq_ok hdone).2
  | transitionClaimed token transition =>
      exact h.transitionClaimed (InboundChannelEvents.map_eq_ok hdone).2
  | recoverExpiredClaims limit =>
      exact h.recoverExpiredClaims (InboundChannelEvents.map_eq_ok hdone).2
  | wait =>
      obtain ⟨-, rfl⟩ := ok_pair_inj hdone
      exact h

theorem AllStored.step {system system' : EventSystem} {transaction : Transaction}
    (h : AllStored runtime system.store) (hstep : system.Step runtime transaction system') :
    AllStored runtime system'.store := by
  obtain ⟨-, -, hperform⟩ := hstep
  split at hperform
  · rename_i hdone
    rw [hperform.2]
    exact h.perform hdone
  · rw [hperform.2]
    exact h

theorem allStored_of_run {system : EventSystem} {transactions : List Transaction}
    (hrun : Run (EventSystem.Step runtime) .initial transactions system) :
    AllStored runtime system.store :=
  Run.invariant (I := fun system => AllStored runtime system.store)
    (fun _ _ _ hstep h => h.step hstep) hrun fun _ hrow => absurd hrow List.not_mem_nil

end Stored

/-! ## Acceptances that are repeated -/

/-- The error of an identity that is used for another event. -/
def reuseConflict : InboundChannelEventError :=
  .conflict "Inbound channel idempotency identity was reused with a different normalized payload."

/-- Everything that is compared agrees, the payload aside. -/
structure SameEnvelope (existing : InboundChannelEvent) (input : NormalizedAcceptance) :
    Prop where
  laneKey : existing.laneKey = input.laneKey
  transport : existing.transport = input.transport
  dispatchKind : existing.dispatchKind = input.dispatchKind
  providerSourceId : existing.providerSourceId = input.providerSourceId

/-- The payloads differ in members named `__proto__` only. -/
def LosesDifference (payload other : JsonObject) : Prop :=
  ¬SameJson (.object payload) (.object other) ∧
    SameJson (dropProto (.object payload)) (dropProto (.object other))

section Repeated

variable {runtime : EventRuntime} {store : EventStore} {existing : InboundChannelEvent}
  {input : NormalizedAcceptance} {payload other : JsonObject} {json : String}

/-- A stored event is a duplicate of an acceptance or in conflict with it. -/
theorem assertPayloadMatch_of_stored (hpayload : (JsonValue.object payload).Valid)
    (hother : (JsonValue.object other).Valid) (hstored : StoredFrom runtime payload existing)
    (hinput : normalizePayload other = .ok (input.payload, json)) :
    (SameEnvelope existing input ∧
        SameJson (dropProto (.object (withoutRevision payload)))
          (dropProto (.object (withoutRevision other))) →
      assertPayloadMatch runtime existing input = .ok ()) ∧
    (¬(SameEnvelope existing input ∧
        SameJson (dropProto (.object (withoutRevision payload)))
          (dropProto (.object (withoutRevision other)))) →
      assertPayloadMatch runtime existing input = .error reuseConflict) := by
  obtain ⟨storedJson, hnormalized, hhash⟩ := hstored
  have hfirst := normalizePayload_eq_ok_iff.mp hnormalized
  have hsecond := normalizePayload_eq_ok_iff.mp hinput
  have hagain := normalizePayload_eq_ok_iff.mpr (hfirst.again hpayload.1)
  have hsame : providerPayload existing.payload = providerPayload input.payload ↔
      SameJson (dropProto (.object (withoutRevision payload)))
        (dropProto (.object (withoutRevision other))) := by
    rw [hfirst.providerPayload_eq hpayload.1, hsecond.providerPayload_eq hother.1,
      stableStringify_eq_iff (valid_withoutRevision hpayload) (valid_withoutRevision hother)]
    exact and_iff_left (tiesKept_utf16 _ (valid_withoutRevision hpayload).1 _)
  unfold assertPayloadMatch
  rw [hagain]
  dsimp only [bind, Except.bind]
  rw [← hsame]
  constructor
  · rintro ⟨⟨hlane, htransport, hkind, hsource⟩, hprovider⟩
    rw [if_neg]
    · rfl
    · rintro (hne | hne | hne | hne | hne | hne)
      · exact hne hlane
      · exact hne htransport
      · exact hne hkind
      · exact hne hsource
      · exact hne hhash.symm
      · exact hne hprovider
  · intro hdiffers
    rw [if_pos]
    · rfl
    · by_contra hall
      push Not at hall
      exact hdiffers ⟨⟨hall.1, hall.2.1, hall.2.2.1, hall.2.2.2.1⟩, hall.2.2.2.2.2⟩

/-- A repeated acceptance is reported as a conflict when anything but members named `__proto__`
differs. -/
theorem acceptNormalized_eq_conflict_iff (hpayload : (JsonValue.object payload).Valid)
    (hother : (JsonValue.object other).Valid)
    (hexisting : store.findByIdentity input.identity = some existing)
    (hstored : StoredFrom runtime payload existing)
    (hinput : normalizePayload other = .ok (input.payload, json)) (acceptedAt : String)
    (skipped : Nat) :
    acceptNormalized runtime input acceptedAt skipped store = .error reuseConflict ↔
      ¬(SameEnvelope existing input ∧
        SameJson (dropProto (.object (withoutRevision payload)))
          (dropProto (.object (withoutRevision other)))) := by
  obtain ⟨hsame, hdiffers⟩ := assertPayloadMatch_of_stored hpayload hother hstored hinput
  unfold acceptNormalized
  rw [hexisting]
  dsimp only
  constructor
  · intro h hmatches
    rw [hsame hmatches] at h
    cases h
  · intro h
    rw [hdiffers h]
    rfl

end Repeated

section Laws

variable {runtime : EventRuntime} {format : NumberFormat} {system : EventSystem}
  {transactions : List Transaction}

/-- Every row of every run has a payload that it was accepted with.  The text of a payload is
parsed to the payload exactly when no member is named `__proto__`; two texts tell two payloads
apart, and a repeated acceptance with another provider payload is a conflict, exactly when more
than such members differs. -/
theorem inbound_payloads_stored
    (hrun : Run (EventSystem.Step runtime) .initial transactions system) :
    (∀ row ∈ system.store.rows, ∃ payload, StoredFrom runtime payload row) ∧
      ∀ {payload other fields fields' : JsonObject} {json json' : String},
        Readable format (.object payload) → Readable format (.object other) →
        normalizePayload payload = .ok (fields, json) →
        normalizePayload other = .ok (fields', json') →
        ((∃ parsed, jsonParse format json = some parsed ∧ SameJson parsed (.object payload)) ↔
            ProtoFree (.object payload)) ∧
          ((json = json' ↔ SameJson (.object payload) (.object other)) ↔
            ¬LosesDifference payload other) ∧
          ∀ existing input acceptedAt skipped,
            system.store.findByIdentity input.identity = some existing →
            StoredFrom runtime payload existing → input.payload = fields' →
            ((¬SameJson (.object (withoutRevision payload)) (.object (withoutRevision other)) →
                acceptNormalized runtime input acceptedAt skipped system.store =
                  .error reuseConflict) ↔
              ¬(SameEnvelope existing input ∧
                LosesDifference (withoutRevision payload) (withoutRevision other))) := by
  refine ⟨allStored_of_run hrun, ?_⟩
  intro payload other fields fields' json json' hpayload hother h h'
  have hnormalized := normalizePayload_eq_ok_iff.mp h
  have hnormalized' := normalizePayload_eq_ok_iff.mp h'
  refine ⟨?_, ?_, ?_⟩
  · rw [hnormalized.parsed hpayload, ← hnormalized.sameJson_iff hpayload.1]
    constructor
    · rintro ⟨parsed, hparsed, hsame⟩
      rw [Option.some_inj.mp hparsed]
      exact hsame
    · intro hsame
      exact ⟨_, rfl, hsame⟩
  · rw [hnormalized.json_eq_iff hpayload.valid hother.valid hnormalized']
    have hkept : SameJson (.object payload) (.object other) →
        SameJson (dropProto (.object payload)) (dropProto (.object other)) :=
      fun hsame => hsame.dropProto
    unfold LosesDifference
    tauto
  · intro existing input acceptedAt skipped hexisting hstored hinput
    rw [← hinput] at h'
    rw [acceptNormalized_eq_conflict_iff hpayload.valid hother.valid hexisting hstored h']
    unfold LosesDifference
    tauto

end Laws

/-! ## A command that is sent again -/

/-- The command with another payload. -/
def resentCommand (payload : JsonObject) : NormalizedAcceptance where
  eventId := "command-2"
  channelKey := "discord"
  connectionId := "connection-1"
  transport := "discord_gateway"
  dispatchKind := .command
  providerSourceId := none
  idempotencyKey := "discord:interaction:command-1"
  laneKey := "channel-1"
  payload := payload
  payloadHash := ""
  receivedAt := "1970-01-01T00:00:01.000Z"

/-- The table after the command was accepted, with an empty payload. -/
def acceptedOnce : EventSystem :=
  EventSystem.initial.next sampleRuntime
    ⟨.accept sampleAcceptance, "1970-01-01T00:00:00.000Z", []⟩

theorem acceptedOnce_run :
    Run (EventSystem.Step sampleRuntime) .initial
      [⟨.accept sampleAcceptance, "1970-01-01T00:00:00.000Z", []⟩] acceptedOnce :=
  .cons (step_next sampleRuntime .initial _ (by decide +kernel)) (.nil _)

/-- The row of the command. -/
theorem acceptedOnce_found (payload : JsonObject) :
    ∃ existing, acceptedOnce.store.findByIdentity (resentCommand payload).identity =
        some existing ∧ StoredFrom sampleRuntime [] existing ∧
      SameEnvelope existing (resentCommand payload) := by
  refine ⟨_, rfl, ?_, ?_⟩
  · refine ⟨"\x7b\x7d", ?_, rfl⟩
    exact normalizePayload_eq_ok_iff.mpr ⟨by decide, by decide, rfl, rfl, by decide⟩
  · exact ⟨rfl, rfl, rfl, rfl⟩

theorem normalizePayload_empty : normalizePayload [] = .ok ([], "\x7b\x7d") :=
  normalizePayload_eq_ok_iff.mpr ⟨by decide, by decide, rfl, rfl, by decide⟩

theorem readable_empty : Readable NumberFormat.digits (.object []) :=
  readable_object List.nodup_nil fun _ hfield => absurd hfield List.not_mem_nil

/-- The command with a text is not the one that was accepted. -/
theorem changed_command_in_conflict :
    acceptNormalized sampleRuntime (resentCommand [("text", .string "hello")])
      "1970-01-01T00:00:01.000Z" 0 acceptedOnce.store = .error reuseConflict := by
  obtain ⟨existing, hexisting, hstored, -⟩ := acceptedOnce_found [("text", .string "hello")]
  have hreadable : Readable NumberFormat.digits (.object [("text", .string "hello")]) := by
    refine readable_object (List.nodup_singleton _) fun field hfield => ?_
    rw [List.mem_singleton.mp hfield]
    exact readable_string _
  have hnormalized : normalizePayload [("text", .string "hello")] =
      .ok ([("text", .string "hello")], "\x7b\"text\":\"hello\"\x7d") :=
    normalizePayload_eq_ok_iff.mpr ⟨by decide, by decide, rfl, rfl, by decide⟩
  have hlaws := (@inbound_payloads_stored sampleRuntime NumberFormat.digits _ _
    acceptedOnce_run).2 readable_empty hreadable normalizePayload_empty hnormalized
  refine (hlaws.2.2 existing _ _ _ hexisting hstored rfl).mpr ?_ ?_
  · rintro ⟨-, -, hsame⟩
    cases JsonValue.object.inj hsame
  · intro hsame
    cases JsonValue.object.inj hsame

/-- A member named `__proto__` is lost, and the command that it changes passes for the one that
was accepted. -/
theorem proto_member_not_stored :
    ∃ payload other fields : JsonObject, ∃ json : String,
      (JsonValue.object payload).Valid ∧ (JsonValue.object other).Valid ∧
        ¬SameJson (.object (withoutRevision payload)) (.object (withoutRevision other)) ∧
        normalizePayload payload = .ok (fields, json) ∧
        normalizePayload other = .ok (fields, json) ∧
        acceptNormalized sampleRuntime (resentCommand fields) "1970-01-01T00:00:01.000Z" 0
          acceptedOnce.store = .ok acceptedOnce.store := by
  have hreadable : Readable NumberFormat.digits
      (.object [("__proto__", .object [("admin", .bool true)])]) := by
    refine readable_object (List.nodup_singleton _) fun field hfield => ?_
    rw [List.mem_singleton.mp hfield]
    refine readable_object (List.nodup_singleton _) fun field hfield => ?_
    rw [List.mem_singleton.mp hfield]
    exact ⟨.bool trivial, .bool trivial⟩
  have hnormalized : normalizePayload [("__proto__", .object [("admin", .bool true)])] =
      .ok ([], "\x7b\x7d") :=
    normalizePayload_eq_ok_iff.mpr ⟨by decide, by decide, rfl, rfl, by decide⟩
  refine ⟨[], [("__proto__", .object [("admin", .bool true)])], [], "\x7b\x7d",
    readable_empty.valid, hreadable.valid, ?_, normalizePayload_empty, hnormalized, ?_⟩
  · intro hsame
    cases JsonValue.object.inj hsame
  · obtain ⟨existing, hexisting, hstored, henvelope⟩ := acceptedOnce_found []
    have hmatches := (assertPayloadMatch_of_stored readable_empty.valid hreadable.valid hstored
      hnormalized).1 ⟨henvelope, rfl⟩
    unfold acceptNormalized
    rw [hexisting]
    dsimp only
    rw [hmatches]
    rfl

end GoatCitadel.Storage.InboundChannelEvents
