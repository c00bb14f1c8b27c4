import GoatCitadel.Contracts.RunVariables
import GoatCitadel.Support.Separated
import Mathlib.Logic.Function.Iterate

/-!
# Ids of legacy placeholders

Every placeholder of a template gets a field id, made from its label.  While the id is in use, it
is cut to 59 units and the position of the placeholder is put behind it.  From the second renaming
on the cut may take away what the renaming added, so that the same id comes back: whether the loop
ends depends on the ids that earlier labels stand for.
-/

namespace GoatCitadel.Contracts

open GoatCitadel.Support

/-! ## Labels -/

/-- `.replace(/^<|>$/gu, "")` -/
def stripBrackets (value : List Nat) : List Nat :=
  let opened := if value.head? = some 60 then value.tail else value
  if opened.getLast? = some 62 then opened.dropLast else opened

/-- `[a-z0-9]` -/
def isLabelUnit (unit : Nat) : Bool :=
  (97 ≤ unit && unit ≤ 122) || (48 ≤ unit && unit ≤ 57)

/-- `.replace(/[^a-z0-9]+/gu, "_")`, with whether the units before are replaced already. -/
def replaceOthers : Bool → List Nat → List Nat
  | _, [] => []
  | replaced, unit :: text =>
      if isLabelUnit unit = true then unit :: replaceOthers false text
      else if replaced = true then replaceOthers true text
      else 95 :: replaceOthers true text

def isUnderscore (unit : Nat) : Bool :=
  unit == 95

def normalizeLegacyPlaceholderId (lower : LowerCase) (value : List Nat) : List Nat :=
  ((replaceOthers false (lower.toLowerCase (trimUnits (stripBrackets value)))).dropWhile
    isUnderscore).rdropWhile isUnderscore

/-! ## The loop -/

/-- `index + 1` as it is written. -/
def position (index : Nat) : List Nat :=
  utf16Units (toString (index + 1))

/-- `/^[a-z]/` -/
def startsWithLetter (text : List Nat) : Bool :=
  text.head?.any fun unit => 97 ≤ unit && unit ≤ 122

/-- The first id that is tried for a placeholder. -/
def idBase (lower : LowerCase) (index : Nat) (placeholder : List Nat) : List Nat :=
  if startsWithLetter (normalizeLegacyPlaceholderId lower placeholder) = true then
    (normalizeLegacyPlaceholderId lower placeholder).take 64
  else utf16Units "value_" ++ position index

def rename (index : Nat) (id : List Nat) : List Nat :=
  id.take 59 ++ 95 :: position index

/-- `while (ids.has(id)) id = ...`; `none` when it goes round more than `fuel` times. -/
def freshId (index : Nat) (ids : List (List Nat)) : Nat → List Nat → Option (List Nat)
  | 0, _ => none
  | fuel + 1, id =>
      if ids.contains id = true then freshId index ids fuel (rename index id) else some id

/-- The ids of the placeholders with these bases; as many ids are given out as placeholders came
before. -/
def assignIds (fuel : Nat) : List (List Nat) → List (List Nat) → Option (List (List Nat))
  | [], ids => some ids
  | base :: bases, ids =>
      (freshId ids.length ids fuel base).bind fun id => assignIds fuel bases (ids ++ [id])

def idBases (lower : LowerCase) (placeholders : List (List Nat)) : List (List Nat) :=
  placeholders.mapIdx (idBase lower)

def placeholderIds (lower : LowerCase) (fuel : Nat) (placeholders : List (List Nat)) :
    Option (List (List Nat)) :=
  assignIds fuel (idBases lower placeholders) []

/-! ## Candidates -/

/-- The id after so many renamings. -/
def candidate (index : Nat) (base : List Nat) (count : Nat) : List Nat :=
  (rename index)^[count] base

/-- The first renamed id that is no base of an earlier placeholder. -/
def FirstFree (bases : List (List Nat)) (index : Nat) (base id : List Nat) : Prop :=
  ∃ count, id = candidate index base (count + 1) ∧ id ∉ bases.take index ∧
    ∀ less < count, candidate index base (less + 1) ∈ bases.take index

/-- The base of a placeholder is in use: it is the base of an earlier placeholder, or the first
free id of an earlier placeholder whose base is in use. -/
inductive Taken (bases : List (List Nat)) : Nat → Prop
  | repeated {index : Nat} {base : List Nat} (hbase : bases[index]? = some base)
      (h : base ∈ bases.take index) : Taken bases index
  | renamed {index earlier : Nat} {base other : List Nat} (hbase : bases[index]? = some base)
      (hearlier : earlier < index) (hother : bases[earlier]? = some other)
      (htaken : Taken bases earlier) (h : FirstFree bases earlier other base) :
      Taken bases index

/-- The base of a placeholder is in use, and all its renamed ids are bases of earlier ones. -/
def Stuck (bases : List (List Nat)) (index : Nat) : Prop :=
  ∃ base, bases[index]? = some base ∧ Taken bases index ∧
    ∀ count, candidate index base (count + 1) ∈ bases.take index

section Loop

variable {bases ids : List (List Nat)} {index earlier fuel count : Nat}
  {base other id id' : List Nat} {rest ids' : List (List Nat)}

theorem candidate_succ (index : Nat) (base : List Nat) (count : Nat) :
    candidate index base (count + 1) = rename index (candidate index base count) :=
  Function.iterate_succ_apply' _ _ _

theorem not_underscore_of_mem_position {unit : Nat} (h : unit ∈ position index) : unit ≠ 95 := by
  rw [position] at h
  obtain ⟨c, hc, hunit⟩ := List.mem_flatMap.mp h
  have hrange := isDigit_range (isDigit_of_mem_toString hc)
  rw [if_pos (by omega), List.mem_singleton] at hunit
  omega

theorem position_injective (h : position index = position earlier) : index = earlier :=
  Nat.succ_injective (toString_nat_injective (utf16Units_injective h))

/-- A renamed id shows the position it was renamed for. -/
theorem rename_index_eq (h : rename index id = rename earlier id') : index = earlier := by
  have hreverse := congrArg List.reverse h
  rw [rename, rename, List.reverse_append, List.reverse_append, List.reverse_cons,
    List.reverse_cons, List.append_assoc, List.append_assoc, List.singleton_append,
    List.singleton_append] at hreverse
  have hnot : ∀ index, 95 ∉ (position index).reverse := fun index hmem =>
    not_underscore_of_mem_position (List.mem_reverse.mp hmem) rfl
  have hsame := (eq_of_append_sep_eq (hnot index) (hnot earlier) hreverse).1
  exact position_injective (List.reverse_injective hsame)

theorem FirstFree.unique (h : FirstFree bases index base id) (h' : FirstFree bases index base id') :
    id = id' := by
  obtain ⟨count, rfl, hfree, hbefore⟩ := h
  obtain ⟨count', rfl, hfree', hbefore'⟩ := h'
  rcases Nat.lt_trichotomy count count' with hlt | rfl | hlt
  · exact absurd (hbefore' count hlt) hfree
  · rfl
  · exact absurd (hbefore count' hlt) hfree'

theorem freshId_of_candidate (hid : candidate index base count ∉ ids)
    (hbefore : ∀ less < count, candidate index base less ∈ ids) (hfuel : count < fuel) :
    freshId index ids fuel base = some (candidate index base count) := by
  induction count generalizing fuel base with
  | zero =>
      obtain ⟨fuel, rfl⟩ := Nat.exists_eq_succ_of_ne_zero (Nat.ne_of_gt hfuel)
      have hfree : base ∉ ids := hid
      rw [freshId, if_neg fun hmem => hfree (List.contains_iff_mem.mp hmem)]
      rfl
  | succ count ih =>
      obtain ⟨fuel, rfl⟩ := Nat.exists_eq_succ_of_ne_zero (Nat.ne_of_gt (Nat.zero_lt_of_lt hfuel))
      have hbase : base ∈ ids := hbefore 0 (Nat.succ_pos count)
      rw [freshId, if_pos (List.contains_iff_mem.mpr hbase)]
      exact ih hid (fun less hless => hbefore (less + 1) (Nat.succ_lt_succ hless))
        (Nat.lt_of_succ_lt_succ hfuel)

/-- The loop returns the first candidate that is not in use. -/
theorem candidate_of_freshId (h : freshId index ids fuel base = some id) :
    ∃ count, id = candidate index base count ∧ id ∉ ids ∧
      ∀ less < count, candidate index base less ∈ ids := by
  induction fuel generalizing base with
  | zero => exact nomatch h
  | succ fuel ih =>
      rw [freshId] at h
      by_cases hbase : base ∈ ids
      · rw [if_pos (List.contains_iff_mem.mpr hbase)] at h
        obtain ⟨count, hid, hfree, hbefore⟩ := ih h
        refine ⟨count + 1, hid, hfree, fun less hless => ?_⟩
        cases less with
        | zero => exact hbase
        | succ less => exact hbefore less (Nat.lt_of_succ_lt_succ hless)
      · rw [if_neg fun hmem => hbase (List.contains_iff_mem.mp hmem)] at h
        obtain rfl := Option.some_inj.mp h
        exact ⟨0, rfl, hbase, fun less hless => absurd hless (Nat.not_lt_zero less)⟩

/-! ## The ids that are given out -/

/-- What the placeholder at a position is given: its base, or its first free id if that is in
use. -/
def Given (bases : List (List Nat)) (index : Nat) (id : List Nat) : Prop :=
  ∃ base, bases[index]? = some base ∧
    ((¬ Taken bases index ∧ id = base) ∨
      (Taken bases index ∧ FirstFree bases index base id))

/-- The ids are those of the first placeholders. -/
def Assigned (bases ids : List (List Nat)) : Prop :=
  ∀ index id, ids[index]? = some id → Given bases index id

theorem mem_take_iff {i : Nat} :
    base ∈ bases.take i ↔ ∃ earlier < i, bases[earlier]? = some base := by
  rw [List.mem_iff_getElem?]
  constructor
  · rintro ⟨earlier, h⟩
    rw [List.getElem?_take] at h
    split_ifs at h with hlt
    exact ⟨earlier, hlt, h⟩
  · rintro ⟨earlier, hlt, h⟩
    exact ⟨earlier, by rwa [List.getElem?_take, if_pos hlt]⟩

theorem Assigned.exists_given (h : Assigned bases ids) (hindex : index < ids.length) :
    ∃ id ∈ ids, Given bases index id :=
  ⟨ids[index], List.getElem_mem hindex, h index _ (List.getElem?_eq_getElem hindex)⟩

/-- The bases of the first placeholders are in use once they have their ids; by strong induction
on the position, as a base that is in use is so because of an earlier placeholder. -/
theorem Assigned.base_mem (h : Assigned bases ids) (hindex : index < ids.length)
    (hbase : bases[index]? = some base) : base ∈ ids := by
  induction index using Nat.strong_induction_on generalizing base with
  | _ index ih =>
      obtain ⟨id, hid, other, hother, hgiven⟩ := h.exists_given hindex
      obtain rfl := Option.some_inj.mp (hbase.symm.trans hother)
      rcases hgiven with ⟨-, rfl⟩ | ⟨htaken, -⟩
      · exact hid
      · cases htaken with
        | repeated hbase' hmem =>
            obtain rfl := Option.some_inj.mp (hbase.symm.trans hbase')
            obtain ⟨earlier, hlt, hsame⟩ := mem_take_iff.mp hmem
            exact ih earlier hlt (hlt.trans hindex) hsame
        | renamed hbase' hearlier hother' htaken hfree =>
            obtain rfl := Option.some_inj.mp (hbase.symm.trans hbase')
            obtain ⟨id', hid', other', hsame, hgiven'⟩ := h.exists_given (hearlier.trans hindex)
            obtain rfl := Option.some_inj.mp (hother'.symm.trans hsame)
            rcases hgiven' with ⟨hnot, -⟩ | ⟨-, hfree'⟩
            · exact absurd htaken hnot
            · exact hfree.unique hfree' ▸ hid'

/-- The next base is in use exactly when it is among the ids that are given out. -/
theorem Assigned.taken_iff (h : Assigned bases ids) (hbase : bases[ids.length]? = some base) :
    Taken bases ids.length ↔ base ∈ ids := by
  constructor
  · intro htaken
    cases htaken with
    | repeated hbase' hmem =>
        obtain rfl := Option.some_inj.mp (hbase.symm.trans hbase')
        obtain ⟨earlier, hlt, hsame⟩ := mem_take_iff.mp hmem
        exact h.base_mem hlt hsame
    | renamed hbase' hearlier hother htaken hfree =>
        obtain rfl := Option.some_inj.mp (hbase.symm.trans hbase')
        obtain ⟨id, hid, other, hsame, hgiven⟩ := h.exists_given hearlier
        obtain rfl := Option.some_inj.mp (hother.symm.trans hsame)
        rcases hgiven with ⟨hnot, -⟩ | ⟨-, hfree'⟩
        · exact absurd htaken hnot
        · exact hfree.unique hfree' ▸ hid
  · intro hmem
    obtain ⟨earlier, hearlier⟩ := List.mem_iff_getElem?.mp hmem
    have hlt := (List.getElem?_eq_some_iff.mp hearlier).1
    obtain ⟨other, hother, ⟨-, rfl⟩ | ⟨htaken, hfree⟩⟩ := h earlier base hearlier
    · exact .repeated hbase (mem_take_iff.mpr ⟨earlier, hlt, hother⟩)
    · exact .renamed hbase hlt hother htaken hfree

/-- A renamed id of the next placeholder can only be in use as the base of an earlier one: ids
that were renamed for earlier ones show another position. -/
theorem Assigned.candidate_mem_iff (h : Assigned bases ids) (base : List Nat) (count : Nat) :
    candidate ids.length base (count + 1) ∈ ids ↔
      candidate ids.length base (count + 1) ∈ bases.take ids.length := by
  constructor
  · intro hmem
    obtain ⟨earlier, hearlier⟩ := List.mem_iff_getElem?.mp hmem
    have hlt := (List.getElem?_eq_some_iff.mp hearlier).1
    obtain ⟨other, hother, ⟨-, hsame⟩ | ⟨-, less, hsame, -⟩⟩ := h earlier _ hearlier
    · exact mem_take_iff.mpr ⟨earlier, hlt, hsame ▸ hother⟩
    · rw [candidate_succ, candidate_succ] at hsame
      exact absurd (rename_index_eq hsame) hlt.ne'
  · intro hmem
    obtain ⟨earlier, hlt, hsame⟩ := mem_take_iff.mp hmem
    exact h.base_mem hlt hsame

/-- What the loop returns for the next placeholder is what that one is given. -/
theorem Assigned.given (h : Assigned bases ids) (hbase : bases[ids.length]? = some base)
    (hid : freshId ids.length ids fuel base = some id) : Given bases ids.length id := by
  obtain ⟨count, rfl, hfree, hbefore⟩ := candidate_of_freshId hid
  refine ⟨base, hbase, ?_⟩
  cases count with
  | zero => exact .inl ⟨fun htaken => hfree ((h.taken_iff hbase).mp htaken), rfl⟩
  | succ count =>
      have htaken := (h.taken_iff hbase).mpr (hbefore 0 (Nat.succ_pos count))
      refine .inr ⟨htaken, count, rfl, fun hmem => ?_, fun less hless => ?_⟩
      · exact hfree ((h.candidate_mem_iff base count).mpr hmem)
      · exact (h.candidate_mem_iff base less).mp (hbefore _ (Nat.succ_lt_succ hless))

theorem Assigned.snoc (h : Assigned bases ids) (hid : Given bases ids.length id) :
    Assigned bases (ids ++ [id]) := by
  intro index id' hid'
  rcases Nat.lt_trichotomy index ids.length with hlt | rfl | hgt
  · rw [List.getElem?_append_left hlt] at hid'
    exact h index id' hid'
  · rw [List.getElem?_append_right le_rfl, Nat.sub_self] at hid'
    exact Option.some_inj.mp hid' ▸ hid
  · rw [List.getElem?_append_right hgt.le, List.getElem?_eq_none] at hid'
    · exact nomatch hid'
    · rw [List.length_singleton]
      omega

/-- The loop for the next placeholder ends unless that one is stuck. -/
theorem Assigned.exists_freshId (h : Assigned bases ids)
    (hbase : bases[ids.length]? = some base) (hstuck : ¬ Stuck bases ids.length) :
    ∃ least id, ∀ fuel, least < fuel → freshId ids.length ids fuel base = some id := by
  classical
  have hsome : ∃ count, candidate ids.length base count ∉ ids := by
    by_contra hnone
    push Not at hnone
    refine hstuck ⟨base, hbase, (h.taken_iff hbase).mpr (hnone 0), fun count => ?_⟩
    exact (h.candidate_mem_iff base count).mp (hnone (count + 1))
  refine ⟨Nat.find hsome, candidate ids.length base (Nat.find hsome), fun fuel hfuel => ?_⟩
  exact freshId_of_candidate (Nat.find_spec hsome)
    (fun less hless => not_not.mp (Nat.find_min hsome hless)) hfuel

/-- The loop for a stuck placeholder does not end. -/
theorem Assigned.freshId_eq_none (h : Assigned bases ids) (hstuck : Stuck bases ids.length)
    (fuel : Nat) (hbase : bases[ids.length]? = some base) :
    freshId ids.length ids fuel base = none := by
  obtain ⟨other, hother, htaken, hall⟩ := hstuck
  obtain rfl := Option.some_inj.mp (hbase.symm.trans hother)
  by_contra hsome
  obtain ⟨id, hid⟩ := Option.ne_none_iff_exists'.mp hsome
  obtain ⟨count, rfl, hfree, -⟩ := candidate_of_freshId hid
  cases count with
  | zero => exact hfree ((h.taken_iff hbase).mp htaken)
  | succ count => exact hfree ((h.candidate_mem_iff base count).mpr (hall count))

/-! ## Runs -/

/-- The loops end for all placeholders that are left if none of them is stuck. -/
theorem exists_assignIds (h : Assigned bases ids) (hbases : bases.drop ids.length = rest)
    (hstuck : ∀ index, ¬ Stuck bases index) :
    ∃ least ids', ∀ fuel, least ≤ fuel → assignIds fuel rest ids = some ids' := by
  induction rest generalizing ids with
  | nil => exact ⟨0, ids, fun _ _ => rfl⟩
  | cons base rest ih =>
      have hbase : bases[ids.length]? = some base := by
        rw [← List.head?_drop, hbases, List.head?_cons]
      obtain ⟨least, id, hfresh⟩ := h.exists_freshId hbase (hstuck ids.length)
      have hgiven := h.given hbase (hfresh (least + 1) (Nat.lt_succ_self least))
      have hrest : bases.drop (ids ++ [id]).length = rest := by
        rw [List.length_append, List.length_singleton, ← List.tail_drop, hbases, List.tail_cons]
      obtain ⟨least', ids', hrun⟩ := ih (h.snoc hgiven) hrest
      refine ⟨max (least + 1) least', ids', fun fuel hfuel => ?_⟩
      rw [assignIds, hfresh fuel (by omega), Option.bind_some]
      exact hrun fuel (by omega)

/-- The loops that end for all placeholders that are left were stuck at none of them. -/
theorem not_stuck_of_assignIds (h : Assigned bases ids) (hbases : bases.drop ids.length = rest)
    (hrun : assignIds fuel rest ids = some ids') :
    ∀ index, ids.length ≤ index → ¬ Stuck bases index := by
  induction rest generalizing ids with
  | nil =>
      rintro index hindex ⟨base, hbase, -⟩
      have hlength := List.drop_eq_nil_iff.mp hbases
      rw [List.getElem?_eq_none (hlength.trans hindex)] at hbase
      exact nomatch hbase
  | cons base rest ih =>
      have hbase : bases[ids.length]? = some base := by
        rw [← List.head?_drop, hbases, List.head?_cons]
      rw [assignIds] at hrun
      obtain ⟨id, hid, hmore⟩ := Option.bind_eq_some_iff.mp hrun
      have hrest : bases.drop (ids ++ [id]).length = rest := by
        rw [List.length_append, List.length_singleton, ← List.tail_drop, hbases, List.tail_cons]
      intro index hindex hstuck
      rcases Nat.eq_or_lt_of_le hindex with rfl | hlt
      · rw [h.freshId_eq_none hstuck fuel hbase] at hid
        exact nomatch hid
      · refine ih (h.snoc (h.given hbase hid)) hrest hmore index ?_ hstuck
        rwa [List.length_append, List.length_singleton]

/-- Every loop returns an id that is not in use. -/
theorem nodup_assignIds (h : ids.Nodup) (hrun : assignIds fuel rest ids = some ids') :
    ids'.Nodup := by
  induction rest generalizing ids with
  | nil => exact Option.some_inj.mp hrun ▸ h
  | cons base rest ih =>
      rw [assignIds] at hrun
      obtain ⟨id, hid, hmore⟩ := Option.bind_eq_some_iff.mp hrun
      obtain ⟨-, -, hfree, -⟩ := candidate_of_freshId hid
      refine ih ?_ hmore
      rw [List.nodup_append']
      exact ⟨h, List.nodup_singleton _, List.disjoint_singleton.mpr hfree⟩

theorem length_assignIds (hrun : assignIds fuel rest ids = some ids') :
    ids'.length = ids.length + rest.length := by
  induction rest generalizing ids with
  | nil => exact Option.some_inj.mp hrun ▸ rfl
  | cons base rest ih =>
      rw [assignIds] at hrun
      obtain ⟨id, -, hmore⟩ := Option.bind_eq_some_iff.mp hrun
      rw [ih hmore, List.length_append, List.length_singleton, List.length_cons]
      omega

/-! ## Field ids -/

theorem isFieldId_iff :
    isFieldId id = true ↔
      startsWithLetter id = true ∧ id.length ≤ 64 ∧ ∀ unit ∈ id, isFieldIdUnit unit = true := by
  cases id with
  | nil => exact iff_of_false (fun h => nomatch h) fun h => nomatch h.1
  | cons first rest =>
      rw [isFieldId, startsWithLetter, List.head?_cons, Option.any_some, Bool.and_eq_true_iff,
        Bool.and_eq_true_iff (x := decide (rest.length ≤ 63)), decide_eq_true_eq,
        List.all_eq_true, List.length_cons, List.forall_mem_cons, Nat.succ_le_succ_iff]
      constructor
      · rintro ⟨hfirst, hlength, hrest⟩
        exact ⟨hfirst, hlength, isFieldIdUnit_of_letter hfirst, hrest⟩
      · rintro ⟨hfirst, hlength, -, hrest⟩
        exact ⟨hfirst, hlength, hrest⟩

theorem isFieldIdUnit_of_mem_replaceOthers {replaced : Bool} {text : List Nat} {unit : Nat}
    (h : unit ∈ replaceOthers replaced text) : isFieldIdUnit unit = true := by
  induction text generalizing replaced with
  | nil => exact nomatch h
  | cons first text ih =>
      rw [replaceOthers] at h
      split_ifs at h with hlabel hreplaced
      · rcases List.mem_cons.mp h with rfl | hrest
        · rw [isFieldIdUnit, ← isLabelUnit, hlabel, Bool.true_or]
        · exact ih hrest
      · exact ih h
      · rcases List.mem_cons.mp h with rfl | hrest
        · rfl
        · exact ih hrest

theorem isFieldIdUnit_of_mem_normalize {lower : LowerCase} {value : List Nat} {unit : Nat}
    (h : unit ∈ normalizeLegacyPlaceholderId lower value) : isFieldIdUnit unit = true :=
  isFieldIdUnit_of_mem_replaceOthers
    ((List.dropWhile_suffix _).subset ((List.rdropWhile_prefix _ _).subset h))

/-- The positions of 32 placeholders have at most two digits. -/
theorem position_digits : ∀ index < 32, (position index).length ≤ 2 ∧
    ∀ unit ∈ position index, isFieldIdUnit unit = true := by
  decide +kernel

theorem isFieldId_value :
    ∀ index < 32, isFieldId (utf16Units "value_" ++ position index) = true := by
  decide +kernel

theorem startsWithLetter_take {text : List Nat} :
    startsWithLetter (text.take (count + 1)) = startsWithLetter text := by
  cases text with
  | nil => rfl
  | cons first rest => rfl

theorem isFieldId_idBase (lower : LowerCase) (hindex : index < 32) (placeholder : List Nat) :
    isFieldId (idBase lower index placeholder) = true := by
  rw [idBase]
  split_ifs with hletter
  · rw [isFieldId_iff, startsWithLetter_take]
    exact ⟨hletter, List.length_take_le _ _,
      fun unit hunit => isFieldIdUnit_of_mem_normalize (List.mem_of_mem_take hunit)⟩
  · exact isFieldId_value index hindex

theorem isFieldId_rename (hindex : index < 32) (h : isFieldId id = true) :
    isFieldId (rename index id) = true := by
  obtain ⟨hletter, -, hunits⟩ := isFieldId_iff.mp h
  obtain ⟨hlength, hdigits⟩ := position_digits index hindex
  rw [isFieldId_iff]
  refine ⟨?_, ?_, ?_⟩
  · cases id with
    | nil => exact nomatch hletter
    | cons first rest => exact hletter
  · rw [rename, List.length_append, List.length_cons]
    have htake := List.length_take_le 59 id
    omega
  · intro unit hunit
    rcases List.mem_append.mp hunit with hid | hend
    · exact hunits unit (List.mem_of_mem_take hid)
    · rcases List.mem_cons.mp hend with rfl | hdigit
      · rfl
      · exact hdigits unit hdigit

theorem isFieldId_candidate (hindex : index < 32) (h : isFieldId base = true) (count : Nat) :
    isFieldId (candidate index base count) = true := by
  induction count with
  | zero => exact h
  | succ count ih =>
      rw [candidate_succ]
      exact isFieldId_rename hindex ih

theorem isFieldId_assignIds (hids : ∀ id ∈ ids, isFieldId id = true)
    (hrest : ∀ base ∈ rest, isFieldId base = true) (hcount : ids.length + rest.length ≤ 32)
    (hrun : assignIds fuel rest ids = some ids') : ∀ id ∈ ids', isFieldId id = true := by
  induction rest generalizing ids with
  | nil => exact Option.some_inj.mp hrun ▸ hids
  | cons base rest ih =>
      rw [assignIds] at hrun
      obtain ⟨id, hid, hmore⟩ := Option.bind_eq_some_iff.mp hrun
      obtain ⟨count, rfl, -⟩ := candidate_of_freshId hid
      rw [List.length_cons] at hcount
      obtain ⟨hbase, hrest⟩ := List.forall_mem_cons.mp hrest
      refine ih ?_ hrest ?_ hmore
      · intro other hother
        rcases List.mem_append.mp hother with hold | hnew
        · exact hids other hold
        · rw [List.mem_singleton.mp hnew]
          exact isFieldId_candidate (by omega) hbase count
      · rw [List.length_append, List.length_singleton]
        omega

theorem assigned_nil (bases : List (List Nat)) : Assigned bases [] :=
  fun _ _ h => nomatch h

theorem length_idBases (lower : LowerCase) (placeholders : List (List Nat)) :
    (idBases lower placeholders).length = placeholders.length :=
  List.length_mapIdx

theorem isFieldId_placeholderIds {lower : LowerCase} {placeholders : List (List Nat)}
    (hcount : placeholders.length ≤ 32) (h : placeholderIds lower fuel placeholders = some ids) :
    ∀ id ∈ ids, isFieldId id = true := by
  have hbases : ∀ base ∈ idBases lower placeholders, isFieldId base = true := by
    intro base hbase
    obtain ⟨index, hindex, rfl⟩ := List.mem_mapIdx.mp hbase
    exact isFieldId_idBase lower (hindex.trans_le hcount) _
  refine isFieldId_assignIds (List.forall_mem_nil _) hbases ?_ h
  rwa [List.length_nil, Nat.zero_add, length_idBases]

theorem length_placeholderIds {lower : LowerCase} {placeholders : List (List Nat)}
    (h : placeholderIds lower fuel placeholders = some ids) : ids.length = placeholders.length := by
  rw [length_assignIds h, length_idBases, List.length_nil, Nat.zero_add]

/-- Each placeholder has a valid id that no earlier one has, and with enough fuel the loop finds
just these ids. -/
structure IdsFound (lower : LowerCase) (placeholders ids : List (List Nat)) : Prop where
  ends : ∃ least, ∀ fuel, least ≤ fuel → placeholderIds lower fuel placeholders = some ids
  each : ids.length = placeholders.length
  distinct : ids.Nodup
  valid : ∀ id ∈ ids, isFieldId id = true

/-- The id loop finds an id for each placeholder exactly when none of them is stuck. -/
theorem idsFound_iff (lower : LowerCase) {placeholders : List (List Nat)}
    (hcount : placeholders.length ≤ 32) :
    (∃ ids, IdsFound lower placeholders ids) ↔
      ∀ index, ¬ Stuck (idBases lower placeholders) index := by
  constructor
  · rintro ⟨ids, ⟨least, hrun⟩, -⟩ index
    exact not_stuck_of_assignIds (assigned_nil _) List.drop_zero (hrun least le_rfl) index
      (Nat.zero_le index)
  · intro hstuck
    obtain ⟨least, ids, hrun⟩ := exists_assignIds (assigned_nil _) List.drop_zero hstuck
    have hids := hrun least le_rfl
    exact ⟨ids, ⟨least, hrun⟩, length_placeholderIds hids, nodup_assignIds .nil hids,
      isFieldId_placeholderIds hcount hids⟩

end Loop

/-- Three labels with one base. -/
theorem repeated_label_found :
    (∃ ids, IdsFound asciiLowerCase (["Topic", "<topic>", "TOPIC"].map utf16Units) ids) ↔
      ∀ index, ¬ Stuck (idBases asciiLowerCase (["Topic", "<topic>", "TOPIC"].map utf16Units))
        index :=
  idsFound_iff asciiLowerCase (by decide)

/-- The id of the third label is cut to 59 units and gets `_3` behind it again and again. -/
theorem long_label_stuck :
    ¬ ∃ ids, IdsFound asciiLowerCase
      [List.replicate 59 97 ++ [95, 51], List.replicate 59 97, List.replicate 59 97] ids := by
  rintro ⟨ids, ⟨least, hrun⟩, -⟩
  have hbases : idBases asciiLowerCase
      [List.replicate 59 97 ++ [95, 51], List.replicate 59 97, List.replicate 59 97] =
      [List.replicate 59 97 ++ [95, 51], List.replicate 59 97, List.replicate 59 97] := by
    decide +kernel
  have hcandidate : ∀ count, candidate 2 (List.replicate 59 97) (count + 1) =
      List.replicate 59 97 ++ [95, 51] := by
    intro count
    induction count with
    | zero => decide +kernel
    | succ count ih =>
        rw [candidate_succ, ih]
        decide +kernel
  have hstuck : Stuck [List.replicate 59 97 ++ [95, 51], List.replicate 59 97,
      List.replicate 59 97] 2 := by
    refine ⟨List.replicate 59 97, rfl, .repeated rfl ?_, fun count => ?_⟩
    · exact List.mem_cons_of_mem _ List.mem_cons_self
    · rw [hcandidate]
      exact List.mem_cons_self
  have hids := hrun least le_rfl
  rw [placeholderIds, hbases] at hids
  exact not_stuck_of_assignIds (assigned_nil _) List.drop_zero hids 2 (Nat.zero_le 2) hstuck

end GoatCitadel.Contracts
