import GoatCitadel.Contracts.PlaceholderIds
import Mathlib.Algebra.Order.Ring.Rat
import Mathlib.Tactic.NormNum

/-!
# Legacy templates

A template without declared variables has its placeholders `<LABEL>` as variables.  The schema
gives each label a field; the ids are cut, renamed and made distinct.  When the template is filled
in, the id of a label is computed again, without any of that, so a label can miss its field.
-/

namespace GoatCitadel.Contracts

open GoatCitadel.Support

/-! ## Placeholders -/

/-- `[^<>\r\n]` -/
def isPlaceholderUnit (unit : Nat) : Bool :=
  unit != 60 && unit != 62 && unit != 13 && unit != 10

/-- The label of the placeholder whose `<` stands before the text. -/
def labelAt (text : List Nat) : Option (List Nat) :=
  if text.takeWhile isPlaceholderUnit ≠ [] ∧
      (text.dropWhile isPlaceholderUnit).head? = some 62 then
    some (text.takeWhile isPlaceholderUnit)
  else none

inductive Piece
  | literal (unit : Nat)
  | placeholder (label : List Nat)
  deriving DecidableEq

/-- The matches of `/<([^<>\r\n]+)>/gu` and the units between them, after some units that belong to
the last match. -/
def pieces : Nat → List Nat → List Piece
  | _, [] => []
  | skipped + 1, _ :: text => pieces skipped text
  | 0, unit :: text =>
      if unit = 60 then
        (labelAt text).elim (.literal unit :: pieces 0 text) fun label =>
          .placeholder label :: pieces (label.length + 1) text
      else .literal unit :: pieces 0 text

def Piece.labelOf : Piece → Option (List Nat)
  | .literal _ => none
  | .placeholder label => some label

/-- The distinct labels of a template in order of appearance. -/
def placeholderLabels (template : List Nat) : List (List Nat) :=
  ((pieces 0 template).filterMap Piece.labelOf).eraseDups

/-! ## The schema -/

/-- The label of a field: what the placeholder shows, or the id. -/
def fieldLabel (placeholder id : List Nat) : List Nat :=
  if trimUnits (stripBrackets placeholder) = [] then id else trimUnits (stripBrackets placeholder)

def legacyField (placeholder id : List Nat) : RunVariableField :=
  ⟨id, fieldLabel placeholder id, none, true, .string .text none none none⟩

/-- The schema of placeholders, if the id loop ends within so many rounds. -/
def legacyPlaceholderSchema (platform : Platform) (fuel : Nat) (placeholders : List (List Nat)) :
    Option (Except (List Nat) RunVariableSchema) :=
  (placeholderIds platform.lower fuel placeholders).map fun ids =>
    normalizeRunVariableSchema platform
      ⟨runVariableSchemaVersion, List.zipWith legacyField placeholders ids⟩

/-! ## Filling in -/

/-- `String(value)` -/
def valueText (platform : Platform) : RunVariableValue → List Nat
  | .text value => value
  | .number (.finite value) => platform.numberText value
  -- A validated number is finite.
  | .number .nonFinite => utf16Units "NaN"
  | .boolean true => utf16Units "true"
  | .boolean false => utf16Units "false"

/-- What a placeholder is replaced by. -/
def resolveLabel (platform : Platform) (validation : RunVariableValidationResult)
    (label : List Nat) : Except (List Nat) (List Nat) :=
  let id := normalizeLegacyPlaceholderId platform.lower label
  if (validation.schema.fields.map RunVariableField.id).contains id = false then
    .error (message "Template references undeclared run variable: " id ".")
  else
    (validation.bindings.lookup id).elim
      (.error (message "Template variable " id " has no validated value."))
      fun value => .ok (valueText platform value)

def resolvePieces (resolve : List Nat → Except (List Nat) (List Nat)) :
    List Piece → Except (List Nat) (List Nat)
  | [] => .ok []
  | .literal unit :: rest => (unit :: ·) <$> resolvePieces resolve rest
  | .placeholder label :: rest =>
      resolve label >>= fun value => (value ++ ·) <$> resolvePieces resolve rest

def resolveLegacyRunVariableTemplate (platform : Platform) (template : List Nat)
    (schema : RunVariableSchema) (bindings : RunVariableBindings) :
    Except (List Nat) (List Nat) :=
  validateRunVariableBindings platform schema (toInput bindings) ⟨true, false⟩ >>=
    fun validation => resolvePieces (resolveLabel platform validation) (pieces 0 template)

/-! ## What a template should become -/

/-- The text that is bound to an id. -/
def boundText (bindings : RunVariableBindings) (id : List Nat) : List Nat :=
  ((bindings.lookup id).bind fun value =>
    match value with
    | .text value => some value
    | _ => none).getD []

def Piece.render (value : List Nat → List Nat) : Piece → List Nat
  | .literal unit => [unit]
  | .placeholder label => value label

/-- The value that is bound to the field of a label. -/
def ownValue (labels : List (List Nat)) (schema : RunVariableSchema)
    (bindings : RunVariableBindings) (label : List Nat) : List Nat :=
  ((labels.zip schema.fields).lookup label).elim [] fun field => boundText bindings field.id

/-- The field shows the label, or its own id when the label is blank. -/
def Belongs (label : List Nat) (field : RunVariableField) : Prop :=
  field.label = fieldLabel label field.id

/-- Each field, and nothing else, has a text that is not empty and within its length bounds. -/
structure Complete (schema : RunVariableSchema) (bindings : RunVariableBindings) : Prop where
  declared : ∀ binding ∈ bindings, ∃ field ∈ schema.fields, field.id = binding.1
  bound : ∀ field ∈ schema.fields, ∃ value, bindings.lookup field.id = some (.text value) ∧
    value ≠ [] ∧ value.length ≤ 4000

/-- The fields are those of the labels in order, and the template is filled in with the values of
the labels' own fields. -/
structure OwnValues (platform : Platform) (template : List Nat) (schema : RunVariableSchema) :
    Prop where
  fields : List.Forall₂ Belongs (placeholderLabels template) schema.fields
  resolved : ∀ bindings, Complete schema bindings →
    resolveLegacyRunVariableTemplate platform template schema bindings =
      .ok ((pieces 0 template).flatMap
        (Piece.render (ownValue (placeholderLabels template) schema bindings)))

section Templates

variable {platform : Platform} {template : List Nat} {schema : RunVariableSchema} {fuel : Nat}
  {ids labels : List (List Nat)} {label id : List Nat} {bindings : RunVariableBindings}

/-! ## Labels -/

theorem mem_placeholderLabels :
    label ∈ placeholderLabels template ↔ Piece.placeholder label ∈ pieces 0 template := by
  rw [placeholderLabels, List.mem_eraseDups, List.mem_filterMap]
  constructor
  · rintro ⟨piece, hpiece, hlabel⟩
    cases piece with
    | literal unit => exact nomatch hlabel
    | placeholder other => exact Option.some_inj.mp hlabel ▸ hpiece
  · exact fun h => ⟨_, h, rfl⟩

theorem nodup_eraseDups_units (texts : List (List Nat)) : texts.eraseDups.Nodup := by
  induction hlength : texts.length using Nat.strong_induction_on generalizing texts with
  | _ length ih =>
      cases texts with
      | nil => exact .nil
      | cons text texts =>
          rw [List.eraseDups_cons, List.nodup_cons]
          have hle := List.length_filter_le (fun other => !other == text) texts
          rw [List.length_cons] at hlength
          refine ⟨fun hmem => ?_, ih _ (by omega) _ rfl⟩
          have hkept := (List.mem_filter.mp (List.mem_eraseDups.mp hmem)).2
          rw [beq_self_eq_true] at hkept
          exact Bool.false_ne_true hkept

theorem nodup_placeholderLabels (template : List Nat) : (placeholderLabels template).Nodup :=
  nodup_eraseDups_units _

/-! ## The fields -/

/-- A field of a label in normal form. -/
def normalLegacyField (placeholder id : List Nat) : RunVariableField :=
  ⟨id, fieldLabel placeholder id, none, true, .string .text none none (some (.finite 4000))⟩

theorem trim_fieldLabel {placeholder : List Nat} (hid : trimUnits id = id) :
    trimUnits (fieldLabel placeholder id) = fieldLabel placeholder id := by
  rw [fieldLabel]
  split_ifs
  · exact hid
  · exact trim_trim_units _

theorem normalizeField_legacyField {placeholder : List Nat} {seen seen' : List (List Nat)}
    {field : RunVariableField} (hid : isFieldId id = true)
    (h : normalizeField platform (legacyField placeholder id) seen = .ok (field, seen')) :
    field = normalLegacyField placeholder id := by
  rw [normalizeField, legacyField] at h
  dsimp only at h
  rw [normal_fieldId platform hid, trim_fieldLabel (trim_fieldId hid)] at h
  split_ifs at h
  obtain ⟨kind, hkind, hpair⟩ := map_eq_ok h
  obtain ⟨rfl, -⟩ := Prod.mk.inj hpair
  obtain rfl := Except.ok.inj hkind
  rfl

theorem normalizeFields_legacy {placeholders seen : List (List Nat)}
    {fields : List RunVariableField} (hids : ∀ id ∈ ids, isFieldId id = true)
    (h : normalizeFields platform (List.zipWith legacyField placeholders ids) seen = .ok fields) :
    fields = List.zipWith normalLegacyField placeholders ids := by
  induction placeholders generalizing ids seen fields with
  | nil =>
      obtain rfl := Except.ok.inj h
      rfl
  | cons placeholder placeholders ih =>
      cases ids with
      | nil =>
          obtain rfl := Except.ok.inj h
          rfl
      | cons id ids =>
          obtain ⟨hid, hrest⟩ := List.forall_mem_cons.mp hids
          rw [List.zipWith_cons_cons, normalizeFields] at h
          obtain ⟨⟨field, seen'⟩, hfield, hmore⟩ := bind_eq_ok.mp h
          obtain ⟨rest, hfields, rfl⟩ := map_eq_ok hmore
          rw [List.zipWith_cons_cons, normalizeField_legacyField hid hfield,
            ih hrest hfields]

/-- What the schema of some labels is. -/
structure LegacySchema (platform : Platform) (labels ids : List (List Nat))
    (schema : RunVariableSchema) : Prop where
  each : ids.length = labels.length
  distinct : ids.Nodup
  valid : ∀ id ∈ ids, isFieldId id = true
  fields : schema.fields = List.zipWith normalLegacyField labels ids
  fixed : normalizeSchemaWithoutDefaultRecursion platform schema = .ok schema
  printed : ∃ text, canonicalJsonString platform.numberText schema.json = .ok text

theorem legacySchema (h : legacyPlaceholderSchema platform fuel labels = some (.ok schema)) :
    ∃ ids, placeholderIds platform.lower fuel labels = some ids ∧
      LegacySchema platform labels ids schema := by
  obtain ⟨ids, hids, hnormal⟩ := Option.map_eq_some_iff.mp h
  obtain ⟨hschema, validation, hvalidation⟩ := normalizeRunVariableSchema_eq_ok.mp hnormal
  obtain ⟨-, hcount, hfields⟩ := normalizeSchema_eq_ok hschema
  have heach := length_placeholderIds hids
  dsimp only at hcount hfields
  rw [List.length_zipWith, heach, Nat.min_self] at hcount
  have hvalid := isFieldId_placeholderIds hcount hids
  have hfixed : normalizeSchemaWithoutDefaultRecursion platform schema = .ok schema := by
    rw [normalizeSchema_fixed_iff hschema]
    intro field hfield text htext
    obtain ⟨index, hindex, rfl⟩ := List.mem_iff_getElem.mp hfield
    rw [List.getElem_zipWith] at htext
    exact nomatch htext
  rw [validateRunVariableBindings, hfixed] at hvalidation
  have hvalidated : validateNormalized platform schema [] ⟨true, true⟩ = .ok validation :=
    hvalidation
  obtain ⟨text, htext, -⟩ := map_eq_ok (schemaHash_validateNormalized hvalidated)
  exact ⟨ids, hids, heach, nodup_assignIds .nil hids, hvalid, normalizeFields_legacy hvalid hfields,
    hfixed, text, htext⟩

/-! ## Bindings -/

theorem boundText_of_lookup {value : List Nat} (h : bindings.lookup id = some (.text value)) :
    boundText bindings id = value := by
  rw [boundText, h]
  rfl

theorem lookup_toInput (bindings : RunVariableBindings) (id : List Nat) :
    (toInput bindings).lookup id = (bindings.lookup id).map .value := by
  induction bindings with
  | nil => rfl
  | cons binding bindings ih =>
      rw [toInput, List.map_cons, List.lookup_cons, ← toInput, List.lookup_cons, ih]
      cases id == binding.1 <;> rfl

/-- The validated value of a field of a legacy schema. -/
def validatedBinding (bindings : RunVariableBindings) (field : RunVariableField) :
    List Nat × RunVariableValue :=
  (field.id, .text (boundText bindings field.id))

theorem length_in_bounds {value : List Nat} (h : value.length ≤ 4000) :
    ((Number.finite value.length).lt (.finite 0) ||
      (Number.finite 4000).lt (.finite value.length)) = false := by
  have hnot : ¬ (value.length : ℚ) < 0 := not_lt.mpr (Nat.cast_nonneg _)
  have hmost : ¬ (4000 : ℚ) < value.length := by
    rw [not_lt]
    exact_mod_cast h
  rw [Number.lt, Number.lt, decide_eq_false hnot, decide_eq_false hmost]
  rfl

theorem validateFieldValue_legacy {placeholder value : List Nat} (h : value.length ≤ 4000) :
    validateFieldValue platform (normalLegacyField placeholder id) (some (.text value)) =
      .ok (.text value) := by
  have hbounds := length_in_bounds h
  have htext : validateFieldValue platform (normalLegacyField placeholder id)
      (some (.text value)) =
      validateText platform id .text none (some (.finite 4000)) value := rfl
  rw [htext, validateText, Option.getD_none, Option.getD_some,
    if_neg (Bool.eq_false_iff.mp hbounds)]
  simp only [reduceCtorEq, false_and, if_false]

theorem validateFields_legacy (h : ∀ field ∈ List.zipWith normalLegacyField labels ids, ∃ value,
      bindings.lookup field.id = some (.text value) ∧ value ≠ [] ∧ value.length ≤ 4000) :
    validateFields platform (toInput bindings) ⟨true, false⟩
        (List.zipWith normalLegacyField labels ids) =
      .ok ((List.zipWith normalLegacyField labels ids).map (validatedBinding bindings)) := by
  induction labels generalizing ids with
  | nil => rfl
  | cons label labels ih =>
      cases ids with
      | nil => rfl
      | cons id ids =>
          rw [List.zipWith_cons_cons] at h ⊢
          obtain ⟨⟨value, hlookup, hne, hlength⟩, hrest⟩ := List.forall_mem_cons.mp h
          have hsupplied : suppliedValue (normalLegacyField label id) (toInput bindings)
              ⟨true, false⟩ = .value (.text value) := by
            rw [suppliedValue, lookup_toInput, hlookup]
            rfl
          have hgiven : ¬ (InputValue.value (.text value) = .undefined ∨
              InputValue.value (.text value) = .value (.text [])) := by
            rintro (hnone | hempty)
            · exact nomatch hnone
            · exact hne (RunVariableValue.text.inj (InputValue.value.inj hempty))
          rw [validateFields, hsupplied, if_neg hgiven, InputValue.toValue,
            validateFieldValue_legacy hlength, ih hrest, List.map_cons, validatedBinding,
            boundText_of_lookup hlookup]
          rfl

/-- Complete bindings are valid for the schema of the labels. -/
theorem LegacySchema.exists_validation (h : LegacySchema platform labels ids schema)
    (hcomplete : Complete schema bindings) :
    ∃ validation, validateRunVariableBindings platform schema (toInput bindings) ⟨true, false⟩ =
        .ok validation ∧ validation.schema = schema ∧
      validation.bindings = schema.fields.map (validatedBinding bindings) := by
  have hdeclared : undeclared schema (toInput bindings) = [] := by
    rw [undeclared, List.filter_eq_nil_iff]
    intro key hkey
    obtain ⟨binding, hbinding, rfl⟩ := List.mem_map.mp hkey
    obtain ⟨source, hsource, rfl⟩ := List.mem_map.mp hbinding
    obtain ⟨field, hfield, hid⟩ := hcomplete.declared source hsource
    rw [Bool.not_eq_true', Bool.not_eq_false, List.contains_iff_mem]
    exact hid ▸ List.mem_map_of_mem hfield
  have hfields : validateFields platform (toInput bindings) ⟨true, false⟩ schema.fields =
      .ok (schema.fields.map (validatedBinding bindings)) := by
    rw [h.fields]
    exact validateFields_legacy (h.fields ▸ hcomplete.bound)
  obtain ⟨schemaText, hschemaText⟩ := h.printed
  have hmembers : ∃ texts, canonicalizeMembers platform.numberText
      ((schema.fields.map (validatedBinding bindings)).map fun binding =>
        (binding.1, binding.2.json)) = .ok texts := by
    apply exists_canonicalizeMembers
    intro member hmember
    obtain ⟨binding, hbinding, rfl⟩ := List.mem_map.mp hmember
    obtain ⟨field, -, rfl⟩ := List.mem_map.mp hbinding
    exact ⟨quote (boundText bindings field.id), rfl⟩
  obtain ⟨texts, htexts⟩ := hmembers
  have hbindings : canonicalJsonString platform.numberText
      (bindingsJson (schema.fields.map (validatedBinding bindings))) =
        .ok (objectText texts) := by
    rw [canonicalJsonString, bindingsJson, canonicalize, htexts]
    rfl
  refine ⟨⟨schema, platform.sha256Hex schemaText, schema.fields.map (validatedBinding bindings),
    platform.sha256Hex (objectText texts)⟩, ?_, rfl, rfl⟩
  rw [validateRunVariableBindings, h.fixed]
  change validateNormalized platform schema (toInput bindings) ⟨true, false⟩ = _
  rw [validateNormalized, if_neg (not_not.mpr hdeclared), hfields]
  dsimp only [bind, Except.bind]
  rw [hschemaText]
  dsimp only
  rw [hbindings]
  rfl

/-! ## Filling in the template -/

theorem lookup_map_pair {β : Type} (value : List Nat → β) {keys : List (List Nat)} {key : List Nat}
    (h : key ∈ keys) : (keys.map fun key => (key, value key)).lookup key = some (value key) := by
  induction keys with
  | nil => exact nomatch h
  | cons first keys ih =>
      rw [List.map_cons, List.lookup_cons]
      by_cases hfirst : key = first
      · rw [hfirst, beq_self_eq_true]
      · rw [beq_eq_false_iff_ne.mpr hfirst]
        exact ih ((List.mem_cons.mp h).resolve_left hfirst)

theorem map_validatedBinding (bindings : RunVariableBindings) (fields : List RunVariableField) :
    fields.map (validatedBinding bindings) =
      (fields.map RunVariableField.id).map fun id => (id, .text (boundText bindings id)) := by
  rw [List.map_map]
  rfl

/-- A label is replaced by the value for its normalised text, if that is the id of a field. -/
theorem resolveLabel_eq_ok_iff {validation : RunVariableValidationResult} {value : List Nat}
    (hbindings : validation.bindings = validation.schema.fields.map (validatedBinding bindings)) :
    resolveLabel platform validation label = .ok value ↔
      normalizeLegacyPlaceholderId platform.lower label ∈
          validation.schema.fields.map RunVariableField.id ∧
        boundText bindings (normalizeLegacyPlaceholderId platform.lower label) = value := by
  rw [resolveLabel, hbindings, map_validatedBinding]
  by_cases hid : normalizeLegacyPlaceholderId platform.lower label ∈
      validation.schema.fields.map RunVariableField.id
  · rw [List.contains_iff_mem.mpr hid, if_neg Bool.true_eq_false.mp, lookup_map_pair _ hid,
      Option.elim_some, valueText]
    exact ⟨fun h => ⟨hid, Except.ok.inj h⟩, fun h => congrArg Except.ok h.2⟩
  · rw [Bool.eq_false_iff.mpr fun h => hid (List.contains_iff_mem.mp h), if_pos rfl]
    exact ⟨fun h => (nomatch h), fun h => absurd h.1 hid⟩

theorem resolvePieces_eq_ok {resolve : List Nat → Except (List Nat) (List Nat)}
    (value : List Nat → List Nat) {pieces : List Piece}
    (h : ∀ label, Piece.placeholder label ∈ pieces → resolve label = .ok (value label)) :
    resolvePieces resolve pieces = .ok (pieces.flatMap (Piece.render value)) := by
  induction pieces with
  | nil => rfl
  | cons piece pieces ih =>
      have hrest := ih fun label hlabel => h label (List.mem_cons_of_mem _ hlabel)
      cases piece with
      | literal unit =>
          rw [resolvePieces, hrest]
          rfl
      | placeholder label =>
          rw [resolvePieces, h label List.mem_cons_self, hrest]
          rfl

/-- What is filled in has resolved each of its labels. -/
theorem resolve_of_resolvePieces {resolve : List Nat → Except (List Nat) (List Nat)}
    {pieces : List Piece} {text : List Nat} (h : resolvePieces resolve pieces = .ok text)
    (hlabel : Piece.placeholder label ∈ pieces) : ∃ value, resolve label = .ok value := by
  induction pieces generalizing text with
  | nil => exact nomatch hlabel
  | cons piece pieces ih =>
      cases piece with
      | literal unit =>
          obtain ⟨rest, hrest, -⟩ := map_eq_ok h
          exact ih hrest ((List.mem_cons.mp hlabel).resolve_left fun heq => nomatch heq)
      | placeholder other =>
          obtain ⟨value, hvalue, hmore⟩ := bind_eq_ok.mp h
          obtain ⟨rest, hrest, -⟩ := map_eq_ok hmore
          rcases List.mem_cons.mp hlabel with heq | hmem
          · obtain rfl := Piece.placeholder.inj heq
            exact ⟨value, hvalue⟩
          · exact ih hrest hmem

/-- Values of one unit can be read off the text that they are filled into. -/
theorem value_eq_of_flatMap_eq {value other : List Nat → Nat} {pieces : List Piece}
    (h : pieces.flatMap (Piece.render fun label => [value label]) =
      pieces.flatMap (Piece.render fun label => [other label]))
    (hlabel : Piece.placeholder label ∈ pieces) : value label = other label := by
  induction pieces with
  | nil => exact nomatch hlabel
  | cons piece pieces ih =>
      rw [List.flatMap_cons, List.flatMap_cons] at h
      cases piece with
      | literal unit =>
          exact ih (List.cons.inj h).2
            ((List.mem_cons.mp hlabel).resolve_left fun heq => nomatch heq)
      | placeholder first =>
          obtain ⟨hfirst, hrest⟩ := List.cons.inj h
          rcases List.mem_cons.mp hlabel with heq | hmem
          · obtain rfl := Piece.placeholder.inj heq
            exact hfirst
          · exact ih hrest hmem

/-! ## Labels and ids -/

/-- The normalised labels are distinct and have the form of ids. -/
structure KeepsLabels (lower : LowerCase) (labels : List (List Nat)) : Prop where
  distinct : (labels.map (normalizeLegacyPlaceholderId lower)).Nodup
  letters : ∀ label ∈ labels, startsWithLetter (normalizeLegacyPlaceholderId lower label) = true
  short : ∀ label ∈ labels, (normalizeLegacyPlaceholderId lower label).length ≤ 64

theorem assignIds_of_nodup {rest ids' : List (List Nat)} (h : (ids ++ rest).Nodup)
    (hrun : assignIds fuel rest ids = some ids') : ids' = ids ++ rest := by
  induction rest generalizing ids with
  | nil => rw [List.append_nil, Option.some_inj.mp hrun]
  | cons base rest ih =>
      rw [assignIds] at hrun
      obtain ⟨id, hid, hmore⟩ := Option.bind_eq_some_iff.mp hrun
      have hfree : base ∉ ids := fun hmem =>
        (List.nodup_append'.mp h).2.2 hmem List.mem_cons_self
      have hbase : id = base := by
        cases fuel with
        | zero => exact absurd hid.symm (Option.some_ne_none id)
        | succ fuel =>
            rw [freshId, if_neg fun hmem => hfree (List.contains_iff_mem.mp hmem)] at hid
            exact (Option.some_inj.mp hid).symm
      rw [hbase] at hmore
      have happend : ids ++ [base] ++ rest = ids ++ base :: rest := by
        rw [List.append_assoc, List.singleton_append]
      rw [ih (happend ▸ h) hmore, happend]

theorem idBases_of_keepsLabels {lower : LowerCase} (h : KeepsLabels lower labels) :
    idBases lower labels = labels.map (normalizeLegacyPlaceholderId lower) := by
  rw [idBases, List.mapIdx_eq_iff]
  intro index
  rw [List.getElem?_map]
  cases hlabel : labels[index]? with
  | none => rfl
  | some label =>
      have hmem := List.mem_of_getElem? hlabel
      rw [Option.map_some, Option.map_some, idBase, if_pos (h.letters label hmem),
        List.take_of_length_le (h.short label hmem)]

/-- The ids are the normalised labels exactly when these are distinct and have the form of ids. -/
theorem ids_eq_map_iff (hids : placeholderIds platform.lower fuel labels = some ids)
    (h : LegacySchema platform labels ids schema) :
    ids = labels.map (normalizeLegacyPlaceholderId platform.lower) ↔
      KeepsLabels platform.lower labels := by
  constructor
  · intro heq
    have hvalid : ∀ label ∈ labels,
        isFieldId (normalizeLegacyPlaceholderId platform.lower label) = true := by
      intro label hlabel
      apply h.valid
      rw [heq]
      exact List.mem_map_of_mem hlabel
    exact ⟨heq ▸ h.distinct, fun label hlabel => (isFieldId_iff.mp (hvalid label hlabel)).1,
      fun label hlabel => (isFieldId_iff.mp (hvalid label hlabel)).2.1⟩
  · intro hkeeps
    rw [placeholderIds, idBases_of_keepsLabels hkeeps] at hids
    have heq := assignIds_of_nodup (by rw [List.nil_append]; exact hkeeps.distinct) hids
    rwa [List.nil_append] at heq

theorem map_id_normalLegacyField (h : ids.length = labels.length) :
    (List.zipWith normalLegacyField labels ids).map RunVariableField.id = ids := by
  induction labels generalizing ids with
  | nil => rw [List.length_eq_zero_iff.mp h]; rfl
  | cons label labels ih =>
      cases ids with
      | nil => exact nomatch h
      | cons id ids =>
          rw [List.zipWith_cons_cons, List.map_cons, ih (Nat.succ_injective h)]
          rfl

theorem forall₂_belongs (h : ids.length = labels.length) :
    List.Forall₂ Belongs labels (List.zipWith normalLegacyField labels ids) := by
  induction labels generalizing ids with
  | nil => exact .nil
  | cons label labels ih =>
      cases ids with
      | nil => exact nomatch h
      | cons id ids => exact .cons rfl (ih (Nat.succ_injective h))

/-- The field of a label is the one at its place. -/
theorem lookup_zip (hlabels : labels.Nodup) {index : Nat} (hlabel : labels[index]? = some label)
    (hid : ids[index]? = some id) :
    (labels.zip (List.zipWith normalLegacyField labels ids)).lookup label =
      some (normalLegacyField label id) := by
  induction labels generalizing ids index with
  | nil => exact nomatch hlabel
  | cons first labels ih =>
      cases ids with
      | nil => exact nomatch hid
      | cons firstId ids =>
          obtain ⟨hfirst, hrest⟩ := List.nodup_cons.mp hlabels
          rw [List.zipWith_cons_cons, List.zip_cons_cons, List.lookup_cons]
          cases index with
          | zero =>
              obtain rfl := Option.some_inj.mp hlabel
              obtain rfl := Option.some_inj.mp hid
              rw [beq_self_eq_true]
          | succ index =>
              rw [List.getElem?_cons_succ] at hlabel hid
              have hne : label ≠ first := by
                rintro rfl
                exact hfirst (List.mem_of_getElem? hlabel)
              rw [beq_eq_false_iff_ne.mpr hne]
              exact ih hrest hlabel hid

theorem LegacySchema.ownValue_eq (h : LegacySchema platform labels ids schema)
    (hlabels : labels.Nodup) (bindings : RunVariableBindings) {index : Nat}
    (hlabel : labels[index]? = some label) (hid : ids[index]? = some id) :
    ownValue labels schema bindings label = boundText bindings id := by
  rw [ownValue, h.fields, lookup_zip hlabels hlabel hid]
  rfl

theorem LegacySchema.map_id (h : LegacySchema platform labels ids schema) :
    schema.fields.map RunVariableField.id = ids := by
  rw [h.fields, map_id_normalLegacyField h.each]

theorem ownValues_of_keepsLabels (h : LegacySchema platform (placeholderLabels template) ids schema)
    (hids : ids = (placeholderLabels template).map
      (normalizeLegacyPlaceholderId platform.lower)) : OwnValues platform template schema := by
  refine ⟨h.fields ▸ forall₂_belongs h.each, fun bindings hcomplete => ?_⟩
  obtain ⟨validation, hvalid, hschema, hbindings⟩ := h.exists_validation hcomplete
  rw [resolveLegacyRunVariableTemplate, hvalid]
  apply resolvePieces_eq_ok (ownValue (placeholderLabels template) schema bindings)
  intro label hlabel
  have hmem := mem_placeholderLabels.mpr hlabel
  obtain ⟨index, hindex⟩ := List.mem_iff_getElem?.mp hmem
  have hid : ids[index]? = some (normalizeLegacyPlaceholderId platform.lower label) := by
    rw [hids, List.getElem?_map, hindex, Option.map_some]
  rw [h.ownValue_eq (nodup_placeholderLabels template) bindings hindex hid,
    resolveLabel_eq_ok_iff (hschema ▸ hbindings), hschema, h.map_id]
  exact ⟨List.mem_of_getElem? hid, rfl⟩

/-- Bindings of the ids to texts of one unit, which shows the place of the id. -/
def placeBindings (ids : List (List Nat)) : RunVariableBindings :=
  ids.map fun id => (id, .text [ids.idxOf id + 1])

theorem boundText_placeBindings (h : id ∈ ids) :
    boundText (placeBindings ids) id = [ids.idxOf id + 1] :=
  boundText_of_lookup (lookup_map_pair _ h)

theorem LegacySchema.complete_placeBindings (h : LegacySchema platform labels ids schema) :
    Complete schema (placeBindings ids) := by
  constructor
  · intro binding hbinding
    obtain ⟨id, hid, rfl⟩ := List.mem_map.mp hbinding
    rw [← h.map_id] at hid
    exact List.mem_map.mp hid
  · intro field hfield
    have hid : field.id ∈ ids := h.map_id ▸ List.mem_map_of_mem hfield
    refine ⟨[ids.idxOf field.id + 1], lookup_map_pair _ hid, List.cons_ne_nil _ _, ?_⟩
    rw [List.length_singleton]
    decide

theorem LegacySchema.exists_id (h : LegacySchema platform labels ids schema) {index : Nat}
    (hlabel : labels[index]? = some label) : ∃ id, ids[index]? = some id := by
  have hindex := (List.getElem?_eq_some_iff.mp hlabel).1
  rw [← h.each] at hindex
  exact ⟨ids[index], List.getElem?_eq_getElem hindex⟩

theorem idxOf_of_getElem? {texts : List (List Nat)} (h : texts.Nodup) {index : Nat}
    {text : List Nat} (htext : texts[index]? = some text) : texts.idxOf text = index := by
  obtain ⟨hindex, rfl⟩ := List.getElem?_eq_some_iff.mp htext
  exact h.idxOf_getElem index hindex

/-- When the labels get their own values, their fields have the normalised labels as ids: in a
template that is filled in with the places of the ids, each label shows its own place. -/
theorem ids_of_ownValues (h : LegacySchema platform (placeholderLabels template) ids schema)
    (hown : OwnValues platform template schema) :
    ids = (placeholderLabels template).map (normalizeLegacyPlaceholderId platform.lower) := by
  have hdistinct := nodup_placeholderLabels template
  obtain ⟨validation, hvalid, hschema, hbindings⟩ :=
    h.exists_validation h.complete_placeBindings
  have hresolved := hown.resolved _ h.complete_placeBindings
  rw [resolveLegacyRunVariableTemplate, hvalid] at hresolved
  have hpieces : resolvePieces (resolveLabel platform validation) (pieces 0 template) = _ :=
    hresolved
  have hnormal : ∀ label, Piece.placeholder label ∈ pieces 0 template →
      normalizeLegacyPlaceholderId platform.lower label ∈ ids := by
    intro label hlabel
    obtain ⟨value, hvalue⟩ := resolve_of_resolvePieces hpieces hlabel
    have hid := ((resolveLabel_eq_ok_iff (hschema ▸ hbindings)).mp hvalue).1
    rwa [hschema, h.map_id] at hid
  have hactual := resolvePieces_eq_ok
    (fun label => [ids.idxOf (normalizeLegacyPlaceholderId platform.lower label) + 1])
    fun label hlabel => (resolveLabel_eq_ok_iff (hschema ▸ hbindings)).mpr
      ⟨hschema ▸ h.map_id ▸ hnormal label hlabel, boundText_placeBindings (hnormal label hlabel)⟩
  have hexpected : (pieces 0 template).flatMap (Piece.render (ownValue (placeholderLabels template)
      schema (placeBindings ids))) =
      (pieces 0 template).flatMap
        (Piece.render fun label => [(placeholderLabels template).idxOf label + 1]) := by
    apply List.flatMap_congr
    intro piece hpiece
    cases piece with
    | literal unit => rfl
    | placeholder label =>
        obtain ⟨index, hindex⟩ := List.mem_iff_getElem?.mp (mem_placeholderLabels.mpr hpiece)
        obtain ⟨id, hid⟩ := h.exists_id hindex
        rw [Piece.render, Piece.render, h.ownValue_eq hdistinct _ hindex hid,
          boundText_placeBindings (List.mem_of_getElem? hid), idxOf_of_getElem? h.distinct hid,
          idxOf_of_getElem? hdistinct hindex]
  rw [hexpected, hactual] at hpieces
  apply List.ext_getElem?
  intro index
  rw [List.getElem?_map]
  cases hlabel : (placeholderLabels template)[index]? with
  | none =>
      rw [List.getElem?_eq_none_iff] at hlabel
      rw [Option.map_none, List.getElem?_eq_none_iff, h.each]
      exact hlabel
  | some label =>
      obtain ⟨id, hid⟩ := h.exists_id hlabel
      have hpiece := mem_placeholderLabels.mp (List.mem_of_getElem? hlabel)
      have hplace := value_eq_of_flatMap_eq (Except.ok.inj hpieces) hpiece
      rw [idxOf_of_getElem? hdistinct hlabel] at hplace
      have hsame : ids[ids.idxOf (normalizeLegacyPlaceholderId platform.lower label)]? =
          some (normalizeLegacyPlaceholderId platform.lower label) :=
        List.getElem?_idxOf (hnormal label hpiece)
      rw [Nat.succ_injective hplace] at hsame
      rw [Option.map_some, hsame]

/-- The labels of a template get their own values exactly when their normalised texts are distinct,
begin with a letter and have at most 64 units. -/
theorem ownValues_iff
    (h : legacyPlaceholderSchema platform fuel (placeholderLabels template) =
      some (.ok schema)) :
    OwnValues platform template schema ↔
      KeepsLabels platform.lower (placeholderLabels template) := by
  obtain ⟨ids, hids, hschema⟩ := legacySchema h
  rw [← ids_eq_map_iff hids hschema]
  exact ⟨ids_of_ownValues hschema, ownValues_of_keepsLabels hschema⟩

end Templates

/-- The schema of one label. -/
def oneLabelSchema (label id : String) : RunVariableSchema :=
  ⟨runVariableSchemaVersion, [normalLegacyField (utf16Units label) (utf16Units id)]⟩

theorem topic_ownValues_iff :
    OwnValues topicPlatform (utf16Units "Explain <TOPIC>") (oneLabelSchema "TOPIC" "topic") ↔
      KeepsLabels topicPlatform.lower (placeholderLabels (utf16Units "Explain <TOPIC>")) :=
  @ownValues_iff topicPlatform (utf16Units "Explain <TOPIC>") (oneLabelSchema "TOPIC" "topic") 1
    (by decide +kernel)

/-- The field of `2nd name` is `value_1`; filling in looks for `2nd_name`. -/
theorem digit_label_unresolved :
    legacyPlaceholderSchema topicPlatform 1 (placeholderLabels (utf16Units "Hi <2nd name>")) =
        some (.ok (oneLabelSchema "2nd name" "value_1")) ∧
      ¬ OwnValues topicPlatform (utf16Units "Hi <2nd name>")
        (oneLabelSchema "2nd name" "value_1") := by
  refine ⟨by decide +kernel, fun hown => ?_⟩
  have hcomplete : Complete (oneLabelSchema "2nd name" "value_1")
      [(utf16Units "value_1", .text (utf16Units "Ann"))] := by
    constructor
    · intro binding hbinding
      obtain rfl := List.mem_singleton.mp hbinding
      exact ⟨_, List.mem_singleton_self _, rfl⟩
    · intro field hfield
      obtain rfl := List.mem_singleton.mp hfield
      exact ⟨utf16Units "Ann", by decide +kernel, by decide, by decide⟩
  have hresolved := congrArg Except.isOk (hown.resolved _ hcomplete)
  exact absurd hresolved (by decide +kernel)

end GoatCitadel.Contracts
