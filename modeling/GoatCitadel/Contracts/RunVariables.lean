import GoatCitadel.Contracts.CanonicalJson
import GoatCitadel.Contracts.InlineReasoning
import Mathlib.Data.List.DropRight

/-!
# Run variables

A schema declares the variables of a template.  It is normalised when it is accepted: ids and
labels are trimmed, descriptions are trimmed and cut, missing length bounds are filled in.  The
hash of a schema is that of its normal form, which is normalised again wherever it is read, so the
normal form has to be a fixed point.  A description that is cut behind white space is none.
-/

namespace GoatCitadel.Support

def Number.isFinite : Number → Bool
  | .finite _ => true
  | .nonFinite => false

def Number.isInteger : Number → Bool
  | .finite value => value.den == 1
  | .nonFinite => false

def Number.lt : Number → Number → Bool
  | .finite left, .finite right => left < right
  | _, _ => false

end GoatCitadel.Support

namespace GoatCitadel.Contracts

open GoatCitadel.Support

/-! ## Texts -/

theorem trim_isPrefix (text : List Nat) : trimUnits text <+: trimStart text :=
  List.rdropWhile_prefix _ _

theorem head?_trim_not_space {text : List Nat} {unit : Nat}
    (h : (trimUnits text).head? = some unit) :
    isSpace unit = false := by
  obtain ⟨rest, hrest⟩ := trim_isPrefix text
  cases htrim : trimUnits text with
  | nil =>
      rw [htrim] at h
      exact nomatch h
  | cons first units =>
      rw [htrim] at h hrest
      obtain rfl := Option.some_inj.mp h
      have hne : trimStart text ≠ [] := hrest ▸ List.cons_ne_nil _ _
      have hhead : isSpace ((trimStart text).head hne) = false :=
        List.head_dropWhile_not isSpace hne
      have hsame : (trimStart text).head hne = first := by
        simp only [← hrest, List.cons_append, List.head_cons]
      rwa [← hsame]

theorem getLast?_trim_not_space {text : List Nat} {unit : Nat}
    (h : (trimUnits text).getLast? = some unit) : isSpace unit = false := by
  have hne : trimUnits text ≠ [] := by
    intro hnil
    rw [hnil] at h
    exact nomatch h
  have hlast := List.rdropWhile_last_not isSpace (trimStart text) hne
  rw [List.getLast?_eq_some_getLast hne] at h
  rw [← Option.some_inj.mp h]
  exact Bool.eq_false_iff.mpr hlast

/-- A text that neither begins nor ends with white space is left as it is. -/
theorem trim_eq_self {text : List Nat} (hfirst : ∀ unit, text.head? = some unit →
    isSpace unit = false) (hlast : ∀ unit, text.getLast? = some unit → isSpace unit = false) :
    trimUnits text = text := by
  have hstart : trimStart text = text := by
    rw [trimStart, List.dropWhile_eq_self_iff]
    intro hne
    rw [Bool.not_eq_true]
    apply hfirst
    rw [List.head?_eq_getElem?, List.getElem?_eq_getElem]
  rw [trimUnits, hstart, List.rdropWhile_eq_self_iff]
  intro hne
  rw [Bool.not_eq_true]
  exact hlast _ (List.getLast?_eq_some_getLast hne)

theorem trim_trim_units (text : List Nat) : trimUnits (trimUnits text) = trimUnits text :=
  trim_eq_self (fun _ => head?_trim_not_space) fun _ => getLast?_trim_not_space

/-! ## Schemas -/

inductive RunVariableValue
  | text (value : List Nat)
  | number (value : Number)
  | boolean (value : Bool)
  deriving DecidableEq

inductive RunVariableStringType
  | text
  | multiline
  | url
  | path
  | date
  | datetime
  deriving DecidableEq

structure SelectOption where
  value : List Nat
  label : List Nat
  deriving DecidableEq

/-- The type of a field and what only fields of the type have. -/
inductive RunVariableKind
  | string (type : RunVariableStringType) (default : Option RunVariableValue)
      (minLength maxLength : Option Number)
  | number (default : Option RunVariableValue) (minimum maximum : Option Number)
  | boolean (default : Option RunVariableValue)
  | select (default : Option RunVariableValue) (options : List SelectOption)
  | unsupported (type : List Nat)
  deriving DecidableEq

structure RunVariableField where
  id : List Nat
  label : List Nat
  description : Option (List Nat)
  required : Bool
  kind : RunVariableKind
  deriving DecidableEq

structure RunVariableSchema where
  version : List Nat
  fields : List RunVariableField
  deriving DecidableEq

/-- `RUN_VARIABLE_SCHEMA_VERSION` -/
def runVariableSchemaVersion : List Nat :=
  utf16Units "goatcitadel.run-variables.v1"

/-- `RUN_VARIABLE_MAX_FIELDS` -/
def runVariableMaxFields : Nat := 32

/-- What the platform does: lower case, URLs, dates, numbers as texts, and hashes. -/
structure Platform where
  lower : LowerCase
  /-- The protocol of `new URL`, if that does not throw. -/
  urlProtocol : List Nat → Option (List Nat)
  /-- `Date.parse` gives a number. -/
  parsesDate : List Nat → Bool
  numberText : ℚ → List Nat
  sha256Hex : List Nat → List Nat

/-- A message with a text in the middle. -/
def message (front : String) (middle : List Nat) (back : String) : List Nat :=
  utf16Units front ++ middle ++ utf16Units back

/-! ## The normal form -/

def isFieldIdUnit (unit : Nat) : Bool :=
  (97 ≤ unit && unit ≤ 122) || (48 ≤ unit && unit ≤ 57) || unit == 95

/-- `FIELD_ID` -/
def isFieldId : List Nat → Bool
  | [] => false
  | first :: rest =>
      (97 ≤ first && first ≤ 122) && (rest.length ≤ 63 && rest.all isFieldIdUnit)

def normalizeDescription (description : List Nat) : Option (List Nat) :=
  if trimUnits description = [] then none else some ((trimUnits description).take 500)

def normalizeOptions (id : List Nat) :
    List SelectOption → List (List Nat) → Except (List Nat) (List SelectOption)
  | [], _ => .ok []
  | option :: options, optionValues =>
      if trimUnits option.value = [] ∨ trimUnits option.label = [] ∨
          optionValues.contains (trimUnits option.value) = true then
        .error (message "Invalid option for run variable " id ".")
      else
        (⟨trimUnits option.value, trimUnits option.label⟩ :: ·) <$>
          normalizeOptions id options (trimUnits option.value :: optionValues)

/-- `field.maxLength ?? (field.type === "multiline" ? 32_000 : 4_000)` -/
def maxLengthOr (type : RunVariableStringType) (maxLength : Option Number) : Number :=
  maxLength.getD (if type = .multiline then .finite 32000 else .finite 4000)

def normalizeKind (id : List Nat) : RunVariableKind → Except (List Nat) RunVariableKind
  | .select default options =>
      if options.length < 1 ∨ 100 < options.length then
        .error (message "Select run variable " id " requires 1-100 options.")
      else .select default <$> normalizeOptions id options []
  | .number default minimum maximum =>
      if minimum.any (fun minimum => !minimum.isFinite) = true then
        .error (message "Invalid minimum for " id ".")
      else if maximum.any (fun maximum => !maximum.isFinite) = true then
        .error (message "Invalid maximum for " id ".")
      else if minimum.any (fun minimum => maximum.any fun maximum => maximum.lt minimum) =
          true then
        .error (message "Minimum exceeds maximum for " id ".")
      else .ok (.number default minimum maximum)
  | .boolean default => .ok (.boolean default)
  | .unsupported _ => .error (message "Unsupported run-variable type for " id ".")
  | .string type default minLength maxLength =>
      if minLength.any (fun minLength => !minLength.isInteger || minLength.lt (.finite 0)) =
          true then
        .error (message "Invalid minimum length for " id ".")
      else if (!(maxLengthOr type maxLength).isInteger ||
          (maxLengthOr type maxLength).lt (.finite 1) ||
          (Number.finite 100000).lt (maxLengthOr type maxLength) ||
          (maxLengthOr type maxLength).lt (minLength.getD (.finite 0))) = true then
        .error (message "Invalid maximum length for " id ".")
      else .ok (.string type default minLength (some (maxLengthOr type maxLength)))

/-- The normal form of a field, and the ids with its own. -/
def normalizeField (platform : Platform) (field : RunVariableField) (seen : List (List Nat)) :
    Except (List Nat) (RunVariableField × List (List Nat)) :=
  let id := platform.lower.toLowerCase (trimUnits field.id)
  if isFieldId id = false then
    .error (message "Invalid run-variable field id: " field.id ".")
  else if seen.contains id = true then
    .error (message "Duplicate run-variable field id: " id ".")
  else if trimUnits field.label = [] ∨ 120 < (trimUnits field.label).length then
    .error (message "Invalid label for run variable " id ".")
  else
    (fun kind =>
      (⟨id, trimUnits field.label, field.description.bind normalizeDescription, field.required,
          kind⟩,
        id :: seen)) <$> normalizeKind id field.kind

def normalizeFields (platform : Platform) :
    List RunVariableField → List (List Nat) → Except (List Nat) (List RunVariableField)
  | [], _ => .ok []
  | field :: fields, seen =>
      normalizeField platform field seen >>= fun normalized =>
        (normalized.1 :: ·) <$> normalizeFields platform fields normalized.2

def normalizeSchemaWithoutDefaultRecursion (platform : Platform) (input : RunVariableSchema) :
    Except (List Nat) RunVariableSchema :=
  if input.version ≠ runVariableSchemaVersion then
    .error (utf16Units "Unsupported run-variable schema version.")
  else if runVariableMaxFields < input.fields.length then
    .error (utf16Units "Run-variable schemas are limited to 32 fields.")
  else
    (fun fields => ⟨runVariableSchemaVersion, fields⟩) <$>
      normalizeFields platform input.fields []

/-! ## Bindings -/

/-- A value that is supplied for a variable. -/
inductive InputValue
  | undefined
  | value (value : RunVariableValue)
  /-- `null`, an array or an object. -/
  | other
  deriving DecidableEq

abbrev RunVariableBindings := List (List Nat × RunVariableValue)

/-- `\d{count}` at the beginning of a text, and what follows. -/
def dropDigits : Nat → List Nat → Option (List Nat)
  | 0, text => some text
  | count + 1, unit :: text =>
      if 48 ≤ unit ∧ unit ≤ 57 then dropDigits count text else none
  | _ + 1, [] => none

def dropUnit (expected : Nat) : List Nat → Option (List Nat)
  | unit :: text => if unit = expected then some text else none
  | [] => none

/-- `\d{4}-\d{2}-\d{2}` -/
def dropDate (text : List Nat) : Option (List Nat) :=
  dropDigits 4 text >>= dropUnit 45 >>= dropDigits 2 >>= dropUnit 45 >>= dropDigits 2

/-- `\d{2}:\d{2}` -/
def dropHourMinute (text : List Nat) : Option (List Nat) :=
  dropDigits 2 text >>= dropUnit 58 >>= dropDigits 2

/-- `ISO_DATE` -/
def isIsoDate (text : List Nat) : Bool :=
  dropDate text == some []

/-- `(?:Z|[+-]\d{2}:\d{2})$` -/
def isZone : List Nat → Bool
  | [] => false
  | unit :: text =>
      (unit == 90 && text.isEmpty) ||
        ((unit == 43 || unit == 45) && dropHourMinute text == some [])

/-- `(?:\.\d{1,3})?` before the zone. -/
def isFractionAndZone (text : List Nat) : Bool :=
  isZone text ||
    [1, 2, 3].any fun count => ((dropUnit 46 text >>= dropDigits count).any isZone)

/-- `ISO_DATETIME_WITH_ZONE` -/
def isIsoDatetimeWithZone (text : List Nat) : Bool :=
  (dropDate text >>= dropUnit 84 >>= dropHourMinute).any fun rest =>
    isZone rest || (dropUnit 58 rest >>= dropDigits 2).any isFractionAndZone

def validateText (platform : Platform) (id : List Nat) (type : RunVariableStringType)
    (minLength maxLength : Option Number) (value : List Nat) :
    Except (List Nat) RunVariableValue :=
  if ((Number.finite value.length).lt (minLength.getD (.finite 0)) ||
      (maxLength.getD (.finite 4000)).lt (.finite value.length)) = true then
    .error (message "Run variable " id " violates its length bounds.")
  else if type = .url ∧ (platform.urlProtocol value).all (fun protocol =>
      protocol != utf16Units "http:" && protocol != utf16Units "https:") = true then
    .error (message "Run variable " id " must be an absolute HTTP(S) URL.")
  else if type = .date ∧ (!isIsoDate value ||
      !platform.parsesDate (value ++ utf16Units "T00:00:00Z")) = true then
    .error (message "Run variable " id " must be an ISO date.")
  else if type = .datetime ∧ (!isIsoDatetimeWithZone value || !platform.parsesDate value) =
      true then
    .error (message "Run variable " id " must be an ISO datetime with a timezone offset.")
  else .ok (.text value)

/-- The value of a field; `none` is a value of no type that a variable has. -/
def validateFieldValue (platform : Platform) (field : RunVariableField) :
    Option RunVariableValue → Except (List Nat) RunVariableValue
  | value =>
      match field.kind, value with
      | .boolean _, some (.boolean value) => .ok (.boolean value)
      | .boolean _, _ => .error (message "Run variable " field.id " must be boolean.")
      | .number _ minimum maximum, some (.number value) =>
          if value.isFinite = false then
            .error (message "Run variable " field.id " must be finite.")
          else if minimum.any (fun minimum => value.lt minimum) = true then
            .error (message "Run variable " field.id " is below its minimum.")
          else if maximum.any (fun maximum => maximum.lt value) = true then
            .error (message "Run variable " field.id " exceeds its maximum.")
          else .ok (.number value)
      | .number _ _ _, _ => .error (message "Run variable " field.id " must be finite.")
      | .select _ options, some (.text value) =>
          if options.any (fun option => option.value = value) = true then .ok (.text value)
          else .error (message "Run variable " field.id " is not an allowed option.")
      | .string type _ minLength maxLength, some (.text value) =>
          validateText platform field.id type minLength maxLength value
      | _, _ => .error (message "Run variable " field.id " must be text.")

structure ValidationOptions where
  applyDefaults : Bool
  allowMissingRequired : Bool

def RunVariableField.default (field : RunVariableField) : Option RunVariableValue :=
  match field.kind with
  | .string _ default _ _ => default
  | .number default _ _ => default
  | .boolean default => default
  | .select default _ => default
  | .unsupported _ => none

/-- What is supplied for a field, or its default. -/
def suppliedValue (field : RunVariableField) (input : List (List Nat × InputValue))
    (options : ValidationOptions) : InputValue :=
  (input.lookup field.id).getD
    (if options.applyDefaults = true then (field.default.map .value).getD .undefined
    else .undefined)

def InputValue.toValue : InputValue → Option RunVariableValue
  | .value supplied => some supplied
  | _ => none

def validateFields (platform : Platform) (input : List (List Nat × InputValue))
    (options : ValidationOptions) : List RunVariableField →
      Except (List Nat) RunVariableBindings
  | [] => .ok []
  | field :: fields =>
      if suppliedValue field input options = .undefined ∨
          suppliedValue field input options = .value (.text []) then
        if field.required = true ∧ options.allowMissingRequired = false then
          .error (message "Missing required run variable: " field.id ".")
        else validateFields platform input options fields
      else
        validateFieldValue platform field (suppliedValue field input options).toValue >>=
          fun value => ((field.id, value) :: ·) <$> validateFields platform input options fields

/-! ## Canonical texts -/

def RunVariableValue.json : RunVariableValue → CanonicalValue
  | .text value => .text value
  | .number value => .number value
  | .boolean value => .boolean value

def RunVariableStringType.name : RunVariableStringType → String
  | .text => "text"
  | .multiline => "multiline"
  | .url => "url"
  | .path => "path"
  | .date => "date"
  | .datetime => "datetime"

/-- A member that is left out when it is `undefined`. -/
def optionalMember (key : String) (value : Option CanonicalValue) :
    List (List Nat × CanonicalValue) :=
  (value.map fun value => (utf16Units key, value)).toList

def SelectOption.json (option : SelectOption) : CanonicalValue :=
  .object [(utf16Units "value", .text option.value), (utf16Units "label", .text option.label)]

/-- The members that a field has because of its type. -/
def RunVariableKind.members : RunVariableKind → List (List Nat × CanonicalValue)
  | .select default options =>
      (utf16Units "type", .text (utf16Units "select")) ::
        (utf16Units "options", .array (options.map SelectOption.json)) ::
        optionalMember "default" (default.map RunVariableValue.json)
  | .number default minimum maximum =>
      (utf16Units "type", .text (utf16Units "number")) ::
        (optionalMember "default" (default.map RunVariableValue.json) ++
          optionalMember "minimum" (minimum.map .number) ++
          optionalMember "maximum" (maximum.map .number))
  | .boolean default =>
      (utf16Units "type", .text (utf16Units "boolean")) ::
        optionalMember "default" (default.map RunVariableValue.json)
  | .string type default minLength maxLength =>
      (utf16Units "type", .text (utf16Units type.name)) ::
        (optionalMember "default" (default.map RunVariableValue.json) ++
          optionalMember "minLength" (minLength.map .number) ++
          optionalMember "maxLength" (maxLength.map .number))
  | .unsupported type => [(utf16Units "type", .text type)]

def RunVariableField.json (field : RunVariableField) : CanonicalValue :=
  .object ((utf16Units "id", .text field.id) :: (utf16Units "label", .text field.label) ::
    (optionalMember "description" (field.description.map .text) ++
      optionalMember "required" (if field.required = true then some (.boolean true) else none) ++
      field.kind.members))

def RunVariableSchema.json (schema : RunVariableSchema) : CanonicalValue :=
  .object [(utf16Units "version", .text schema.version),
    (utf16Units "fields", .array (schema.fields.map RunVariableField.json))]

def bindingsJson (bindings : RunVariableBindings) : CanonicalValue :=
  .object (bindings.map fun binding => (binding.1, binding.2.json))

structure RunVariableValidationResult where
  schema : RunVariableSchema
  schemaHash : List Nat
  bindings : RunVariableBindings
  bindingsHash : List Nat

/-- The supplied names that no field has. -/
def undeclared (schema : RunVariableSchema) (input : List (List Nat × InputValue)) :
    List (List Nat) :=
  (input.map Prod.fst).filter fun key => !(schema.fields.map RunVariableField.id).contains key

/-- What follows the normalisation of the schema. -/
def validateNormalized (platform : Platform) (schema : RunVariableSchema)
    (input : List (List Nat × InputValue)) (options : ValidationOptions) :
    Except (List Nat) RunVariableValidationResult :=
  if undeclared schema input ≠ [] then
    .error (message "Undeclared run variable(s): "
      ((utf16Units ", ").intercalate ((undeclared schema input).mergeSort unitsLe)) ".")
  else
    validateFields platform input options schema.fields >>= fun bindings =>
      canonicalJsonString platform.numberText schema.json >>= fun schemaText =>
        (fun bindingsText =>
          ⟨schema, platform.sha256Hex schemaText, bindings,
            platform.sha256Hex bindingsText⟩) <$>
          canonicalJsonString platform.numberText (bindingsJson bindings)

def validateRunVariableBindings (platform : Platform) (schemaInput : RunVariableSchema)
    (input : List (List Nat × InputValue)) (options : ValidationOptions) :
    Except (List Nat) RunVariableValidationResult :=
  normalizeSchemaWithoutDefaultRecursion platform schemaInput >>= fun schema =>
    validateNormalized platform schema input options

def normalizeRunVariableSchema (platform : Platform) (input : RunVariableSchema) :
    Except (List Nat) RunVariableSchema :=
  normalizeSchemaWithoutDefaultRecursion platform input >>= fun schema =>
    (fun _ => schema) <$> validateRunVariableBindings platform schema [] ⟨true, true⟩

def hashRunVariableSchema (platform : Platform) (schema : RunVariableSchema) :
    Except (List Nat) (List Nat) :=
  normalizeRunVariableSchema platform schema >>= fun normalized =>
    platform.sha256Hex <$> canonicalJsonString platform.numberText normalized.json

/-! ## Evidence -/

inductive OwnerKind
  | promptPack
  | agentPreset
  deriving DecidableEq

structure RunTemplateInvocation where
  ownerKind : OwnerKind
  ownerId : List Nat
  ownerRevision : List Nat
  templateId : Option (List Nat)
  schemaHash : List Nat
  values : RunVariableBindings

structure RunVariableEvidence where
  ownerKind : OwnerKind
  ownerId : List Nat
  ownerRevision : List Nat
  templateId : Option (List Nat)
  schemaHash : List Nat
  bindingsHash : List Nat
  bindings : RunVariableBindings
  resolvedInputHash : List Nat

def toInput (bindings : RunVariableBindings) : List (List Nat × InputValue) :=
  bindings.map fun binding => (binding.1, .value binding.2)

/-- The evidence of bindings that are valid for the schema of the invocation. -/
def RunVariableValidationResult.evidence (validation : RunVariableValidationResult)
    (platform : Platform) (invocation : RunTemplateInvocation) (resolvedInput : List Nat) :
    RunVariableEvidence :=
  { ownerKind := invocation.ownerKind
    ownerId := invocation.ownerId
    ownerRevision := invocation.ownerRevision
    templateId := invocation.templateId.filter fun templateId => templateId != []
    schemaHash := validation.schemaHash
    bindingsHash := validation.bindingsHash
    bindings := validation.bindings
    resolvedInputHash := platform.sha256Hex resolvedInput }

def buildRunVariableEvidence (platform : Platform) (invocation : RunTemplateInvocation)
    (schema : RunVariableSchema) (resolvedInput : List Nat) :
    Except (List Nat) RunVariableEvidence :=
  validateRunVariableBindings platform schema (toInput invocation.values) ⟨true, false⟩ >>=
    fun validation =>
      if validation.schemaHash ≠ invocation.schemaHash then
        .error (utf16Units "Run-variable schema changed; reopen the form.")
      else .ok (validation.evidence platform invocation resolvedInput)

/-! ## Fixed points -/

section FixedPoint

variable {platform : Platform} {field normalized : RunVariableField} {seen seen' : List (List Nat)}
  {schema : RunVariableSchema} {id : List Nat} {input : RunVariableSchema}
  {fields : List RunVariableField}

theorem isFieldIdUnit_of_letter {unit : Nat} (h : (97 ≤ unit && unit ≤ 122) = true) :
    isFieldIdUnit unit = true := by
  rw [isFieldIdUnit, h, Bool.true_or, Bool.true_or]

theorem isFieldIdUnit_of_mem (h : isFieldId id = true) {unit : Nat} (hunit : unit ∈ id) :
    isFieldIdUnit unit = true := by
  cases id with
  | nil => exact nomatch h
  | cons first rest =>
      obtain ⟨hfirst, hrest⟩ := Bool.and_eq_true_iff.mp h
      rcases List.mem_cons.mp hunit with rfl | hmem
      · exact isFieldIdUnit_of_letter hfirst
      · exact List.all_eq_true.mp (Bool.and_eq_true_iff.mp hrest).2 unit hmem

theorem not_space_of_isFieldIdUnit {unit : Nat} (h : isFieldIdUnit unit = true) :
    isSpace unit = false := by
  have hbounds : 48 ≤ unit ∧ unit ≤ 122 := by
    simp only [isFieldIdUnit, Bool.or_eq_true, Bool.and_eq_true, decide_eq_true_eq,
      beq_iff_eq] at h
    omega
  rw [Bool.eq_false_iff]
  intro hspace
  simp only [isSpace, Bool.or_eq_true, Bool.and_eq_true, decide_eq_true_eq, beq_iff_eq] at hspace
  omega

theorem asciiLower_of_isFieldIdUnit {unit : Nat} (h : isFieldIdUnit unit = true) :
    asciiLower unit = unit := by
  rw [asciiLower, if_neg]
  intro hupper
  simp only [isFieldIdUnit, Bool.or_eq_true, Bool.and_eq_true, decide_eq_true_eq,
    beq_iff_eq] at h
  omega

theorem lt_of_isFieldIdUnit {unit : Nat} (h : isFieldIdUnit unit = true) : unit < 128 := by
  simp only [isFieldIdUnit, Bool.or_eq_true, Bool.and_eq_true, decide_eq_true_eq,
    beq_iff_eq] at h
  omega

theorem trim_fieldId (h : isFieldId id = true) : trimUnits id = id := by
  apply trim_eq_self
  · exact fun unit hfirst =>
      not_space_of_isFieldIdUnit (isFieldIdUnit_of_mem h (List.mem_of_head? hfirst))
  · exact fun unit hlast =>
      not_space_of_isFieldIdUnit (isFieldIdUnit_of_mem h (List.mem_of_getLast? hlast))

/-- A field id is its own normal form. -/
theorem normal_fieldId (platform : Platform) (h : isFieldId id = true) :
    platform.lower.toLowerCase (trimUnits id) = id := by
  rw [trim_fieldId h, platform.lower.toLowerCase_ascii id fun unit hunit =>
    .inl (lt_of_isFieldIdUnit (isFieldIdUnit_of_mem h hunit))]
  exact (List.map_congr_left fun unit hunit =>
    asciiLower_of_isFieldIdUnit (isFieldIdUnit_of_mem h hunit)).trans (List.map_id id)

theorem normalizeOptions_fixed {options normalized : List SelectOption}
    {optionValues : List (List Nat)}
    (h : normalizeOptions id options optionValues = .ok normalized) :
    normalizeOptions id normalized optionValues = .ok normalized := by
  induction options generalizing optionValues normalized with
  | nil =>
      obtain rfl := Except.ok.inj h
      rfl
  | cons option options ih =>
      rw [normalizeOptions] at h
      split_ifs at h with hinvalid
      obtain ⟨rest, hrest, rfl⟩ := map_eq_ok h
      have hvalid : ¬ (trimUnits (trimUnits option.value) = [] ∨
          trimUnits (trimUnits option.label) = [] ∨
          optionValues.contains (trimUnits (trimUnits option.value)) = true) := by
        rwa [trim_trim_units, trim_trim_units]
      rw [normalizeOptions, if_neg hvalid, trim_trim_units, trim_trim_units, ih hrest]
      rfl

theorem length_normalizeOptions {options normalized : List SelectOption}
    {optionValues : List (List Nat)}
    (h : normalizeOptions id options optionValues = .ok normalized) :
    normalized.length = options.length := by
  induction options generalizing optionValues normalized with
  | nil =>
      obtain rfl := Except.ok.inj h
      rfl
  | cons option options ih =>
      rw [normalizeOptions] at h
      split_ifs at h with hinvalid
      obtain ⟨rest, hrest, rfl⟩ := map_eq_ok h
      rw [List.length_cons, List.length_cons, ih hrest]

/-- What is particular to the type of a field is normalised once. -/
theorem normalizeKind_fixed {kind normalized : RunVariableKind}
    (h : normalizeKind id kind = .ok normalized) :
    normalizeKind id normalized = .ok normalized := by
  cases kind with
  | select default options =>
      rw [normalizeKind] at h
      split_ifs at h with hcount
      obtain ⟨rest, hrest, rfl⟩ := map_eq_ok h
      rw [normalizeKind, length_normalizeOptions hrest, if_neg hcount,
        normalizeOptions_fixed hrest]
      rfl
  | number default minimum maximum =>
      have hsame : normalized = .number default minimum maximum := by
        rw [normalizeKind] at h
        split_ifs at h
        exact (Except.ok.inj h).symm
      rwa [hsame] at h ⊢
  | boolean default =>
      obtain rfl := Except.ok.inj h
      rfl
  | unsupported type => exact nomatch h
  | string type default minLength maxLength =>
      rw [normalizeKind] at h
      split_ifs at h with hmin hmax
      obtain rfl := Except.ok.inj h
      have hgiven : maxLengthOr type (some (maxLengthOr type maxLength)) =
          maxLengthOr type maxLength := rfl
      rw [normalizeKind, hgiven, if_neg hmin, if_neg hmax]

/-- A normal form with its description normalised once more. -/
def RunVariableField.redescribed (field : RunVariableField) : RunVariableField :=
  { field with description := field.description.bind normalizeDescription }

theorem normalizeField_again (h : normalizeField platform field seen = .ok (normalized, seen')) :
    normalizeField platform normalized seen = .ok (normalized.redescribed, seen') := by
  rw [normalizeField] at h
  split_ifs at h with hid hseen hlabel
  obtain ⟨kind, hkind, hpair⟩ := map_eq_ok h
  obtain ⟨rfl, rfl⟩ := Prod.mk.inj hpair
  have hnormal := normal_fieldId platform (Bool.of_not_eq_false hid)
  have hlabel' : ¬ (trimUnits (trimUnits field.label) = [] ∨
      120 < (trimUnits (trimUnits field.label)).length) := by
    rwa [trim_trim_units]
  rw [normalizeField]
  rw [hnormal, if_neg hid, if_neg hseen, if_neg hlabel', normalizeKind_fixed hkind,
    trim_trim_units]
  rfl

theorem normalizeFields_again {normalized : List RunVariableField}
    (h : normalizeFields platform fields seen = .ok normalized) :
    normalizeFields platform normalized seen =
      .ok (normalized.map RunVariableField.redescribed) := by
  induction fields generalizing seen normalized with
  | nil =>
      obtain rfl := Except.ok.inj h
      rfl
  | cons field fields ih =>
      rw [normalizeFields] at h
      obtain ⟨⟨first, seen'⟩, hfirst, hmore⟩ := bind_eq_ok.mp h
      obtain ⟨rest, hrest, rfl⟩ := map_eq_ok hmore
      rw [normalizeFields, normalizeField_again hfirst]
      dsimp only [bind, Except.bind]
      rw [ih hrest]
      rfl

/-- The description is not cut behind white space: a trimmed text of 500 units or more has none at
the last place that is kept. -/
def CutsCleanly (description : List Nat) : Prop :=
  ∀ unit, (trimUnits description)[499]? = some unit → isSpace unit = false

theorem length_trim_le (text : List Nat) : (trimUnits text).length ≤ text.length :=
  (trim_isPrefix text).length_le.trans (List.dropWhile_suffix _).length_le

/-- The last unit of a cut text. -/
theorem getLast?_cut (text : List Nat) :
    (text.take 500).getLast? = text[499]?.or text.getLast? := by
  rw [List.getLast?_take, if_neg (by decide)]

theorem trim_cut_iff (description : List Nat) :
    trimUnits ((trimUnits description).take 500) = (trimUnits description).take 500 ↔
      CutsCleanly description := by
  constructor
  · intro hfixed unit hunit
    refine @getLast?_trim_not_space ((trimUnits description).take 500) unit ?_
    rw [hfixed, getLast?_cut, hunit, Option.some_or]
  · intro hclean
    apply trim_eq_self
    · intro unit hfirst
      rw [List.head?_take, if_neg (by decide)] at hfirst
      exact head?_trim_not_space hfirst
    · intro unit hlast
      rw [getLast?_cut] at hlast
      rcases Option.or_eq_some_iff.mp hlast with hkept | ⟨-, hwhole⟩
      · exact hclean unit hkept
      · exact getLast?_trim_not_space hwhole

/-- A description that is normalised again stays, exactly when it is cut cleanly. -/
theorem bind_normalizeDescription_iff (description : Option (List Nat)) :
    (description.bind normalizeDescription).bind normalizeDescription =
        description.bind normalizeDescription ↔
      ∀ text, description = some text → CutsCleanly text := by
  cases description with
  | none => exact iff_of_true rfl fun _ h => nomatch h
  | some text =>
      have hgoal : (∀ text', some text = some text' → CutsCleanly text') ↔ CutsCleanly text :=
        ⟨fun h => h text rfl, fun h _ heq => Option.some_inj.mp heq ▸ h⟩
      rw [hgoal, ← trim_cut_iff, Option.bind_some]
      by_cases hempty : trimUnits text = []
      · rw [normalizeDescription, if_pos hempty, hempty]
        exact iff_of_true rfl rfl
      · have hcut : (trimUnits text).take 500 ≠ [] := by
          intro hnil
          exact hempty ((List.take_eq_nil_iff.mp hnil).resolve_left (by decide))
        have hshort : (trimUnits ((trimUnits text).take 500)).take 500 =
            trimUnits ((trimUnits text).take 500) := by
          apply List.take_of_length_le
          exact (length_trim_le _).trans (List.length_take_le _ _)
        rw [normalizeDescription, if_neg hempty, Option.bind_some, normalizeDescription]
        constructor
        · intro h
          split_ifs at h with hblank
          rw [← Option.some_inj.mp h, hshort, trim_trim_units]
        · intro h
          rw [h, if_neg hcut, List.take_take, min_self]

theorem description_normalizeField
    (h : normalizeField platform field seen = .ok (normalized, seen')) :
    normalized.description = field.description.bind normalizeDescription := by
  rw [normalizeField] at h
  split_ifs at h
  obtain ⟨kind, -, hpair⟩ := map_eq_ok h
  obtain ⟨rfl, -⟩ := Prod.mk.inj hpair
  rfl

theorem redescribed_eq_self_iff :
    normalized.redescribed = normalized ↔
      normalized.description.bind normalizeDescription = normalized.description := by
  constructor
  · exact congrArg RunVariableField.description
  · intro h
    rw [RunVariableField.redescribed, h]

theorem normalizeFields_fixed_iff {normalized : List RunVariableField}
    (h : normalizeFields platform fields seen = .ok normalized) :
    normalized.map RunVariableField.redescribed = normalized ↔
      ∀ field ∈ fields, ∀ text, field.description = some text → CutsCleanly text := by
  induction fields generalizing seen normalized with
  | nil =>
      obtain rfl := Except.ok.inj h
      exact iff_of_true rfl (List.forall_mem_nil _)
  | cons field fields ih =>
      rw [normalizeFields] at h
      obtain ⟨⟨first, seen'⟩, hfirst, hmore⟩ := bind_eq_ok.mp h
      obtain ⟨rest, hrest, rfl⟩ := map_eq_ok hmore
      rw [List.map_cons, List.cons.injEq, ih hrest, List.forall_mem_cons,
        redescribed_eq_self_iff, description_normalizeField hfirst,
        bind_normalizeDescription_iff]

theorem normalizeSchema_eq_ok
    (h : normalizeSchemaWithoutDefaultRecursion platform input = .ok schema) :
    schema.version = runVariableSchemaVersion ∧
      input.fields.length ≤ runVariableMaxFields ∧
      normalizeFields platform input.fields [] = .ok schema.fields := by
  rw [normalizeSchemaWithoutDefaultRecursion] at h
  split_ifs at h with hversion hcount
  obtain ⟨fields, hfields, rfl⟩ := map_eq_ok h
  exact ⟨rfl, not_lt.mp hcount, hfields⟩

theorem length_normalizeFields {normalized : List RunVariableField}
    (h : normalizeFields platform fields seen = .ok normalized) :
    normalized.length = fields.length := by
  induction fields generalizing seen normalized with
  | nil =>
      obtain rfl := Except.ok.inj h
      rfl
  | cons field fields ih =>
      rw [normalizeFields] at h
      obtain ⟨first, -, hmore⟩ := bind_eq_ok.mp h
      obtain ⟨rest, hrest, rfl⟩ := map_eq_ok hmore
      rw [List.length_cons, List.length_cons, ih hrest]

/-- A normal form is normalised to itself with its descriptions normalised once more. -/
theorem normalizeSchema_again
    (h : normalizeSchemaWithoutDefaultRecursion platform input = .ok schema) :
    normalizeSchemaWithoutDefaultRecursion platform schema =
      .ok ⟨runVariableSchemaVersion, schema.fields.map RunVariableField.redescribed⟩ := by
  obtain ⟨hversion, hcount, hfields⟩ := normalizeSchema_eq_ok h
  rw [normalizeSchemaWithoutDefaultRecursion, if_neg (not_not.mpr hversion), if_neg,
    normalizeFields_again hfields]
  · rfl
  · rw [length_normalizeFields hfields]
    exact not_lt.mpr hcount

theorem normalizeSchema_fixed_iff
    (h : normalizeSchemaWithoutDefaultRecursion platform input = .ok schema) :
    normalizeSchemaWithoutDefaultRecursion platform schema = .ok schema ↔
      ∀ field ∈ input.fields, ∀ text, field.description = some text → CutsCleanly text := by
  obtain ⟨hversion, -, hfields⟩ := normalizeSchema_eq_ok h
  rw [normalizeSchema_again h, ← normalizeFields_fixed_iff hfields]
  constructor
  · exact fun heq => congrArg RunVariableSchema.fields (Except.ok.inj heq)
  · intro heq
    rw [heq, ← hversion]

/-- A schema and its normal form are one: the normal form is normalised to itself, has the same
hash, and an invocation with the hash of the schema is not refused as one of another schema. -/
structure OneIdentity (platform : Platform) (input schema : RunVariableSchema) : Prop where
  fixed : normalizeRunVariableSchema platform schema = .ok schema
  hashes : hashRunVariableSchema platform schema = hashRunVariableSchema platform input
  accepted : ∀ invocation resolvedInput validation,
    hashRunVariableSchema platform input = .ok invocation.schemaHash →
    validateRunVariableBindings platform schema (toInput invocation.values) ⟨true, false⟩ =
      .ok validation →
    buildRunVariableEvidence platform invocation schema resolvedInput =
      .ok (validation.evidence platform invocation resolvedInput)

theorem normalizeRunVariableSchema_eq_ok :
    normalizeRunVariableSchema platform input = .ok schema ↔
      normalizeSchemaWithoutDefaultRecursion platform input = .ok schema ∧
        ∃ validation,
          validateRunVariableBindings platform schema [] ⟨true, true⟩ = .ok validation := by
  rw [normalizeRunVariableSchema, bind_eq_ok]
  constructor
  · rintro ⟨normal, hnormal, h⟩
    obtain ⟨validation, hvalidation, rfl⟩ := map_eq_ok h
    exact ⟨hnormal, validation, hvalidation⟩
  · rintro ⟨hnormal, validation, hvalidation⟩
    exact ⟨schema, hnormal, by rw [hvalidation]; rfl⟩

theorem schemaHash_validateNormalized {input : List (List Nat × InputValue)}
    {options : ValidationOptions} {validation : RunVariableValidationResult}
    (h : validateNormalized platform schema input options = .ok validation) :
    platform.sha256Hex <$> canonicalJsonString platform.numberText schema.json =
      .ok validation.schemaHash := by
  rw [validateNormalized] at h
  split_ifs at h
  obtain ⟨bindings, -, hbindings⟩ := bind_eq_ok.mp h
  obtain ⟨schemaText, hschemaText, hresult⟩ := bind_eq_ok.mp hbindings
  obtain ⟨bindingsText, -, rfl⟩ := map_eq_ok hresult
  rw [hschemaText]
  rfl

/-- An accepted schema and its normal form are one exactly when every description is cut
cleanly. -/
theorem oneIdentity_iff {input : RunVariableSchema}
    (h : normalizeRunVariableSchema platform input = .ok schema) :
    OneIdentity platform input schema ↔
      ∀ field ∈ input.fields, ∀ text, field.description = some text → CutsCleanly text := by
  obtain ⟨hnormal, validation, hvalidation⟩ := normalizeRunVariableSchema_eq_ok.mp h
  rw [← normalizeSchema_fixed_iff hnormal]
  constructor
  · exact fun hone => (normalizeRunVariableSchema_eq_ok.mp hone.fixed).1
  · intro hfixed
    have hagain : normalizeRunVariableSchema platform schema = .ok schema :=
      normalizeRunVariableSchema_eq_ok.mpr ⟨hfixed, validation, hvalidation⟩
    have hhashes : hashRunVariableSchema platform schema =
        hashRunVariableSchema platform input := by
      rw [hashRunVariableSchema, hashRunVariableSchema, h, hagain]
    refine ⟨hagain, hhashes, ?_⟩
    intro invocation resolvedInput validation hhash hvalid
    have hvalidated := hvalid
    rw [validateRunVariableBindings, hfixed] at hvalidated
    have hcurrent := schemaHash_validateNormalized hvalidated
    rw [← hhashes, hashRunVariableSchema, hagain] at hhash
    have hsame : validation.schemaHash = invocation.schemaHash :=
      Except.ok.inj (hcurrent.symm.trans hhash)
    rw [buildRunVariableEvidence, hvalid]
    exact if_neg (not_not.mpr hsame)

end FixedPoint

/-! ## A schema with one field -/

/-- A schema with a text field `Topic`. -/
def topicSchema (description : List Nat) (maxLength : Option Number) : RunVariableSchema :=
  ⟨runVariableSchemaVersion,
    [⟨utf16Units "topic", utf16Units "Topic", some description, false,
      .string .text none none maxLength⟩]⟩

/-- The platform on such schemas: the hashes are those of the schema with the description
`What to write about` and of an empty record. -/
def topicPlatform : Platform where
  lower := asciiLowerCase
  urlProtocol _ := none
  parsesDate _ := false
  numberText value := utf16Units (toString value.num)
  sha256Hex text :=
    if text = utf16Units "\x7b\x7d" then
      utf16Units "44136fa355b3678a1146ad16f7e8649e94fb4fc21fe77e8310c060f61caaff8a"
    else utf16Units "5ef17cf99c3ef4539004d26a1109e1f3967e12245ddf08b090ce546e707816ca"

theorem topic_oneIdentity_iff :
    OneIdentity topicPlatform (topicSchema (utf16Units " What to write about ") none)
        (topicSchema (utf16Units "What to write about") (some (.finite 4000))) ↔
      ∀ field ∈ (topicSchema (utf16Units " What to write about ") none).fields,
        ∀ text, field.description = some text → CutsCleanly text :=
  oneIdentity_iff rfl

/-- A description that is cut behind its 500th unit, a blank. -/
def longDescription : List Nat :=
  List.replicate 499 97 ++ [32, 98]

theorem topic_not_fixed :
    normalizeRunVariableSchema topicPlatform (topicSchema longDescription none) =
        .ok (topicSchema (longDescription.take 500) (some (.finite 4000))) ∧
      ¬ OneIdentity topicPlatform (topicSchema longDescription none)
        (topicSchema (longDescription.take 500) (some (.finite 4000))) := by
  have hnormal : normalizeRunVariableSchema topicPlatform (topicSchema longDescription none) =
      .ok (topicSchema (longDescription.take 500) (some (.finite 4000))) := by
    decide +kernel
  refine ⟨hnormal, fun hone => ?_⟩
  have hfields := congrArg (Except.map RunVariableSchema.fields) hone.fixed
  revert hfields
  decide +kernel

end GoatCitadel.Contracts
