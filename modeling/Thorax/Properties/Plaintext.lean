import Thorax.Frontend.Plaintext

/-!
# Faithful output

The object that is printed for a secret should determine its bytes and its fields. It does exactly
if all fields are text and, for every field whose name has the suffix of digits, there is a field
with the name before the suffix: everything else could be read in two ways.
-/

namespace Thorax

open Collections Std

/-- The fields have different names. -/
def SecretPlaintext.DistinctFields (self : SecretPlaintext) : Prop :=
  (self.fields.map (·.key)).Nodup

/-- Two secrets with the same object. -/
structure PrintsAlike (user : ResolvedUserRef) (opened other : SecretPlaintext) : Prop where
  distinct : other.DistinctFields
  selector : other.selector = opened.selector
  output : ∀ isTerminal, writePlaintext true isTerminal other user =
    writePlaintext true isTerminal opened user

/-- The object of a secret is that of no other one, shows every field, and its digits are digits in
every reading. -/
structure PrintsFaithfully (user : ResolvedUserRef) (opened : SecretPlaintext) : Prop where
  primary : ∀ {other}, PrintsAlike user opened other → other.plaintext = opened.plaintext
  fields : ∀ {other}, PrintsAlike user opened other →
    ∀ field, field ∈ other.fields ↔ field ∈ opened.fields
  complete : ∀ field ∈ opened.fields, ∃ members,
    (plaintextPayload opened user)["fields"]? = some (.object members) ∧
      members[(fieldMember field).1]? = some (fieldMember field).2
  literal : ∀ {other}, PrintsAlike user opened other → (other.isUtf8 = opened.isUtf8 ∧
    ∀ field ∈ opened.fields, ∀ field' ∈ other.fields, fieldMember field' = fieldMember field →
      field'.isUtf8 = field.isUtf8)

/-- All fields are text, and what has the suffix has it on the name of a field. -/
structure LiteralFields (opened : SecretPlaintext) : Prop where
  text : ∀ field ∈ opened.fields, field.isUtf8 = true
  base : ∀ field ∈ opened.fields, ∀ name, field.key = name ++ "_hex" →
    ∃ field' ∈ opened.fields, field'.key = name

section Plaintext

variable {opened other : SecretPlaintext} {user : ResolvedUserRef} {field : SecretFieldEntryV1}
  {fields : List SecretFieldEntryV1} {name value : String}

/-! ### Members -/

lemma shownMember_fst {bytes : Bytes} : (shownMember name bytes).1 =
    if (Utf8.decode bytes).isSome then name else name ++ "_hex" := by
  rw [shownMember]
  cases Utf8.decode bytes <;> rfl

lemma fieldMember_of_text (h : field.isUtf8 = true) :
    ∃ text, fieldMember field = (field.key, text) ∧ field.value = Utf8.encode text := by
  obtain ⟨text, htext⟩ := Option.isSome_iff_exists.mp h
  refine ⟨text, ?_, (Utf8.decode_eq_some_iff.mp htext).symm⟩
  rw [fieldMember, shownMember, htext]

lemma fieldMember_of_binary (h : field.isUtf8 = false) :
    (fieldMember field).1 = field.key ++ "_hex" := by
  rw [fieldMember, shownMember_fst]
  exact if_neg (by simpa [SecretFieldEntryV1.isUtf8] using h)

@[simp] lemma fieldMember_encode {key text : String} :
    fieldMember ⟨key, Utf8.encode text⟩ = (key, text) := by
  rw [fieldMember, shownMember, Utf8.decode_encode]

lemma length_lt_hex : name.length < (name ++ "_hex").length := by
  rw [String.length_append]
  exact Nat.lt_add_of_pos_right (by decide)

/-- The names of the object are those of its members. -/
lemma mem_fieldsObject : name ∈ fieldsObject fields ↔
    ∃ field ∈ fields, (fieldMember field).1 = name := by
  rw [fieldsObject, ExtTreeMap.mem_insertMany_list]
  simp

/-- Where all fields are text, the object is what the fields are. -/
lemma getElem?_fieldsObject (htext : ∀ field ∈ fields, field.isUtf8 = true)
    (hdistinct : (fields.map (·.key)).Nodup) :
    (fieldsObject fields)[name]? = some value ↔ ⟨name, Utf8.encode value⟩ ∈ fields := by
  have hkeys : (fields.map fieldMember).map Prod.fst = fields.map (·.key) := by
    rw [List.map_map]
    refine List.map_congr_left fun field hfield => ?_
    obtain ⟨text, hmember, -⟩ := fieldMember_of_text (htext field hfield)
    rw [Function.comp_apply, hmember]
  rw [fieldsObject, getElem?_insertMany_eq_some (hkeys ▸ hdistinct), List.mem_map]
  constructor
  · rintro ⟨field, hfield, hmember⟩
    obtain ⟨text, htext, hvalue⟩ := fieldMember_of_text (htext field hfield)
    rw [htext, Prod.mk.injEq] at hmember
    obtain ⟨rfl, rfl⟩ := hmember
    rwa [← hvalue]
  · exact fun hfield => ⟨_, hfield, fieldMember_encode⟩

/-! ### Objects -/

lemma getElem?_plaintextPayload_fields : (plaintextPayload opened user)["fields"]? =
    if opened.fields = [] then none else some (.object (fieldsObject opened.fields)) := by
  have hprimary : (shownMember "plaintext" opened.plaintext).1 ≠ "fields" := by
    rw [shownMember_fst]
    split_ifs <;> decide
  rw [plaintextPayload]
  split_ifs <;> simp [hprimary]

lemma getElem?_plaintextPayload_plaintext : (plaintextPayload opened user)["plaintext"]? =
    (Utf8.decode opened.plaintext).map JsonMember.text := by
  rw [plaintextPayload, shownMember]
  cases Utf8.decode opened.plaintext <;> split_ifs <;> simp [ExtTreeMap.getElem_insert]

lemma getElem?_plaintextPayload_hex : (plaintextPayload opened user)["plaintext_hex"]? =
    if opened.isUtf8 then none else some (.text (hexBytes opened.plaintext)) := by
  rw [plaintextPayload, shownMember, SecretPlaintext.isUtf8]
  cases Utf8.decode opened.plaintext <;> split_ifs <;> simp_all [ExtTreeMap.getElem_insert]

lemma hexBytes_injective : Function.Injective hexBytes :=
  fun _ _ h => Hex.encode_injective (String.ofList_injective h)

/-- The primary value is under one of two names. -/
lemma plaintext_of_payload (h : plaintextPayload other user = plaintextPayload opened user) :
    other.plaintext = opened.plaintext := by
  have htext := congrArg (·["plaintext"]?) h
  have hhex := congrArg (·["plaintext_hex"]?) h
  simp only [getElem?_plaintextPayload_plaintext, getElem?_plaintextPayload_hex,
    SecretPlaintext.isUtf8] at htext hhex
  cases hother : Utf8.decode other.plaintext with
  | some text =>
    cases hopened : Utf8.decode opened.plaintext with
    | some text' =>
      rw [hother, hopened, Option.map_some, Option.map_some, Option.some_inj,
        JsonMember.text.injEq] at htext
      rw [← Utf8.decode_eq_some_iff.mp hother, ← Utf8.decode_eq_some_iff.mp hopened, htext]
    | none => simp [hother, hopened] at htext
  | none =>
    cases hopened : Utf8.decode opened.plaintext with
    | some text' => simp [hother, hopened] at htext
    | none =>
      simp only [hother, hopened, Option.isSome_none, Bool.false_eq_true, if_false,
        Option.some_inj, JsonMember.text.injEq] at hhex
      exact hexBytes_injective hhex

lemma fieldsObject_eq_empty : fieldsObject fields = ∅ ↔ fields = [] := by
  rw [fieldsObject, ExtTreeMap.insertMany_list_eq_empty_iff]
  simp

/-- The fields are under a name of their own, unless there are none. -/
lemma fieldsObject_of_payload (h : plaintextPayload other user = plaintextPayload opened user) :
    fieldsObject other.fields = fieldsObject opened.fields := by
  have hfields := congrArg (·["fields"]?) h
  simp only [getElem?_plaintextPayload_fields] at hfields
  split_ifs at hfields with hother hopened
  · rw [hother, hopened]
  · exact JsonMember.object.inj (Option.some.inj hfields)

lemma plaintextPayload_congr (hselector : other.selector = opened.selector)
    (hplaintext : other.plaintext = opened.plaintext)
    (hfields : fieldsObject other.fields = fieldsObject opened.fields) :
    plaintextPayload other user = plaintextPayload opened user := by
  have hnil : other.fields = [] ↔ opened.fields = [] := by
    rw [← fieldsObject_eq_empty, ← fieldsObject_eq_empty, hfields]
  simp only [plaintextPayload, hselector, hplaintext, hfields, hnil]

@[simp] lemma writePlaintext_json {isTerminal : Bool} :
    writePlaintext true isTerminal opened user = .json (plaintextPayload opened user) := rfl

lemma PrintsAlike.payload (h : PrintsAlike user opened other) :
    plaintextPayload other user = plaintextPayload opened user := by
  have houtput := h.output false
  rwa [writePlaintext_json, writePlaintext_json, PlaintextOutput.json.injEq] at houtput

lemma PrintsAlike.of_fields (hdistinct : (fields.map (·.key)).Nodup)
    (hfields : fieldsObject fields = fieldsObject opened.fields) :
    PrintsAlike user opened ⟨opened.selector, opened.plaintext, fields⟩ := by
  have hpayload : plaintextPayload ⟨opened.selector, opened.plaintext, fields⟩ user =
      plaintextPayload opened user := plaintextPayload_congr rfl rfl hfields
  exact ⟨hdistinct, rfl, fun _ => by rw [writePlaintext_json, writePlaintext_json, hpayload]⟩

/-! ### Readings -/

/-- Where names without the suffix are taken, what looks like a literal is one. -/
lemma LiteralFields.text_of_fieldsObject (h : LiteralFields opened)
    (hother : other.DistinctFields)
    (hfields : fieldsObject other.fields = fieldsObject opened.fields) :
    ∀ field ∈ other.fields, field.isUtf8 = true := by
  -- induction on the length of the name
  suffices hlength : ∀ n, ∀ field ∈ other.fields, field.key.length = n → field.isUtf8 = true from
    fun field hfield => hlength _ field hfield rfl
  intro n
  induction n using Nat.strong_induction_on with
  | _ n ih =>
    rintro field hfield rfl
    by_contra hbinary
    rw [Bool.not_eq_true] at hbinary
    have hmem : field.key ++ "_hex" ∈ fieldsObject opened.fields := by
      rw [← hfields]
      exact mem_fieldsObject.mpr ⟨field, hfield, fieldMember_of_binary hbinary⟩
    obtain ⟨shown, hshown, hname⟩ := mem_fieldsObject.mp hmem
    obtain ⟨_, hmember, -⟩ := fieldMember_of_text (h.text shown hshown)
    rw [hmember] at hname
    obtain ⟨base, hbase, hkey⟩ := h.base shown hshown field.key hname
    obtain ⟨_, hbaseMember, -⟩ := fieldMember_of_text (h.text base hbase)
    have hkeyMem : field.key ∈ fieldsObject other.fields := by
      rw [hfields]
      exact mem_fieldsObject.mpr ⟨base, hbase, by rw [hbaseMember]; exact hkey⟩
    obtain ⟨field', hfield', hname'⟩ := mem_fieldsObject.mp hkeyMem
    cases hutf8 : field'.isUtf8 with
    | true =>
      obtain ⟨_, hmember', -⟩ := fieldMember_of_text hutf8
      rw [hmember'] at hname'
      have hsame : field' = field := List.inj_on_of_nodup_map hother hfield' hfield hname'
      rw [hsame, hbinary] at hutf8
      cases hutf8
    | false =>
      rw [fieldMember_of_binary hutf8] at hname'
      have hshort : field'.key.length < field.key.length := hname' ▸ length_lt_hex
      rw [ih _ hshort field' hfield' rfl] at hutf8
      cases hutf8

lemma LiteralFields.mem_iff (h : LiteralFields opened) (hopened : opened.DistinctFields)
    (hother : other.DistinctFields)
    (hfields : fieldsObject other.fields = fieldsObject opened.fields) :
    field ∈ other.fields ↔ field ∈ opened.fields := by
  have htext := h.text_of_fieldsObject hother hfields
  have hiff : ∀ name value, (⟨name, Utf8.encode value⟩ : SecretFieldEntryV1) ∈ other.fields ↔
      ⟨name, Utf8.encode value⟩ ∈ opened.fields := by
    intro name value
    rw [← getElem?_fieldsObject htext hother, ← getElem?_fieldsObject h.text hopened, hfields]
  constructor
  · intro hfield
    obtain ⟨text, -, hvalue⟩ := fieldMember_of_text (htext field hfield)
    obtain ⟨key, _⟩ := field
    obtain rfl := hvalue
    exact (hiff key text).mp hfield
  · intro hfield
    obtain ⟨text, -, hvalue⟩ := fieldMember_of_text (h.text field hfield)
    obtain ⟨key, _⟩ := field
    obtain rfl := hvalue
    exact (hiff key text).mpr hfield

lemma PrintsFaithfully.of_literalFields (hopened : opened.DistinctFields)
    (h : LiteralFields opened) : PrintsFaithfully user opened := by
  refine ⟨fun hprints => plaintext_of_payload hprints.payload,
    fun hprints field => h.mem_iff hopened hprints.distinct (fieldsObject_of_payload hprints.payload),
    fun field hfield => ?_, fun {other} hprints => ⟨?_, fun field hfield field' hfield' _ => ?_⟩⟩
  · obtain ⟨text, hmember, hvalue⟩ := fieldMember_of_text (h.text field hfield)
    refine ⟨fieldsObject opened.fields, ?_, ?_⟩
    · rw [getElem?_plaintextPayload_fields, if_neg (List.ne_nil_of_mem hfield)]
    · rw [hmember, getElem?_fieldsObject h.text hopened, ← hvalue]
      exact hfield
  · rw [SecretPlaintext.isUtf8, SecretPlaintext.isUtf8, plaintext_of_payload hprints.payload]
  · rw [h.text field hfield, h.text_of_fieldsObject hprints.distinct
      (fieldsObject_of_payload hprints.payload) field' hfield']

/-- The object could be that of fields that are all text. -/
lemma PrintsFaithfully.text (h : PrintsFaithfully user opened) :
    ∀ field ∈ opened.fields, field.isUtf8 = true := by
  let shown : List SecretFieldEntryV1 :=
    (fieldsObject opened.fields).toList.map fun entry => ⟨entry.1, Utf8.encode entry.2⟩
  have hkeys : shown.map (·.key) = (fieldsObject opened.fields).toList.map Prod.fst := by
    simp [shown, Function.comp_def]
  have hdistinct : (shown.map (·.key)).Nodup := hkeys ▸ nodup_keys_toList _
  have htext : ∀ field ∈ shown, field.isUtf8 = true := by
    intro field hfield
    obtain ⟨entry, -, rfl⟩ := List.mem_map.mp hfield
    simp [SecretFieldEntryV1.isUtf8]
  have hfields : fieldsObject shown = fieldsObject opened.fields := by
    refine ExtTreeMap.ext_getElem? fun name => Option.ext fun value => ?_
    rw [getElem?_fieldsObject htext hdistinct, List.mem_map]
    constructor
    · rintro ⟨⟨name', value'⟩, hentry, heq⟩
      rw [SecretFieldEntryV1.mk.injEq] at heq
      obtain ⟨rfl, hvalue⟩ := heq
      have hsame : value' = value := by
        rw [← Option.some_inj, ← Utf8.decode_encode value', hvalue, Utf8.decode_encode]
      rwa [← hsame, ← ExtTreeMap.mem_toList_iff_getElem?_eq_some]
    · exact fun hvalue => ⟨(name, value), ExtTreeMap.mem_toList_iff_getElem?_eq_some.mpr hvalue, rfl⟩
  exact fun field hfield =>
    htext field ((h.fields (.of_fields hdistinct hfields) field).mpr hfield)

/-- A literal with the suffix could hide digits. -/
lemma PrintsFaithfully.base (hopened : opened.DistinctFields) (h : PrintsFaithfully user opened) :
    ∀ field ∈ opened.fields, ∀ name, field.key = name ++ "_hex" →
      ∃ field' ∈ opened.fields, field'.key = name := by
  intro field hfield name hkey
  by_contra hbase
  have hbinary : SecretFieldEntryV1.isUtf8 ⟨name, [255]⟩ = false := by
    show (Utf8.decode [255]).isSome = false
    rfl
  have hdistinct : (((⟨name, [255]⟩ : SecretFieldEntryV1) :: opened.fields).map (·.key)).Nodup := by
    refine List.nodup_cons.mpr ⟨fun hmem => hbase ?_, hopened⟩
    obtain ⟨field', hfield', hname⟩ := List.mem_map.mp hmem
    exact ⟨field', hfield', hname⟩
  have hmem : name ++ "_hex" ∈ (opened.fields.map fieldMember).map Prod.fst := by
    obtain ⟨_, hmember, -⟩ := fieldMember_of_text (h.text field hfield)
    rw [List.map_map]
    exact List.mem_map.mpr ⟨field, hfield, by rw [Function.comp_apply, hmember, ← hkey]⟩
  have hfields : fieldsObject (⟨name, [255]⟩ :: opened.fields) = fieldsObject opened.fields := by
    refine ExtTreeMap.ext_getElem? fun other => ?_
    rw [fieldsObject, fieldsObject, List.map_cons, ExtTreeMap.insertMany_cons]
    by_cases hother : other ∈ (opened.fields.map fieldMember).map Prod.fst
    · exact getElem?_insertMany_congr hother _ _
    · have hcontains : ((opened.fields.map fieldMember).map Prod.fst).contains other = false := by
        simpa using hother
      have hne : name ++ "_hex" ≠ other := fun heq => hother (heq ▸ hmem)
      rw [ExtTreeMap.getElem?_insertMany_list_of_contains_eq_false hcontains,
        ExtTreeMap.getElem?_insertMany_list_of_contains_eq_false hcontains,
        fieldMember_of_binary hbinary]
      simp [hne]
  have hadded := (h.fields (.of_fields hdistinct hfields) _).mp List.mem_cons_self
  exact hbase ⟨_, hadded, rfl⟩

/-- The object of a secret is faithful exactly if its fields are literal ones. -/
theorem printsFaithfully_iff (h : opened.DistinctFields) :
    PrintsFaithfully user opened ↔ LiteralFields opened :=
  ⟨fun hprints => ⟨hprints.text, hprints.base h⟩, PrintsFaithfully.of_literalFields h⟩

end Plaintext

section Output

def outputUser : ResolvedUserRef := ⟨⟨⟨[1]⟩⟩, some "ada"⟩

/-- A login whose fields are text. -/
def outputLogin : SecretPlaintext := ⟨⟨["db"], []⟩, [115], [⟨"user", [97]⟩, ⟨"user_hex", [54]⟩]⟩

theorem printsFaithfully_login : PrintsFaithfully outputUser outputLogin := by
  have hdistinct : outputLogin.DistinctFields := by
    rw [SecretPlaintext.DistinctFields]
    decide
  refine (printsFaithfully_iff hdistinct).mpr ⟨by decide, ?_⟩
  intro field hfield name hname
  rcases List.mem_pair.mp hfield with rfl | rfl
  · have hlength := congrArg (fun key : String => key.toList.reverse) hname
    simp at hlength
  · refine ⟨⟨"user", [97]⟩, List.mem_cons_self, ?_⟩
    exact (String.append_left_inj "_hex").mp hname

/-- A binary field, and a text under the name of its digits. -/
def outputClash : SecretPlaintext := ⟨⟨["db"], []⟩, [115], [⟨"key", [255]⟩, ⟨"key_hex", [97]⟩]⟩

/-- One of the two is not shown. -/
theorem not_printsFaithfully_clash : ¬ PrintsFaithfully outputUser outputClash := by
  intro h
  obtain ⟨members, hfields, hshown⟩ := h.complete ⟨"key", [255]⟩ List.mem_cons_self
  have hobject : members = fieldsObject outputClash.fields := by
    rw [getElem?_plaintextPayload_fields, if_neg (by decide), Option.some_inj,
      JsonMember.object.injEq] at hfields
    exact hfields.symm
  have htext : (fieldsObject outputClash.fields)["key_hex"]? = some "a" := rfl
  have hname : fieldMember ⟨"key", [255]⟩ = ("key_hex", "ff") := rfl
  rw [hname, hobject, htext] at hshown
  exact absurd hshown (by decide)

end Output

end Thorax
