import Thorax.Frontend.References
import Thorax.Library.Durable
import Thorax.Properties.Soundness

/-!
# Who a reference names

A handle of a vault names one user. A value of hex digits is read as an identifier before it is
read as a handle, so a handle of hex digits names who it was given to only where no identifier begins
with these digits.
-/

namespace Thorax

open Collections Durable
open Std (ExtTreeMap)

/-! ### Texts -/

lemma stripPrefix?_eq_some {mark value rest : String} :
    stripPrefix? mark value = some rest ↔ value.toList = mark.toList ++ rest.toList := by
  simp only [stripPrefix?, Option.map_eq_some_iff, List.dropPrefix?_eq_some_iff]
  constructor
  · rintro ⟨digits, ⟨mark', hvalue, hmark⟩, rfl⟩
    rw [hvalue, beq_iff_eq.mp hmark, String.toList_ofList]
  · intro h
    exact ⟨rest.toList, ⟨mark.toList, h, beq_self_eq_true _⟩, String.ofList_toList⟩

lemma length_le_utf8ByteSize (text : String) : text.toList.length ≤ text.utf8ByteSize := by
  rw [← String.ofList_toList (s := text), String.utf8ByteSize_ofList, String.toList_ofList]
  induction text.toList with
  | nil => exact Nat.zero_le _
  | cons c chars ih =>
    rw [List.length_cons, String.utf8Len_cons]
    exact Nat.add_le_add ih c.utf8Size_pos

/-- A digit takes one byte. -/
lemma utf8ByteSize_of_digits {text : String} (h : text.toList.all Hex.isDigit = true) :
    text.utf8ByteSize = text.toList.length := by
  rw [← String.ofList_toList (s := text), String.utf8ByteSize_ofList, String.toList_ofList]
  revert h
  induction text.toList with
  | nil => exact fun _ => rfl
  | cons c chars ih =>
    intro h
    rw [List.all_cons, Bool.and_eq_true] at h
    have hbounds := Hex.toNat_lt_of_isDigit h.1
    have hsize : c.utf8Size = 1 := by
      rw [Char.utf8Size_eq_one_iff, UInt32.le_iff_toNat_le]
      exact le_trans hbounds.2 (by decide)
    rw [String.utf8Len_cons, ih h.2, hsize, List.length_cons]

/-! ### Digits -/

/-- The digits of an identifier or of its first part. -/
lemma normalizeHexPrefix_eq_some {value needle : String} :
    normalizeHexPrefix value = some needle ↔
      8 ≤ (strip "0x" value).toList.length ∧ (strip "0x" value).toList.all Hex.isDigit = true ∧
        needle = String.ofList ((strip "0x" value).toList.map Char.toLower) := by
  simp only [normalizeHexPrefix]
  by_cases hdigits : (strip "0x" value).toList.all Hex.isDigit = true
  · rw [utf8ByteSize_of_digits hdigits]
    by_cases hlength : (strip "0x" value).toList.length < 8
    · rw [if_pos (Or.inl hlength)]
      exact ⟨fun h => (by cases h), fun h => absurd h.1 (by omega)⟩
    · rw [if_neg (by simp only [hlength, hdigits]; decide), Option.some.injEq]
      exact ⟨fun h => ⟨by omega, hdigits, h.symm⟩, fun h => h.2.2.symm⟩
  · rw [if_pos (Or.inr hdigits)]
    exact ⟨fun h => (by cases h), fun h => absurd h.2.1 hdigits⟩

lemma length_of_normalizeHexPrefix {value needle : String}
    (h : normalizeHexPrefix value = some needle) :
    needle.toList.length = (strip "0x" value).toList.length := by
  obtain ⟨-, -, rfl⟩ := normalizeHexPrefix_eq_some.mp h
  rw [String.toList_ofList, List.length_map]

lemma utf8ByteSize_of_normalizeHexPrefix {value needle : String}
    (h : normalizeHexPrefix value = some needle) :
    needle.utf8ByteSize = needle.toList.length := by
  obtain ⟨-, hdigits, rfl⟩ := normalizeHexPrefix_eq_some.mp h
  apply utf8ByteSize_of_digits
  rw [String.toList_ofList, List.all_map, List.all_eq_true]
  intro c hc
  exact Hex.isDigit_toLower (List.all_eq_true.mp hdigits c hc)

lemma mapM_hexNibble {name : String} {digits : List Char} {nibbles : List ℕ} :
    digits.mapM (hexNibble name) = .ok nibbles ↔ digits.mapM Hex.value? = some nibbles := by
  induction digits generalizing nibbles with
  | nil =>
    simp only [List.mapM_nil, pure, Except.pure, Except.ok.injEq, Option.some.injEq]
  | cons c digits ih =>
    have hhead : ∀ n, hexNibble name c = .ok n ↔ Hex.value? c = some n := by
      intro n
      rw [hexNibble]
      cases Hex.value? c with
      | none => exact ⟨fun h => (by cases h), fun h => (by cases h)⟩
      | some m => rw [Except.ok.injEq, Option.some.injEq]
    simp only [List.mapM_cons, bind_eq_ok, Option.bind_eq_bind, Option.bind_eq_some_iff, ih, hhead,
      pure, Except.pure, Except.ok.injEq, Option.some.injEq]

lemma decodeHex_eq_ok {value name : String} {bytes : Bytes} :
    decodeHex value name = .ok bytes ↔ (strip "0x" value).toList.all Hex.isDigit = true ∧
      (strip "0x" value).toList.length % 2 = 0 ∧
      Hex.encode bytes = (strip "0x" value).toList.map Char.toLower := by
  simp only [decodeHex]
  constructor
  · intro h
    split_ifs at h with hodd
    obtain ⟨nibbles, hnibbles, h⟩ := bind_eq_ok.mp h
    obtain rfl : Hex.pairs nibbles = bytes := Except.ok.inj h
    have hvalues := mapM_hexNibble.mp hnibbles
    have hdigits := Hex.all_isDigit_of_mapM hvalues
    rw [utf8ByteSize_of_digits hdigits, not_not] at hodd
    exact ⟨hdigits, hodd, Hex.encode_pairs hvalues hodd⟩
  · rintro ⟨hdigits, heven, hencode⟩
    obtain ⟨nibbles, hvalues⟩ := Hex.mapM_value?_isSome hdigits
    have hpairs : Hex.pairs nibbles = bytes :=
      Hex.encode_injective ((Hex.encode_pairs hvalues heven).trans hencode.symm)
    rw [utf8ByteSize_of_digits hdigits, if_neg (not_not.mpr heven)]
    exact bind_eq_ok.mpr ⟨nibbles, mapM_hexNibble.mpr hvalues, congrArg Except.ok hpairs⟩

/-- What decodes to the bytes of a hash is its digits, in either case. -/
lemma decodeHexExact_eq_ok {value name : String} {bytes : Bytes} :
    decodeHexExact value name 32 = .ok bytes ↔
      ∃ needle, normalizeHexPrefix value = some needle ∧ needle.toList.length = 64 ∧
        hashHex ⟨bytes⟩ = needle := by
  constructor
  · intro h
    obtain ⟨bytes', hdecode, h⟩ := bind_eq_ok.mp h
    split_ifs at h with hlength
    obtain rfl : bytes' = bytes := Except.ok.inj h
    obtain ⟨hdigits, -, hencode⟩ := decodeHex_eq_ok.mp hdecode
    have hcount : (strip "0x" value).toList.length = 64 := by
      rw [← List.length_map (f := Char.toLower), ← hencode, Hex.length_encode, not_not.mp hlength]
    have hneedle := normalizeHexPrefix_eq_some.mpr ⟨by omega, hdigits, rfl⟩
    refine ⟨_, hneedle, ?_, ?_⟩
    · rw [length_of_normalizeHexPrefix hneedle, hcount]
    · rw [hashHex, hencode]
  · rintro ⟨needle, hneedle, hlength, hhex⟩
    rw [length_of_normalizeHexPrefix hneedle] at hlength
    obtain ⟨-, hdigits, rfl⟩ := normalizeHexPrefix_eq_some.mp hneedle
    have hencode : Hex.encode bytes = (strip "0x" value).toList.map Char.toLower :=
      String.ofList_injective hhex
    have hbytes : bytes.length = 32 := by
      have := congrArg List.length hencode
      rw [Hex.length_encode, List.length_map, hlength] at this
      omega
    refine bind_eq_ok.mpr ⟨bytes, decodeHex_eq_ok.mpr ⟨hdigits, by rw [hlength], hencode⟩, ?_⟩
    exact if_neg (not_not.mpr hbytes)

lemma hashHex_injective : Function.Injective hashHex := fun _ _ h =>
  HashValue.ext (Hex.encode_injective (String.ofList_injective h))

/-- An identifier of 32 bytes is read back from its digits. -/
lemma normalizeHexPrefix_hashHex {hash : HashValue} (h : hash.bytes.length = 32) :
    normalizeHexPrefix (hashHex hash) = some (hashHex hash) ∧ (hashHex hash).toList.length = 64 := by
  have hlength : (Hex.encode hash.bytes).length = 64 := by rw [Hex.length_encode, h]
  have hstrip : strip "0x" (hashHex hash) = hashHex hash := by
    cases hmark : stripPrefix? "0x" (hashHex hash) with
    | none => rw [strip, hmark, Option.getD_none]
    | some rest =>
      have hall := Hex.all_isDigit_encode hash.bytes
      rw [stripPrefix?_eq_some, hashHex, String.toList_ofList] at hmark
      rw [hmark] at hall
      simp [Hex.isDigit, Hex.value?] at hall
  refine ⟨normalizeHexPrefix_eq_some.mpr ?_, by rw [hashHex, String.toList_ofList, hlength]⟩
  rw [hstrip, hashHex, String.toList_ofList, hlength]
  exact ⟨by decide, Hex.all_isDigit_encode _, by rw [Hex.toLower_encode]⟩

/-! ### Handles of a validated vault -/

section Validated

variable {crypto : CryptoProvider} {vault : VaultStore} {ratchet : Ratchet}
variable {verified : BTreeSet HashValue}

lemma group_of_structure {signed : VaultRecordV1} {record : GroupRecordV1}
    {root : VaultRootRecordV1}
    (h : structurallyValidateRecord crypto signed (.group record) root = .ok ()) :
    isValidHandle record.handle = true :=
  (check_eq_ok.mp (structurallyValidateBody_of_record h)).1.2

/-- A handle in effect is a valid one, stands under the identifier derived from it and names a user
in effect. -/
lemma handle_of_validateVault {k : UserHandleId} {record : UserHandleRecordV1}
    (h : (validateVaultWithVerified crypto vault ratchet
      verified).effective.handles[k]? = some record) :
    isValidHandle record.handle = true ∧ k = deriveUserHandleId crypto record.handle ∧
      record.userId ∈
        (validateVaultWithVerified crypto vault ratchet verified).effective.users := by
  cases hresolved : resolvedWith crypto verified vault ratchet with
  | none =>
    rw [(validateVaultWithVerified_of_unresolved hresolved).1] at h
    simp [EffectiveState.unresolved] at h
  | some resolved =>
    obtain ⟨root, records⟩ := resolved
    rw [(validateVaultWithVerified_of_resolved hresolved).1] at h ⊢
    obtain ⟨-, -, hscreened⟩ := resolvedWith_eq_some.mp hresolved
    obtain ⟨w, hw, hbody⟩ := winner_of_handle h
    obtain ⟨hmem, -, hcompetes⟩ := finalWinner_spec hw
    have hkey := (View.mem_pool.mp (View.winner_mem_pool hw)).2.2.2
    rw [← hscreened] at hmem
    have hstructure := structure_of_verified hmem
    rw [hbody] at hstructure
    obtain ⟨hvalid, hid⟩ := userHandle_of_structure hstructure
    have hk : record.id = k := by
      simpa [VerifiedRecord.key, hbody, recordKeyFor] using hkey
    simp only [View.competes, hbody, Bool.and_eq_true] at hcompetes
    refine ⟨hvalid, hk ▸ hid, ?_⟩
    have husers : (finalView crypto ratchet root records).users =
        (resolveRecords crypto ratchet root records).users :=
      effectiveView_users crypto root records _ _
    rw [← husers]
    exact ExtTreeMap.contains_iff_mem.mp hcompetes.2

lemma group_of_validateVault {k : GroupId} {record : GroupRecordV1}
    (h : (validateVaultWithVerified crypto vault ratchet
      verified).effective.groups[k]? = some record) :
    isValidHandle record.handle = true := by
  cases hresolved : resolvedWith crypto verified vault ratchet with
  | none =>
    rw [(validateVaultWithVerified_of_unresolved hresolved).1] at h
    simp [EffectiveState.unresolved] at h
  | some resolved =>
    obtain ⟨root, records⟩ := resolved
    rw [(validateVaultWithVerified_of_resolved hresolved).1] at h
    obtain ⟨-, -, hscreened⟩ := resolvedWith_eq_some.mp hresolved
    obtain ⟨w, hw, hbody⟩ := winner_of_group h
    have hmem := (finalWinner_spec hw).1
    rw [← hscreened] at hmem
    have hstructure := structure_of_verified hmem
    rw [hbody] at hstructure
    exact group_of_structure hstructure

end Validated

/-! ### Handles as references -/

section Handles

lemma trimChars_of_forall {chars : List Char} (h : ∀ c ∈ chars, isWhiteSpace c = false) :
    trimChars chars = chars := by
  have hdrop : ∀ chars : List Char, (∀ c ∈ chars, isWhiteSpace c = false) →
      chars.dropWhile isWhiteSpace = chars := by
    intro chars h
    cases chars with
    | nil => rfl
    | cons c chars =>
      exact List.dropWhile_cons_of_neg (by simp [h c List.mem_cons_self])
  rw [trimChars, hdrop _ h, hdrop _ (by simpa using h), List.reverse_reverse]

lemma isWhiteSpace_of_isDigit {c : Char} (h : Hex.isDigit c = true) : isWhiteSpace c = false := by
  have hbounds := Hex.toNat_lt_of_isDigit h
  simp only [isWhiteSpace, Bool.or_eq_false_iff, Bool.and_eq_false_iff, decide_eq_false_iff_not,
    beq_eq_false_iff_ne]
  omega

lemma strip_cases (mark value : String) :
    value.toList = (strip mark value).toList ∨
      value.toList = mark.toList ++ (strip mark value).toList := by
  cases h : stripPrefix? mark value with
  | none => exact Or.inl (by rw [strip, h, Option.getD_none])
  | some rest => exact Or.inr (by rw [strip, h, Option.getD_some, stripPrefix?_eq_some.mp h])

/-- A handle has 64 digits at most. -/
lemma length_le_of_handle {value needle : String} (h : normalizeHexPrefix value = some needle)
    (hvalid : isValidHandle (normalizeHandle value) = true) : needle.toList.length ≤ 64 := by
  have hdigits := (normalizeHexPrefix_eq_some.mp h).2.1
  have hspace : ∀ c ∈ value.toList, isWhiteSpace c = false := by
    intro c hc
    have hrest : c ∈ (strip "0x" value).toList → isWhiteSpace c = false := fun hc =>
      isWhiteSpace_of_isDigit (List.all_eq_true.mp hdigits c hc)
    rcases strip_cases "0x" value with hvalue | hvalue
    · rw [hvalue] at hc
      exact hrest hc
    · rw [hvalue, List.mem_append] at hc
      rcases hc with hc | hc
      · obtain rfl | rfl : c = '0' ∨ c = 'x' := by simpa using hc
        · rfl
        · rfl
      · exact hrest hc
  have hhandle : (normalizeHandle value).toList.length = value.toList.length := by
    rw [normalizeHandle, String.toList_ofList, trimChars_of_forall hspace, List.length_map]
  have hsize : (normalizeHandle value).utf8ByteSize ≤ 64 := by
    unfold isValidHandle at hvalid
    split at hvalid
    · cases hvalid
    · simp only [Bool.and_eq_true, decide_eq_true_eq] at hvalid
      exact hvalid.1.1.1
  have hle := (length_le_utf8ByteSize (normalizeHandle value)).trans hsize
  rw [length_of_normalizeHexPrefix h]
  rcases strip_cases "0x" value with hvalue | hvalue <;>
    rw [hhandle, hvalue] at hle
  · exact hle
  · rw [List.length_append] at hle
    omega

/-- No handle begins with the mark of a user. -/
lemma stripPrefix?_of_handle {value : String}
    (hvalid : isValidHandle (normalizeHandle value) = true) : stripPrefix? "@" value = none := by
  cases hmark : stripPrefix? "@" value with
  | none => rfl
  | some rest =>
    have hvalue : value.toList = '@' :: rest.toList := stripPrefix?_eq_some.mp hmark
    have htrim : ∃ chars, trimChars value.toList = '@' :: chars := by
      rw [trimChars, hvalue, List.dropWhile_cons_of_neg (by decide), List.reverse_cons,
        List.dropWhile_append]
      split
      · exact ⟨[], rfl⟩
      · exact ⟨_, by rw [List.reverse_append]; rfl⟩
    obtain ⟨chars, htrim⟩ := htrim
    have hhandle : (normalizeHandle value).toList = '@' :: chars.map Char.toLower := by
      rw [normalizeHandle, String.toList_ofList, htrim]
      rfl
    unfold isValidHandle at hvalid
    rw [hhandle] at hvalid
    simp [isHandleAlnum] at hvalid

end Handles

/-! ### Identifiers as references -/

section ReadAsId

variable {kind : IdKind} {ids : List (Id kind)} {needle : String} {id : Id kind}

/-- The identifier that digits stand for: the one they spell out, or the only one that begins with
them. -/
def ReadAsId (ids : List (Id kind)) (needle : String) (id : Id kind) : Prop :=
  id ∈ ids ∧
    if needle.toList.length < 64 then
      beginsWith needle id = true ∧ ∀ other ∈ ids, beginsWith needle other = true → other = id
    else hashHex id.hash = needle

lemma readAsId_of_lt (h : needle.toList.length < 64) (hids : ids.Nodup) :
    ReadAsId ids needle id ↔ ids.filter (beginsWith needle) = [id] := by
  rw [ReadAsId, if_pos h]
  constructor
  · rintro ⟨hmem, hbegins, honly⟩
    refine List.perm_singleton.mp ((List.perm_ext_iff_of_nodup (hids.filter _)
      (List.nodup_singleton id)).mpr fun other => ?_)
    rw [List.mem_filter, List.mem_singleton]
    constructor
    · rintro ⟨hother, hp⟩
      exact honly other hother hp
    · rintro rfl
      exact ⟨hmem, hbegins⟩
  · intro hfilter
    have hmem : id ∈ ids.filter (beginsWith needle) := by
      rw [hfilter]
      exact List.mem_singleton_self id
    refine ⟨(List.mem_filter.mp hmem).1, (List.mem_filter.mp hmem).2, fun other hother hp => ?_⟩
    have : other ∈ ids.filter (beginsWith needle) := List.mem_filter.mpr ⟨hother, hp⟩
    rw [hfilter] at this
    exact List.mem_singleton.mp this

/-- A full identifier is read as exactly itself. -/
lemma readAsId_of_full (h : needle.toList.length = 64) :
    ReadAsId ids needle id ↔ id ∈ ids ∧ hashHex id.hash = needle := by
  rw [ReadAsId, if_neg (by omega)]

end ReadAsId

/-! ### Resolution -/

section Resolution

variable {crypto : CryptoProvider} {vault : VaultStore} {ratchet : Ratchet}
variable {verified : BTreeSet HashValue} {report : ValidationReport}
variable {value needle : String}

lemma normalizeUserHandle_of_valid {handle : String}
    (h : isValidHandle (normalizeHandle handle) = true) :
    normalizeUserHandle handle = .ok (normalizeHandle handle) := if_pos h

/-- A handle in effect names its user. -/
lemma resolveUserRef_handle {k : UserHandleId} {record : UserHandleRecordV1}
    (hreport : validateVaultWithVerified crypto vault ratchet verified = report)
    (hrecord : report.effective.handles[k]? = some record) {handle : String}
    (hname : normalizeHandle handle = record.handle) :
    resolveUserRef crypto report (.handle handle) =
      .ok ⟨record.userId, some record.handle⟩ := by
  subst hreport
  obtain ⟨hvalid, rfl, huser⟩ := handle_of_validateVault hrecord
  have hnormal : normalizeUserHandle handle = .ok record.handle := by
    rw [← hname] at hvalid ⊢
    exact normalizeUserHandle_of_valid hvalid
  refine bind_eq_ok.mpr ⟨record.handle, hnormal, ?_⟩
  simp only [hrecord, if_pos huser, normalizeHandle_of_valid hvalid]

lemma resolveUserRef_id_eq_ok {user : UserId} {reference : ResolvedUserRef} :
    resolveUserRef crypto report (.id user) = .ok reference ↔ user ∈ report.effective.users ∧
      reference = ⟨user, (primaryHandleForUser report user).map (normalizeHandle ·.handle)⟩ := by
  rw [resolveUserRef]
  split_ifs with hmem
  · rw [Except.ok.injEq]
    exact ⟨fun h => ⟨hmem, h.symm⟩, fun h => h.2.symm⟩
  · exact ⟨fun h => (by cases h), fun h => absurd h.1 hmem⟩

lemma parseHandleName_of_valid (h : isValidHandle (normalizeHandle value) = true) :
    parseHandleName value = .ok (normalizeHandle value) := by
  have hstrip : strip "@" value = value := by
    rw [strip, stripPrefix?_of_handle h, Option.getD_none]
  rw [parseHandleName, hstrip]
  exact if_pos h

/-- The digits of a reference to a user that is read as an identifier: without an `@`. -/
def userDigits (value : String) : Option String :=
  if (stripPrefix? "@" value).isSome then none else normalizeHexPrefix value

lemma parseUserId_eq_ok {user : UserId} :
    parseUserId value = .ok user ↔ ∃ needle, normalizeHexPrefix value = some needle ∧
      needle.toList.length = 64 ∧ userHex user = needle := by
  rw [parseUserId, bind_eq_ok]
  constructor
  · rintro ⟨bytes, hdecode, heq⟩
    obtain rfl := Except.ok.inj heq
    exact decodeHexExact_eq_ok.mp hdecode
  · intro h
    exact ⟨user.hash.bytes, decodeHexExact_eq_ok.mpr h, rfl⟩

/-- Digits of either case that make up an identifier are the identifier of some bytes. -/
lemma exists_hashHex (h : normalizeHexPrefix value = some needle)
    (hlength : needle.toList.length = 64) : ∃ hash, hashHex hash = needle := by
  obtain ⟨-, hdigits, rfl⟩ := normalizeHexPrefix_eq_some.mp h
  obtain ⟨nibbles, hvalues⟩ := Hex.mapM_value?_isSome hdigits
  rw [length_of_normalizeHexPrefix h] at hlength
  exact ⟨⟨Hex.pairs nibbles⟩, congrArg String.ofList (Hex.encode_pairs hvalues (by omega))⟩

lemma userDigits_eq_some :
    userDigits value = some needle ↔
      stripPrefix? "@" value = none ∧ normalizeHexPrefix value = some needle := by
  rw [userDigits]
  cases stripPrefix? "@" value with
  | none => simp
  | some rest => simp

lemma userDigits_eq_none (h : stripPrefix? "@" value = none) :
    userDigits value = normalizeHexPrefix value := by
  rw [userDigits, h]
  rfl

lemma mem_users {user : UserId} :
    user ∈ report.effective.users.keys ↔ user ∈ report.effective.users := ExtTreeMap.mem_keys

/-- What a prefix is resolved to, by the users that it begins. -/
def prefixOutcome (value : String) : List UserId → Except FrontendError (Option UserId)
  | [] => .error (.userNotFound value)
  | [first] => .ok (some first)
  | _ => .error (.ambiguousUser value)

/-- A value of digits resolves to the user it is read as, and to nobody else. -/
lemma resolveCli_of_digits (hdigits : userDigits value = some needle)
    (hlength : needle.toList.length ≤ 64) {reference : ResolvedUserRef} :
    resolveCliUserRefInReport crypto report value = .ok reference ↔
      ReadAsId report.effective.users.keys needle reference.userId ∧
        reference.handle =
          (primaryHandleForUser report reference.userId).map (normalizeHandle ·.handle) := by
  obtain ⟨hmark, hneedle⟩ := userDigits_eq_some.mp hdigits
  have hsize := utf8ByteSize_of_normalizeHexPrefix hneedle
  have hid : ∀ user, (resolveUserRef crypto report (.id user)).mapError FrontendError.ops =
      .ok reference ↔ user ∈ report.effective.users ∧ reference = ⟨user,
        (primaryHandleForUser report user).map (normalizeHandle ·.handle)⟩ := by
    intro user
    rw [← resolveUserRef_id_eq_ok]
    cases resolveUserRef crypto report (.id user) with
    | ok reference => rw [Except.mapError, Except.ok.injEq, Except.ok.injEq]
    | error error => exact ⟨fun h => (by cases h), fun h => (by cases h)⟩
  rcases Nat.lt_or_ge needle.toList.length 64 with hlt | hge
  · rw [readAsId_of_lt hlt ExtTreeMap.nodup_keys]
    have hlookup : resolveUserHexPrefix report value =
        prefixOutcome value (report.effective.users.keys.filter (beginsWith needle)) := by
      rw [resolveUserHexPrefix, hmark, if_neg (by decide), hneedle]
      exact if_neg (by omega)
    rw [resolveCliUserRefInReport, hlookup]
    rcases hfilter : report.effective.users.keys.filter (beginsWith needle) with
      _ | ⟨first, _ | ⟨second, rest⟩⟩
    · exact ⟨fun h => (by cases h), fun h => (by cases h.1)⟩
    · have hmem : first ∈ report.effective.users := by
        have : first ∈ report.effective.users.keys.filter (beginsWith needle) := by
          rw [hfilter]
          exact List.mem_singleton_self first
        exact mem_users.mp (List.mem_filter.mp this).1
      refine (hid first).trans ⟨?_, ?_⟩
      · rintro ⟨-, rfl⟩
        exact ⟨rfl, rfl⟩
      · rintro ⟨heq, hhandle⟩
        obtain rfl : first = reference.userId := (List.cons.inj heq).1
        exact ⟨hmem, ResolvedUserRef.ext rfl hhandle⟩
    · exact ⟨fun h => (by cases h), fun h => (by cases h.1)⟩
  · have hfull : needle.toList.length = 64 := le_antisymm hlength hge
    rw [readAsId_of_full hfull]
    obtain ⟨hash, hhash⟩ := exists_hashHex hneedle hfull
    have hlookup : resolveUserHexPrefix report value = .ok none := by
      rw [resolveUserHexPrefix, hmark, if_neg (by decide), hneedle]
      exact if_pos (by omega)
    have hparse : parseUserRef value = .ok (.id ⟨hash⟩) := by
      rw [parseUserRef, hmark, parseUserId_eq_ok.mpr ⟨needle, hneedle, hfull, hhash⟩]
    rw [resolveCliUserRefInReport, hlookup]
    refine (bind_eq_ok.trans ⟨?_, fun h => ⟨_, hparse, h⟩⟩).trans ((hid ⟨hash⟩).trans ⟨?_, ?_⟩)
    · rintro ⟨userRef, huserRef, h⟩
      obtain rfl := Except.ok.inj (hparse.symm.trans huserRef)
      exact h
    · rintro ⟨hmem, rfl⟩
      exact ⟨⟨mem_users.mpr hmem, hhash⟩, rfl⟩
    · rintro ⟨⟨hmem, heq⟩, hhandle⟩
      have huser : (⟨hash⟩ : UserId) = reference.userId :=
        Id.ext (hashHex_injective (hhash.trans heq.symm))
      rw [huser]
      exact ⟨mem_users.mp hmem, ResolvedUserRef.ext rfl hhandle⟩

/-- A value that is not read as an identifier resolves to the user of the handle. -/
lemma resolveCli_of_handle {k : UserHandleId} {record : UserHandleRecordV1}
    (hreport : validateVaultWithVerified crypto vault ratchet verified = report)
    (hrecord : report.effective.handles[k]? = some record)
    (hname : normalizeHandle (strip "@" value) = record.handle)
    (hdigits : userDigits value = none) :
    resolveCliUserRefInReport crypto report value = .ok ⟨record.userId, some record.handle⟩ := by
  have hvalid : isValidHandle record.handle = true := by
    subst hreport
    exact (handle_of_validateVault hrecord).1
  have hself := normalizeHandle_of_valid hvalid
  have hresolve := resolveUserRef_handle hreport hrecord hself
  have hparse : resolveUserHexPrefix report value = .ok none ∧
      parseUserRef value = .ok (.handle record.handle) := by
    cases hmark : stripPrefix? "@" value with
    | some rest =>
      rw [strip, hmark, Option.getD_some] at hname
      rw [← hname] at hvalid
      have hparse := (parseHandleName_of_valid hvalid).trans (congrArg Except.ok hname)
      rw [resolveUserHexPrefix, parseUserRef, hmark]
      exact ⟨rfl, bind_eq_ok.mpr ⟨record.handle, hparse, rfl⟩⟩
    | none =>
      rw [userDigits_eq_none hmark] at hdigits
      rw [strip, hmark, Option.getD_none] at hname
      rw [← hname] at hvalid
      have hnotId : ∀ user, parseUserId value ≠ .ok user := by
        intro user huser
        obtain ⟨needle, hneedle, -⟩ := parseUserId_eq_ok.mp huser
        rw [hdigits] at hneedle
        cases hneedle
      have hparse := (parseHandleName_of_valid hvalid).trans (congrArg Except.ok hname)
      rw [resolveUserHexPrefix, parseUserRef, hmark, hdigits]
      cases hid : parseUserId value with
      | ok user => exact absurd hid (hnotId user)
      | error error => exact ⟨rfl, bind_eq_ok.mpr ⟨record.handle, hparse, rfl⟩⟩
  refine bind_eq_ok.mpr ⟨none, hparse.1, bind_eq_ok.mpr ⟨_, hparse.2, ?_⟩⟩
  rw [hresolve]
  rfl

/-! ### Groups -/

lemma parseGroupId_eq_ok {group : GroupId} :
    parseGroupId value = .ok group ↔ ∃ needle, normalizeHexPrefix value = some needle ∧
      needle.toList.length = 64 ∧ hashHex group.hash = needle := by
  rw [parseGroupId, bind_eq_ok]
  constructor
  · rintro ⟨bytes, hdecode, heq⟩
    obtain rfl := Except.ok.inj heq
    exact decodeHexExact_eq_ok.mp hdecode
  · intro h
    exact ⟨group.hash.bytes, decodeHexExact_eq_ok.mpr h, rfl⟩

/-- No other group has the handle of this one. -/
def OnlyGroupNamed (report : ValidationReport) (group : GroupId) (handle : String) : Prop :=
  ∀ other record, report.effective.groups[other]? = some record → record.handle = handle →
    other = group

lemma mem_groupsNamed {handle : String} {group : GroupId} :
    group ∈ groupsNamed report handle ↔
      ∃ record, report.effective.groups[group]? = some record ∧
        normalizeHandle record.handle = handle := by
  simp only [groupsNamed, List.mem_map, List.mem_filter, ExtTreeMap.mem_toList_iff_getElem?_eq_some,
    decide_eq_true_eq, Prod.exists, exists_and_right, exists_eq_right]

lemma nodup_groupsNamed (report : ValidationReport) (handle : String) :
    (groupsNamed report handle).Nodup := by
  have hkeys : (report.effective.groups.toList.map Prod.fst).Nodup := by
    rw [ExtTreeMap.map_fst_toList_eq_keys]
    exact ExtTreeMap.nodup_keys
  exact hkeys.sublist (List.filter_sublist.map Prod.fst)

/-- A handle in effect names its group, or several groups. -/
lemma groupByHandle_of_named {group : GroupId} {record : GroupRecordV1}
    (hreport : validateVaultWithVerified crypto vault ratchet verified = report)
    (hrecord : report.effective.groups[group]? = some record)
    (hname : normalizeHandle value = record.handle) :
    (OnlyGroupNamed report group record.handle → groupByHandle report value = .ok group) ∧
      (¬ OnlyGroupNamed report group record.handle →
        groupByHandle report value = .error (.ambiguousGroup value)) := by
  have hself : ∀ (other : GroupId) (record : GroupRecordV1),
      report.effective.groups[other]? = some record →
      normalizeHandle record.handle = record.handle := by
    subst hreport
    exact fun other record h => normalizeHandle_of_valid (group_of_validateVault h)
  have hmem : group ∈ groupsNamed report (normalizeHandle value) :=
    mem_groupsNamed.mpr ⟨record, hrecord, (hself _ _ hrecord).trans hname.symm⟩
  have hnodup := nodup_groupsNamed report (normalizeHandle value)
  rw [groupByHandle]
  match hnamed : groupsNamed report (normalizeHandle value) with
  | [] =>
    rw [hnamed] at hmem
    cases hmem
  | [other] =>
    rw [hnamed] at hmem
    obtain rfl := List.mem_singleton.mp hmem
    refine ⟨fun _ => rfl, fun hnot => absurd ?_ hnot⟩
    intro other record' hrecord' hsame
    have hother : other ∈ groupsNamed report (normalizeHandle value) :=
      mem_groupsNamed.mpr ⟨record', hrecord', by rw [hself _ _ hrecord', hsame, hname]⟩
    rw [hnamed] at hother
    exact List.mem_singleton.mp hother
  | first :: second :: rest =>
    refine ⟨fun honly => ?_, fun _ => rfl⟩
    have heq : ∀ other ∈ groupsNamed report (normalizeHandle value), other = group := by
      intro other hother
      obtain ⟨record', hrecord', hname'⟩ := mem_groupsNamed.mp hother
      rw [hself _ _ hrecord', hname] at hname'
      exact honly other record' hrecord' hname'
    rw [hnamed] at heq hnodup
    have hfirst := heq first List.mem_cons_self
    have hsecond := heq second (List.mem_cons_of_mem _ List.mem_cons_self)
    rw [hfirst, hsecond] at hnodup
    exact absurd List.mem_cons_self (List.nodup_cons.mp hnodup).1

/-- A value that is not read as an identifier is read as a handle. -/
lemma resolveGroupName_of_handle (hdigits : normalizeHexPrefix value = none) :
    resolveGroupName report value = groupByHandle report value := by
  rw [resolveGroupName, hdigits]
  cases hparse : parseGroupId value with
  | error error => rfl
  | ok group =>
    obtain ⟨needle, hneedle, -⟩ := parseGroupId_eq_ok.mp hparse
    rw [hdigits] at hneedle
    cases hneedle

/-- Digits resolve to the group they are read as, which may be none. -/
lemma resolveGroupName_of_digits (hdigits : normalizeHexPrefix value = some needle)
    (hlength : needle.toList.length ≤ 64) (group : GroupId) :
    (ReadAsId report.effective.groups.keys needle group →
        resolveGroupName report value = .ok group) ∧
      (resolveGroupName report value = .ok group →
        ReadAsId report.effective.groups.keys needle group ∨
          groupByHandle report value = .ok group) := by
  rw [resolveGroupName]
  rcases Nat.lt_or_ge needle.toList.length 64 with hlt | hge
  · rw [readAsId_of_lt hlt ExtTreeMap.nodup_keys]
    cases hparse : parseGroupId value with
    | ok other =>
      obtain ⟨needle', hneedle', hfull, -⟩ := parseGroupId_eq_ok.mp hparse
      obtain rfl := Option.some.inj (hdigits.symm.trans hneedle')
      omega
    | error error =>
      rw [hdigits]
      dsimp only
      match hfilter : report.effective.groups.keys.filter (beginsWith needle) with
      | [] => exact ⟨fun h => (by cases h), Or.inr⟩
      | [other] =>
        refine ⟨fun h => congrArg Except.ok (List.cons.inj h).1, fun h => Or.inl ?_⟩
        rw [Except.ok.inj h]
      | first :: second :: rest => exact ⟨fun h => (by cases h), fun h => (by cases h)⟩
  · have hfull : needle.toList.length = 64 := le_antisymm hlength hge
    rw [readAsId_of_full hfull]
    obtain ⟨hash, hhash⟩ := exists_hashHex hdigits hfull
    rw [parseGroupId_eq_ok.mpr ⟨needle, hdigits, hfull, hhash⟩]
    constructor
    · rintro ⟨hmem, hhex⟩
      obtain rfl : ⟨hash⟩ = group := Id.ext (hashHex_injective (hhash.trans hhex.symm))
      exact if_pos (ExtTreeMap.mem_keys.mp hmem)
    · intro h
      dsimp only at h
      split_ifs at h with hmem
      obtain rfl := Except.ok.inj h
      exact Or.inl ⟨ExtTreeMap.mem_keys.mpr hmem, hhash⟩

end Resolution

/-! ### The stored default -/

section Stored

variable {crypto : CryptoProvider} {report : ValidationReport} {user : UserId}

lemma userDigits_userHex (h : user.hash.bytes.length = 32) :
    userDigits (userHex user) = some (userHex user) ∧ (userHex user).toList.length = 64 := by
  obtain ⟨hneedle, hlength⟩ := normalizeHexPrefix_hashHex h
  refine ⟨userDigits_eq_some.mpr ⟨?_, hneedle⟩, hlength⟩
  cases hmark : stripPrefix? "@" (userHex user) with
  | none => rfl
  | some rest =>
    have hall := Hex.all_isDigit_encode user.hash.bytes
    rw [stripPrefix?_eq_some, userHex, hashHex, String.toList_ofList] at hmark
    rw [hmark] at hall
    simp [Hex.isDigit, Hex.value?] at hall

/-- The digits of a full identifier resolve to nobody else. -/
lemma resolveCli_userHex (h : user.hash.bytes.length = 32) {reference : ResolvedUserRef}
    (hresolve : resolveCliUserRefInReport crypto report (userHex user) = .ok reference) :
    reference.userId = user := by
  obtain ⟨hdigits, hlength⟩ := userDigits_userHex h
  have hread := ((resolveCli_of_digits hdigits hlength.le).mp hresolve).1
  rw [readAsId_of_full hlength] at hread
  exact Id.ext (hashHex_injective hread.2)

end Stored

/-! ### The acting user -/

section Acting

variable {crypto : CryptoProvider} {vault : VaultStore} {ratchet : Ratchet}
variable {verified : BTreeSet HashValue} {report : ValidationReport} {user : UserId}

lemma utf8ByteSize_userHex (h : user.hash.bytes.length = 32) : (userHex user).utf8ByteSize = 64 ∧
    (userHex user).toList.all Hex.isDigit = true := by
  have hdigits : (userHex user).toList.all Hex.isDigit = true := by
    rw [userHex, hashHex, String.toList_ofList]
    exact Hex.all_isDigit_encode _
  exact ⟨by rw [utf8ByteSize_of_digits hdigits, (userDigits_userHex h).2], hdigits⟩

lemma parseUserId_userHex (h : user.hash.bytes.length = 32) :
    Tui.parseUserId (userHex user) = some user := by
  obtain ⟨values, hvalues, hpairs⟩ := Hex.values_encode user.hash.bytes
  obtain ⟨hsize, hdigits⟩ := utf8ByteSize_userHex h
  rw [Tui.parseUserId, hsize, hdigits, if_neg (by decide), userHex, hashHex, String.toList_ofList,
    hvalues, Option.map_some, hpairs]

/-- The digits of an identifier are a valid handle. -/
lemma isValidHandle_userHex (h : user.hash.bytes.length = 32) : isValidHandle (userHex user) = true := by
  have hlength : (Hex.encode user.hash.bytes).length = 64 := by rw [Hex.length_encode, h]
  have halnum : ∀ c ∈ Hex.encode user.hash.bytes, isHandleAlnum c = true := by
    intro c hc
    have hdigit : ∀ n < 16, isHandleAlnum (Hex.digit n) = true := by decide
    obtain ⟨byte, -, hc⟩ := List.mem_flatMap.mp hc
    have hbyte := byte.toNat_lt
    rcases List.mem_cons.mp hc with rfl | hc
    · exact hdigit _ (by omega)
    · obtain rfl := List.mem_singleton.mp hc
      exact hdigit _ (by omega)
  have htext : (userHex user).toList = Hex.encode user.hash.bytes := String.toList_ofList
  rw [isValidHandle, (utf8ByteSize_userHex h).1, htext]
  cases hdigits : Hex.encode user.hash.bytes with
  | nil => simp [hdigits] at hlength
  | cons first rest =>
    rw [hdigits] at halnum
    simp only [Bool.and_eq_true, decide_eq_true_eq, List.all_eq_true]
    exact ⟨⟨⟨by decide, halnum _ List.mem_cons_self⟩, halnum _ (List.getLast_mem _)⟩,
      fun c hc => by simp [isHandleInner, halnum c hc]⟩

/-- The terminal interface tries the stored identifier as a handle first, so it acts as the stored
user or as nobody exactly if no other user has been given the digits as a handle. -/
lemma resolveActing_iff
    (hreport : validateVaultWithVerified crypto vault ratchet verified = report)
    {stored : StoredDefaultUser} (hlength : user.hash.bytes.length = 32)
    (hstored : stored.userRef = userHex user) :
    (∀ acting, Tui.resolveActing crypto report (some stored) = some acting → acting.1 = user) ↔
      ∀ record, report.effective.handles[deriveUserHandleId crypto (userHex user)]? = some record →
        record.userId = user := by
  have hself := normalizeHandle_of_valid (isValidHandle_userHex hlength)
  have hnormal : normalizeUserHandle (userHex user) = .ok (userHex user) := by
    rw [normalizeUserHandle_of_valid (by rw [hself]; exact isValidHandle_userHex hlength), hself]
  rw [Tui.resolveActing, Option.bind_some, hstored, parseUserId_userHex hlength, Option.bind_some]
  cases hhandle : report.effective.handles[deriveUserHandleId crypto (userHex user)]? with
  | some record =>
    have huser : record.userId ∈ report.effective.users := by
      subst hreport
      exact (handle_of_validateVault hhandle).2.2
    have hresolve : resolveUserRef crypto report (.handle (userHex user)) =
        .ok ⟨record.userId, some (normalizeHandle record.handle)⟩ :=
      bind_eq_ok.mpr ⟨_, hnormal, by simp only [hhandle, if_pos huser]⟩
    simp [hresolve, Except.toOption]
  | none =>
    have hresolve : resolveUserRef crypto report (.handle (userHex user)) =
        .error (.userHandleNotFound (userHex user)) := by
      rw [resolveUserRef, hnormal]
      simp only [bind, Except.bind, hhandle]
    refine iff_of_true (fun acting hacting => ?_) (fun record h => by cases h)
    cases hid : resolveUserRef crypto report (.id user) with
    | error error => simp [hresolve, hid, Except.toOption] at hacting
    | ok reference =>
      obtain ⟨-, rfl⟩ := resolveUserRef_id_eq_ok.mp hid
      rw [hresolve, hid] at hacting
      rw [← Option.some.inj hacting]

end Acting

/-! ### References to the principals of a vault -/

/-- What references resolve to, for the handles in effect and for the stored default. A reference
resolves to nobody else exactly where its digits, if it is read as an identifier, stand for nobody
else, and the terminal interface acts as nobody else exactly where nobody else has the digits of the
stored identifier for a handle. -/
structure ReferencesResolve (crypto : CryptoProvider) (report : ValidationReport) : Prop where
  user : ∀ (value : String) (k : UserHandleId) (record : UserHandleRecordV1),
    report.effective.handles[k]? = some record →
    normalizeHandle (strip "@" value) = record.handle →
    ((∀ reference, resolveCliUserRefInReport crypto report value = .ok reference →
        reference.userId = record.userId) ↔
      ∀ needle user, userDigits value = some needle →
        ReadAsId report.effective.users.keys needle user → user = record.userId) ∧
    (userDigits value = none →
      resolveCliUserRefInReport crypto report value = .ok ⟨record.userId, some record.handle⟩) ∧
    ∀ needle user, userDigits value = some needle →
      ((∃ handle, resolveCliUserRefInReport crypto report value = .ok ⟨user, handle⟩) ↔
        ReadAsId report.effective.users.keys needle user)
  group : ∀ (value : String) (group : GroupId) (record : GroupRecordV1),
    report.effective.groups[group]? = some record →
    normalizeHandle (groupName value) = record.handle →
    ((∀ other, resolveGroupRef report value = .ok other → other = group) ↔
      ∀ needle other, normalizeHexPrefix (groupName value) = some needle →
        ReadAsId report.effective.groups.keys needle other → other = group) ∧
    (normalizeHexPrefix (groupName value) = none →
      (OnlyGroupNamed report group record.handle → resolveGroupRef report value = .ok group) ∧
        (¬ OnlyGroupNamed report group record.handle →
          resolveGroupRef report value = .error (.ambiguousGroup (groupName value)))) ∧
    ∀ needle other, normalizeHexPrefix (groupName value) = some needle →
      ReadAsId report.effective.groups.keys needle other →
        resolveGroupRef report value = .ok other
  stored : ∀ (readCurrentUser : HashValue → Except FrontendError (Option CurrentUserV1))
    (ciIdentityUser : Except FrontendError (Option UserId)) (root : HashValue)
    (current : CurrentUserV1), report.effective.rootSigningPublicKeyHash = some root →
    readCurrentUser root = .ok (some current) → current.userId.hash.bytes.length = 32 →
    ∀ user, resolveCliUserRefWithReport readCurrentUser ciIdentityUser crypto report none =
      .ok user → user.resolved.userId = current.userId
  acting : ∀ (stored : StoredDefaultUser) (user : UserId), user.hash.bytes.length = 32 →
    stored.userRef = userHex user →
    ((∀ acting, Tui.resolveActing crypto report (some stored) = some acting → acting.1 = user) ↔
      ∀ record,
        report.effective.handles[deriveUserHandleId crypto (userHex user)]? = some record →
          record.userId = user)

/-- In a validated vault, a value of at least eight hex digits, for a user one without an `@`, is
read as an identifier first; every other value of which a handle in effect is the normal form names
the user or the group of the handle. The command line never reads the stored default as anybody else;
the terminal interface does where the digits of it are somebody else's handle. -/
theorem referencesResolve (crypto : CryptoProvider) (vault : VaultStore) (ratchet : Ratchet)
    (verified : BTreeSet HashValue) :
    ReferencesResolve crypto (validateVaultWithVerified crypto vault ratchet verified) := by
  generalize hreport : validateVaultWithVerified crypto vault ratchet verified = report
  constructor
  case user =>
    intro value k record hrecord hname
    have hvalid : isValidHandle record.handle = true := by
      subst hreport
      exact (handle_of_validateVault hrecord).1
    have hdigit : ∀ needle, userDigits value = some needle → ∀ reference,
        resolveCliUserRefInReport crypto report value = .ok reference ↔
          ReadAsId report.effective.users.keys needle reference.userId ∧ reference.handle =
            (primaryHandleForUser report reference.userId).map (normalizeHandle ·.handle) := by
      intro needle hdigits reference
      obtain ⟨hmark, hneedle⟩ := userDigits_eq_some.mp hdigits
      rw [strip, hmark, Option.getD_none] at hname
      exact resolveCli_of_digits hdigits (length_le_of_handle hneedle (hname ▸ hvalid))
    have hresolves : ∀ needle user, userDigits value = some needle →
        ReadAsId report.effective.users.keys needle user →
        resolveCliUserRefInReport crypto report value = .ok
          ⟨user, (primaryHandleForUser report user).map (normalizeHandle ·.handle)⟩ :=
      fun needle user hdigits hread => (hdigit needle hdigits _).mpr ⟨hread, rfl⟩
    refine ⟨⟨fun h needle user hdigits hread => ?_, fun h reference hresolve => ?_⟩,
      resolveCli_of_handle hreport hrecord hname, fun needle user hdigits => ⟨?_, fun hread => ?_⟩⟩
    · exact h _ (hresolves needle user hdigits hread)
    · cases hdigits : userDigits value with
      | none =>
        rw [resolveCli_of_handle hreport hrecord hname hdigits, Except.ok.injEq] at hresolve
        rw [← hresolve]
      | some needle =>
        exact h needle _ hdigits ((hdigit needle hdigits reference).mp hresolve).1
    · rintro ⟨handle, hresolve⟩
      exact ((hdigit needle hdigits ⟨user, handle⟩).mp hresolve).1
    · exact ⟨_, hresolves needle user hdigits hread⟩
  case group =>
    intro value group record hrecord hname
    have hvalid : isValidHandle record.handle = true := by
      subst hreport
      exact group_of_validateVault hrecord
    have hlength : ∀ needle, normalizeHexPrefix (groupName value) = some needle →
        needle.toList.length ≤ 64 := fun needle hneedle =>
      length_le_of_handle hneedle (hname ▸ hvalid)
    obtain ⟨honly, hambiguous⟩ := groupByHandle_of_named hreport hrecord hname
    have hbyHandle : ∀ other, groupByHandle report (groupName value) = .ok other →
        other = group := by
      intro other hother
      by_cases h : OnlyGroupNamed report group record.handle
      · exact Except.ok.inj (hother.symm.trans (honly h))
      · rw [hambiguous h] at hother
        cases hother
    refine ⟨⟨fun h needle other hdigits hread => ?_, fun h other hresolve => ?_⟩,
      fun hdigits => ?_, fun needle other hdigits hread => ?_⟩
    · exact h other ((resolveGroupName_of_digits hdigits (hlength needle hdigits) other).1 hread)
    · cases hdigits : normalizeHexPrefix (groupName value) with
      | none =>
        rw [resolveGroupRef, resolveGroupName_of_handle hdigits] at hresolve
        exact hbyHandle other hresolve
      | some needle =>
        rcases (resolveGroupName_of_digits hdigits (hlength needle hdigits) other).2 hresolve with
          hread | hhandle
        · exact h needle other hdigits hread
        · exact hbyHandle other hhandle
    · rw [resolveGroupRef, resolveGroupName_of_handle hdigits]
      exact ⟨honly, hambiguous⟩
    · exact (resolveGroupName_of_digits hdigits (hlength needle hdigits) other).1 hread
  case stored =>
    intro readCurrentUser ciIdentityUser root current hroot hread hlength user hresolve
    have hkey : reportRootKeyHash report = .ok root := by rw [reportRootKeyHash, hroot]
    obtain ⟨chosen, hchosen, hresolve⟩ := bind_eq_ok.mp hresolve
    obtain rfl := Except.ok.inj (hkey.symm.trans hchosen)
    obtain ⟨stored, hstored, hresolve⟩ := bind_eq_ok.mp hresolve
    obtain rfl := Except.ok.inj (hread.symm.trans hstored)
    obtain ⟨named, hnamed, hresolve⟩ := bind_eq_ok.mp hresolve
    obtain rfl := Except.ok.inj hnamed
    obtain ⟨resolved, hresolved, hresolve⟩ := bind_eq_ok.mp hresolve
    obtain ⟨_, -, hresolve⟩ := bind_eq_ok.mp hresolve
    obtain rfl := Except.ok.inj hresolve
    exact resolveCli_userHex hlength hresolved
  case acting => exact fun stored user hlength hstored => resolveActing_iff hreport hlength hstored

section Counterexample

open TestSupport

/-- A user with an identifier of 32 bytes, which no record of the vault names. -/
def storedUser : UserId := TestUser.id ⟨List.replicate 28 7, [7]⟩

def digitGroup (seed : Bytes) (handle : String) (counter : ℕ) : VaultRecordV1 :=
  signedRecord rootUser (.group ⟨deriveGroupId transparentCrypto ⟨seed⟩, ⟨seed⟩, handle, counter⟩)

def digitHandle (handle : String) (counter : ℕ) : VaultRecordV1 :=
  signedRecord rootUser (.userHandle
    ⟨deriveUserHandleId transparentCrypto handle, handle, rootUser.id, counter⟩)

/-- The root has been given the first digits of another user and all digits of a third one as
handles, and a group the digits of another group. -/
def digitHandleReport : ValidationReport :=
  validate [vaultRootRecord, userRecord rootUser (testUser 7) 1, trustRoot (testUser 7) 2,
    digitHandle "01010701" 3, digitHandle (userHex storedUser) 4, digitGroup [7, 7, 7] "first" 5,
    digitGroup [8] "05070707" 6]

/-- The handle of the root resolves to the other user, the marked handle of the group to the other
group, and the terminal interface acts as the root for the third user. -/
theorem digitHandle_names_another :
    ((∃ record, digitHandleReport.effective.handles[deriveUserHandleId transparentCrypto
        "01010701"]? = some record ∧ record.handle = "01010701" ∧ record.userId = rootUser.id) ∧
      resolveCliUserRefInReport transparentCrypto digitHandleReport "01010701" =
        .ok ⟨(testUser 7).id, none⟩ ∧ (testUser 7).id ≠ rootUser.id) ∧
    ((∃ record, digitHandleReport.effective.groups[deriveGroupId transparentCrypto ⟨[8]⟩]? =
        some record ∧ record.handle = "05070707") ∧
      resolveGroupRef digitHandleReport "%05070707" =
        .ok (deriveGroupId transparentCrypto ⟨[7, 7, 7]⟩) ∧
      deriveGroupId transparentCrypto ⟨[7, 7, 7]⟩ ≠ deriveGroupId transparentCrypto ⟨[8]⟩) ∧
    (storedUser.hash.bytes.length = 32 ∧
      (Tui.resolveActing transparentCrypto digitHandleReport
        (some (storedDefaultUser ⟨storedUser, none⟩))).map Prod.fst = some rootUser.id ∧
      rootUser.id ≠ storedUser) := by
  obtain ⟨hhandle, hgroup, huserRef, hgroupRef, hacting⟩ :
      digitHandleReport.effective.handles[deriveUserHandleId transparentCrypto "01010701"]? =
          some ⟨deriveUserHandleId transparentCrypto "01010701", "01010701", rootUser.id, 3⟩ ∧
        digitHandleReport.effective.groups[deriveGroupId transparentCrypto ⟨[8]⟩]? =
          some ⟨deriveGroupId transparentCrypto ⟨[8]⟩, ⟨[8]⟩, "05070707", 6⟩ ∧
        resolveCliUserRefInReport transparentCrypto digitHandleReport "01010701" =
          .ok ⟨(testUser 7).id, none⟩ ∧
        resolveGroupRef digitHandleReport "%05070707" =
          .ok (deriveGroupId transparentCrypto ⟨[7, 7, 7]⟩) ∧
        (Tui.resolveActing transparentCrypto digitHandleReport
          (some (storedDefaultUser ⟨storedUser, none⟩))).map Prod.fst = some rootUser.id := by
    decide +kernel
  exact ⟨⟨⟨_, hhandle, rfl, rfl⟩, huserRef, by decide⟩, ⟨⟨_, hgroup, rfl⟩, hgroupRef, by decide⟩,
    by decide, hacting, by decide⟩

end Counterexample

end Thorax
