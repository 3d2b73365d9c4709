import Thorax.Kubernetes.Join
import Thorax.Properties.SelectorQueries

/-!
# What is reviewed is what is signed

An artifact is read from a resource only if the resource spells it out as it is, so two resources
that read the same in review carry artifacts with the same meaning. For a join request they do. For
an approval they do as far as the matchers go that are spelled out: of several matchers for one key
of a label only the last is, and the others decide about access unseen.
-/

namespace Thorax.Kubernetes.Join

open Collections Durable

/-! ### Matchers that are reviewed, and others -/

section Labels

/-- The matchers that are spelled out: the last for every key. -/
def reviewedLabels : List KeyspaceLabelMatcherV1 → List KeyspaceLabelMatcherV1
  | [] => []
  | label :: labels =>
    if labels.any (·.key = label.key) then reviewedLabels labels
    else label :: reviewedLabels labels

/-- The matchers that a later one for the same key hides. -/
def overwrittenLabels : List KeyspaceLabelMatcherV1 → List KeyspaceLabelMatcherV1
  | [] => []
  | label :: labels =>
    if labels.any (·.key = label.key) then label :: overwrittenLabels labels
    else overwrittenLabels labels

def labelsAdmit (labels : List KeyspaceLabelMatcherV1) (secret : SecretSelectorV1) : Bool :=
  labels.all fun label => labelMatches label.matcher (secretLabelValue secret label.key)

/-- What is spelled out of a grant admits a secret. -/
def reviewedMatches (grant : KeyspaceSelectorV1) (secret : SecretSelectorV1) : Bool :=
  tupleMatches grant.tuple secret.tuple && labelsAdmit (reviewedLabels grant.labels) secret

/-- An approved grant is one to read. -/
def grantMatches (permission : GrantPermissionV1) (secret : SecretSelectorV1) : Bool :=
  match permission with
  | .readKeyspace selector => selectorMatches selector secret
  | _ => false

variable {labels labels' : List KeyspaceLabelMatcherV1} {label : KeyspaceLabelMatcherV1}
variable {secret : SecretSelectorV1}

/-- Every matcher is spelled out or hidden. -/
lemma labelsAdmit_split : labelsAdmit labels secret =
    (labelsAdmit (reviewedLabels labels) secret &&
      labelsAdmit (overwrittenLabels labels) secret) := by
  induction labels with
  | nil => rfl
  | cons label labels ih =>
    simp only [labelsAdmit, List.all_cons, reviewedLabels, overwrittenLabels] at ih ⊢
    rw [ih]
    split_ifs
    · rw [List.all_cons, Bool.and_left_comm]
    · rw [List.all_cons, Bool.and_assoc]

lemma overwrittenLabels_of_nodup (h : (labels.map (·.key)).Nodup) :
    overwrittenLabels labels = [] := by
  induction labels with
  | nil => rfl
  | cons label labels ih =>
    rw [List.map_cons, List.nodup_cons] at h
    have hnone : ¬ labels.any (·.key = label.key) = true := by
      intro hany
      obtain ⟨other, hother, hkey⟩ := List.any_eq_true.mp hany
      exact h.1 (of_decide_eq_true hkey ▸ List.mem_map_of_mem hother)
    rw [overwrittenLabels, if_neg hnone, ih h.2]

lemma mem_of_mem_reviewedLabels (h : label ∈ reviewedLabels labels) : label ∈ labels := by
  induction labels with
  | nil => exact h
  | cons first labels ih =>
    rw [reviewedLabels] at h
    split_ifs at h
    · exact List.mem_cons_of_mem _ (ih h)
    · rcases List.mem_cons.mp h with rfl | h
      · exact List.mem_cons_self
      · exact List.mem_cons_of_mem _ (ih h)

/-- What a map of matchers holds after some labels. -/
lemma getElem?_foldl_labels {m : BTreeMap String LabelMatcherSpec} {key : String}
    {spec : LabelMatcherSpec} :
    (labels.foldl (fun labels label => labels.insert label.key
      (LabelMatcherSpec.fromCore label.matcher)) m)[key]? = some spec ↔
      (∃ label ∈ reviewedLabels labels, label.key = key ∧ .fromCore label.matcher = spec) ∨
        (key ∉ labels.map (·.key) ∧ m[key]? = some spec) := by
  induction labels generalizing m with
  | nil => simp [reviewedLabels]
  | cons label labels ih =>
    have hany : labels.any (·.key = label.key) = true ↔ label.key ∈ labels.map (·.key) := by
      simp
    rw [List.foldl_cons, ih, reviewedLabels, List.map_cons, List.mem_cons,
      Std.ExtTreeMap.getElem?_insert]
    simp only [Std.LawfulEqCmp.compare_eq_iff_eq, hany]
    by_cases hkey : label.key = key
    · subst hkey
      by_cases hlater : label.key ∈ labels.map (·.key)
      · simp [hlater]
      · have hno : ∀ other ∈ reviewedLabels labels, other.key ≠ label.key := fun other hother heq =>
          hlater (heq ▸ List.mem_map_of_mem (mem_of_mem_reviewedLabels hother))
        rw [if_neg hlater, if_pos rfl]
        constructor
        · rintro (⟨other, hother, heq, -⟩ | ⟨-, hspec⟩)
          · exact absurd heq (hno other hother)
          · exact Or.inl ⟨label, List.mem_cons_self, rfl, Option.some.inj hspec⟩
        · rintro (⟨other, hother, heq, hspec⟩ | ⟨hnot, -⟩)
          · rcases List.mem_cons.mp hother with rfl | hother
            · exact Or.inr ⟨hlater, congrArg some hspec⟩
            · exact absurd heq (hno other hother)
          · exact absurd (Or.inl rfl) hnot
    · have hne : key ≠ label.key := fun heq => hkey heq.symm
      rw [if_neg hkey]
      split_ifs <;> simp [hkey, hne]

lemma LabelMatcherSpec.fromCore_injective : Function.Injective LabelMatcherSpec.fromCore := by
  intro a b h
  cases a <;> cases b <;> simp_all [fromCore]

lemma TupleMatcherSpec.fromCore_injective : Function.Injective TupleMatcherSpec.fromCore := by
  intro a b h
  cases a <;> cases b <;> simp_all [fromCore]

/-- A matcher is spelled out exactly if the map holds it. -/
lemma mem_reviewedLabels {tuple : TupleMatcherV1} : label ∈ reviewedLabels labels ↔
    (KeyspaceSelectorSpec.fromCore ⟨tuple, labels⟩).labels[label.key]? =
      some (.fromCore label.matcher) := by
  rw [KeyspaceSelectorSpec.fromCore, getElem?_foldl_labels]
  constructor
  · exact fun h => Or.inl ⟨label, h, rfl, rfl⟩
  · rintro (⟨other, hother, hkey, hmatcher⟩ | ⟨-, hnone⟩)
    · obtain ⟨key, matcher⟩ := other
      obtain ⟨key', matcher'⟩ := label
      obtain rfl : key = key' := hkey
      obtain rfl := LabelMatcherSpec.fromCore_injective hmatcher
      exact hother
    · simp at hnone

variable {grant grant' : KeyspaceSelectorV1}

/-- Grants that are spelled out alike match alike as far as they are spelled out. -/
lemma reviewedMatches_congr (h : KeyspaceSelectorSpec.fromCore grant = .fromCore grant') :
    reviewedMatches grant secret = reviewedMatches grant' secret := by
  have htuple : grant.tuple = grant'.tuple :=
    TupleMatcherSpec.fromCore_injective (congrArg KeyspaceSelectorSpec.tuple h)
  have hlabels : ∀ label, label ∈ reviewedLabels grant.labels ↔
      label ∈ reviewedLabels grant'.labels := by
    intro label
    rw [@mem_reviewedLabels _ _ grant.tuple, @mem_reviewedLabels _ _ grant'.tuple, h]
  rw [reviewedMatches, reviewedMatches, htuple]
  refine congrArg _ (Bool.eq_iff_iff.mpr ?_)
  rw [labelsAdmit, labelsAdmit, List.all_eq_true, List.all_eq_true]
  simp only [hlabels]

/-- What is not spelled out takes from what is. -/
lemma selectorMatches_eq : selectorMatches grant secret =
    (reviewedMatches grant secret && labelsAdmit (overwrittenLabels grant.labels) secret) := by
  rw [reviewedMatches, Bool.and_assoc, ← labelsAdmit_split]
  rfl

/-- Grants that are spelled out alike match alike exactly if, where what is spelled out admits a
secret, what is hidden does so in both or in neither. -/
lemma selectorMatches_congr_iff (h : KeyspaceSelectorSpec.fromCore grant = .fromCore grant') :
    selectorMatches grant secret = selectorMatches grant' secret ↔
      (reviewedMatches grant secret = true →
        labelsAdmit (overwrittenLabels grant.labels) secret =
          labelsAdmit (overwrittenLabels grant'.labels) secret) := by
  rw [selectorMatches_eq, selectorMatches_eq, ← reviewedMatches_congr h]
  cases reviewedMatches grant secret <;> simp

end Labels

/-! ### Printed selectors -/

lemma labelText_injective : Function.Injective labelText := by
  intro a b h
  have hsplit := splitOnceUnquoted_labelText a
  rw [h, splitOnceUnquoted_labelText] at hsplit
  obtain ⟨hkey, hvalue⟩ := Prod.mk.inj (Option.some.inj hsplit)
  obtain ⟨key, value⟩ := a
  obtain ⟨key', value'⟩ := b
  obtain rfl : key' = key := escapeSegment_injective hkey
  obtain rfl : value' = value := escapeSegment_injective hvalue
  rfl

lemma escapeTuple_injective : Function.Injective escapeTuple := by
  intro a b h
  by_cases ha : a = []
  · by_cases hb : b = []
    · rw [ha, hb]
    · rw [ha] at h
      exact absurd h.symm (escapeTuple_ne_nil hb)
  · by_cases hb : b = []
    · rw [hb] at h
      exact absurd h (escapeTuple_ne_nil ha)
    · exact (escapeTuple_inj ha hb).mp h

/-- No two selectors are printed alike, not even those that cannot be read back. -/
lemma selectorString_injective : Function.Injective selectorString := by
  intro a b h
  have hsplit := splitLabelSection_selectorText a
  rw [show selectorText a = selectorText b from String.ofList_injective h,
    splitLabelSection_selectorText] at hsplit
  obtain ⟨htuple, hlabels⟩ := Prod.mk.inj hsplit
  have hsame : a.labels = b.labels := by
    split_ifs at hlabels with hb ha ha
    · rw [ha, hb]
    · exact (List.map_injective_iff.mpr labelText_injective (Option.some.inj hlabels)).symm
  obtain ⟨tuple, labels⟩ := a
  obtain ⟨tuple', labels'⟩ := b
  obtain rfl : tuple' = tuple := escapeTuple_injective htuple
  obtain rfl : labels = labels' := hsame
  rfl

/-! ### Artifacts -/

section Artifacts

variable {encodings : Encodings} {bytes magic payload : Bytes}

lemma encodeArtifact_eq_ok {α : Type} {codec : Codec α} {value : α} :
    encodeArtifact codec magic value = .ok bytes ↔ ∃ payload, codec.serialize value = .ok payload ∧
      payload.length ≤ maxJoinArtifactBytes ∧ magic ++ payload = bytes := by
  rw [encodeArtifact, bind_eq_ok]
  refine exists_congr fun payload => ?_
  rw [mapError_eq_ok]
  refine and_congr_right fun _ => ?_
  split_ifs with hlong
  · simp [hlong]
  · simp [Nat.le_of_not_lt hlong]

lemma artifactPayload_append (h : payload.length ≤ maxJoinArtifactBytes) :
    artifactPayload magic (magic ++ payload) = .ok payload := by
  have hsmall : ¬ maxJoinArtifactBytes + magic.length < (magic ++ payload).length := by
    rw [List.length_append]
    omega
  have hmagic : magic.isPrefixOf (magic ++ payload) = true :=
    List.isPrefixOf_iff_prefix.mpr (List.prefix_append _ _)
  rw [artifactPayload, if_neg hsmall, if_pos hmagic, List.drop_left]

/-- An artifact that was written reads back. -/
lemma decodeJoinCandidate_of_encode {candidate : JoinCandidateV1}
    (h : encodeJoinCandidate encodings candidate = .ok bytes) :
    decodeJoinCandidate encodings bytes = .ok candidate := by
  obtain ⟨payload, hserialize, hlength, rfl⟩ := encodeArtifact_eq_ok.mp h
  rw [decodeJoinCandidate, artifactPayload_append hlength]
  refine bind_eq_ok.mpr ⟨payload, rfl, bind_eq_ok.mpr ⟨.v1 candidate, ?_, rfl⟩⟩
  rw [encodings.candidates.deserialize_serialize hserialize]
  rfl

lemma decodeJoinApproval_of_encode {approval : JoinApprovalV1}
    (h : encodeJoinApproval encodings approval = .ok bytes) :
    decodeJoinApproval encodings bytes = .ok approval := by
  obtain ⟨payload, hserialize, hlength, rfl⟩ := encodeArtifact_eq_ok.mp h
  rw [decodeJoinApproval, artifactPayload_append hlength]
  refine bind_eq_ok.mpr ⟨payload, rfl, bind_eq_ok.mpr ⟨.v1 approval, ?_, rfl⟩⟩
  rw [encodings.approvals.deserialize_serialize hserialize]
  rfl

lemma base64Encode_injective : Function.Injective encodings.base64Encode := by
  intro a b h
  have hdecode := encodings.base64Decode_base64Encode a
  rw [h, encodings.base64Decode_base64Encode] at hdecode
  exact (Except.ok.inj hdecode).symm

lemma hexEncode_injective : Function.Injective hexEncode := fun _ _ h =>
  Hex.encode_injective (String.ofList_injective h)

lemma JoinPurposeV1.reviewed_injective : Function.Injective JoinPurposeV1.reviewed := by
  intro a b h
  cases a <;> cases b <;> first | rfl | cases h

end Artifacts

/-! ### Join requests -/

section Requests

variable {encodings : Encodings} {candidate : JoinCandidateV1} {spec : ThoraxJoinRequestSpec}
variable {namespaceName vaultUid : String}

/-- What a request mirrors. -/
lemma fromCandidate_eq_ok : ThoraxJoinRequestSpec.fromCandidate encodings candidate = .ok spec ↔
    ∃ artifact, encodeJoinCandidate encodings candidate = .ok artifact ∧
      ∃ entryPoint, candidate.entryPoint.mapM (fun record =>
        (encodings.records.serialize record).mapError CoreError.cord) = .ok entryPoint ∧
        { vaultRef := candidate.deployment.vaultName
          purpose := candidate.purpose.reviewed
          requestId := encodings.base64Encode candidate.requestId
          trustedRoot := hexEncode candidate.trustedRoot.bytes
          userId := hexEncode candidate.userId.hash.bytes
          signingPublicKey := encodings.base64Encode candidate.signingPublicKey
          encryptionPublicKey := encodings.base64Encode candidate.hpkePublicKey
          suggestedSelectors := candidate.suggestedSelectors.map selectorString
          proof := encodings.base64Encode candidate.proof
          entryPoint := entryPoint.map encodings.base64Encode
          artifact := encodings.base64Encode artifact : ThoraxJoinRequestSpec } = spec := by
  rw [ThoraxJoinRequestSpec.fromCandidate, bind_eq_ok]
  refine exists_congr fun artifact => and_congr_right fun _ => ?_
  rw [bind_eq_ok]
  exact exists_congr fun entryPoint => and_congr_right fun _ => by rw [Except.ok.injEq]

/-- A request is read as its own artifact, which mirrors it. -/
lemma candidate_eq_ok : spec.candidate encodings namespaceName vaultUid = .ok candidate ↔
    spec.validate = .ok () ∧ ∃ artifact, encodings.base64Decode spec.artifact = .ok artifact ∧
      decodeJoinCandidate encodings artifact = .ok candidate ∧
        ∃ mirrored, ThoraxJoinRequestSpec.fromCandidate encodings candidate = .ok mirrored ∧
          { mirrored with artifact := spec.artifact } = spec ∧
            candidate.deployment.namespaceName = namespaceName ∧
              candidate.deployment.vaultUid = vaultUid := by
  rw [ThoraxJoinRequestSpec.candidate, bind_eq_ok, Unique.exists_iff]
  refine and_congr_right fun _ => ?_
  rw [bind_eq_ok]
  refine exists_congr fun artifact => ?_
  rw [mapError_eq_ok, bind_eq_ok]
  refine and_congr_right fun _ => ?_
  constructor
  · rintro ⟨read, hread, hrest⟩
    obtain ⟨mirrored, hmirrored, hcompare⟩ := bind_eq_ok.mp hrest
    split_ifs at hcompare with hdiffers
    obtain rfl := Except.ok.inj hcompare
    rw [not_or, not_or, not_not, not_not, not_not] at hdiffers
    exact ⟨mapError_eq_ok.mp hread, mirrored, mapError_eq_ok.mp hmirrored, hdiffers⟩
  · rintro ⟨hread, mirrored, hmirrored, hsame⟩
    refine ⟨candidate, mapError_eq_ok.mpr hread, bind_eq_ok.mpr ⟨mirrored,
      mapError_eq_ok.mpr hmirrored, if_neg ?_⟩⟩
    rw [not_or, not_or, not_not, not_not, not_not]
    exact hsame

/-- A candidate comes back from the request that mirrors it. -/
lemma candidate_of_fromCandidate
    (h : ThoraxJoinRequestSpec.fromCandidate encodings candidate = .ok spec)
    (hvalid : spec.validate = .ok ()) :
    spec.candidate encodings candidate.deployment.namespaceName candidate.deployment.vaultUid =
      .ok candidate := by
  refine candidate_eq_ok.mpr ⟨hvalid, ?_⟩
  obtain ⟨artifact, hartifact, entryPoint, -, hspec⟩ := fromCandidate_eq_ok.mp h
  refine ⟨artifact, ?_, decodeJoinCandidate_of_encode hartifact, spec, h, rfl, rfl, rfl⟩
  rw [← hspec]
  exact encodings.base64Decode_base64Encode artifact

/-- Two candidates say the same about what a request asks for. -/
structure CandidatesAgree (a b : JoinCandidateV1) : Prop where
  purpose : a.purpose = b.purpose
  requestId : a.requestId = b.requestId
  trustedRoot : a.trustedRoot = b.trustedRoot
  userId : a.userId = b.userId
  signingPublicKey : a.signingPublicKey = b.signingPublicKey
  hpkePublicKey : a.hpkePublicKey = b.hpkePublicKey
  suggestedSelectors : a.suggestedSelectors = b.suggestedSelectors

/-- Two requests read the same in review. -/
def ThoraxJoinRequestSpec.SameReview (left right : ThoraxJoinRequestSpec) : Prop :=
  { left with artifact := right.artifact, proof := right.proof } = right

/-- Requests that read the same in review carry candidates that agree. -/
lemma candidatesAgree_of_sameReview {left right : ThoraxJoinRequestSpec}
    {namespaceName' vaultUid' : String} {a b : JoinCandidateV1}
    (ha : left.candidate encodings namespaceName vaultUid = .ok a)
    (hb : right.candidate encodings namespaceName' vaultUid' = .ok b)
    (h : left.SameReview right) : CandidatesAgree a b := by
  obtain ⟨-, _, -, -, mirroredA, hmirroredA, hleft, -⟩ := candidate_eq_ok.mp ha
  obtain ⟨-, _, -, -, mirroredB, hmirroredB, hright, -⟩ := candidate_eq_ok.mp hb
  obtain ⟨_, -, _, -, rfl⟩ := fromCandidate_eq_ok.mp hmirroredA
  obtain ⟨_, -, _, -, rfl⟩ := fromCandidate_eq_ok.mp hmirroredB
  rw [ThoraxJoinRequestSpec.SameReview, ← hleft, ← hright] at h
  obtain ⟨-, hpurpose, hrequest, hroot, huser, hsigning, hhpke, hselectors, -⟩ :=
    ThoraxJoinRequestSpec.mk.inj h
  exact
    { purpose := JoinPurposeV1.reviewed_injective hpurpose
      requestId := base64Encode_injective hrequest
      trustedRoot := HashValue.ext (hexEncode_injective hroot)
      userId := Id.ext (HashValue.ext (hexEncode_injective huser))
      signingPublicKey := base64Encode_injective hsigning
      hpkePublicKey := base64Encode_injective hhpke
      suggestedSelectors := List.map_injective_iff.mpr selectorString_injective hselectors }

end Requests

/-! ### Join approvals -/

section Approvals

variable {encodings : Encodings} {approval : JoinApprovalV1} {spec : ThoraxJoinApprovalSpec}
variable {requestRef : ObjectReference}

/-- What an approval mirrors. -/
lemma fromApproval_eq_ok :
    ThoraxJoinApprovalSpec.fromApproval encodings approval requestRef = .ok spec ↔
    ∃ artifact, encodeJoinApproval encodings approval = .ok artifact ∧
      ∃ approvedGrants, approval.approvedGrants.mapM ReadGrantSpec.fromCore = .ok approvedGrants ∧
      ∃ encryptedBaseline, (encodings.baselines.serialize approval.encryptedBaseline).mapError
        CoreError.cord = .ok encryptedBaseline ∧
        { requestRef := requestRef
          purpose := approval.purpose.reviewed
          requestId := encodings.base64Encode approval.requestId
          trustedRoot := hexEncode approval.trustedRoot.bytes
          userId := hexEncode approval.userId.hash.bytes
          approvedGrants := approvedGrants
          encryptedBaseline := encodings.base64Encode encryptedBaseline
          replacesUserId := approval.replacesUserId.map fun user => hexEncode user.hash.bytes
          approvingAdmin := hexEncode approval.approvingAdmin.hash.bytes
          signature := encodings.base64Encode approval.signature
          artifact := encodings.base64Encode artifact : ThoraxJoinApprovalSpec } = spec := by
  rw [ThoraxJoinApprovalSpec.fromApproval, bind_eq_ok]
  refine exists_congr fun artifact => and_congr_right fun _ => ?_
  rw [bind_eq_ok]
  refine exists_congr fun approvedGrants => and_congr_right fun _ => ?_
  rw [bind_eq_ok]
  exact exists_congr fun encryptedBaseline => and_congr_right fun _ => by rw [Except.ok.injEq]

/-- An approval is read as its own artifact, which mirrors it. -/
lemma approval_eq_ok : spec.approval encodings = .ok approval ↔
    spec.validate = .ok () ∧ ∃ artifact, encodings.base64Decode spec.artifact = .ok artifact ∧
      decodeJoinApproval encodings artifact = .ok approval ∧
        ThoraxJoinApprovalSpec.fromApproval encodings approval spec.requestRef = .ok spec := by
  rw [ThoraxJoinApprovalSpec.approval, bind_eq_ok, Unique.exists_iff]
  refine and_congr_right fun _ => ?_
  rw [bind_eq_ok]
  refine exists_congr fun artifact => ?_
  rw [mapError_eq_ok, bind_eq_ok]
  refine and_congr_right fun _ => ?_
  constructor
  · rintro ⟨read, hread, hrest⟩
    obtain ⟨mirrored, hmirrored, hcompare⟩ := bind_eq_ok.mp hrest
    split_ifs at hcompare with hdiffers
    obtain rfl := Except.ok.inj hcompare
    obtain rfl := not_not.mp hdiffers
    exact ⟨mapError_eq_ok.mp hread, mapError_eq_ok.mp hmirrored⟩
  · rintro ⟨hread, hmirrored⟩
    exact ⟨approval, mapError_eq_ok.mpr hread, bind_eq_ok.mpr ⟨spec,
      mapError_eq_ok.mpr hmirrored, if_neg (not_not.mpr rfl)⟩⟩

/-- An approval comes back from the resource that mirrors it. -/
lemma approval_of_fromApproval
    (h : ThoraxJoinApprovalSpec.fromApproval encodings approval requestRef = .ok spec)
    (hvalid : spec.validate = .ok ()) : spec.approval encodings = .ok approval := by
  obtain ⟨artifact, hartifact, _, -, _, -, hspec⟩ := fromApproval_eq_ok.mp h
  have href : spec.requestRef = requestRef := by rw [← hspec]
  refine approval_eq_ok.mpr ⟨hvalid, artifact, ?_, decodeJoinApproval_of_encode hartifact, href ▸ h⟩
  rw [← hspec]
  exact encodings.base64Decode_base64Encode artifact

/-- Two approvals say the same about whom they admit and to what. -/
structure ApprovalsAgree (a b : JoinApprovalV1) : Prop where
  purpose : a.purpose = b.purpose
  userId : a.userId = b.userId
  replacesUserId : a.replacesUserId = b.replacesUserId
  grants : List.Forall₂ (fun grant grant' => ∀ secret,
    grantMatches grant secret = grantMatches grant' secret) a.approvedGrants b.approvedGrants

/-- Two approvals read the same in review. -/
def ThoraxJoinApprovalSpec.SameReview (left right : ThoraxJoinApprovalSpec) : Prop :=
  { left with artifact := right.artifact, signature := right.signature } = right

/-- Where what is spelled out of two grants admits a secret, what is hidden does so in both or in
neither. -/
def HiddenAlike (permission permission' : GrantPermissionV1) : Prop :=
  ∀ grant grant', permission = .readKeyspace grant → permission' = .readKeyspace grant' →
    ∀ secret, reviewedMatches grant secret = true →
      labelsAdmit (overwrittenLabels grant.labels) secret =
        labelsAdmit (overwrittenLabels grant'.labels) secret

/-- Grants that are spelled out alike match alike exactly if what is hidden of them does. -/
lemma grantMatches_congr_iff {permission permission' : GrantPermissionV1} {grantSpec : ReadGrantSpec}
    (h : ReadGrantSpec.fromCore permission = .ok grantSpec)
    (h' : ReadGrantSpec.fromCore permission' = .ok grantSpec) :
    (∀ secret, grantMatches permission secret = grantMatches permission' secret) ↔
      HiddenAlike permission permission' := by
  cases permission with
  | readKeyspace grant =>
    cases permission' with
    | readKeyspace grant' =>
      have hsame : KeyspaceSelectorSpec.fromCore grant = .fromCore grant' := by
        rw [ReadGrantSpec.fromCore, Except.ok.injEq] at h h'
        exact congrArg ReadGrantSpec.read (h.trans h'.symm)
      constructor
      · rintro hmatch _ _ ⟨⟩ ⟨⟩ secret
        exact (selectorMatches_congr_iff hsame).mp (hmatch secret)
      · intro hhidden secret
        exact (selectorMatches_congr_iff hsame).mpr (hhidden grant grant' rfl rfl secret)
    | _ => cases h'
  | _ => cases h

lemma forall₂_grantMatches_iff {grants grants' : List GrantPermissionV1}
    {specs : List ReadGrantSpec} (h : grants.mapM ReadGrantSpec.fromCore = .ok specs)
    (h' : grants'.mapM ReadGrantSpec.fromCore = .ok specs) :
    List.Forall₂ (fun grant grant' => ∀ secret,
      grantMatches grant secret = grantMatches grant' secret) grants grants' ↔
        List.Forall₂ HiddenAlike grants grants' := by
  rw [mapM_eq_ok] at h h'
  induction h generalizing grants' with
  | nil =>
    cases h'
    simp
  | cons hgrant _ ih =>
    cases h' with
    | cons hgrant' hrest' =>
      rw [List.forall₂_cons, List.forall₂_cons, grantMatches_congr_iff hgrant hgrant', ih hrest']

/-- Approvals that read the same in review agree exactly if what is hidden of their grants does. -/
lemma approvalsAgree_iff {left right : ThoraxJoinApprovalSpec} {a b : JoinApprovalV1}
    (ha : left.approval encodings = .ok a) (hb : right.approval encodings = .ok b)
    (h : left.SameReview right) :
    ApprovalsAgree a b ↔ List.Forall₂ HiddenAlike a.approvedGrants b.approvedGrants := by
  obtain ⟨-, _, -, -, hleft⟩ := approval_eq_ok.mp ha
  obtain ⟨-, _, -, -, hright⟩ := approval_eq_ok.mp hb
  obtain ⟨_, -, grants, hgrants, _, -, hleft⟩ := fromApproval_eq_ok.mp hleft
  obtain ⟨_, -, grants', hgrants', _, -, hright⟩ := fromApproval_eq_ok.mp hright
  rw [ThoraxJoinApprovalSpec.SameReview, ← hleft, ← hright] at h
  obtain ⟨-, hpurpose, -, -, huser, rfl, -, hreplaces, -⟩ := ThoraxJoinApprovalSpec.mk.inj h
  rw [← forall₂_grantMatches_iff hgrants hgrants']
  refine ⟨ApprovalsAgree.grants, fun hmatch => ?_⟩
  exact
    { purpose := JoinPurposeV1.reviewed_injective hpurpose
      userId := Id.ext (HashValue.ext (hexEncode_injective huser))
      replacesUserId := Option.map_injective (fun _ _ heq =>
        Id.ext (HashValue.ext (hexEncode_injective heq))) hreplaces
      grants := hmatch }

end Approvals

/-! ### What review promises -/

section Promise

variable (encodings : Encodings) (left right : ThoraxJoinApprovalSpec)

/-- What a resource spells out stands for what it carries, for two approvals in particular. -/
structure ReviewFaithful : Prop where
  requests : ∀ candidate spec,
    ThoraxJoinRequestSpec.fromCandidate encodings candidate = .ok spec → spec.validate = .ok () →
      spec.candidate encodings candidate.deployment.namespaceName candidate.deployment.vaultUid =
        .ok candidate
  approvals : ∀ approval requestRef spec,
    ThoraxJoinApprovalSpec.fromApproval encodings approval requestRef = .ok spec →
      spec.validate = .ok () → spec.approval encodings = .ok approval
  candidatesAgree : ∀ (request other : ThoraxJoinRequestSpec)
    (namespaceName vaultUid namespaceName' vaultUid' : String) a b,
      request.candidate encodings namespaceName vaultUid = .ok a →
        other.candidate encodings namespaceName' vaultUid' = .ok b →
          request.SameReview other → CandidatesAgree a b
  approvalsAgree : ∀ a b, left.approval encodings = .ok a → right.approval encodings = .ok b →
    left.SameReview right → ApprovalsAgree a b

/-- If two approvals read the same in review, what is hidden of their grants does as much in the one
as in the other. -/
def HiddenFaithful : Prop :=
  ∀ a b, left.approval encodings = .ok a → right.approval encodings = .ok b →
    left.SameReview right → List.Forall₂ HiddenAlike a.approvedGrants b.approvedGrants

end Promise

/-- Review shows all of what is signed but the matchers that a later one for the same key hides. -/
theorem reviewFaithful_iff (encodings : Encodings) (left right : ThoraxJoinApprovalSpec) :
    ReviewFaithful encodings left right ↔ HiddenFaithful encodings left right := by
  constructor
  · intro h a b ha hb hsame
    exact (approvalsAgree_iff ha hb hsame).mp (h.approvalsAgree a b ha hb hsame)
  · intro h
    exact
      { requests := fun _ _ => candidate_of_fromCandidate
        approvals := fun _ _ _ => approval_of_fromApproval
        candidatesAgree := fun _ _ _ _ _ _ _ _ => candidatesAgree_of_sameReview
        approvalsAgree := fun a b ha hb hsame =>
          (approvalsAgree_iff ha hb hsame).mpr (h a b ha hb hsame) }

/-- Nothing is hidden of grants in which no key is repeated. -/
lemma hiddenAlike_of_nodup {permission permission' : GrantPermissionV1}
    (h : ∀ grant, permission = .readKeyspace grant → (grant.labels.map (·.key)).Nodup)
    (h' : ∀ grant, permission' = .readKeyspace grant → (grant.labels.map (·.key)).Nodup) :
    HiddenAlike permission permission' := by
  intro grant grant' hgrant hgrant' secret _
  rw [overwrittenLabels_of_nodup (h grant hgrant), overwrittenLabels_of_nodup (h' grant' hgrant')]

/-! ### A hidden matcher -/

section Hidden

/-- An approval to read some secrets. -/
def testApproval (grant : KeyspaceSelectorV1) : JoinApprovalV1 where
  purpose := .enroll
  requestId := [1]
  trustedRoot := ⟨[2]⟩
  deployment := ⟨"db", "payments", "uid"⟩
  userId := ⟨⟨[4]⟩⟩
  approvedGrants := [.readKeyspace grant]
  encryptedBaseline := ⟨[5], [6]⟩
  replacesUserId := none
  approvingAdmin := ⟨⟨[7]⟩⟩
  approvingSigningPublicKey := [8]
  signature := [9]

/-- Whatever has the label `env`. -/
def openGrant : KeyspaceSelectorV1 := ⟨.any, [⟨"env", .any⟩]⟩

/-- Only `env=prod`, and then whatever has the label. -/
def narrowGrant : KeyspaceSelectorV1 := ⟨.any, [⟨"env", .equals "prod"⟩, ⟨"env", .any⟩]⟩

/-- A serializer that knows two values. -/
def testCodec {α : Type} [DecidableEq α] (first second : α) : Codec α where
  serialize value :=
    if value = first then .ok [0]
    else if value = second then .ok [1]
    else .error (.malformed "unknown")
  deserialize bytes :=
    if bytes = [0] then .ok first
    else if bytes = [1] then .ok second
    else .error (.malformed "unknown")
  deserialize_serialize := by
    intro value bytes h
    split_ifs at h with hfirst hsecond
    · rw [← Except.ok.inj h, hfirst, if_pos rfl]
    · rw [← Except.ok.inj h, hsecond, if_neg (by decide), if_pos rfl]

/-- A serializer that knows no value. -/
def noCodec {α : Type} : Codec α where
  serialize _ := .error (.malformed "unknown")
  deserialize _ := .error (.malformed "unknown")
  deserialize_serialize := by
    intro _ _ h
    cases h

/-- Encodings that write bytes in hexadecimal digits. -/
def testEncodings : Encodings where
  base64Encode := hexEncode
  base64Decode text :=
    match text.toList.mapM Hex.value? with
    | some values => .ok (Hex.pairs values)
    | none => .error "invalid digit"
  base64Decode_base64Encode := by
    intro bytes
    obtain ⟨values, hvalues, hpairs⟩ := Hex.values_encode bytes
    rw [hexEncode, String.toList_ofList, hvalues, ← hpairs]
  candidates := noCodec
  approvals := testCodec (.v1 (testApproval openGrant)) (.v1 (testApproval narrowGrant))
  records := noCodec
  baselines := testCodec ⟨[5], [6]⟩ ⟨[], []⟩

/-- The approval as it is reviewed. -/
def testReview (grant : KeyspaceSelectorV1) (payload : Bytes) : ThoraxJoinApprovalSpec where
  requestRef := ⟨"request", "uid"⟩
  purpose := .enroll
  requestId := hexEncode [1]
  trustedRoot := hexEncode [2]
  userId := hexEncode [4]
  approvedGrants := [⟨.fromCore grant⟩]
  encryptedBaseline := hexEncode [0]
  replacesUserId := none
  approvingAdmin := hexEncode [7]
  signature := hexEncode [9]
  artifact := hexEncode (joinApprovalMagic ++ payload)

lemma fromApproval_openGrant : ThoraxJoinApprovalSpec.fromApproval testEncodings
    (testApproval openGrant) ⟨"request", "uid"⟩ = .ok (testReview openGrant [0]) := rfl

lemma fromApproval_narrowGrant : ThoraxJoinApprovalSpec.fromApproval testEncodings
    (testApproval narrowGrant) ⟨"request", "uid"⟩ = .ok (testReview narrowGrant [1]) := rfl

/-- Both approvals show that whatever has the label may be read, and one of them admits only
`env=prod`. -/
theorem not_reviewFaithful_hidden : ¬ ReviewFaithful testEncodings (testReview openGrant [0])
    (testReview narrowGrant [1]) := by
  intro h
  have hopen := h.approvals _ _ _ fromApproval_openGrant (by decide +kernel)
  have hnarrow := h.approvals _ _ _ fromApproval_narrowGrant (by decide +kernel)
  have hsame : (testReview openGrant [0]).SameReview (testReview narrowGrant [1]) := by
    have hgrants : KeyspaceSelectorSpec.fromCore openGrant = .fromCore narrowGrant := rfl
    rw [ThoraxJoinApprovalSpec.SameReview, testReview, testReview, hgrants]
  have hgrants := (h.approvalsAgree _ _ hopen hnarrow hsame).grants
  have hmatch := (List.forall₂_cons.mp hgrants).1 ⟨["db"], [⟨"env", "dev"⟩]⟩
  exact absurd hmatch (by decide)

end Hidden

end Thorax.Kubernetes.Join
