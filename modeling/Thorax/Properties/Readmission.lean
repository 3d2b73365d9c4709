import Thorax.Ops.Principals
import Thorax.Properties.SecretWrites
import Thorax.Properties.Soundness

/-!
# Users that come back

A user that a vault has lost is added again by its record and an entry point of its own, at one
counter. It is back if its record is in force there and nothing contests it, if it is vouched for,
and if whatever is remembered of either key is reached again. An addition gets that far exactly if
the vault with both records validates to it.
-/

namespace Thorax

open Collections Durable
open Std (ExtTreeMap ExtTreeSet)

/-! ### Being back -/

/-- A user is served by its record, and no rollback is in the way. The root is served without one. -/
structure EffectiveState.TakenBack (effective : EffectiveState) (member : UserRecordV1) : Prop where
  active : effective.users[member.id]? = some member
  recorded : effective.rootUserId ≠ some member.id
  cleared : ¬ effective.RollbackAt (.user member.id) ∧ ¬ effective.RollbackAt (.entryPoint member.id)

section Resolution

variable (crypto : CryptoProvider) (ratchet : Ratchet) (root : SelectedRoot)
variable (records : List VerifiedRecord)

/-- Some record that counts at a key reaches what is remembered there. -/
def ReachesRemembered (key : RecordKey) : Prop :=
  ∀ remembered, ratchet.watermarks[key]? = some remembered → 0 < remembered →
    ∃ top, Counts crypto root records key top ∧ remembered ≤ top.counter

/-- The record of a user is in force and not contested, the user has signed an entry point, and what is
remembered of both is reached. -/
structure ComesBack (member : UserRecordV1) : Prop where
  stands : ∃ record, InForce crypto ratchet root records record ∧ record.body = .user member ∧
    ¬ Contested crypto ratchet root records record
  vouched : member.id ∈ entryPointSigners records
  reached : ReachesRemembered crypto ratchet root records (.user member.id) ∧
    ReachesRemembered crypto ratchet root records (.entryPoint member.id)

/-- The signer of the record of a user holds the authority to introduce it, where counters are
admitted as well as once the regressed keys are inert; nothing contests the record, and the user has
signed an entry point at the same counter. -/
structure Introduced (member : UserRecordV1) : Prop where
  record : ∃ record, AuthorizedIn crypto root records record ∧
    InForce crypto ratchet root records record ∧ record.body = .user member ∧
      ¬ Contested crypto ratchet root records record
  entryPoint : ∃ record ∈ records, (∃ entryPoint, record.body = .entryPoint entryPoint) ∧
    record.signer = member.id ∧ record.counter = member.counter

variable {crypto ratchet root records} {member : UserRecordV1}

lemma reachesRemembered_iff {key : RecordKey} : ReachesRemembered crypto ratchet root records key ↔
    key ∉ rollbackKeys crypto ratchet root records := by
  cases hremembered : ratchet.watermarks[key]? with
  | none => simp [ReachesRemembered, hremembered, not_mem_rollbackKeys_iff]
  | some remembered =>
    simp only [ReachesRemembered, hremembered, Option.some.injEq, forall_eq']
    rcases Nat.eq_zero_or_pos remembered with rfl | hpos
    · simp [not_mem_rollbackKeys_iff, hremembered]
    · rw [not_mem_rollbackKeys_of_remembered hremembered hpos]
      exact ⟨fun h => h hpos, fun h _ => h⟩

/-- What resolves has taken a user back exactly if the user comes back there. -/
lemma takenBack_resolveRecords : (resolveRecords crypto ratchet root records).TakenBack member ↔
    ComesBack crypto ratchet root records member := by
  constructor
  · rintro ⟨hactive, hrecorded, huser, hentryPoint⟩
    rw [rollbackAt_resolveRecords] at huser hentryPoint
    have hne : member.id ≠ root.root.id := fun heq => hrecorded (congrArg some heq.symm)
    obtain ⟨⟨winner, hwinner, hbody⟩, hattested⟩ := winner_of_user hactive hne
    obtain ⟨entry, hentry, -, hentryBody, hsigner⟩ := mem_entryPointUsers.mp hattested
    obtain ⟨hforce, -, huncontested⟩ := not_contested_of_winner huser hwinner
    exact ⟨⟨winner, hforce, hbody, huncontested⟩,
      mem_entryPointSigners.mpr ⟨entry, hentry, hsigner, hentryBody⟩,
      reachesRemembered_iff.mpr huser, reachesRemembered_iff.mpr hentryPoint⟩
  · rintro ⟨⟨record, hforce, hbody, huncontested⟩, hvouched, huser, hentryPoint⟩
    rw [reachesRemembered_iff] at huser hentryPoint
    have hkey : record.key = .user member.id := by rw [VerifiedRecord.key, hbody]; rfl
    have hne : member.id ≠ root.root.id := by
      intro heq
      exact (View.key_ne_of_competes (inForce_iff.mp hforce).2).2 (hkey.trans (congrArg _ heq))
    obtain ⟨winner, hwinner, hwinnerBody, -⟩ :=
      winner_of_not_contested (hkey ▸ huser) hforce huncontested
    obtain ⟨entry, hentry, hsigner, entryPoint, hentryBody⟩ := mem_entryPointSigners.mp hvouched
    have hattested : member.id ∈ entryPointUsers records (rollbackKeys crypto ratchet root records) := by
      refine mem_entryPointUsers.mpr ⟨entry, hentry, ?_, ⟨entryPoint, hentryBody⟩, hsigner⟩
      rw [VerifiedRecord.key, hentryBody]
      exact hsigner ▸ hentryPoint
    refine ⟨?_, fun heq => hne (Option.some.inj heq).symm, ?_, ?_⟩
    · refine (getElem?_effective_users crypto root records _ _ member.id).trans ?_
      rw [if_neg hne, ← hkey]
      refine Option.bind_eq_some_iff.mpr ⟨winner, hwinner, ?_⟩
      rw [hwinnerBody, hbody]
      exact Option.filter_eq_some_iff.mpr ⟨rfl, ExtTreeSet.contains_iff_mem.mpr hattested⟩
    · rwa [rollbackAt_resolveRecords]
    · rwa [rollbackAt_resolveRecords]

/-- Whoever is introduced at a counter above what is remembered comes back. -/
lemma Introduced.comesBack (h : Introduced crypto ratchet root records member)
    (habove : ∀ (key : RecordKey) remembered, ratchet.watermarks[key]? = some remembered →
      remembered ≤ member.counter) :
    ComesBack crypto ratchet root records member := by
  obtain ⟨⟨record, hauthorized, hforce, hbody, huncontested⟩, entry, hentry, ⟨entryPoint, hentryBody⟩,
    hsigner, hcounter⟩ := h
  have hvouched : member.id ∈ entryPointSigners records :=
    mem_entryPointSigners.mpr ⟨entry, hentry, hsigner, entryPoint, hentryBody⟩
  refine ⟨⟨record, hforce, hbody, huncontested⟩, hvouched, fun remembered hremembered _ => ?_,
    fun remembered hremembered _ => ?_⟩
  · refine ⟨record, counts_iff.mpr ⟨hforce.1, by rw [VerifiedRecord.key, hbody]; rfl,
      by rw [hbody]; rfl, hauthorized, fun user huser => ?_⟩, ?_⟩
    · obtain rfl := RecordBodyV1.user.inj (hbody.symm.trans huser)
      exact hvouched
    · refine (habove _ remembered hremembered).trans_eq ?_
      simp [VerifiedRecord.counter, hbody, RecordBodyV1.lwwCounter]
  · refine ⟨entry, counts_iff.mpr ⟨hentry, ?_, by rw [hentryBody]; rfl, ?_, fun user huser => ?_⟩, ?_⟩
    · rw [VerifiedRecord.key, hentryBody, ← hsigner]
      rfl
    · simp [AuthorizedIn, holdsAuthority, hentryBody]
    · rw [hentryBody] at huser
      cases huser
    · exact (habove _ remembered hremembered).trans_eq hcounter.symm

end Resolution

/-! ### Additions -/

section Additions

/-- What a user is introduced as at a counter. -/
def RecordSigner.member (user : RecordSigner) (counter : ℕ) : UserRecordV1 :=
  ⟨user.userId, user.signingPublicKey, user.hpkePublicKey, counter⟩

/-- A vault is without issues, and a user comes back in it. -/
structure BringsBack (crypto : CryptoProvider) (ratchet : Ratchet) (vault : VaultStore)
    (member : UserRecordV1) : Prop where
  clean : (validateVault crypto vault ratchet).issues = []
  back : ∀ root records, resolvedRecords crypto vault ratchet = some (root, records) →
    ComesBack crypto ratchet root records member

/-- Nothing is wrong with a vault, and a user is introduced in it. -/
structure BringsIn (crypto : CryptoProvider) (ratchet : Ratchet) (vault : VaultStore)
    (member : UserRecordV1) : Prop where
  clean : (validateVault crypto vault ratchet).issues = []
  introduced : ∀ root records, resolvedRecords crypto vault ratchet = some (root, records) →
    Introduced crypto ratchet root records member

section Vaults

variable {crypto : CryptoProvider} {ratchet : Ratchet} {vault : VaultStore} {member : UserRecordV1}

lemma bringsBack_iff : BringsBack crypto ratchet vault member ↔
    (validateVault crypto vault ratchet).issues = [] ∧
      (validateVault crypto vault ratchet).effective.TakenBack member := by
  cases hresolved : resolvedRecords crypto vault ratchet with
  | none =>
    have hissues := (validateVault_of_unresolved hresolved).2.2
    exact iff_of_false (fun h => hissues h.clean) fun h => hissues h.1
  | some resolved =>
    obtain ⟨root, records⟩ := resolved
    rw [(validateVault_of_resolved hresolved).1, takenBack_resolveRecords]
    constructor
    · exact fun h => ⟨h.clean, h.back root records hresolved⟩
    · rintro ⟨hclean, hback⟩
      refine ⟨hclean, fun root' records' hresolved' => ?_⟩
      obtain ⟨rfl, rfl⟩ := Prod.mk.inj (Option.some.inj (hresolved.symm.trans hresolved'))
      exact hback

lemma BringsIn.bringsBack (h : BringsIn crypto ratchet vault member)
    (habove : ∀ (key : RecordKey) remembered, ratchet.watermarks[key]? = some remembered →
      remembered ≤ member.counter) : BringsBack crypto ratchet vault member :=
  ⟨h.clean, fun root records hresolved => (h.introduced root records hresolved).comesBack habove⟩

end Vaults

section Sessions

variable {provider : StoreProvider} {disk : Disk} {session start : LockedSession}
variable {envelopes : Set VaultRecordV1} {contended : Bool} {transactionId : Bytes}
variable {signer user : RecordSigner}

/-- Genuine signers introduce a user by its record and its entry point, at the next counter. -/
lemma exists_addition {crypto : CryptoProvider} {report : ValidationReport} {root : UserId}
    (hsigner : signer.Genuine crypto) (huser : user.Genuine crypto)
    (hroot : report.effective.rootUserId = some root) :
    ∃ member entryPoint, (addUserChange crypto signer user).build report =
        .ok ([member, entryPoint], user.userId) ∧
      member.body = .known (.user (user.member (nextCounter report.effective))) ∧
      entryPoint.body = .known
        (.entryPoint ⟨root, user.hpkePublicKey, nextCounter report.effective⟩) := by
  obtain ⟨member, hmember⟩ := Hazmat.exists_signedPayload hsigner
    (.user (user.member (nextCounter report.effective)))
  obtain ⟨entryPoint, hentryPoint⟩ := Hazmat.exists_signedPayload huser
    (.entryPoint ⟨root, user.hpkePublicKey, nextCounter report.effective⟩)
  refine ⟨member, entryPoint, ?_, (Hazmat.body_of_signedPayload hmember).1,
    (Hazmat.body_of_signedPayload hentryPoint).1⟩
  rw [RecordSigner.member, huser.consistent] at hmember
  simp [addUserChange, Hazmat.userRecord, Hazmat.entryPointRecord, hmember, hentryPoint, hroot, bind,
    Except.bind, Except.mapError]

lemma addUser_of_genuine (hsigner : signer.Genuine provider.toCryptoProvider)
    (huser : user.Genuine provider.toCryptoProvider) {output : UserId} {state : Disk × LockedSession} :
    (LockedSession.addUser provider contended transactionId signer user).Ends (disk, session) output
        state ↔
      (commit provider contended transactionId
        (addUserChange provider.toCryptoProvider signer user).toChange).Ends (disk, session) output
          state := by
  have hconsistent : ∀ {signer : RecordSigner}, signer.Genuine provider.toCryptoProvider →
      Hazmat.ensureIdentityConsistent provider.toCryptoProvider signer = .ok signer.userId := by
    intro signer hgenuine
    rw [Hazmat.ensureIdentityConsistent, if_pos hgenuine.consistent.symm, ← hgenuine.consistent]
  simp only [LockedSession.addUser, onDisk, Program.ends_bind, Program.ends_zoom, ends_check,
    hconsistent hsigner, hconsistent huser, mapError_ok, Except.ok.injEq]
  constructor
  · rintro ⟨_, _, ⟨_, ⟨rfl, rfl⟩, rfl⟩, _, _, ⟨_, ⟨rfl, rfl⟩, rfl⟩, hends⟩
    exact hends
  · exact fun hends => ⟨_, _, ⟨_, ⟨rfl, rfl⟩, rfl⟩, _, _, ⟨_, ⟨rfl, rfl⟩, rfl⟩, hends⟩

/-- A vault that has grown without issues is projected where the change is made and passes its check. -/
lemma exists_project_grown {α : Type} {change : Change α} {grown : VaultStore} {output : α}
    {vaultBytes : Bytes} (hclean : start.report.issues = [])
    (hupdate : change.update start.vault start.report = .ok (grown, output))
    (hreport : validateVaultWithVerified provider.toCryptoProvider grown start.remembered
      start.report.effective.verifiedRecordHashes =
        validateVault provider.toCryptoProvider grown start.remembered)
    (hissues : (validateVault provider.toCryptoProvider grown start.remembered).issues = [])
    (hcheck : change.check output (validateVault provider.toCryptoProvider grown start.remembered) =
      .ok ())
    (hbytes : encodeVault provider grown = .ok vaultBytes) :
    ∃ next, project provider start change = .ok next ∧ next.vault = grown ∧
      next.report = validateVault provider.toCryptoProvider grown start.remembered :=
  ⟨{ vault := grown
     vaultBytes := vaultBytes
     ratchet := start.remembered.applyUpdate
       (validateVault provider.toCryptoProvider grown start.remembered).ratchetUpdate
     report := validateVault provider.toCryptoProvider grown start.remembered
     output := output },
    project_eq_ok.mpr ⟨hclean, _, _, hupdate, rfl, rfl, hreport.symm, hissues, hcheck, hbytes, rfl⟩,
    rfl, rfl⟩

/-- A user who is added on a disk that nothing hinders is taken back exactly if the ratchet file is kept
as it is encoded and the vault with the record and the entry point brings the user back. -/
lemma takenBack_addUser_iff (hstarts : StartsFrom provider disk session start)
    (h : start.Settled provider envelopes) (hclean : start.report.issues = [])
    (hsigner : signer.Genuine provider.toCryptoProvider)
    (huser : user.Genuine provider.toCryptoProvider)
    (hadmits : start.Admits provider disk contended transactionId
      (addUserChange provider.toCryptoProvider signer user).toChange) :
    ∃ grown, (addUserChange provider.toCryptoProvider signer user).toChange.update start.vault
        start.report = .ok (grown, user.userId) ∧
      ((∃ output state, (LockedSession.addUser provider contended transactionId signer user).Ends
          (disk, session) output state ∧
            state.2.report.effective.TakenBack (user.member (nextCounter start.report.effective))) ↔
        (start.persistence = .live → disk.KeepsRatchet provider start.ratchet.trustedRoot) ∧
          BringsBack provider.toCryptoProvider start.remembered grown
            (user.member (nextCounter start.report.effective))) := by
  obtain ⟨root, records, -, hbefore, -⟩ := h.resolved hclean
  have hroot : start.report.effective.rootUserId = some root.root.id :=
    congrArg EffectiveState.rootUserId hbefore
  obtain ⟨member, entryPoint, hbuild, hmember, hentryPoint⟩ := exists_addition hsigner huser hroot
  have hupdate : (addUserChange provider.toCryptoProvider signer user).toChange.update start.vault
      start.report =
        .ok ((start.vault.appendRecord member).appendRecord entryPoint, user.userId) := by
    simp only [BatchChange.toChange, hbuild, bind, Except.bind, List.foldl_cons, List.foldl_nil]
  obtain ⟨hcf, vaultBytes, hbytes⟩ := hadmits.grown _ _ hupdate
  have hreport := h.validate_grown hcf (fun other hother => VaultStore.mem_appendRecord.mpr
    (Or.inl (VaultStore.mem_appendRecord.mpr (Or.inl hother)))) start.remembered
  refine ⟨_, hupdate, ?_⟩
  rw [bringsBack_iff]
  constructor
  · rintro ⟨output, state, hends, htaken⟩
    obtain ⟨hresult, rfl⟩ := (addUser_of_genuine hsigner huser).mp hends
    obtain ⟨start', next, hstarts', hproject, -, -, hafter⟩ := startsFrom_of_commit hresult
    obtain rfl := hstarts.unique hstarts'
    obtain ⟨-, vault, made, hmade, -, -, hvalidated, hissues, -⟩ := project_eq_ok.mp hproject
    obtain ⟨rfl, -⟩ := Prod.mk.inj (Except.ok.inj (hupdate.symm.trans hmade))
    rw [hreport] at hvalidated
    refine ⟨fun hlive => ?_, hvalidated ▸ hissues, ?_⟩
    · cases hadmits.unhindered next hproject with
      | prepared hprepared => simp [hlive] at hprepared
      | live _ _ hdisk _ => exact keepsRatchet_of_commit hstarts hlive hdisk hresult
    · rwa [← hvalidated, ← hafter]
  · rintro ⟨hkept, hissues, htaken⟩
    have hactive := htaken.active
    have hcheck : (addUserChange provider.toCryptoProvider signer user).toChange.check user.userId
        (validateVault provider.toCryptoProvider
          ((start.vault.appendRecord member).appendRecord entryPoint) start.remembered) = .ok () := by
      rw [RecordSigner.member] at hactive
      simp [BatchChange.toChange, addUserChange, effectiveIf, hactive]
    obtain ⟨next, hproject, hvault, hafter⟩ :=
      exists_project_grown hclean hupdate hreport hissues hcheck hbytes
    have hunhindered := hadmits.unhindered next hproject
    have hcandidate : start.persistence = .live →
        trustedRootCandidate provider.toCryptoProvider next.vault = .ok start.ratchet.trustedRoot := by
      intro hlive
      rw [hvault, trustedRootCandidate_appendRecord hentryPoint (by simp),
        trustedRootCandidate_appendRecord hmember (by simp)]
      cases hunhindered with
      | prepared hprepared => simp [hlive] at hprepared
      | live _ _ hdisk _ => exact hdisk.root
    have hresult := (hunhindered.meets_commit hstarts hkept hproject hcandidate).result
    refine ⟨_, _, (addUser_of_genuine hsigner huser).mpr ⟨hresult.1, rfl⟩, ?_⟩
    rw [hresult.2.report, hafter]
    exact htaken

end Sessions

end Additions

end Thorax
