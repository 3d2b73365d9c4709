import Thorax.Properties.ReleaseEpochs
import Thorax.Properties.UpdateState
import Thorax.Update.SelfUpdate

/-!
# What an update installs

Whatever the network answers, and wherever updates are cut off, the installed program is only
replaced by a file that a manifest signed under the compiled-in key names for this platform, of a
release that is newer than the program that replaces it and that follows every release seen before.
-/

namespace Thorax.Update

open Durable

/-! ### Releases -/

section Released

variable (provider : ReleaseProvider) (platform : Platform)

/-- A file is that of a release: a signed and complete manifest of the release names an artifact for
this platform, and the file is what the bytes with that length and digest hold. -/
structure ReleasedBy (binary : Bytes) (release : AcceptedReleaseV1)
    (signed : SignedReleaseManifest) (manifestBytes artifactBytes : Bytes)
    (artifact : ReleaseArtifactV1) (now : ℤ) : Prop where
  encoded : provider.deserializeSigned manifestBytes = .ok signed
  signature : verifyManifestSignature provider signed provider.updatePubkey = .ok ()
  complete : validateCompleteManifest provider platform now signed.body.toV1 = .ok ()
  identifies : release = ⟨signed.body.toV1.version, signed.body.toV1.releaseEpoch,
    some (provider.sha256 manifestBytes)⟩
  names : cliArtifactForCurrentPlatform platform signed.body.toV1 = .ok artifact
  size : artifactBytes.length = artifact.size
  digest : provider.sha256 artifactBytes = artifact.sha256
  holds : extractInstallableArtifact provider artifact artifactBytes = .ok binary

def Released (binary : Bytes) (release : AcceptedReleaseV1) : Prop :=
  ∃ signed manifestBytes artifactBytes artifact now,
    ReleasedBy provider platform binary release signed manifestBytes artifactBytes artifact now

/-- A release follows whatever a directory remembers as the newest one seen. -/
def FollowsSeen (dir : StateDir) (release : AcceptedReleaseV1) : Prop :=
  ∀ state seen, readStateFile provider.stateCodec dir = .ok (some state) →
    state.highestSeen = some seen → seen.Follows release

/-- The state moves forward, and the program is the one before or that of a newer release that
follows what was seen. -/
structure Progresses (newer : String → Prop) (before after : Machine) : Prop where
  state : MovesForward provider.stateCodec before.state after.state
  binary : after.binary = before.binary ∨ ∃ release, Released provider platform after.binary release ∧
    FollowsSeen provider before.state release ∧ newer release.version

end Released

section Steps

variable {provider : ReleaseProvider} {platform : Platform} {network : Network}
  {newer : String → Prop} {machine before after last : Machine} {dir dir' : StateDir}
  {release : AcceptedReleaseV1}

lemma FollowsSeen.of_movesForward (h : MovesForward provider.stateCodec dir dir')
    (hfollows : FollowsSeen provider dir' release) : FollowsSeen provider dir release := by
  intro state seen hread hseen
  obtain ⟨_, hread', hstep⟩ := h (some state) hread
  obtain ⟨state', rfl, hstate⟩ := hstep state rfl
  obtain ⟨seen', hseen', hseen⟩ := hstate.seen seen hseen
  exact hseen.trans (hfollows state' seen' hread' hseen')

lemma Progresses.refl (machine : Machine) : Progresses provider platform newer machine machine :=
  ⟨movesForward_refl, Or.inl rfl⟩

/-- What follows what was seen later follows what was seen before. -/
lemma Progresses.trans (h : Progresses provider platform newer before after)
    (h' : Progresses provider platform newer after last) :
    Progresses provider platform newer before last := by
  refine ⟨h.state.trans h'.state, ?_⟩
  rcases h'.binary with hsame | ⟨release, hreleased, hfollows, hnewer⟩
  · rw [hsame]
    exact h.binary
  · exact Or.inr ⟨release, hreleased, hfollows.of_movesForward h.state, hnewer⟩

/-- A release is accepted only where it follows the one remembered. -/
lemma follows_of_advance {remembered offered : AcceptedReleaseV1} {field : String}
    {next : Option AcceptedReleaseV1} {changed : Bool}
    (h : advance (some remembered) offered field = .ok (next, changed))
    (hhash : offered.signedManifestSha256 ≠ none) : remembered.Follows offered := by
  simp only [advance] at h
  split_ifs at h with hlower hhigher hversion
  · exact ⟨hhigher.le, fun heq => absurd heq hhigher.ne', fun heq => absurd heq hhigher.ne'⟩
  · refine ⟨not_lt.mp hlower, fun _ => not_not.mp hversion, fun _ hash hremembered => ?_⟩
    obtain ⟨incoming, hoffered⟩ := Option.ne_none_iff_exists'.mp hhash
    simp only [hremembered, hoffered] at h
    split_ifs at h with hequivocation
    rw [hoffered, not_not.mp hequivocation]

lemma followsSeen_of_acceptSeenIn {contended : Bool}
    (h : (acceptSeenIn provider.stateCodec contended release).Ends dir () dir')
    (hhash : release.signedManifestSha256 ≠ none) : FollowsSeen provider dir release := by
  intro state seen hread hseen
  simp only [acceptSeenIn, acquireLock, loadOrMigrateLocked, Program.ends_bind, Program.ends_read,
    Program.ends_ensure] at h
  obtain ⟨_, _, ⟨-, rfl⟩, _, _, ⟨-, rfl⟩, loaded, _, ⟨stored, _, ⟨hstored, rfl⟩, hloaded⟩,
    advanced, _, ⟨hadvance, -⟩, -⟩ := h
  obtain rfl := Except.ok.inj (hread.symm.trans hstored)
  obtain ⟨rfl, -⟩ := Program.ends_pure.mp hloaded
  rw [hseen] at hadvance
  exact follows_of_advance hadvance hhash

/-- A manifest that is accepted is signed and complete, and of a release that follows the newest one
seen. -/
structure Accepts (provider : ReleaseProvider) (platform : Platform) (dir : StateDir)
    (validated : ValidatedReleaseManifest) (now : ℤ) : Prop where
  follows : FollowsSeen provider dir validated.accepted
  signed : ∃ signed bytes, provider.deserializeSigned bytes = .ok signed ∧
    verifyManifestSignature provider signed provider.updatePubkey = .ok () ∧
    validateCompleteManifest provider platform now signed.body.toV1 = .ok () ∧
    validated.manifest = signed.body.toV1 ∧
    validated.accepted = ⟨signed.body.toV1.version, signed.body.toV1.releaseEpoch,
      some (provider.sha256 bytes)⟩

lemma meets_acceptSignedManifestBytes {now : ℤ} {contended : Bool} {bytes : Bytes} :
    (acceptSignedManifestBytes provider platform now contended bytes).Meets dir
      (MovesForward provider.stateCodec dir) fun result dir' =>
        MovesForward provider.stateCodec dir dir' ∧ ∀ validated, result = .ok validated →
          Accepts provider platform dir validated now := by
  simp only [acceptSignedManifestBytes, Program.meets_bind, Program.meets_read]
  cases hverify : verifySignedManifest provider bytes with
  | error e => exact ⟨movesForward_refl, by simp⟩
  | ok body =>
    simp only [mapError_ok]
    cases hcomplete : validateCompleteManifest provider platform now body.toV1 with
    | error e => exact ⟨movesForward_refl, by simp⟩
    | ok _ =>
      simp only [Program.meets_zoom, Program.meets_pure]
      refine ((meets_acceptSeenIn contended _).and (Program.meets_leaves _ dir)).mono
        (fun _ hd => hd.1) ?_
      rintro result dir' ⟨hleaves, rfl, rfl⟩
      generalize hresult : (acceptSeenIn provider.stateCodec contended
        ⟨body.toV1.version, body.toV1.releaseEpoch, some (provider.sha256 bytes)⟩ dir).result = result
      cases result with
      | error e => exact ⟨hleaves.1, by simp⟩
      | ok _ =>
        refine ⟨hleaves.1, fun validated hvalidated => ?_⟩
        obtain rfl := Except.ok.inj hvalidated
        refine ⟨followsSeen_of_acceptSeenIn ⟨hresult, rfl⟩ (by simp), ?_⟩
        simp only [verifySignedManifest, verifySignedManifestWithKey, bind_eq_ok, mapError_eq_ok] at hverify
        obtain ⟨signed, hdecode, _, hsignature, hbody⟩ := hverify
        obtain rfl := Except.ok.inj hbody
        exact ⟨signed, bytes, hdecode, hsignature, hcomplete, rfl, rfl⟩

lemma stays_onState {ε α : Type} {lift : ε → UpdateError} {program : Program StateDir ε α}
    (hstep : Progresses provider platform newer before machine)
    (h : program.Stays (MovesForward provider.stateCodec machine.state) machine.state) :
    (onState lift program).Stays (Progresses provider platform newer before) machine :=
  Program.stays_zoom (h.mono (fun _ hd => hstep.trans ⟨hd, Or.inl rfl⟩)
    fun _ _ hd => hstep.trans ⟨hd, Or.inl rfl⟩)

lemma stays_recordInstalledIn {contended : Bool} :
    (recordInstalledIn provider.stateCodec contended release).Stays
      (MovesForward provider.stateCodec dir) dir :=
  (meets_recordInstalledIn contended release).mono (fun _ hd => hd) fun _ _ hd => hd.1

variable (network) in
lemma meets_fetchLatestManifest {now : ℤ} {contended : Bool} {ownerRepo : String} :
    (fetchLatestManifest provider platform network now contended ownerRepo).Meets dir
      (MovesForward provider.stateCodec dir) fun result dir' =>
        MovesForward provider.stateCodec dir dir' ∧ ∀ validated, result = .ok validated →
          Accepts provider platform dir validated now := by
  rw [fetchLatestManifest, Program.meets_bind, Program.meets_read]
  cases (downloadSmall network (assetUrl ownerRepo manifestFile)).mapError ReleaseError.network with
  | error e => exact ⟨movesForward_refl, by simp⟩
  | ok bytes => exact meets_acceptSignedManifestBytes

/-- What is fetched for a manifest is what the named artifact holds. -/
lemma fetchBinary_eq_ok {ownerRepo : String} {manifest : CompleteManifestV1} {binary : Bytes}
    (h : fetchBinary provider platform network ownerRepo manifest = .ok binary) :
    ∃ artifact artifactBytes, cliArtifactForCurrentPlatform platform manifest = .ok artifact ∧
      artifactBytes.length = artifact.size ∧ provider.sha256 artifactBytes = artifact.sha256 ∧
      extractInstallableArtifact provider artifact artifactBytes = .ok binary := by
  simp only [fetchBinary, bind_eq_ok, mapError_eq_ok] at h
  obtain ⟨artifact, hartifact, h⟩ := h
  split_ifs at h with hsize
  simp only [bind_eq_ok, mapError_eq_ok] at h
  obtain ⟨artifactBytes, -, _, hverify, hextract⟩ := h
  unfold verifyArtifactBytes at hverify
  split_ifs at hverify with hlength hdigest
  exact ⟨artifact, artifactBytes, hartifact, not_not.mp hlength, not_not.mp hdigest, hextract⟩

lemma Accepts.version {validated : ValidatedReleaseManifest} {now : ℤ}
    (h : Accepts provider platform dir validated now) :
    validated.accepted.version = validated.manifest.version := by
  obtain ⟨signed, bytes, -, -, -, hmanifest, haccepted⟩ := h.signed
  rw [hmanifest, haccepted]

/-- The file that is fetched for an accepted manifest is that of its release. -/
lemma Accepts.released {validated : ValidatedReleaseManifest} {now : ℤ}
    (h : Accepts provider platform dir validated now) {ownerRepo : String} {binary : Bytes}
    (hfetch : fetchBinary provider platform network ownerRepo validated.manifest = .ok binary) :
    Released provider platform binary validated.accepted := by
  obtain ⟨signed, bytes, hdecode, hsignature, hcomplete, hmanifest, haccepted⟩ := h.signed
  obtain ⟨artifact, artifactBytes, hartifact, hsize, hdigest, hextract⟩ := fetchBinary_eq_ok hfetch
  rw [hmanifest] at hartifact
  exact ⟨signed, bytes, artifactBytes, artifact, now, hdecode, hsignature, hcomplete, haccepted,
    hartifact, hsize, hdigest, hextract⟩

/-- A version that is newer than that of a program. -/
def NewerThan (current : Version) (text : String) : Prop :=
  ∃ version, Version.parse text = .ok version ∧ current < version

lemma newer_of_cmp {current latest : Version} (hlower : latest.cmp current ≠ .lt)
    (hsame : latest ≠ current) : current < latest := by
  rw [Version.lt_iff]
  have hnot : ¬ latest < current := hlower
  rw [Version.lt_iff] at hnot
  have hne : ¬ (latest.major = current.major ∧ latest.minor = current.minor ∧
      latest.patch = current.patch) := by
    rintro ⟨hmajor, hminor, hpatch⟩
    cases latest
    cases current
    simp_all
  omega

/-- An update moves the state forward; the program it leaves is the one before, or that of a newer
release that follows the newest one seen. -/
lemma stays_update {now : ℤ} {contended contended' checkOnly : Bool} {current : Version}
    {ownerRepo : Option String} :
    (update provider platform network now contended contended' current checkOnly ownerRepo).Stays
      (Progresses provider platform (NewerThan current) machine) machine := by
  -- the manifest that is accepted follows what was seen before
  refine Program.stays_bind_of (fun result t => t.binary = machine.binary ∧
      MovesForward provider.stateCodec machine.state t.state ∧ ∀ validated, result = .ok validated →
        Accepts provider platform machine.state validated now) ?_ ?_ ?_
  · refine Program.meets_zoom.mpr ((meets_fetchLatestManifest network).mono ?_ ?_)
    · exact fun _ hd => ⟨hd, Or.inl rfl⟩
    · rintro result dir' ⟨hmoves, haccepts⟩
      exact ⟨rfl, hmoves, fun validated hvalidated => haccepts validated (mapError_eq_ok.mp hvalidated)⟩
  · exact fun e t ht => ⟨ht.2.1, Or.inl ht.1⟩
  · rintro validated t ⟨hbinary, hmoves, haccepts⟩
    have hstep : Progresses provider platform (NewerThan current) machine t :=
      ⟨hmoves, Or.inl hbinary⟩
    refine Program.stays_read_bind hstep fun latest hlatest => ?_
    rw [mapError_eq_ok] at hlatest
    by_cases hlower : latest.cmp current = .lt
    · rw [if_pos hlower]
      exact Program.stays_fail hstep
    · rw [if_neg hlower]
      by_cases hsame : latest = current
      · rw [if_pos hsame]
        exact Program.stays_bind (stays_onState hstep stays_recordInstalledIn)
          fun _ _ hd => Program.stays_pure hd
      · rw [if_neg hsame]
        cases checkOnly with
        | true => exact Program.stays_pure hstep
        | false =>
          refine Program.stays_read_bind hstep fun binary hfetch => ?_
          have hreplaced : Progresses provider platform (NewerThan current) machine
              { t with binary := binary } := by
            refine ⟨hmoves, Or.inr ⟨validated.accepted, ?_⟩⟩
            have haccepted := haccepts validated rfl
            refine ⟨haccepted.released hfetch, haccepted.follows, latest, ?_,
              newer_of_cmp hlower hsame⟩
            rw [haccepted.version]
            exact hlatest
          refine Program.stays_bind_of (fun _ last => last = { t with binary := binary })
            (Program.meets_write.mpr ⟨hstep, rfl⟩) ?_ ?_
          · rintro e _ rfl
            exact hreplaced
          · rintro _ _ rfl
            exact Program.stays_bind (stays_onState hreplaced stays_recordInstalledIn)
              fun _ _ hd => Program.stays_pure hd

lemma stays_passiveUpdateNotice {now : ℤ} {contended disabled : Bool} {cached ownerRepo : Option String}
    {current : Version} :
    (passiveUpdateNotice provider platform network now contended disabled cached current
      ownerRepo).Stays (Progresses provider platform newer machine) machine := by
  have hstart : Progresses provider platform newer machine machine := .refl machine
  cases disabled with
  | true => exact Program.stays_pure hstart
  | false =>
    cases cached with
    | some text => exact Program.stays_pure hstart
    | none =>
      have hfetch : (onState .manifest (fetchLatestManifest provider platform network now contended
          (ownerRepo.getD repo))).Stays (Progresses provider platform newer machine) machine :=
        stays_onState hstart ((meets_fetchLatestManifest network).mono (fun _ hd => hd)
          fun _ _ hd => hd.1)
      exact hfetch

end Steps

/-! ### Runs -/

section Runs

variable (provider : ReleaseProvider) (platform : Platform)

/-- One step on a machine, ended or cut off: an update by a program of any version, over any network
at any time; a look for a newer release; or another operation on the state directory. -/
inductive MachineStep : Machine → Machine → Prop
  | update {before after : Machine} (network : Network) (now : ℤ)
      (contended contended' : Bool) (current : Version) (checkOnly : Bool)
      (ownerRepo : Option String) :
      (update provider platform network now contended contended' current checkOnly ownerRepo).Leaves
        before after → MachineStep before after
  | notice {before after : Machine} (network : Network) (now : ℤ)
      (contended disabled : Bool) (cached : Option String) (current : Version)
      (ownerRepo : Option String) :
      (passiveUpdateNotice provider platform network now contended disabled cached current
        ownerRepo).Leaves before after → MachineStep before after
  | operate {before : Machine} {dir : StateDir} :
      UpdateStep provider.stateCodec before.state dir → MachineStep before ⟨dir, before.binary⟩

abbrev MachineRun : Machine → Machine → Prop := Relation.ReflTransGen (MachineStep provider platform)

variable {provider platform} {before after : Machine}

lemma Progresses.mono {newer newer' : String → Prop} (hnewer : ∀ version, newer version → newer' version)
    (h : Progresses provider platform newer before after) :
    Progresses provider platform newer' before after := by
  refine ⟨h.state, h.binary.imp_right ?_⟩
  rintro ⟨release, hreleased, hfollows, hversion⟩
  exact ⟨release, hreleased, hfollows, hnewer _ hversion⟩

lemma MachineStep.progresses (h : MachineStep provider platform before after) :
    Progresses provider platform (fun _ => True) before after := by
  cases h with
  | update network now contended contended' current checkOnly ownerRepo hleaves =>
    exact (stays_update.leaves hleaves).mono fun _ _ => trivial
  | notice network now contended disabled cached current ownerRepo hleaves =>
    exact stays_passiveUpdateNotice.leaves hleaves
  | operate hstep => exact ⟨hstep.movesForward, Or.inl rfl⟩

lemma MachineRun.progresses (h : MachineRun provider platform before after) :
    Progresses provider platform (fun _ => True) before after := by
  induction h with
  | refl => exact .refl before
  | tail _ hstep ih => exact ih.trans hstep.progresses

/-- In every run over any network, the installed program stays as it is or becomes a file that a
complete manifest, signed under the compiled-in key, names for this platform by length and digest,
of a release that follows whatever was seen at any earlier point; what is remembered moves forward;
and an update only ever installs a version above that of the program it replaces. -/
theorem update_installsSignedReleases {provider : ReleaseProvider} {platform : Platform}
    {before after : Machine} (hrun : MachineRun provider platform before after) :
    (after.binary = before.binary ∨ ∃ release, Released provider platform after.binary release ∧
      FollowsSeen provider before.state release) ∧
    MovesForward provider.stateCodec before.state after.state ∧
    ∀ (network : Network) (now : ℤ) (contended contended' : Bool) (current : Version)
      (checkOnly : Bool) (ownerRepo : Option String) (last : Machine),
      (update provider platform network now contended contended' current checkOnly ownerRepo).Leaves
        after last → last.binary ≠ after.binary →
      ∃ release, Released provider platform last.binary release ∧
        FollowsSeen provider before.state release ∧ NewerThan current release.version := by
  have hprogresses := hrun.progresses
  refine ⟨hprogresses.binary.imp_right ?_, hprogresses.state, ?_⟩
  · rintro ⟨release, hreleased, hfollows, -⟩
    exact ⟨release, hreleased, hfollows⟩
  · intro network now contended contended' current checkOnly ownerRepo last hleaves hchanged
    rcases (stays_update.leaves hleaves).binary with hsame | ⟨release, hreleased, hfollows, hnewer⟩
    · exact absurd hsame hchanged
    · exact ⟨release, hreleased, hfollows.of_movesForward hprogresses.state, hnewer⟩

end Runs

/-! ### An update -/

open TestSupport

/-- Release 1.0.1, a raw file of one byte. -/
def rawManifest : CompleteManifestV1 where
  version := "1.0.1"
  releaseEpoch := 1000001
  publishedAt := "2026-08-12T00:00:00Z"
  source := ⟨"v1.0.1", "0123456789abcdef", "123"⟩
  artifacts := [⟨"thorax", cliArtifactKind, "raw", none,
    ⟨"x86_64-unknown-linux-gnu", "linux", "x86_64", some "gnu"⟩, 1, (fileDigest [9]).bytes⟩]
  keys := []

def rawSigned : SignedReleaseManifest := ⟨.v1 rawManifest, List.replicate 32 7, List.replicate 64 8⟩

def rawRelease : AcceptedReleaseV1 := ⟨"1.0.1", 1000001, some (fileDigest [1]).bytes⟩

/-- The signature is good for the one manifest. -/
def rawProvider : ReleaseProvider where
  sha256 bytes := (fileDigest bytes).bytes
  verifyingKeyFromBytes _ := true
  verifyStrict key message signature := decide (key = rawSigned.signingPublicKey ∧
    message = (Transcript.signature releaseManifestDomain [2]).bytes ∧
    signature = rawSigned.signature)
  stateCodec := tableCodec [⟨some rawRelease, none⟩, ⟨some rawRelease, some rawRelease⟩]
  serializeBody body := if body = rawSigned.body then .ok [2] else .error "unknown"
  deserializeSigned bytes := if bytes = [1] then .ok rawSigned else .error "unknown"
  parseRfc3339 _ := .ok 0
  gunzip _ bytes := .ok bytes
  updatePubkey := rawSigned.signingPublicKey

def rawNetwork : Network where
  head _ := none
  get url := .ok ⟨if url = assetUrl repo manifestFile then [1] else [9], none⟩

def rawBefore : Machine := ⟨⟨none, none⟩, [0]⟩

/-- A program of version 1.0.0 updates itself. -/
def rawUpdate : Outcome Machine UpdateError UpdateOutcome :=
  update rawProvider ⟨"linux", "x86_64"⟩ rawNetwork 0 false false ⟨1, 0, 0⟩ false none rawBefore

theorem update_installsSignedReleases_raw :
    rawUpdate.last.binary = [9] ∧
      ∃ release, Released rawProvider ⟨"linux", "x86_64"⟩ rawUpdate.last.binary release ∧
        FollowsSeen rawProvider rawBefore.state release := by
  have hbinary : rawUpdate.last.binary = [9] := by decide +kernel
  have hrun : MachineRun rawProvider ⟨"linux", "x86_64"⟩ rawBefore rawUpdate.last :=
    .single (.update rawNetwork 0 false false ⟨1, 0, 0⟩ false none (Or.inr rfl))
  refine ⟨hbinary, ?_⟩
  rcases (update_installsSignedReleases hrun).1 with hsame | hreleased
  · rw [hbinary] at hsame
    exact absurd hsame (by decide)
  · exact hreleased

end Thorax.Update
