import Thorax.Frontend.MergeDriver
import Thorax.Library.Utf8

/-!
# Complete registrations

An installation of the merge driver should leave both entries of the vault in the attributes, keep
every line that was there, and have nothing to do a second time; a status of being registered should
mean that git leaves the vault to the driver. Git goes by the last line that says something of an
attribute. All of this holds exactly if the attributes are text and if, where a line in them passes
for an entry of the vault at all, the last word on its merges is the driver and some line names the
driver for differences.
-/

namespace Thorax

open Collections Durable

/-- What git's attributes can say of an attribute of a path. -/
inductive AttributeState where
  | set
  | unset
  | unspecified
  | value (value : String)
  deriving DecidableEq

/-- How git reads the lines of the attributes: what one of them says of an attribute of the vault, if
it is about the vault and mentions the attribute at all. Other lines may define macros. Comments say
nothing, and the two entries say what they are meant to and nothing of each other's attribute. -/
structure GitAttributes where
  reads : List Bytes → Bytes → String → Option AttributeState
  uncommented : ∀ {lines line name state}, reads lines line name = some state →
    line.head? ≠ some 35
  merge : ∀ lines, reads lines (Utf8.encode gitattributesMergeLine) "merge" =
    some (.value "thorax-merge")
  diff : ∀ lines, reads lines (Utf8.encode gitattributesDiffLine) "diff" =
    some (.value "thorax-textconv")
  apart : ∀ lines, reads lines (Utf8.encode gitattributesDiffLine) "merge" = none

/-- The lines of the attributes; a workspace without them has none. -/
def attributesLines (attributes : Option Bytes) : List Bytes :=
  Lines.cut 10 (attributes.getD [])

section Completeness

variable (git : GitAttributes)

/-- Some line of the attributes assigns a value to an attribute of the vault. -/
def Assigned (attributes : Option Bytes) (name value : String) : Prop :=
  ∃ line ∈ attributesLines attributes,
    git.reads (attributesLines attributes) line name = some (.value value)

/-- The last line that says something of an attribute of the vault decides. -/
def lastWord (attributes : Option Bytes) (name : String) : Option AttributeState :=
  ((attributesLines attributes).filterMap (git.reads (attributesLines attributes) · name)).getLast?

/-- Git leaves merges of the vault to the driver. -/
def MergedByDriver (attributes : Option Bytes) : Prop :=
  lastWord git attributes "merge" = some (.value "thorax-merge")

/-- A status of being registered tells the truth: the vault is not left to git's text merge. -/
def StatusTruthful (registration : Registration) : Prop :=
  ∀ env, mergeDriverStatus env registration = .registered →
    Assigned git registration.attributes "merge" "thorax-merge" ∧
      MergedByDriver git registration.attributes

/-- What should hold after an installation that succeeds. -/
structure Installed (before after : Registration) : Prop where
  merge : Assigned git after.attributes "merge" "thorax-merge"
  diff : Assigned git after.attributes "diff" "thorax-textconv"
  kept : attributesLines before.attributes <+: attributesLines after.attributes
  again : ∀ env, (installMergeDriver env after).last = after
  status : StatusTruthful git after

/-- Installing over some attributes does what it should, in all surroundings and with every
configuration. -/
def InstallsCompletely (attributes : Option Bytes) : Prop :=
  ∀ config, StatusTruthful git ⟨attributes, config⟩ ∧ ∀ env output after,
    (installMergeDriver env).Ends ⟨attributes, config⟩ output after →
      Installed git ⟨attributes, config⟩ after

/-- The attributes are text. If a line passes for an entry of the vault, the last word on its merges
is the driver, and some line names the driver for differences. -/
structure Installable (attributes : Option Bytes) : Prop where
  text : ∀ bytes ∈ attributes, (Utf8.decode bytes).isSome
  entries : attributesEntryPresent ⟨attributes, ∅⟩ = true →
    MergedByDriver git attributes ∧ Assigned git attributes "diff" "thorax-textconv"

/-! ### Runs -/

variable {git : GitAttributes} {env : GitEnvironment} {before after : Registration}
  {output : MergeDriverInstall} {contents : Bytes}

/-- The attributes with the two entries behind them. -/
def appended (contents : Bytes) : Bytes := contents ++ Utf8.encode (attributesEntries contents)

/-- Drivers are set, after an installation, for what git then finds. -/
lemma ends_gitSetConfig {key value : String} {u : Unit} :
    (gitSetConfig env key value).Ends before u after ↔ (env.runs && env.accepts key) = true ∧
      after = { before with config := before.config.insert key value } := by
  simp only [gitSetConfig, Program.ends_bind, Program.ends_ensure, Program.ends_modify]
  constructor
  · rintro ⟨_, _, ⟨haccepts, rfl⟩, rfl⟩
    exact ⟨haccepts, rfl⟩
  · rintro ⟨haccepts, rfl⟩
    exact ⟨(), before, ⟨haccepts, rfl⟩, rfl⟩

lemma gitConfigGet_eq_true {key : String} : gitConfigGet env key before = some true ↔
    env.runs = true ∧ before.config.contains key = true := by
  rw [gitConfigGet]
  split_ifs <;> simp [*]

/-- A successful installation leaves both drivers configured, and the entries at the end of
attributes in which it found none. -/
lemma Registration.ends_install (h : (installMergeDriver env).Ends before output after) :
    after.config.contains "merge.thorax-merge.driver" = true ∧
      after.config.contains "diff.thorax-textconv.textconv" = true ∧
      after.attributes = if attributesEntryPresent before then before.attributes
        else some (appended (before.attributes.getD [])) := by
  simp only [installMergeDriver, Program.ends_bind, Program.ends_read, Program.ends_skipWhen,
    Program.ends_pure] at h
  obtain ⟨present, _, ⟨hpresent, rfl⟩, _, written, hwritten, mergeReady, _, ⟨hmerge, rfl⟩, _,
    merged, hmerged, diffReady, _, ⟨hdiff, rfl⟩, _, _, hdiffed, -, rfl⟩ := h
  cases hpresent
  cases hmerge
  cases hdiff
  have hattributes : written.attributes = if attributesEntryPresent before then before.attributes
      else some (appended (before.attributes.getD [])) := by
    split_ifs at hwritten ⊢
    · rw [hwritten]
    · simp only [appendAttributes, Program.ends_bind, Program.ends_ensure,
        Program.ends_modify] at hwritten
      obtain ⟨_, _, ⟨-, rfl⟩, rfl⟩ := hwritten
      rfl
  have hmergeKey : merged.config.contains "merge.thorax-merge.driver" = true ∧
      merged.attributes = written.attributes := by
    split_ifs at hmerged with hready
    · obtain rfl := hmerged
      exact ⟨(gitConfigGet_eq_true.mp (by simpa using hready)).2, rfl⟩
    · obtain ⟨_, _, hname, hdriver⟩ := hmerged
      rw [ends_gitSetConfig.mp hdriver |>.2, ends_gitSetConfig.mp hname |>.2]
      simp
  split_ifs at hdiffed with hready
  · obtain rfl := hdiffed
    exact ⟨hmergeKey.1, (gitConfigGet_eq_true.mp (by simpa using hready)).2,
      hmergeKey.2.trans hattributes⟩
  · rw [ends_gitSetConfig.mp hdiffed |>.2]
    simp [hmergeKey.1, hmergeKey.2.trans hattributes]

/-- With an entry and a configured driver the status is that of being registered. -/
lemma status_of_found (hpresent : attributesEntryPresent before = true)
    (hmerge : before.config.contains "merge.thorax-merge.driver" = true) :
    mergeDriverStatus ⟨true, true, fun _ => true, true⟩ before = .registered := by
  simp only [mergeDriverStatus, gitRevParse, gitConfigGet, hpresent, hmerge, if_true, beq_self_eq_true]

/-- A status of being registered was found with an entry. -/
lemma present_of_registered (h : mergeDriverStatus env before = .registered) :
    attributesEntryPresent before = true := by
  by_contra hmissing
  rw [mergeDriverStatus, Bool.eq_false_iff.mpr hmissing] at h
  split at h
  · cases h
  · cases h
  · split at h <;> simp_all

/-- Where nothing is missing, nothing is written. -/
lemma Registration.last_install (hpresent : attributesEntryPresent before = true)
    (hmerge : before.config.contains "merge.thorax-merge.driver" = true)
    (hdiff : before.config.contains "diff.thorax-textconv.textconv" = true) :
    (installMergeDriver env before).last = before := by
  have hmeets : (installMergeDriver env).Meets before (fun _ => True) fun _ t => t = before := by
    rw [← Std.ExtTreeMap.mem_iff_contains] at hmerge hdiff
    cases hruns : env.runs <;>
      simp [installMergeDriver, gitSetConfig, gitConfigGet, hpresent, hmerge, hdiff, hruns]
  exact hmeets.result

/-- Surroundings in which nothing fails. -/
def GitEnvironment.granting : GitEnvironment := ⟨true, true, fun _ => true, true⟩

lemma Registration.exists_ends_install (before : Registration) :
    ∃ output after, (installMergeDriver .granting).Ends before output after := by
  have hmeets : (installMergeDriver .granting).Meets before (fun _ => True)
      fun r _ => ∃ output, r = .ok output := by
    simp [installMergeDriver, appendAttributes, gitSetConfig, GitEnvironment.granting]
  obtain ⟨output, houtput⟩ := hmeets.result
  exact ⟨output, _, houtput, rfl⟩

/-! ### Lines -/

/-- What stands before the entries is empty or ends its last line. -/
def attributesSeparator (contents : Bytes) : String :=
  if contents ≠ [] ∧ contents.getLast? ≠ some 10 then "\n" else ""

lemma encode_lineFeed : Utf8.encode "\n" = [10] := rfl

lemma appended_eq (contents : Bytes) : appended contents =
    contents ++ Utf8.encode (attributesSeparator contents) ++
      Utf8.encode gitattributesMergeLine ++ 10 :: (Utf8.encode gitattributesDiffLine ++ [10]) := by
  simp only [appended, attributesEntries, Utf8.encode_append, encode_lineFeed, attributesSeparator,
    List.append_assoc, List.cons_append, List.nil_append]

lemma separator_ends (contents : Bytes) : contents ++ Utf8.encode (attributesSeparator contents) = [] ∨
    (contents ++ Utf8.encode (attributesSeparator contents)).getLast? = some 10 := by
  by_cases hcontents : contents ≠ [] ∧ contents.getLast? ≠ some 10
  · rw [attributesSeparator, if_pos hcontents, encode_lineFeed]
    simp
  · rw [attributesSeparator, if_neg hcontents, Utf8.encode_empty, List.append_nil]
    tauto

/-- The lines that were there stay the first ones. -/
lemma prefix_appended : Lines.cut 10 contents <+: Lines.cut 10 (appended contents) := by
  rw [appended, attributesEntries]
  split_ifs with hcontents
  · simp only [Utf8.encode_append, encode_lineFeed, List.append_assoc, List.singleton_append]
    exact Lines.cut_prefix_append_cons
  · exact Lines.cut_prefix_append (by tauto)

/-- The two entries are the last lines once they are appended. -/
lemma attributesLines_appended (contents : Bytes) :
    ∃ lines, attributesLines (some (appended contents)) =
      lines ++ [Utf8.encode gitattributesMergeLine, Utf8.encode gitattributesDiffLine] := by
  have hmerge : (10 : UInt8) ∉ Utf8.encode gitattributesMergeLine := by decide
  have hdiff : Lines.cut 10 (Utf8.encode gitattributesDiffLine ++ [10]) =
      [Utf8.encode gitattributesDiffLine] := rfl
  rw [attributesLines, Option.getD_some, appended_eq, Lines.cut_append_cons, hdiff]
  rcases separator_ends contents with hnil | hlast
  · rw [hnil, List.nil_append, Lines.splitOn_of_not_mem hmerge]
    exact ⟨[], rfl⟩
  · obtain ⟨front, hfront⟩ := List.getLast?_eq_some_iff.mp hlast
    rw [hfront, List.append_assoc, List.singleton_append, Lines.splitOn_append_cons,
      Lines.splitOn_of_not_mem hmerge]
    exact ⟨front.splitOn 10, List.append_assoc _ _ _⟩

lemma assigned_appended (git : GitAttributes) (contents : Bytes) :
    MergedByDriver git (some (appended contents)) ∧
      Assigned git (some (appended contents)) "diff" "thorax-textconv" := by
  obtain ⟨lines, hlines⟩ := attributesLines_appended contents
  constructor
  · simp [MergedByDriver, lastWord, hlines, List.filterMap_append, git.merge, git.apart]
  · exact ⟨_, by simp [hlines], git.diff _⟩

/-- The last word on merges stands in some line. -/
lemma MergedByDriver.assigned {attributes : Option Bytes} (h : MergedByDriver git attributes) :
    Assigned git attributes "merge" "thorax-merge" := by
  have hmem := List.mem_of_getLast? h
  obtain ⟨line, hline, hsays⟩ := List.mem_filterMap.mp hmem
  exact ⟨line, hline, hsays⟩

/-- A text whose bytes end a line ends it with a line feed. -/
lemma getLast?_of_encode {text : String} (h : (Utf8.encode text).getLast? = some 10) :
    text.toList.getLast? = some '\n' := by
  obtain ⟨front, hfront⟩ := List.getLast?_eq_some_iff.mp h
  have hsome : Utf8.decode front ≠ none := by
    rw [← encode_lineFeed] at hfront
    rw [ne_eq, ← Utf8.decode_append_eq_none_iff "\n", ← hfront, Utf8.decode_encode]
    exact Option.some_ne_none _
  obtain ⟨before, hbefore⟩ := Option.ne_none_iff_exists'.mp hsome
  rw [Utf8.decode_eq_some_iff] at hbefore
  have htext : text = before ++ "\n" := by
    refine Option.some.inj ?_
    rw [← Utf8.decode_encode text, ← Utf8.decode_encode (before ++ "\n"), Utf8.encode_append,
      hbefore, encode_lineFeed, hfront]
  rw [htext]
  simp

/-- The entries that were added to a text are found. -/
lemma attributesEntryPresent_appended (htext : (Utf8.decode contents).isSome)
    (config : BTreeMap String String) :
    attributesEntryPresent ⟨some (appended contents), config⟩ = true := by
  obtain ⟨text, hdecode⟩ := Option.isSome_iff_exists.mp htext
  obtain rfl := Utf8.decode_eq_some_iff.mp hdecode
  have hends : (text ++ attributesSeparator (Utf8.encode text)).toList = [] ∨
      (text ++ attributesSeparator (Utf8.encode text)).toList.getLast? = some '\n' := by
    rcases separator_ends (Utf8.encode text) with hnil | hlast
    · refine Or.inl ?_
      rw [← Utf8.encode_append] at hnil
      have hempty := congrArg Utf8.decode hnil
      rw [← Utf8.encode_empty, Utf8.decode_encode, Utf8.decode_encode, Option.some_inj] at hempty
      rw [hempty]
      rfl
    · rw [← Utf8.encode_append] at hlast
      exact Or.inr (getLast?_of_encode hlast)
  have hfeed : '\n' ∉ gitattributesMergeLine.toList := by decide
  have hmem := Lines.mem_lines '\r' (gitattributesDiffLine ++ "\n").toList hfeed hends
  have hstripped : Lines.stripped '\r' gitattributesMergeLine.toList =
      gitattributesMergeLine.toList := rfl
  have hmatches : attributesLineMatches gitattributesMergeLine.toList = true := rfl
  have hdecoded : Utf8.decode (appended (Utf8.encode text)) =
      some (text ++ attributesEntries (Utf8.encode text)) := by
    rw [appended, ← Utf8.encode_append, Utf8.decode_encode]
  rw [attributesEntryPresent, Option.bind_some, hdecoded, List.any_eq_true]
  refine ⟨_, ?_, hmatches⟩
  rw [hstripped] at hmem
  convert hmem using 2
  simp [attributesEntries, attributesSeparator]

/-! ### Installations -/

lemma InstallsCompletely.of_installable {attributes : Option Bytes}
    (h : Installable git attributes) : InstallsCompletely git attributes := by
  intro config
  have hpresent : ∀ config', attributesEntryPresent ⟨attributes, config'⟩ =
      attributesEntryPresent ⟨attributes, ∅⟩ := fun _ => rfl
  have hstatus : StatusTruthful git ⟨attributes, config⟩ := by
    intro env hregistered
    have hdriver := (h.entries (hpresent config ▸ present_of_registered hregistered)).1
    exact ⟨hdriver.assigned, hdriver⟩
  refine ⟨hstatus, fun env output after hends => ?_⟩
  obtain ⟨hmerge, hdiff, hattributes⟩ := Registration.ends_install hends
  by_cases hfound : attributesEntryPresent ⟨attributes, ∅⟩ = true
  · rw [if_pos (hpresent config ▸ hfound)] at hattributes
    obtain ⟨hdriver, hassignedDiff⟩ := h.entries hfound
    have hafter : attributesEntryPresent after = true := by
      rw [attributesEntryPresent, hattributes]
      exact hfound
    exact ⟨hattributes ▸ hdriver.assigned, hattributes ▸ hassignedDiff,
      hattributes ▸ List.prefix_rfl, fun _ => Registration.last_install hafter hmerge hdiff,
      fun _ _ => hattributes ▸ ⟨hdriver.assigned, hdriver⟩⟩
  · rw [if_neg (hpresent config ▸ hfound)] at hattributes
    have htext : (Utf8.decode (attributes.getD [])).isSome := by
      cases attributes with
      | none => rfl
      | some bytes => exact h.text bytes rfl
    have hafter : attributesEntryPresent after = true := by
      rw [attributesEntryPresent, hattributes]
      exact attributesEntryPresent_appended htext ∅
    obtain ⟨hdriver, hassignedDiff⟩ := assigned_appended git (attributes.getD [])
    exact ⟨hattributes ▸ hdriver.assigned, hattributes ▸ hassignedDiff,
      hattributes ▸ prefix_appended, fun _ => Registration.last_install hafter hmerge hdiff,
      fun _ _ => hattributes ▸ ⟨hdriver.assigned, hdriver⟩⟩

lemma InstallsCompletely.installable {attributes : Option Bytes}
    (h : InstallsCompletely git attributes) : Installable git attributes := by
  obtain ⟨output, after, hends⟩ := Registration.exists_ends_install ⟨attributes, ∅⟩
  have hinstalled := (h ∅).2 _ _ _ hends
  obtain ⟨hmerge, -, hattributes⟩ := Registration.ends_install hends
  constructor
  · intro bytes hbytes
    obtain rfl : attributes = some bytes := hbytes
    by_contra hnone
    rw [Option.not_isSome_iff_eq_none] at hnone
    -- what cannot be read has no entries, neither before nor after they are added
    have hmissing : attributesEntryPresent ⟨some bytes, ∅⟩ = false := by
      rw [attributesEntryPresent, Option.bind_some, hnone]
    rw [hmissing, if_neg Bool.false_ne_true, Option.getD_some] at hattributes
    have hstill : attributesEntryPresent after = false := by
      rw [attributesEntryPresent, hattributes, Option.bind_some, appended,
        (Utf8.decode_append_eq_none_iff _).mpr hnone]
    obtain ⟨_, again, hagain⟩ := Registration.exists_ends_install after
    have hsame : again = after := hagain.2.symm.trans (hinstalled.again _)
    have happended := (Registration.ends_install hagain).2.2
    rw [hsame, hstill, if_neg Bool.false_ne_true, hattributes, Option.getD_some,
      Option.some_inj] at happended
    have hlength := congrArg List.length happended
    have hentries : 0 < (Utf8.encode gitattributesMergeLine).length := by decide
    rw [appended_eq (appended bytes)] at hlength
    simp only [List.length_append] at hlength
    omega
  · intro hfound
    replace hattributes : after.attributes = attributes := by rw [hattributes, if_pos hfound]
    have hafter : attributesEntryPresent after = true := by
      rw [attributesEntryPresent, hattributes]
      exact hfound
    have hdriver := (hinstalled.status _ (status_of_found hafter hmerge)).2
    exact ⟨hattributes ▸ hdriver, hattributes ▸ hinstalled.diff⟩

variable (git)

/-- An installation is complete exactly over attributes that are text and in which, if anything in
them passes for an entry, the last word on merges is the driver and both drivers are named. -/
theorem installsCompletely_iff (attributes : Option Bytes) :
    InstallsCompletely git attributes ↔ Installable git attributes :=
  ⟨InstallsCompletely.installable, InstallsCompletely.of_installable⟩

end Completeness

/-- Git as far as it reads lines that name the vault itself and give values to attributes. -/
def literalAttributes : GitAttributes where
  reads _ line name :=
    if line.head? = some 35 then none
    else
      match line.splitOn 32 with
      | [] => none
      | path :: assignments =>
        if path = Utf8.encode ".thorax/vault.cord" then
          (assignments.filterMap fun assignment =>
            match assignment.splitOn 61 with
            | [mentioned, value] =>
              if mentioned = Utf8.encode name then (Utf8.decode value).map AttributeState.value
              else none
            | _ => none).getLast?
        else none
  uncommented h hcomment := by
    rw [if_pos hcomment] at h
    cases h
  merge _ := rfl
  diff _ := rfl
  apart _ := rfl

/-- Attributes that only name the driver for differences pass for complete ones, and so do those whose
last line hands the vault to git's text merge. -/
theorem not_installsCompletely_diffOnly :
    ¬ InstallsCompletely literalAttributes
        (some (Utf8.encode ".thorax/vault.cord diff=thorax-textconv\n")) ∧
      ¬ InstallsCompletely literalAttributes (some (Utf8.encode
        (gitattributesMergeLine ++ "\n" ++ gitattributesDiffLine ++ "\n" ++
          ".thorax/vault.cord merge=text\n"))) := by
  constructor
  · intro h
    have hdriver := (h.installable.entries (by decide +kernel)).1
    have hword : lastWord literalAttributes
        (some (Utf8.encode ".thorax/vault.cord diff=thorax-textconv\n")) "merge" = none := by
      decide +kernel
    rw [MergedByDriver, hword] at hdriver
    cases hdriver
  · intro h
    have hdriver := (h.installable.entries (by decide +kernel)).1
    have hword : lastWord literalAttributes (some (Utf8.encode
        (gitattributesMergeLine ++ "\n" ++ gitattributesDiffLine ++ "\n" ++
          ".thorax/vault.cord merge=text\n"))) "merge" = some (.value "text") := by
      decide +kernel
    rw [MergedByDriver, hword] at hdriver
    exact absurd hdriver (by decide)

end Thorax
