import SkinGetBE.ConfigText

/-!
# Loading a configuration again

A load that accepts a file leaves either that file or the text of the normalized
configuration. The next load gives the same configuration, unless the first one wrote
a raw control character.
-/
namespace SkinGetBE
open Octets Text ConfigManager

/-- The file is written anew: a missing protocol, a blank version, or an unknown mode. -/
def NeedsRewrite (config : Config) : Prop :=
  config.protocol = 0 ∨ trim config.version = [] ∨ 2 < config.savemode

section
variable {fallbackVersion : Str} {fallbackProtocol : UInt16}

theorem min_savemode (mode : UInt8) : min mode 2 = if mode ≤ 2 then mode else 2 := rfl

theorem min_savemode_le (mode : UInt8) : ¬ 2 < min mode 2 := by
  rw [min_savemode, UInt8.not_lt]
  split
  · assumption
  · exact UInt8.le_refl 2

/-- Every field on its own is completed or bounded. -/
theorem normalizeSupportedVersion_eq (config : Config) :
    normalizeSupportedVersion fallbackVersion fallbackProtocol config =
      { version := if trim config.version = [] then "26.60".toList else config.version
        protocol := if config.protocol = 0 then 2225 else config.protocol
        port := config.port
        bindAddr := config.bindAddr
        savemode := min config.savemode 2 } := by
  unfold normalizeSupportedVersion
  rw [getLatestProtocol_eq, getLatestVersion_eq]
  by_cases hversion : trim config.version = []
  · simp [hversion]
  by_cases hprotocol : config.protocol = 0
  · simp [hversion, hprotocol]
  by_cases hmode : config.savemode ≤ 2
  · have hlt : ¬ 2 < config.savemode := UInt8.not_lt.mpr hmode
    simp [hversion, hprotocol, hlt, hmode, min_savemode]
  · have hlt : 2 < config.savemode := UInt8.not_le.mp hmode
    simp [hversion, hprotocol, hlt, hmode, min_savemode]

theorem normalizeSupportedVersion_eq_self_iff (config : Config) :
    normalizeSupportedVersion fallbackVersion fallbackProtocol config = config ↔
      ¬ NeedsRewrite config := by
  rw [normalizeSupportedVersion_eq]
  obtain ⟨version, protocol, port, bindAddr, savemode⟩ := config
  have hversion : (if trim version = [] then "26.60".toList else version) = version ↔
      ¬ trim version = [] := by
    split
    · next h =>
      refine iff_of_false (fun he => ?_) (not_not_intro h)
      rw [← he] at h
      exact absurd h (by decide)
    · next h => exact iff_of_true rfl h
  have hprotocol : (if protocol = 0 then 2225 else protocol) = protocol ↔ ¬ protocol = 0 := by
    split
    · next h =>
      subst h
      decide
    · next h => exact iff_of_true rfl h
  have hmode : min savemode 2 = savemode ↔ ¬ 2 < savemode := by
    rw [min_savemode, UInt8.not_lt]
    split
    · next h => exact iff_of_true rfl h
    · next h => exact iff_of_false (fun he => h (he ▸ UInt8.le_refl 2)) h
  simp only [Config.mk.injEq, hversion, hprotocol, hmode, NeedsRewrite, not_or, true_and]
  tauto

theorem normalizeSupportedVersion_idem (config : Config) :
    normalizeSupportedVersion fallbackVersion fallbackProtocol
        (normalizeSupportedVersion fallbackVersion fallbackProtocol config) =
      normalizeSupportedVersion fallbackVersion fallbackProtocol config := by
  rw [normalizeSupportedVersion_eq_self_iff, normalizeSupportedVersion_eq]
  rintro (h | h | h)
  · dsimp only at h
    split at h
    · contradiction
    · contradiction
  · dsimp only at h
    split at h
    · exact absurd h (by decide)
    · contradiction
  · exact min_savemode_le config.savemode h

variable {fromStr : Str → Except String Config}

theorem FollowsRfc.ok_iff (h : FollowsRfc fromStr) {text : Str} {config : Config} :
    fromStr text = .ok config ↔ (Json.parse text).bind Config.ofJson = some config := by
  rw [← h text]
  cases fromStr text <;> simp [Except.toOption]

/-- The saved text is read back exactly when it has no raw control character. -/
theorem FollowsRfc.saved_iff (h : FollowsRfc fromStr) {config : Config}
    (hmode : config.savemode ≤ 2) :
    fromStr (stripJsonComments (formatConfigWithComments config)) = .ok config ↔
      config.Saveable := by
  rw [h.ok_iff]
  by_cases hsaveable : config.Saveable
  · refine iff_of_true ?_ hsaveable
    rw [parse_saved hsaveable, min_savemode, if_pos hmode]
  · refine iff_of_false ?_ hsaveable
    rw [parse_saved_none hsaveable]
    exact nofun

/-- What loading an existing file comes to. -/
theorem load_of_parsed {file : ConfigFile} {content : Str} {parsed : Config}
    (hdir : file.denied .createDirAll = none) (hread : file.denied .readToString = none)
    (hcontents : file.contents = some (asBytes content))
    (hparsed : fromStr (stripJsonComments content) = .ok parsed)
    (hnormal : normalizeSupportedVersion fallbackVersion fallbackProtocol parsed = parsed) :
    load fallbackVersion fallbackProtocol fromStr file = (.ok parsed, file) := by
  have hdecode : file.readToString (asBytes content) = .ok content := by
    rw [ConfigFile.readToString, hread, fromUtf8_asBytes]
  unfold load
  rw [hdir, hcontents]
  dsimp only
  rw [hdecode]
  dsimp only
  rw [hparsed]
  exact if_neg (not_not_intro hnormal)

/-- The text of a file that a load accepts, and the file that the load leaves. -/
theorem load_accepted {file file' : ConfigFile} {c : Config}
    (hload : load fallbackVersion fallbackProtocol fromStr file = (.ok c, file'))
    (hexists : file.contents ≠ none) :
    ∃ content parsed, file.contents = some (asBytes content) ∧
      file.denied .createDirAll = none ∧ file.denied .readToString = none ∧
      fromStr (stripJsonComments content) = .ok parsed ∧
      c = normalizeSupportedVersion fallbackVersion fallbackProtocol parsed ∧
      file' = if c = parsed then file
        else { file with contents := some (asBytes (formatConfigWithComments c)) } := by
  obtain ⟨contents, hcontents⟩ := Option.ne_none_iff_exists'.mp hexists
  cases hdir : file.denied .createDirAll with
  | some e => simp [load, hdir] at hload
  | none =>
  cases hread : file.denied .readToString with
  | some e => simp [load, ConfigFile.readToString, hdir, hcontents, hread] at hload
  | none =>
  cases hutf8 : fromUtf8 contents with
  | none => simp [load, ConfigFile.readToString, hdir, hcontents, hread, hutf8] at hload
  | some content =>
  cases hparsed : fromStr (stripJsonComments content) with
  | error e => simp [load, ConfigFile.readToString, hdir, hcontents, hread, hutf8, hparsed] at hload
  | ok parsed =>
    refine ⟨content, parsed, ?_, rfl, rfl, hparsed, ?_⟩
    · rw [hcontents, fromUtf8_eq_some_iff.mp hutf8]
    by_cases hnormal : normalizeSupportedVersion fallbackVersion fallbackProtocol parsed = parsed
    · simp only [load, ConfigFile.readToString, hdir, hcontents, hread, hutf8, hparsed, hnormal,
        ne_eq, not_true_eq_false, if_false, Prod.mk.injEq, Except.ok.injEq] at hload
      obtain ⟨rfl, rfl⟩ := hload
      exact ⟨hnormal.symm, (if_pos rfl).symm⟩
    · cases hwrite : file.denied .write with
      | some e => simp [load, ConfigFile.readToString, hdir, hcontents, hread, hutf8, hparsed,
          hnormal, save, hwrite] at hload
      | none =>
        simp only [load, ConfigFile.readToString, hdir, hcontents, hread, hutf8, hparsed, hnormal,
          ne_eq, not_false_eq_true, if_true, save, hwrite, Prod.mk.injEq, Except.ok.injEq] at hload
        obtain ⟨rfl, rfl⟩ := hload
        exact ⟨rfl, (if_neg hnormal).symm⟩

/-- A file with the saved text of a normal configuration is loaded exactly when that text is
JSON. -/
theorem load_saved_iff (hrfc : FollowsRfc fromStr) {file : ConfigFile} {c : Config}
    (hdir : file.denied .createDirAll = none) (hread : file.denied .readToString = none)
    (hcontents : file.contents = some (asBytes (formatConfigWithComments c)))
    (hnormal : normalizeSupportedVersion fallbackVersion fallbackProtocol c = c) :
    (load fallbackVersion fallbackProtocol fromStr file).1 = .ok c ↔ c.Saveable := by
  have hmode : c.savemode ≤ 2 := UInt8.not_lt.mp fun hlt =>
    (normalizeSupportedVersion_eq_self_iff c).mp hnormal (.inr (.inr hlt))
  constructor
  · intro hload
    have hexists : file.contents ≠ none := by
      rw [hcontents]
      exact Option.some_ne_none _
    obtain ⟨content, parsed, hcontents', -, -, hparsed, -, -⟩ :=
      load_accepted (Prod.ext hload rfl) hexists
    have hsaved : formatConfigWithComments c = content :=
      asBytes_injective (Option.some.inj (hcontents.symm.trans hcontents'))
    subst hsaved
    by_contra hno
    rw [hrfc.ok_iff, parse_saved_none hno] at hparsed
    contradiction
  · intro hsaveable
    have hparsed := (hrfc.saved_iff hmode).mpr hsaveable
    exact congrArg Prod.fst (load_of_parsed hdir hread hcontents hparsed hnormal)

/-- When a loaded configuration loads again: the file was not written anew, or what was
written has no raw control character. -/
def Reloads (parsed : Config) : Prop :=
  NeedsRewrite parsed →
    (trim parsed.version = [] ∨ Escapable parsed.version) ∧ Escapable parsed.bindAddr

theorem saveable_normalizeSupportedVersion (parsed : Config) :
    (normalizeSupportedVersion fallbackVersion fallbackProtocol parsed).Saveable ↔
      (trim parsed.version = [] ∨ Escapable parsed.version) ∧
        Escapable parsed.bindAddr := by
  rw [normalizeSupportedVersion_eq, Config.Saveable]
  refine and_congr_left fun _ => ?_
  dsimp only
  split
  · next h => exact iff_of_true (by decide) (.inl h)
  · next h => exact ⟨.inr, fun hor => hor.resolve_left h⟩

end

/-- A configuration that was loaded from a file is loaded again, unchanged, exactly when the
first load left the file alone or wrote texts without raw control characters; and the saved text
of a configuration denotes it exactly when its texts have none. -/
theorem load_again_iff {fromStr : Str → Except String Config} (hrfc : FollowsRfc fromStr)
    (fallbackVersion : Str) (fallbackProtocol : UInt16) :
    (∀ (file file' : ConfigFile) (c : Config), file.contents ≠ none →
      load fallbackVersion fallbackProtocol fromStr file = (.ok c, file') →
        ∃ content parsed, file.contents = some (asBytes content) ∧
          fromStr (stripJsonComments content) = .ok parsed ∧
          ((load fallbackVersion fallbackProtocol fromStr file').1 = .ok c ↔ Reloads parsed)) ∧
    ∀ config : Config, config.savemode ≤ 2 →
      normalizeSupportedVersion fallbackVersion fallbackProtocol config = config →
        (fromStr (stripJsonComments (formatConfigWithComments config)) = .ok config ↔
          config.Saveable) := by
  refine ⟨fun file file' c hexists hload => ?_, fun config hmode _ => hrfc.saved_iff hmode⟩
  obtain ⟨content, parsed, hcontents, hdir, hread, hparsed, hc, hfile⟩ :=
    load_accepted hload hexists
  refine ⟨content, parsed, hcontents, hparsed, ?_⟩
  have hidem : normalizeSupportedVersion fallbackVersion fallbackProtocol c = c := by
    rw [hc, normalizeSupportedVersion_idem]
  by_cases hsame : c = parsed
  · rw [if_pos hsame] at hfile
    subst hfile hsame
    have hagain := load_of_parsed hdir hread hcontents hparsed hidem
    refine iff_of_true (congrArg Prod.fst hagain) fun hrewrite => ?_
    exact absurd hrewrite (normalizeSupportedVersion_eq_self_iff c |>.mp hidem)
  · rw [if_neg hsame] at hfile
    subst hfile
    have hrewrite : NeedsRewrite parsed := by
      by_contra hno
      exact hsame (hc.trans ((normalizeSupportedVersion_eq_self_iff parsed).mpr hno))
    have hreloads : Reloads parsed ↔ c.Saveable := by
      rw [hc, saveable_normalizeSupportedVersion]
      exact ⟨fun h => h hrewrite, fun h _ => h⟩
    rw [hreloads]
    exact load_saved_iff hrfc hdir hread rfl hidem

/-- The library as the grammar and the deserialization describe it. -/
def rfcFromStr (text : Str) : Except String Config :=
  match (Json.parse text).bind Config.ofJson with
  | some config => .ok config
  | none => .error "invalid configuration"

theorem rfcFromStr_followsRfc : FollowsRfc rfcFromStr := by
  intro text
  unfold rfcFromStr
  cases (Json.parse text).bind Config.ofJson <;> rfl

/-- A file with this text, for which no request fails. -/
def plainFile (content : String) : ConfigFile := ⟨some (asBytes content.toList), fun _ => none⟩

/-- Only the mode is given, and it is out of range. -/
def unknownModeFile : ConfigFile := plainFile "\x7b\"savemode\":7\x7d"

theorem load_again_iff_unknownMode :
    (load [] 0 rfcFromStr (load [] 0 rfcFromStr unknownModeFile).2).1 = .ok Config.default ∧
      rfcFromStr (stripJsonComments (formatConfigWithComments Config.default)) =
        .ok Config.default := by
  have hagain := load_again_iff rfcFromStr_followsRfc [] 0
  have hpair {out : Except Error Config × ConfigFile} (h : out.1 = .ok Config.default) :
      out = (.ok Config.default, out.2) := Prod.ext h rfl
  have hfirst : (load [] 0 rfcFromStr unknownModeFile).1 = .ok Config.default := by
    decide +kernel
  refine ⟨?_, (hagain.2 Config.default (by decide) (by decide)).mpr ⟨by decide, by decide⟩⟩
  obtain ⟨content, parsed, hcontents, hparsed, hiff⟩ :=
    hagain.1 unknownModeFile _ Config.default (Option.some_ne_none _) (hpair hfirst)
  have hcontent : "\x7b\"savemode\":7\x7d".toList = content :=
    asBytes_injective (Option.some.inj hcontents)
  have hdenoted : rfcFromStr (stripJsonComments "\x7b\"savemode\":7\x7d".toList) =
      .ok { Config.default with savemode := 7 } := by decide +kernel
  rw [← hcontent, hdenoted] at hparsed
  cases hparsed
  exact hiff.mpr fun _ => ⟨.inr (by decide), by decide⟩

/-- The version has the character U+0001, escaped in the file that the user wrote. -/
def controlConfig : Config := { Config.default with version := ['a', '\x01'] }

def controlFile : ConfigFile :=
  plainFile "\x7b\"version\":\"a\\u0001\",\"savemode\":3\x7d"

/-- The first load rewrites the file and the second one rejects it; and a configuration with
savemode 2 that normalizing leaves alone is not what its saved text denotes. -/
theorem load_again_control :
    (load [] 0 rfcFromStr controlFile).1 = .ok controlConfig ∧
      (load [] 0 rfcFromStr (load [] 0 rfcFromStr controlFile).2).1 =
        .error (.jsonError "invalid configuration") ∧
      normalizeSupportedVersion [] 0 controlConfig = controlConfig ∧ controlConfig.savemode ≤ 2 ∧
      rfcFromStr (stripJsonComments (formatConfigWithComments controlConfig)) ≠
        .ok controlConfig := by
  refine ⟨?_, ?_, ?_, ?_, ?_⟩
  all_goals decide +kernel

end SkinGetBE
