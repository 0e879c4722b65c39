import SkinGetBE.FreeStems
import SkinGetBE.SavesApart
import SkinGetBE.SkinImage
import SkinGetBE.LoginCapture

/-!
# What captures leave

A capture leaves its image, and a sidecar unless that is refused. The image is read
back as the skin of the login, and under a free stem it takes the place of no file.
-/
namespace SkinGetBE
open Octets Text

/-- A login that was parsed, with its skin. -/
structure ParsedSkin (engines : Base64Engines) (parsed : ParsedLoginPacket)
    (skin : ExtractedSkin) : Prop where
  login : ∃ data, parseLoginPacket engines data = some (.ok (some parsed))
  skin : ExtractedSkin.new parsed.skinWidth parsed.skinHeight parsed.skinData = .ok skin

/-- What is saved of a login. -/
def captureOf (parsed : ParsedLoginPacket) (skin : ExtractedSkin) : LoginCapture :=
  ⟨parsed.playerName, parsed.skinId, parsed.metadata, skin⟩

/-- A file that is short enough for a chunk is read as the image of the skin. -/
def Depicts (contents : Bytes) (skin : ExtractedSkin) : Prop :=
  contents.length < 2 ^ 32 → Png.read contents = some ⟨skin.width, skin.height, skin.data⟩

/-- What a capture leaves in the directory. The image is alone when the sidecar is refused, by the
JSON writer or by the directory. -/
inductive SavedCapture (tools : CaptureTools) (fs : FileSystem) (skinsDir : Str)
    (capture : LoginCapture) : List (Str × Bytes) → Prop
  | image (stem : Str) (png : Bytes) (h : Depicts png capture.skin)
      (hrefused : ∀ text, tools.toVecPretty ⟨capture.playerName, capture.skinId,
        capture.skin.width, capture.skin.height, capture.metadata⟩ = .ok text →
          ∃ e, fs.write (jsonPath skinsDir stem) text = .error e) :
      SavedCapture tools fs skinsDir capture [(pngPath skinsDir stem, png)]
  | pair (stem : Str) (png text : Bytes) (h : Depicts png capture.skin)
      (htext : tools.toVecPretty ⟨capture.playerName, capture.skinId, capture.skin.width,
        capture.skin.height, capture.metadata⟩ = .ok text) :
      SavedCapture tools fs skinsDir capture
        [(pngPath skinsDir stem, png), (jsonPath skinsDir stem, text)]

/-- The contents that were last written to a path. -/
def FileSystem.lastWritten (fs : FileSystem) (path : Str) : Option Bytes :=
  fs.written.reverse.lookup path

/-- The files are written on top of those that there were. -/
structure Adds (fs fs' : FileSystem) (files : List (Str × Bytes)) : Prop where
  present : fs'.present = fs.present
  denied : fs'.denied = fs.denied
  written : fs'.written = fs.written ++ files

/-- The directory has gained the files of the saves, each of which is that of a login. While
captures are numbered, no file was there before or is written twice. -/
structure SavedCaptures (engines : Base64Engines) (tools : CaptureTools) (baseDir : Str)
    (savemode : ℕ) (fs₀ fs : FileSystem) (saves : List (List (Str × Bytes))) : Prop where
  adds : Adds fs₀ fs saves.flatten
  captured : ∀ files ∈ saves, ∃ parsed skin, ParsedSkin engines parsed skin ∧
    SavedCapture tools fs₀ (skinsDirOf baseDir) (captureOf parsed skin) files
  off : savemode = 0 → saves = []
  apart : savemode ≠ 0 → savemode ≠ 1 → (saves.flatten.map Prod.fst).Nodup ∧
    ∀ e ∈ saves.flatten, fs₀.pathExists e.1 = false

variable {engines : Base64Engines} {tools : CaptureTools} {baseDir : Str}
  {parsed : ParsedLoginPacket} {skin : ExtractedSkin} {fs fs' : FileSystem}

theorem declaredDimension_lt {skinJson key : Str} {size : ℕ}
    (h : declaredDimension skinJson key = some size) : size < 2 ^ 32 := by
  unfold declaredDimension at h
  obtain ⟨value, -, hsize⟩ := Option.bind_eq_some_iff.mp h
  rw [Option.some.injEq] at hsize
  subst hsize
  cases hparse : value.bind parseU32 with
  | none => exact Nat.two_pow_pos 32
  | some n =>
    obtain ⟨digits, -, hdigits⟩ := Option.bind_eq_some_iff.mp hparse
    unfold parseU32 at hdigits
    exact of_decide_eq_true (Option.filter_eq_some_iff.mp hdigits).2

theorem inferDimensions_range (pixels : ℕ) :
    (0 < (inferDimensions pixels).1 ∧ (inferDimensions pixels).1 ≤ 2 ^ 7) ∧
      0 < (inferDimensions pixels).2 ∧ (inferDimensions pixels).2 < 2 ^ 32 := by
  unfold inferDimensions
  split_ifs
  · decide
  · decide
  · decide
  · decide
  · dsimp only
    refine ⟨by decide, ?_⟩
    split_ifs
    · decide
    · omega

/-- The sizes of the skin are those of its data. -/
theorem ParsedSkin.sizes (h : ParsedSkin engines parsed skin) (he : engines.Shrink) :
    skin.width * skin.height * 4 = skin.data.length ∧ (0 < skin.width ∧ skin.width < 2 ^ 32) ∧
      (0 < skin.height ∧ skin.height < 2 ^ 32) ∧ skin.data.length < 2 ^ 62 := by
  obtain ⟨data, hparse⟩ := h.login
  obtain ⟨fields, _, imgW, imgH, hf, hr, hdata, hw, hh, -, -, hsize⟩ := parsed_fields hparse
  obtain ⟨-, -, -, -, -, hmod, hlen⟩ := carriesSkin_of_parsed he hparse
  have hskin := h.skin
  unfold ExtractedSkin.new at hskin
  split_ifs at hskin with hdiffer
  · rw [Except.ok.injEq] at hskin
    subst hskin
    rw [not_not] at hdiffer
    dsimp only
    unfold skinDimensions at hsize
    by_cases hinfer : imgW = 0 ∨ imgH = 0 ∨ imgW * imgH ≠ parsed.skinData.length / 4
    · rw [if_pos hinfer, Prod.ext_iff] at hsize
      dsimp only at hsize
      obtain ⟨⟨hw0, hw7⟩, hh0, hh32⟩ := inferDimensions_range (parsed.skinData.length / 4)
      rw [← hsize.1] at hw0 hw7
      rw [← hsize.2] at hh0 hh32
      have hproduct : parsed.skinWidth * parsed.skinHeight ≤ 2 ^ 7 * 2 ^ 32 :=
        Nat.mul_le_mul hw7 hh32.le
      have hexact : usize (parsed.skinWidth * parsed.skinHeight * 4) =
          parsed.skinWidth * parsed.skinHeight * 4 := Nat.mod_eq_of_lt (by omega)
      exact ⟨(hdiffer.trans hexact).symm, ⟨hw0, by omega⟩, ⟨hh0, hh32⟩, hlen⟩
    · rw [if_neg hinfer, Prod.ext_iff] at hsize
      dsimp only at hsize
      push Not at hinfer
      have hw32 := declaredDimension_lt hw
      have hh32 := declaredDimension_lt hh
      rw [hsize.1, hsize.2]
      refine ⟨?_, ⟨?_, hw32⟩, ⟨?_, hh32⟩, hlen⟩
      · rw [hinfer.2.2]
        omega
      · exact Nat.pos_of_ne_zero hinfer.1
      · exact Nat.pos_of_ne_zero hinfer.2.1

theorem ParsedSkin.room (h : ParsedSkin engines parsed skin) (he : engines.Shrink) :
    skin.data.length + skin.height ≤ isizeMax := by
  obtain ⟨hsizes, ⟨hw, -⟩, -, hlen⟩ := h.sizes he
  have hheight : skin.height ≤ skin.width * skin.height := Nat.le_mul_of_pos_left _ hw
  unfold isizeMax
  omega

/-- The encoder does not panic on the skin of a login. -/
theorem ParsedSkin.encodes (h : ParsedSkin engines parsed skin) (he : engines.Shrink)
    (tools : CaptureTools) : encodePngRgba tools skin.data skin.width skin.height ≠ none := by
  rw [encodePngRgba_eq tools (h.sizes he).1 (h.room he)]
  cases tools.flate.zlibEncode (Png.filterRows (skin.width * 4) skin.height skin.data) with
  | error e => exact Option.some_ne_none _
  | ok compressed => exact Option.some_ne_none _

theorem ParsedSkin.depicts (h : ParsedSkin engines parsed skin) (he : engines.Shrink)
    (htools : tools.Standard) {png : Bytes}
    (hpng : encodePngRgba tools skin.data skin.width skin.height = some (.ok png)) :
    Depicts png skin := by
  intro hshort
  obtain ⟨hsizes, ⟨hw, hw32⟩, ⟨hh, hh32⟩, -⟩ := h.sizes he
  cases hz : tools.flate.zlibEncode (Png.filterRows (skin.width * 4) skin.height skin.data) with
  | error e =>
    rw [encodePngRgba_eq tools hsizes (h.room he), hz] at hpng
    cases hpng
  | ok compressed =>
    rw [encodePngRgba_chunks htools.checksum hsizes (h.room he) hz, Option.some.injEq,
      Except.ok.injEq] at hpng
    subst hpng
    have hcompressed : compressed.length < 2 ^ 32 := by
      refine lt_of_le_of_lt ?_ hshort
      simp only [List.length_append, Png.chunkOctets]
      omega
    have hrows : skin.data.length = skin.height * (skin.width * 4) := by
      rw [← hsizes]
      ring
    exact Png.read_image hw hh hw32 hh32 hrows hcompressed (htools.zlib _ _ hz)

theorem adds_write {path : Str} {contents : Bytes} (h : fs.write path contents = .ok fs') :
    Adds fs fs' [(path, contents)] := by
  unfold FileSystem.write at h
  split at h
  · cases h
  · cases h
    exact ⟨rfl, rfl, rfl⟩

theorem Adds.refl (fs : FileSystem) : Adds fs fs [] := ⟨rfl, rfl, (List.append_nil _).symm⟩

theorem Adds.trans {fs₁ : FileSystem} {a b : List (Str × Bytes)} (h : Adds fs fs₁ a)
    (h' : Adds fs₁ fs' b) : Adds fs fs' (a ++ b) :=
  ⟨h'.present.trans h.present, h'.denied.trans h.denied,
    by rw [h'.written, h.written, List.append_assoc]⟩

theorem Adds.pathExists {files : List (Str × Bytes)} (h : Adds fs fs' files) (path : Str) :
    fs'.pathExists path = true ↔ fs.pathExists path = true ∨ path ∈ files.map Prod.fst := by
  unfold FileSystem.pathExists
  rw [h.present, h.written, List.map_append]
  simp [or_assoc]

/-- In a directory that was empty there is what has been written. -/
theorem Adds.listed {files : List (Str × Bytes)} (h : Adds .empty fs files) {path : Str}
    (hpath : fs.pathExists path = true) : path ∈ fs.written.map Prod.fst := by
  unfold FileSystem.pathExists at hpath
  rw [h.present] at hpath
  exact List.contains_iff_mem.mp hpath

/-- What is written under one stem. -/
structure Under (skinsDir stem : Str) (files : List (Str × Bytes)) : Prop where
  paths : ∀ e ∈ files, e.1 = pngPath skinsDir stem ∨ e.1 = jsonPath skinsDir stem
  nodup : (files.map Prod.fst).Nodup

/-- The directory refuses what it refused before. -/
theorem Adds.refuses {files : List (Str × Bytes)} (h : Adds fs fs' files) {path : Str}
    {contents : Bytes} {e : Error} (hwrite : fs'.write path contents = .error e) :
    fs.write path contents = .error e := by
  unfold FileSystem.write at hwrite ⊢
  rw [h.denied] at hwrite
  cases hdenied : fs.denied (.write path) with
  | none =>
    rw [hdenied] at hwrite
    cases hwrite
  | some message =>
    rw [hdenied] at hwrite
    cases hwrite
    rfl

/-- A save writes nothing, or all that a capture leaves. -/
theorem writeCapture_saved (hskin : ParsedSkin engines parsed skin) (he : engines.Shrink)
    (htools : tools.Standard) {stem : Str} (hstem : Unreserved stem)
    {result : Except Error (Option Str)}
    (h : writeCapture tools fs (skinsDirOf baseDir) stem (captureOf parsed skin) =
      some (result, fs')) :
    fs' = fs ∨ ∃ files, Adds fs fs' files ∧
      SavedCapture tools fs (skinsDirOf baseDir) (captureOf parsed skin) files ∧
      Under (skinsDirOf baseDir) stem files := by
  have hone : ∀ {png : Bytes}, Under (skinsDirOf baseDir) stem
      [(pngPath (skinsDirOf baseDir) stem, png)] := fun {png} =>
    ⟨fun e he => .inl (List.mem_singleton.mp he ▸ rfl), List.nodup_singleton _⟩
  cases writeCapture_outcome h with
  | unencoded e => exact .inl rfl
  | imageRefused png e => exact .inl rfl
  | untextual png fs₁ e hencode himage htext =>
    refine .inr ⟨_, adds_write himage, .image stem png (hskin.depicts he htools hencode) ?_, hone⟩
    intro text hwritten
    cases htext.symm.trans hwritten
  | sidecarRefused png text fs₁ e hencode himage htext hsidecar =>
    refine .inr ⟨_, adds_write himage, .image stem png (hskin.depicts he htools hencode) ?_, hone⟩
    intro text' hwritten
    obtain rfl := Except.ok.inj (htext.symm.trans hwritten)
    exact ⟨e, (adds_write himage).refuses hsidecar⟩
  | written png text fs₁ fs₂ hencode himage htext hsidecar =>
    refine .inr ⟨_, (adds_write himage).trans (adds_write hsidecar),
      .pair stem png text (hskin.depicts he htools hencode) htext, fun e he => ?_, ?_⟩
    · rcases List.mem_cons.mp he with rfl | he
      · exact .inl rfl
      · exact .inr (List.mem_singleton.mp he ▸ rfl)
    · have hne := @pngPath_ne_jsonPath baseDir stem stem hstem hstem
      simpa using hne

/-- What a capture leaves in a directory, it could have left there earlier. -/
theorem SavedCapture.earlier {skinsDir : Str} {capture : LoginCapture}
    {before files : List (Str × Bytes)} (h : SavedCapture tools fs' skinsDir capture files)
    (hadds : Adds fs fs' before) : SavedCapture tools fs skinsDir capture files := by
  cases h with
  | image stem png h hrefused =>
    refine .image stem png h fun text htext => ?_
    obtain ⟨e, he⟩ := hrefused text htext
    exact ⟨e, hadds.refuses he⟩
  | pair stem png text h htext => exact .pair stem png text h htext

/-- A stem that the search returns is free. -/
theorem stemIsFree_of_returns {skinsDir baseName stem : Str}
    (h : ReturnsStem fs skinsDir baseName stem) : stemIsFree fs skinsDir stem = true := by
  cases h.first with
  | plain hfree => exact hfree
  | numbered k _ hfirst => exact hfirst.accepted

/-- A save writes nothing, or it writes the files of a stem, which is free when captures are
numbered. -/
inductive SaveOutcome (tools : CaptureTools) (fs : FileSystem) (baseDir : Str)
    (capture : LoginCapture) (savemode : ℕ) : Except Error (Option Str) → FileSystem → Prop
  | refused {result : Except Error (Option Str)} :
      SaveOutcome tools fs baseDir capture savemode result fs
  | written {result : Except Error (Option Str)} {fs' : FileSystem} (stem : Str)
      (hstem : Unreserved stem) (hmode : savemode ≠ 0)
      (hfree : savemode ≠ 1 → stemIsFree fs (skinsDirOf baseDir) stem = true)
      (hwrite : writeCapture tools fs (skinsDirOf baseDir) stem capture = some (result, fs')) :
      SaveOutcome tools fs baseDir capture savemode result fs'

theorem saveLoginCapture_cases {capture : LoginCapture} {savemode : ℕ}
    {result : Except Error (Option Str)}
    (h : saveLoginCapture tools fs baseDir capture savemode = some (result, fs')) :
    SaveOutcome tools fs baseDir capture savemode result fs' := by
  have hbase := captureBaseName_unreserved capture.playerName capture.skinId
  unfold saveLoginCapture at h
  by_cases hmode : savemode = 0
  · rw [if_pos hmode] at h
    cases h
    exact .refused
  · rw [if_neg hmode] at h
    dsimp only at h
    cases hdir : fs.createDirAll (skinsDirOf baseDir) with
    | error e =>
      rw [hdir] at h
      cases h
      exact .refused
    | ok u =>
      rw [hdir] at h
      dsimp only at h
      by_cases hone : savemode = 1
      · rw [if_pos hone] at h
        exact .written _ hbase hmode (fun hne => absurd hone hne) h
      · rw [if_neg hone, Option.bind_eq_bind, Option.bind_eq_some_iff] at h
        obtain ⟨stem, hstem, hwrite⟩ := h
        exact .written stem (nextAvailableStem_unreserved hbase hstem) hmode
          (fun _ => stemIsFree_of_returns (nextAvailableStem_eq_some_iff.mp hstem)) hwrite

theorem writeCapture_adds {skinsDir stem : Str} {capture : LoginCapture}
    {result : Except Error (Option Str)}
    (h : writeCapture tools fs skinsDir stem capture = some (result, fs')) :
    ∃ files, Adds fs fs' files := by
  cases writeCapture_outcome h with
  | unencoded e => exact ⟨[], .refl _⟩
  | imageRefused png e => exact ⟨[], .refl _⟩
  | untextual png fs₁ e hencode himage => exact ⟨_, adds_write himage⟩
  | sidecarRefused png text fs₁ e hencode himage => exact ⟨_, adds_write himage⟩
  | written png text fs₁ fs₂ hencode himage htext hsidecar =>
    exact ⟨_, (adds_write himage).trans (adds_write hsidecar)⟩

theorem saveLoginCapture_adds {capture : LoginCapture} {savemode : ℕ}
    {result : Except Error (Option Str)}
    (h : saveLoginCapture tools fs baseDir capture savemode = some (result, fs')) :
    ∃ files, Adds fs fs' files := by
  cases saveLoginCapture_cases h with
  | refused => exact ⟨[], .refl _⟩
  | written stem _ _ _ hwrite => exact writeCapture_adds hwrite

/-- With fewer than `2 ^ 32` files every save of a login returns. -/
theorem ParsedSkin.saves (h : ParsedSkin engines parsed skin) (he : engines.Shrink)
    {paths : Finset Str} (hpaths : ∀ path, fs.pathExists path = true → path ∈ paths)
    (hfew : paths.card < 2 ^ 32) (tools : CaptureTools) (baseDir : Str) (savemode : ℕ) :
    saveLoginCapture tools fs baseDir (captureOf parsed skin) savemode ≠ none := by
  have hwrite : ∀ stem,
      writeCapture tools fs (skinsDirOf baseDir) stem (captureOf parsed skin) ≠ none := by
    intro stem
    obtain ⟨encoded, hencoded⟩ := Option.ne_none_iff_exists'.mp (h.encodes he tools)
    unfold writeCapture captureOf
    rw [hencoded, Option.bind_eq_bind, Option.bind_some]
    repeat' split
    all_goals exact Option.some_ne_none _
  unfold saveLoginCapture
  by_cases hmode : savemode = 0
  · rw [if_pos hmode]
    exact Option.some_ne_none _
  · rw [if_neg hmode]
    dsimp only
    cases fs.createDirAll (skinsDirOf baseDir) with
    | error e => exact Option.some_ne_none _
    | ok u =>
      dsimp only
      by_cases hone : savemode = 1
      · rw [if_pos hone]
        exact hwrite _
      · obtain ⟨stem, hsearch⟩ := searchStem_of_few hpaths hfew (skinsDirOf baseDir)
          (captureBaseName (captureOf parsed skin).playerName (captureOf parsed skin).skinId)
        rw [if_neg hone, nextAvailableStem_eq_some_iff.mpr ⟨_, hsearch⟩]
        exact hwrite stem

theorem SavedCaptures.refl (engines : Base64Engines) (tools : CaptureTools) (baseDir : Str)
    (savemode : ℕ) (fs : FileSystem) : SavedCaptures engines tools baseDir savemode fs fs [] where
  adds := .refl fs
  captured _ h := absurd h List.not_mem_nil
  off _ := rfl
  apart _ _ := ⟨List.nodup_nil, fun _ h => absurd h List.not_mem_nil⟩

variable {savemode : ℕ} {fs₀ : FileSystem} {saves : List (List (Str × Bytes))}

theorem Under.missing {skinsDir stem : Str} {files : List (Str × Bytes)}
    (h : Under skinsDir stem files) (hfree : stemIsFree fs skinsDir stem = true) :
    ∀ e ∈ files, fs.pathExists e.1 = false := by
  unfold stemIsFree at hfree
  rw [Bool.and_eq_true, Bool.not_eq_true', Bool.not_eq_true'] at hfree
  intro e he
  rcases h.paths e he with hpath | hpath
  · rw [hpath, hfree.1]
  · rw [hpath, hfree.2]

/-- A capture that writes its files under a stem. -/
theorem SavedCaptures.add (h : SavedCaptures engines tools baseDir savemode fs₀ fs saves)
    (hskin : ParsedSkin engines parsed skin) {stem : Str} (hmode : savemode ≠ 0)
    (hfree : savemode ≠ 1 → stemIsFree fs (skinsDirOf baseDir) stem = true)
    {files : List (Str × Bytes)} (hadds : Adds fs fs' files)
    (hfiles : SavedCapture tools fs (skinsDirOf baseDir) (captureOf parsed skin) files)
    (hunder : Under (skinsDirOf baseDir) stem files) :
    SavedCaptures engines tools baseDir savemode fs₀ fs' (saves ++ [files]) := by
  have hflatten : (saves ++ [files]).flatten = saves.flatten ++ files := by simp
  refine ⟨?_, fun saved hsaved => ?_, fun hoff => absurd hoff hmode, fun _ hone => ?_⟩
  · rw [hflatten]
    exact h.adds.trans hadds
  · rcases List.mem_append.mp hsaved with hold | hnew
    · exact h.captured saved hold
    · rw [List.mem_singleton.mp hnew]
      exact ⟨parsed, skin, hskin, hfiles.earlier h.adds⟩
  · obtain ⟨hnodup, hnew⟩ := h.apart hmode hone
    have hmissing := hunder.missing (hfree hone)
    have hold : ∀ e ∈ files, ¬ (fs₀.pathExists e.1 = true ∨ e.1 ∈ saves.flatten.map Prod.fst) := by
      intro e hefiles hexists
      rw [← h.adds.pathExists, hmissing e hefiles] at hexists
      cases hexists
    rw [hflatten, List.map_append, List.nodup_append]
    refine ⟨⟨hnodup, hunder.nodup, fun a ha b hb hab => ?_⟩, fun e hefiles => ?_⟩
    · obtain ⟨e, hefiles, rfl⟩ := List.mem_map.mp hb
      exact hold e hefiles (.inr (hab ▸ ha))
    · rcases List.mem_append.mp hefiles with hbefore | hlast
      · exact hnew e hbefore
      · exact Bool.eq_false_of_not_eq_true fun hexists => hold e hlast (.inl hexists)

/-- A save adds one capture at most. -/
theorem SavedCaptures.save (h : SavedCaptures engines tools baseDir savemode fs₀ fs saves)
    (hskin : ParsedSkin engines parsed skin) (he : engines.Shrink) (htools : tools.Standard)
    {result : Except Error (Option Str)}
    (hsave : saveLoginCapture tools fs baseDir (captureOf parsed skin) savemode =
      some (result, fs')) :
    ∃ saves', SavedCaptures engines tools baseDir savemode fs₀ fs' saves' := by
  cases saveLoginCapture_cases hsave with
  | refused => exact ⟨saves, h⟩
  | written stem hstem hmode hfree hwrite =>
    rcases writeCapture_saved hskin he htools hstem hwrite with rfl | ⟨files, hadds, hfiles, hunder⟩
    · exact ⟨saves, h⟩
    · exact ⟨_, h.add hskin hmode hfree hadds hfiles hunder⟩

theorem lookup_of_nodup {entries : List (Str × Bytes)} (h : (entries.map Prod.fst).Nodup)
    {e : Str × Bytes} (he : e ∈ entries) : entries.lookup e.1 = some e.2 := by
  induction entries with
  | nil => exact absurd he List.not_mem_nil
  | cons entry entries ih =>
    obtain ⟨path, contents⟩ := entry
    rw [List.map_cons, List.nodup_cons] at h
    rcases List.mem_cons.mp he with rfl | hrest
    · exact List.lookup_cons_self
    · have hmem : e.1 ∈ entries.map Prod.fst := List.mem_map_of_mem hrest
      have hne : (e.1 == path) = false := beq_eq_false_iff_ne.mpr fun heq => h.1 (heq ▸ hmem)
      rw [List.lookup_cons, hne]
      exact ih h.2 hrest

/-- While captures are numbered, every file holds what was written to it. -/
theorem SavedCaptures.lasts (h : SavedCaptures engines tools baseDir savemode fs₀ fs saves)
    (hmode : savemode ≠ 0) (hone : savemode ≠ 1) {e : Str × Bytes} (he : e ∈ saves.flatten) :
    fs.lastWritten e.1 = some e.2 := by
  obtain ⟨hnodup, -⟩ := h.apart hmode hone
  have hreverse : (saves.flatten.reverse.map Prod.fst).Nodup := by
    rw [List.map_reverse]
    exact List.nodup_reverse.mpr hnodup
  unfold FileSystem.lastWritten
  rw [h.adds.written, List.reverse_append, List.lookup_append,
    lookup_of_nodup hreverse (List.mem_reverse.mpr he)]
  rfl

end SkinGetBE
