import SkinGetBE.LoginCapture
import SkinGetBE.LoginNames
import SkinGetBE.SavesApart

/-!
# The names of overwritten captures

In the mode that overwrites, the name of a player and the id of a skin are joined by
an underscore, which may stand in either of them. Two captures share their files
exactly when the joined names are equal.
-/
namespace SkinGetBE
open Octets Text

theorem sanitizeChar_of_unreserved {c : Char} (h : c ∉ reservedChars) : sanitizeChar c = c := by
  unfold sanitizeChar
  split
  case h_10 => rfl
  all_goals exact absurd (by decide) h

theorem sanitizeComponent_of_unreserved {name : Str} (h : Unreserved name) :
    sanitizeComponent name = name :=
  (List.map_congr_left fun c hc => sanitizeChar_of_unreserved (h c hc)).trans (List.map_id' name)

theorem playerNameFrom_unreserved (payloads : List Str) : Unreserved (playerNameFrom payloads) := by
  unfold playerNameFrom
  cases payloads.findSome? writtenName with
  | none => exact (by decide : Unreserved "UnknownPlayer".toList)
  | some name => exact sanitizeComponent_unreserved name

/-- The names of a parsed login have been through the sanitizer. -/
theorem parsed_unreserved {engines : Base64Engines} {data : Bytes} {p : ParsedLoginPacket}
    (h : parseLoginPacket engines data = some (.ok (some p))) :
    Unreserved p.playerName ∧ Unreserved p.skinId := by
  obtain ⟨_, skinId, _, _, -, -, -, -, -, hname, hskinId, -⟩ := parsed_fields h
  constructor
  · rw [hname, playerNameOf_eq]
    exact playerNameFrom_unreserved _
  · rw [hskinId]
    cases skinId with
    | none => exact fun c hc => absurd hc List.not_mem_nil
    | some id => exact sanitizeComponent_unreserved id

/-- The first name goes on where the second one ends, and the second id begins with the rest. -/
def Continues (player skin player' skin' : Str) : Prop :=
  ∃ rest, player = player' ++ '_' :: rest ∧ skin' = rest ++ '_' :: skin

/-- The pairs are equal, or the name of one continues that of the other. -/
def JoinAlike (player skin player' skin' : Str) : Prop :=
  (player = player' ∧ skin = skin') ∨ Continues player skin player' skin' ∨
    Continues player' skin' player skin

theorem join_eq_iff (player skin player' skin' : Str) :
    player ++ '_' :: skin = player' ++ '_' :: skin' ↔ JoinAlike player skin player' skin' := by
  constructor
  · intro h
    rcases List.append_eq_append_iff.mp h with ⟨rest, hplayer, hskin⟩ | ⟨rest, hplayer, hskin⟩
    · cases rest with
      | nil =>
        rw [List.nil_append, List.cons.injEq] at hskin
        exact .inl ⟨(hplayer.trans (List.append_nil _)).symm, hskin.2⟩
      | cons c rest =>
        rw [List.cons_append, List.cons.injEq] at hskin
        exact .inr (.inr ⟨rest, hskin.1 ▸ hplayer, hskin.2⟩)
    · cases rest with
      | nil =>
        rw [List.nil_append, List.cons.injEq] at hskin
        exact .inl ⟨hplayer.trans (List.append_nil _), hskin.2.symm⟩
      | cons c rest =>
        rw [List.cons_append, List.cons.injEq] at hskin
        exact .inr (.inl ⟨rest, hskin.1 ▸ hplayer, hskin.2⟩)
  · rintro (⟨rfl, rfl⟩ | ⟨rest, rfl, rfl⟩ | ⟨rest, rfl, rfl⟩)
    · rfl
    · rw [List.append_assoc, List.cons_append]
    · rw [List.append_assoc, List.cons_append]

theorem captureBaseName_eq_iff {player skin player' skin' : Str} (hp : Unreserved player)
    (hs : Unreserved skin) (hp' : Unreserved player') (hs' : Unreserved skin') :
    captureBaseName player skin = captureBaseName player' skin' ↔
      JoinAlike player skin player' skin' := by
  unfold captureBaseName
  rw [sanitizeComponent_of_unreserved hp, sanitizeComponent_of_unreserved hs,
    sanitizeComponent_of_unreserved hp', sanitizeComponent_of_unreserved hs']
  exact join_eq_iff player skin player' skin'

/-- The paths that were written between two states of the file system. -/
def writtenPaths (fs fs' : FileSystem) : List Str :=
  (fs'.written.drop fs.written.length).map Prod.fst

section Overwrite

variable {tools : CaptureTools} {fs fs' : FileSystem} {baseDir : Str} {capture : LoginCapture}
  {result : Except Error (Option Str)}

theorem writtenPaths_self (fs : FileSystem) : writtenPaths fs fs = [] := by
  unfold writtenPaths
  rw [List.drop_length, List.map_nil]

theorem writtenPaths_eq {files : List (Str × Bytes)} (h : fs'.written = fs.written ++ files) :
    writtenPaths fs fs' = files.map Prod.fst := by
  unfold writtenPaths
  rw [h, List.drop_left]

/-- A call that overwrites writes the image and then the sidecar of the joined names, and returns
the path of the image behind the write. -/
theorem overwrite_paths (h : saveLoginCapture tools fs baseDir capture 1 = some (result, fs')) :
    let stem := captureBaseName capture.playerName capture.skinId
    writtenPaths fs fs' <+:
      [pngPath (skinsDirOf baseDir) stem, jsonPath (skinsDirOf baseDir) stem] ∧
      ∀ path, result = .ok (some path) →
        path = pngPath (skinsDirOf baseDir) stem ∧ path ∈ writtenPaths fs fs' := by
  dsimp only
  unfold saveLoginCapture at h
  rw [if_neg Nat.one_ne_zero] at h
  dsimp only at h
  cases hdir : fs.createDirAll (skinsDirOf baseDir) with
  | error e =>
    rw [hdir] at h
    cases h
    rw [writtenPaths_self]
    exact ⟨List.nil_prefix, fun path hpath => by cases hpath⟩
  | ok u =>
    rw [hdir] at h
    dsimp only at h
    rw [if_pos rfl] at h
    cases writeCapture_outcome h with
    | unencoded e hencode =>
      rw [writtenPaths_self]
      exact ⟨List.nil_prefix, fun path hpath => by cases hpath⟩
    | imageRefused png e hencode himage =>
      rw [writtenPaths_self]
      exact ⟨List.nil_prefix, fun path hpath => by cases hpath⟩
    | untextual png fs₁ e hencode himage htext =>
      rw [writtenPaths_eq (FileSystem.written_write himage)]
      exact ⟨⟨_, rfl⟩, fun path hpath => by cases hpath⟩
    | sidecarRefused png text fs₁ e hencode himage htext hsidecar =>
      rw [writtenPaths_eq (FileSystem.written_write himage)]
      refine ⟨⟨_, rfl⟩, fun path hpath => ?_⟩
      cases hpath
      exact ⟨rfl, List.mem_cons_self⟩
    | written png text fs₁ fs₂ hencode himage htext hsidecar =>
      have hwritten := FileSystem.written_write hsidecar
      rw [FileSystem.written_write himage, List.append_assoc] at hwritten
      rw [writtenPaths_eq hwritten]
      refine ⟨List.prefix_refl _, fun path hpath => ?_⟩
      cases hpath
      exact ⟨rfl, List.mem_cons_self⟩

end Overwrite

/-- Two captures of logins, written in the mode that overwrites, share no file unless their names
join alike. Then they share the image, when both get to write it. -/
theorem overwrite_shares_iff (engines : Base64Engines) (data data' : Bytes)
    (p p' : ParsedLoginPacket) (hp : parseLoginPacket engines data = some (.ok (some p)))
    (hp' : parseLoginPacket engines data' = some (.ok (some p'))) (tools : CaptureTools)
    (baseDir : Str) (metadata metadata' : LoginMetadata) (skin skin' : ExtractedSkin)
    (fs saved fs' saved' : FileSystem) (result result' : Except Error (Option Str))
    (h : saveLoginCapture tools fs baseDir ⟨p.playerName, p.skinId, metadata, skin⟩ 1 =
      some (result, saved))
    (h' : saveLoginCapture tools fs' baseDir ⟨p'.playerName, p'.skinId, metadata', skin'⟩ 1 =
      some (result', saved')) :
    (¬ JoinAlike p.playerName p.skinId p'.playerName p'.skinId →
      ∀ path ∈ writtenPaths fs saved, path ∉ writtenPaths fs' saved') ∧
    (JoinAlike p.playerName p.skinId p'.playerName p'.skinId →
      ∀ path path', result = .ok (some path) → result' = .ok (some path') →
        path = path' ∧ path ∈ writtenPaths fs saved ∧ path ∈ writtenPaths fs' saved') := by
  obtain ⟨hplayer, hskin⟩ := parsed_unreserved hp
  obtain ⟨hplayer', hskin'⟩ := parsed_unreserved hp'
  obtain ⟨hpaths, hresult⟩ := overwrite_paths h
  obtain ⟨hpaths', hresult'⟩ := overwrite_paths h'
  have hstem := captureBaseName_unreserved p.playerName p.skinId
  have hstem' := captureBaseName_unreserved p'.playerName p'.skinId
  have halike := captureBaseName_eq_iff hplayer hskin hplayer' hskin'
  dsimp only at hpaths hpaths' hresult hresult'
  constructor
  · intro hnot path hmem hmem'
    refine hnot (halike.mp ?_)
    have hin := hpaths.subset hmem
    have hin' := hpaths'.subset hmem'
    simp only [List.mem_cons, List.not_mem_nil, or_false] at hin hin'
    rcases hin with rfl | rfl
    · rcases hin' with hsame | hsame
      · exact pngPath_injective hstem hstem' hsame
      · exact absurd hsame (pngPath_ne_jsonPath hstem hstem')
    · rcases hin' with hsame | hsame
      · exact absurd hsame.symm (pngPath_ne_jsonPath hstem' hstem)
      · exact jsonPath_injective hstem hstem' hsame
  · intro hjoin path path' hpath hpath'
    obtain ⟨rfl, hmem⟩ := hresult path hpath
    obtain ⟨rfl, hmem'⟩ := hresult' path' hpath'
    have hsame := halike.mpr hjoin
    rw [hsame] at hmem ⊢
    exact ⟨rfl, hmem, hmem'⟩

/-- A Login with one pixel, of the given player with the given skin. -/
def namedLogin (player skinId : String) : Bytes :=
  let token (payload : String) : Str :=
    "h.".toList ++ Base64.urlSafe.encode (asBytes payload.toList) ++ ".s".toList
  loginPayload 975 .u32Le false
    ("\x7b\"chain\":[\"".toList ++ token ("\x7b\"xname\":\"" ++ player ++ "\"\x7d") ++
      "\"]\x7d".toList)
    (token ("\x7b\"SkinId\":\"" ++ skinId ++ "\",\"SkinData\":\"AQIDBA==\"\x7d"))

theorem namedLogin_parsed : (∃ p ∈ returned (parseLoginPacket strictEngines (namedLogin "a_b" "c")),
      p.playerName = "a_b".toList ∧ p.skinId = "c".toList) ∧
    ∃ p ∈ returned (parseLoginPacket strictEngines (namedLogin "a" "b_c")),
      p.playerName = "a".toList ∧ p.skinId = "b_c".toList := by
  decide +kernel

theorem pixel_encoded :
    ∃ png, encodePngRgba sampleTools [1, 2, 3, 4] 1 1 = some (.ok png) :=
  encodePngRgba_isOk sampleTools_infallible Nat.one_pos rfl (by decide)

theorem overwrite_ok {tools : CaptureTools} (ht : tools.Infallible) (fs : FileSystem)
    (hfs : fs.WritesSucceed) (baseDir : Str) (capture : LoginCapture)
    (hpng : ∃ png, encodePngRgba tools capture.skin.data capture.skin.width capture.skin.height =
      some (.ok png)) :
    ∃ saved, saveLoginCapture tools fs baseDir capture 1 = some (.ok (some (pngPath
      (skinsDirOf baseDir) (captureBaseName capture.playerName capture.skinId))), saved) ∧
      saved.WritesSucceed := by
  obtain ⟨png, hpng⟩ := hpng
  obtain ⟨text, htext⟩ := ht.sidecar ⟨capture.playerName, capture.skinId, capture.skin.width,
    capture.skin.height, capture.metadata⟩
  rw [saveLoginCapture_eq hfs baseDir capture Nat.one_ne_zero, if_pos rfl, Option.bind_some]
  unfold writeCapture
  simp only [hpng, FileSystem.write, hfs _, htext, Option.bind_eq_bind, Option.bind_some]
  exact ⟨_, rfl, hfs⟩

/-- The second capture replaces that of another player with another skin. -/
theorem overwrite_mixes : ∃ p p' path saved saved',
    parseLoginPacket strictEngines (namedLogin "a_b" "c") = some (.ok (some p)) ∧
    parseLoginPacket strictEngines (namedLogin "a" "b_c") = some (.ok (some p')) ∧
    p.playerName ≠ p'.playerName ∧ p.skinId ≠ p'.skinId ∧
    saveLoginCapture sampleTools .empty []
      ⟨p.playerName, p.skinId, p.metadata, ⟨1, 1, [1, 2, 3, 4]⟩⟩ 1 =
        some (.ok (some path), saved) ∧
    saveLoginCapture sampleTools saved []
      ⟨p'.playerName, p'.skinId, p'.metadata, ⟨1, 1, [1, 2, 3, 4]⟩⟩ 1 =
        some (.ok (some path), saved') := by
  obtain ⟨⟨p, hp, hplayer, hskin⟩, ⟨p', hp', hplayer', hskin'⟩⟩ := namedLogin_parsed
  obtain ⟨saved, hsaved, hfs⟩ := overwrite_ok sampleTools_infallible .empty (fun _ => rfl) []
    ⟨p.playerName, p.skinId, p.metadata, ⟨1, 1, [1, 2, 3, 4]⟩⟩ pixel_encoded
  obtain ⟨saved', hsaved', -⟩ := overwrite_ok sampleTools_infallible saved hfs []
    ⟨p'.playerName, p'.skinId, p'.metadata, ⟨1, 1, [1, 2, 3, 4]⟩⟩ pixel_encoded
  have hname : captureBaseName p.playerName p.skinId = captureBaseName p'.playerName p'.skinId := by
    rw [hplayer, hskin, hplayer', hskin']
    decide
  dsimp only at hsaved hsaved'
  rw [← hname] at hsaved'
  exact ⟨p, p', _, saved, saved', eq_of_returned hp, eq_of_returned hp',
    by rw [hplayer, hplayer']; decide, by rw [hskin, hskin']; decide, hsaved, hsaved'⟩

/-- The names of the two logins join alike. -/
theorem overwrite_shares_iff_two : ∃ p p' path path' saved saved',
    parseLoginPacket strictEngines (namedLogin "a_b" "c") = some (.ok (some p)) ∧
    parseLoginPacket strictEngines (namedLogin "a" "b_c") = some (.ok (some p')) ∧
    saveLoginCapture sampleTools .empty []
      ⟨p.playerName, p.skinId, p.metadata, ⟨1, 1, [1, 2, 3, 4]⟩⟩ 1 =
        some (.ok (some path), saved) ∧
    saveLoginCapture sampleTools .empty []
      ⟨p'.playerName, p'.skinId, p'.metadata, ⟨1, 1, [1, 2, 3, 4]⟩⟩ 1 =
        some (.ok (some path'), saved') ∧
    path = path' ∧ path ∈ writtenPaths .empty saved ∧ path ∈ writtenPaths .empty saved' := by
  obtain ⟨⟨p, hp, hplayer, hskin⟩, ⟨p', hp', hplayer', hskin'⟩⟩ := namedLogin_parsed
  obtain ⟨saved, hsaved, -⟩ := overwrite_ok sampleTools_infallible .empty (fun _ => rfl) []
    ⟨p.playerName, p.skinId, p.metadata, ⟨1, 1, [1, 2, 3, 4]⟩⟩ pixel_encoded
  obtain ⟨saved', hsaved', -⟩ := overwrite_ok sampleTools_infallible .empty (fun _ => rfl) []
    ⟨p'.playerName, p'.skinId, p'.metadata, ⟨1, 1, [1, 2, 3, 4]⟩⟩ pixel_encoded
  have halike : JoinAlike p.playerName p.skinId p'.playerName p'.skinId := by
    rw [hplayer, hskin, hplayer', hskin']
    exact .inr (.inl ⟨"b".toList, by decide, by decide⟩)
  exact ⟨p, p', _, _, saved, saved', eq_of_returned hp, eq_of_returned hp', hsaved, hsaved',
    (overwrite_shares_iff strictEngines _ _ p p' (eq_of_returned hp) (eq_of_returned hp') _ [] _ _
      _ _ .empty saved .empty saved' _ _ hsaved hsaved').2 halike _ _ rfl rfl⟩

end SkinGetBE
