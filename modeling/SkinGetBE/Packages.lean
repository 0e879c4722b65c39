import SkinGetBE.DecompressForms
import SkinGetBE.Skin
import SkinGetBE.StoredStreams

/-!
# Packages to run the program with

A compressor that writes the streams of the real one for a few short inputs and
stores the others, decoders for both formats, and the JSON writer of the sidecar.
-/
namespace SkinGetBE
open Octets Text

def sampleFlate : Flate2 :=
  { formatFlate with
    deflateEncode := fun data =>
      .ok (if data = [1, 1] then [0x63, 0x64, 0x04, 0x00] else Deflate.store data)
    zlibEncode := fun data =>
      .ok <|
        if data = [0, 0xff, 0xff, 0xff, 0xff] then
          [0x78, 0x9c, 0x63, 0xf8, 0x0f, 0x04, 0x00, 0x09, 0xfb, 0x03, 0xfd]
        else if data = [0, 1, 2, 3, 4] then
          [0x78, 0x9c, 0x63, 0x60, 0x64, 0x62, 0x66, 0x01, 0x00, 0x00, 0x19, 0x00, 0x0b]
        else if data = [0, 9, 8, 7, 255] then
          [0x78, 0x9c, 0x63, 0xe0, 0xe4, 0x60, 0xff, 0x0f, 0x00, 0x01, 0x4e, 0x01, 0x18]
        else Zlib.store data }

theorem sampleFlate_inverts : sampleFlate.DeflateInverts := by
  intro data
  refine ⟨_, rfl, formatFlate_readsFormats.deflate _ _ ?_⟩
  split_ifs with h
  · rw [h]
    unfold Deflate.IsStream
    decide +kernel
  · exact Deflate.isStream_store data

theorem sampleFlate_zlib {data compressed : Bytes}
    (h : sampleFlate.zlibEncode data = .ok compressed) : Zlib.IsStream compressed data := by
  unfold sampleFlate at h
  dsimp only at h
  rw [Except.ok.injEq] at h
  rw [← h]
  split_ifs with hwhite hone hnine
  · rw [hwhite]
    unfold Zlib.IsStream
    decide +kernel
  · rw [hone]
    unfold Zlib.IsStream
    decide +kernel
  · rw [hnine]
    unfold Zlib.IsStream
    decide +kernel
  · exact Zlib.isStream_store data

/-- A character between quotes. -/
def jsonChar (c : Char) : Str :=
  if c = '"' then ['\\', '"']
  else if c = '\\' then ['\\', '\\']
  else if c.toNat = 8 then ['\\', 'b']
  else if c.toNat = 9 then ['\\', 't']
  else if c.toNat = 10 then ['\\', 'n']
  else if c.toNat = 12 then ['\\', 'f']
  else if c.toNat = 13 then ['\\', 'r']
  else if c.toNat < 16 then ['\\', 'u', '0', '0', '0', Nat.digitChar c.toNat]
  else if c.toNat < 32 then ['\\', 'u', '0', '0', '1', Nat.digitChar (c.toNat - 16)]
  else [c]

def jsonString (s : Str) : Str := '"' :: (s.flatMap jsonChar ++ ['"'])

def jsonOption {α : Type} (write : α → Str) : Option α → Str
  | none => "null".toList
  | some a => write a

/-- Members on lines of their own, two columns further in than the braces. -/
def jsonObject (indent : ℕ) (members : List (String × Str)) : Str :=
  let lines := members.map fun m =>
    List.replicate (indent + 2) ' ' ++ jsonString m.1.toList ++ ": ".toList ++ m.2
  "\x7b\n".toList ++ ",\n".toList.intercalate lines ++ "\n".toList ++
    List.replicate indent ' ' ++ "\x7d".toList

example : jsonObject 0 [("id", jsonString "a\"\t".toList), ("width", "1".toList)] =
    "\x7b\n  \"id\": \"a\\\"\\t\",\n  \"width\": 1\n\x7d".toList := by decide +kernel

/-- The keys of an object are sorted. -/
def metadataJson (m : LoginMetadata) : Str :=
  jsonObject 2
    [("animation_data", jsonOption jsonString m.animationData),
      ("cape_data", jsonOption jsonString m.capeData),
      ("client_random_id", jsonOption jsonString m.clientRandomId),
      ("device_model", jsonOption jsonString m.deviceModel),
      ("device_os", jsonOption (fun n => (toString n).toList) m.deviceOs),
      ("geometry_data_engine_version", jsonOption jsonString m.geometryDataEngineVersion),
      ("playfab_id", jsonOption jsonString m.playfabId),
      ("skin_geometry", jsonOption jsonString m.skinGeometry),
      ("xuid", jsonOption jsonString m.xuid)]

def sidecarJson (record : Sidecar) : Str :=
  jsonObject 0
    [("metadata", metadataJson record.metadata),
      ("player_name", jsonString record.playerName),
      ("skin_height", (toString record.skinHeight).toList),
      ("skin_id", jsonString record.skinId),
      ("skin_width", (toString record.skinWidth).toList)]

def sampleTools : CaptureTools where
  flate := sampleFlate
  crc32 := crc32
  toVecPretty record := .ok (asBytes (sidecarJson record))

theorem sampleTools_infallible : sampleTools.Infallible where
  zlib _ := ⟨_, rfl⟩
  sidecar _ := ⟨_, rfl⟩

end SkinGetBE
