import SkinGetBE.Buffer
import SkinGetBE.JsonReader
import SkinGetBE.JsonText
import SkinGetBE.Versions

/-!
# The configuration file

The file is JSON with comments. Loading strips the comments, reads the JSON,
completes what is missing or out of range, and writes the file anew when that
changed anything. The JSON library is a parameter; what it makes of a JSON value is
the derived deserialization of the configuration.
-/
namespace SkinGetBE
open Octets Text

structure Config where
  version : Str
  protocol : UInt16
  port : UInt16
  bindAddr : Str
  savemode : UInt8
  deriving DecidableEq

def Config.default : Config where
  version := "1.26.21".toList
  protocol := 975
  port := 19132
  bindAddr := "0.0.0.0".toList
  savemode := 2

/-- The members that an object has had so far. -/
structure ConfigFields where
  version : Option Str
  protocol : Option UInt16
  port : Option UInt16
  bindAddr : Option Str
  savemode : Option UInt8

namespace Config

def stringValue : Json.Value → Option Str
  | .scalar (.string literal) => Json.decode literal
  | _ => none

/-- An unsigned number without fraction or exponent, below `bound`. -/
def unsignedValue (bound : ℕ) : Json.Value → Option ℕ
  | .scalar (.number text) => (parseDigits text).filter (· < bound)
  | _ => none

def u16Value (v : Json.Value) : Option UInt16 := (unsignedValue (2 ^ 16) v).map UInt16.ofNat

def u8Value (v : Json.Value) : Option UInt8 := (unsignedValue (2 ^ 8) v).map UInt8.ofNat

/-- One member: a field that comes twice is an error, any other name is ignored. -/
def visitMember (seen : ConfigFields) (member : Json.Literal × Json.Value) :
    Option ConfigFields :=
  (Json.decode member.1).bind fun name =>
    if name = "version".toList then
      if seen.version.isSome then none
      else (stringValue member.2).map fun x => { seen with version := some x }
    else if name = "protocol".toList then
      if seen.protocol.isSome then none
      else (u16Value member.2).map fun x => { seen with protocol := some x }
    else if name = "port".toList then
      if seen.port.isSome then none
      else (u16Value member.2).map fun x => { seen with port := some x }
    else if name = "bind_addr".toList then
      if seen.bindAddr.isSome then none
      else (stringValue member.2).map fun x => { seen with bindAddr := some x }
    else if name = "savemode".toList then
      if seen.savemode.isSome then none
      else (u8Value member.2).map fun x => { seen with savemode := some x }
    else some seen

def visitMap (members : List (Json.Literal × Json.Value)) : Option Config :=
  (members.foldlM visitMember ⟨none, none, none, none, none⟩).map fun seen =>
    { version := seen.version.getD default.version
      protocol := seen.protocol.getD default.protocol
      port := seen.port.getD default.port
      bindAddr := seen.bindAddr.getD default.bindAddr
      savemode := seen.savemode.getD default.savemode }

/-- An element of an array, or the default past its end. -/
def element {α : Type} (read : Json.Value → Option α) (otherwise : α) : Option Json.Value → Option α
  | some v => read v
  | none => some otherwise

/-- The fields of an array are those of the structure, in order. -/
def visitSeq (values : List Json.Value) : Option Config := do
  let version ← element stringValue default.version values[0]?
  let protocol ← element u16Value default.protocol values[1]?
  let port ← element u16Value default.port values[2]?
  let bindAddr ← element stringValue default.bindAddr values[3]?
  let savemode ← element u8Value default.savemode values[4]?
  if values.length ≤ 5 then some ⟨version, protocol, port, bindAddr, savemode⟩ else none

def ofJson : Json.Value → Option Config
  | .object members => visitMap members
  | .array values => visitSeq values
  | .scalar _ => none

end Config

/-- The library reads the texts of the grammar and nothing else, and then applies the
deserialization. -/
def FollowsRfc (fromStr : Str → Except String Config) : Prop :=
  ∀ text, (fromStr text).toOption = (Json.parse text).bind Config.ofJson

def escapeJsonChar (c : Char) : Str :=
  if c = '"' then ['\\', '"']
  else if c = '\\' then ['\\', '\\']
  else if c = '\n' then ['\\', 'n']
  else if c = '\r' then ['\\', 'r']
  else if c = '\t' then ['\\', 't']
  else [c]

def escapeJsonString (value : Str) : Str := value.flatMap escapeJsonChar

def formatConfigWithComments (config : Config) : Str :=
  "\x7b\n".toList ++
  "  // Minecraft Bedrock version string shown in the server list.\n".toList ++
  "  \"version\": \"".toList ++ escapeJsonString config.version ++ "\",\n".toList ++
  "  // Bedrock protocol number. Keep this aligned with the client version.\n".toList ++
  "  \"protocol\": ".toList ++ Nat.toDigits 10 config.protocol.toNat ++ ",\n".toList ++
  "  // UDP port to listen on.\n".toList ++
  "  \"port\": ".toList ++ Nat.toDigits 10 config.port.toNat ++ ",\n".toList ++
  "  // Local bind address. 0.0.0.0 listens on all network interfaces.\n".toList ++
  "  \"bind_addr\": \"".toList ++ escapeJsonString config.bindAddr ++ "\",\n".toList ++
  "  // Skin save mode: 0 = do not save, 1 = overwrite, 2 = save as numbered new files.\n".toList ++
  "  \"savemode\": ".toList ++ Nat.toDigits 10 (min config.savemode 2).toNat ++ "\n".toList ++
  "\x7d\n".toList

/-- Where the scan for comments stands. -/
inductive CommentScan
  | code
  | string (escaped : Bool)
  | lineComment
  | blockComment (previous : Char)

def stripFrom : CommentScan → Str → Str
  | _, [] => []
  | .string escaped, c :: chars =>
    c :: (if escaped then stripFrom (.string false) chars
          else if c = '\\' then stripFrom (.string true) chars
          else if c = '"' then stripFrom .code chars
          else stripFrom (.string false) chars)
  | .code, c :: chars =>
    if c = '"' then c :: stripFrom (.string false) chars
    else if c = '/' then
      match chars with
      | '/' :: chars => stripFrom .lineComment chars
      | '*' :: chars => stripFrom (.blockComment '\x00') chars
      | chars => c :: stripFrom .code chars
    else c :: stripFrom .code chars
  | .lineComment, next :: chars =>
    if next = '\n' then '\n' :: stripFrom .code chars else stripFrom .lineComment chars
  | .blockComment previous, next :: chars =>
    if previous = '*' ∧ next = '/' then stripFrom .code chars
    else stripFrom (.blockComment next) chars

def stripJsonComments (input : Str) : Str := stripFrom .code input

@[simp] theorem stripFrom_quote (s : Str) :
    stripFrom .code ('"' :: s) = '"' :: stripFrom (.string false) s := by
  rw [stripFrom.eq_def]
  rfl

@[simp] theorem stripFrom_plain {c : Char} (hquote : c ≠ '"') (hslash : c ≠ '/') (s : Str) :
    stripFrom .code (c :: s) = c :: stripFrom .code s := by
  rw [stripFrom.eq_def]
  exact (if_neg hquote).trans (if_neg hslash)

@[simp] theorem stripFrom_line (s : Str) :
    stripFrom .code ('/' :: '/' :: s) = stripFrom .lineComment s := by
  rw [stripFrom.eq_def]
  rfl

/-- Text without quotes and slashes is kept. -/
theorem stripFrom_code {s : Str} (h : ∀ c ∈ s, c ≠ '"' ∧ c ≠ '/') (t : Str) :
    stripFrom .code (s ++ t) = s ++ stripFrom .code t := by
  induction s with
  | nil => rfl
  | cons c s ih =>
    have hc := h c List.mem_cons_self
    have hs := ih fun d hd => h d (List.mem_cons_of_mem _ hd)
    rw [List.cons_append, stripFrom_plain hc.1 hc.2, hs, List.cons_append]

/-- The items of a string literal are kept. -/
theorem stripFrom_render (i : JsonText.Item) (t : Str) :
    stripFrom (.string false) (i.render ++ t) = i.render ++ stripFrom (.string false) t := by
  cases i with
  | plain c hq hb =>
    rw [JsonText.Item.render, List.singleton_append, stripFrom, if_neg Bool.false_ne_true,
      if_neg hb, if_neg hq]
    rfl
  | escaped c => rfl

theorem stripFrom_renderItems (items : List JsonText.Item) (t : Str) :
    stripFrom (.string false) (JsonText.renderItems items ++ t) =
      JsonText.renderItems items ++ stripFrom (.string false) t := by
  induction items with
  | nil => rfl
  | cons i items ih =>
    rw [JsonText.renderItems_cons, List.append_assoc, stripFrom_render, ih, List.append_assoc]

inductive ConfigRequest
  | createDirAll
  | readToString
  | write
  deriving DecidableEq

/-- The contents of the file, when it exists, and the requests for it that fail. A
path without a parent directory asks for none, and that request then succeeds. -/
structure ConfigFile where
  contents : Option Bytes
  denied : ConfigRequest → Option String

namespace ConfigFile

def readToString (file : ConfigFile) (contents : Bytes) : Except Error Str :=
  match file.denied .readToString with
  | some e => .error (.ioError e)
  | none =>
    match fromUtf8 contents with
    | some content => .ok content
    | none => .error (.ioError "stream did not contain valid UTF-8")

end ConfigFile

namespace ConfigManager

def save (file : ConfigFile) (config : Config) : Except Error Unit × ConfigFile :=
  match file.denied .createDirAll with
  | some e => (.error (.ioError e), file)
  | none =>
    match file.denied .write with
    | some e => (.error (.ioError e), file)
    | none => (.ok (), { file with contents := some (asBytes (formatConfigWithComments config)) })

section
variable (fallbackVersion : Str) (fallbackProtocol : UInt16)

def normalizeSupportedVersion (config : Config) : Config :=
  let latestProtocol := getLatestProtocol fallbackProtocol
  let latestVersion := getLatestVersion fallbackVersion
  let protocolMissing := config.protocol == 0
  let versionEmpty := (trim config.version).isEmpty
  if protocolMissing || versionEmpty then
    { version := if versionEmpty then latestVersion else config.version
      protocol := if protocolMissing then latestProtocol else config.protocol
      port := config.port
      bindAddr := config.bindAddr
      savemode := min config.savemode 2 }
  else if config.savemode > 2 then { config with savemode := 2 }
  else config

/-- The configuration, and the file as loading leaves it. -/
def load (fromStr : Str → Except String Config) (file : ConfigFile) :
    Except Error Config × ConfigFile :=
  match file.denied .createDirAll with
  | some e => (.error (.ioError e), file)
  | none =>
    match file.contents with
    | some contents =>
      match file.readToString contents with
      | .error e => (.error e, file)
      | .ok content =>
        match fromStr (stripJsonComments content) with
        | .error e => (.error (.jsonError e), file)
        | .ok config =>
          let normalized := normalizeSupportedVersion fallbackVersion fallbackProtocol config
          if normalized ≠ config then
            match save file normalized with
            | (.error e, file) => (.error e, file)
            | (.ok (), file) => (.ok normalized, file)
          else (.ok config, file)
    | none =>
      match save file Config.default with
      | (.error e, file) => (.error e, file)
      | (.ok (), file) => (.ok Config.default, file)

end

end ConfigManager

end SkinGetBE
