import SkinGetBE.Config

/-!
# The text of a saved configuration

The saved text, without its comments, is the JSON object of the configuration as long
as no raw control character occurs in the version or the address. The escaping leaves
such a character as it is, and then the text is no JSON.
-/
namespace SkinGetBE
open Text

/-- The element of a literal that the escaping writes for a character. -/
def escapeItem (c : Char) : Json.Item :=
  if c = '"' then .escape '"'
  else if c = '\\' then .escape '\\'
  else if c = '\n' then .escape 'n'
  else if c = '\r' then .escape 'r'
  else if c = '\t' then .escape 't'
  else .char c

@[simp] theorem escapeItem_render (c : Char) : (escapeItem c).render = escapeJsonChar c := by
  unfold escapeItem escapeJsonChar
  split_ifs <;> rfl

theorem escapeItem_denotes (c : Char) : (escapeItem c).Denotes c := by
  unfold escapeItem
  split_ifs
  all_goals subst_vars; rfl

theorem escapeItem_valid {c : Char} (hc : Json.isRawControl c = false) : (escapeItem c).Valid := by
  unfold escapeItem
  split_ifs with hquote hslash hn hr ht
  case neg =>
    refine ⟨hquote, hslash, ?_⟩
    by_contra hlt
    simp [Json.isRawControl, hn, hr, ht] at hc
    omega
  all_goals exact rfl

theorem escapeJsonString_eq_render (value : Str) :
    escapeJsonString value = (value.map escapeItem).flatMap Json.Item.render := by
  simp [escapeJsonString, List.flatMap_map]

theorem escapeJsonChar_of_isRawControl {c : Char} (hc : Json.isRawControl c = true) :
    escapeJsonChar c = [c] := by
  unfold escapeJsonChar
  split_ifs
  case neg => rfl
  all_goals subst_vars; contradiction

/-- The escaping leaves a raw control character as it is. -/
theorem mem_escapeJsonString {c : Char} {value : Str} (hc : Json.isRawControl c = true)
    (hmem : c ∈ value) : c ∈ escapeJsonString value := by
  refine List.mem_flatMap.mpr ⟨c, hmem, ?_⟩
  rw [escapeJsonChar_of_isRawControl hc]
  exact List.mem_singleton.mpr rfl

/-- No comment starts in an escaped string, and no quote ends it. -/
theorem stripFrom_escapeJsonString (value t : Str) :
    stripFrom (.string false) (escapeJsonString value ++ t) =
      escapeJsonString value ++ stripFrom (.string false) t := by
  have hitem (c : Char) : ∃ i : JsonText.Item, i.render = escapeJsonChar c := by
    unfold escapeJsonChar
    split_ifs with hquote hslash
    case neg => exact ⟨.plain c hquote hslash, rfl⟩
    all_goals exact ⟨.escaped _, rfl⟩
  choose item hitem using hitem
  have hitems : escapeJsonString value = JsonText.renderItems (value.map item) := by
    simp [escapeJsonString, JsonText.renderItems, List.flatMap_map, hitem]
  rw [hitems, stripFrom_renderItems]

theorem stripFrom_toDigits (n : ℕ) (t : Str) :
    stripFrom .code (Nat.toDigits 10 n ++ t) = Nat.toDigits 10 n ++ stripFrom .code t := by
  refine stripFrom_code (fun c hc => ?_) t
  have hdigit : c.isDigit = true :=
    Nat.isDigit_of_mem_toDigits (by decide) (by decide) hc
  constructor
  all_goals
    rintro rfl
    contradiction

/-- The saved text without its comments. -/
def strippedConfig (config : Config) : Str :=
  "\x7b\n  \n  \"version\": \"".toList ++ (escapeJsonString config.version ++
  ("\",\n  \n  \"protocol\": ".toList ++ (Nat.toDigits 10 config.protocol.toNat ++
  (",\n  \n  \"port\": ".toList ++ (Nat.toDigits 10 config.port.toNat ++
  (",\n  \n  \"bind_addr\": \"".toList ++ (escapeJsonString config.bindAddr ++
  ("\",\n  \n  \"savemode\": ".toList ++ (Nat.toDigits 10 (min config.savemode 2).toNat ++
  "\n\x7d\n".toList)))))))))

theorem stripJsonComments_format (config : Config) :
    stripJsonComments (formatConfigWithComments config) = strippedConfig config := by
  have hopen (t : Str) : stripFrom .code ("\x7b\n".toList ++
      ("  // Minecraft Bedrock version string shown in the server list.\n".toList ++
        ("  \"version\": \"".toList ++ t))) =
      "\x7b\n  \n  \"version\": \"".toList ++ stripFrom (.string false) t := by
    simp [stripFrom]
  have hversion (t : Str) : stripFrom (.string false) ("\",\n".toList ++
      ("  // Bedrock protocol number. Keep this aligned with the client version.\n".toList ++
        ("  \"protocol\": ".toList ++ t))) =
      "\",\n  \n  \"protocol\": ".toList ++ stripFrom .code t := by
    simp [stripFrom]
  have hprotocol (t : Str) : stripFrom .code (",\n".toList ++
      ("  // UDP port to listen on.\n".toList ++ ("  \"port\": ".toList ++ t))) =
      ",\n  \n  \"port\": ".toList ++ stripFrom .code t := by
    simp [stripFrom]
  have hport (t : Str) : stripFrom .code (",\n".toList ++
      ("  // Local bind address. 0.0.0.0 listens on all network interfaces.\n".toList ++
        ("  \"bind_addr\": \"".toList ++ t))) =
      ",\n  \n  \"bind_addr\": \"".toList ++ stripFrom (.string false) t := by
    simp [stripFrom]
  have hbindAddr (t : Str) : stripFrom (.string false) ("\",\n".toList ++
    ("  // Skin save mode: 0 = do not save, 1 = overwrite, 2 = save as numbered new files.\n".toList
      ++ ("  \"savemode\": ".toList ++ t))) =
      "\",\n  \n  \"savemode\": ".toList ++ stripFrom .code t := by
    simp [stripFrom]
  have hclose : stripFrom .code ("\n".toList ++ "\x7d\n".toList) = "\n\x7d\n".toList := by
    simp [stripFrom]
  unfold stripJsonComments formatConfigWithComments strippedConfig
  simp only [List.append_assoc]
  rw [hopen, stripFrom_escapeJsonString, hversion, stripFrom_toDigits, hprotocol,
    stripFrom_toDigits, hport, stripFrom_escapeJsonString, hbindAddr, stripFrom_toDigits, hclose]

def nameLiteral (name : String) : Json.Literal := name.toList.map Json.Item.char

def fieldTokens (name : String) (s : Json.Scalar) : List Json.Token :=
  [.scalar (.string (nameLiteral name)), .nameSeparator, .scalar s]

/-- The tokens of the saved text. -/
def configTokens (config : Config) : List Json.Token :=
  [.beginObject] ++
  fieldTokens "version" (.string (config.version.map escapeItem)) ++ [.valueSeparator] ++
  fieldTokens "protocol" (.number (Nat.toDigits 10 config.protocol.toNat)) ++ [.valueSeparator] ++
  fieldTokens "port" (.number (Nat.toDigits 10 config.port.toNat)) ++ [.valueSeparator] ++
  fieldTokens "bind_addr" (.string (config.bindAddr.map escapeItem)) ++ [.valueSeparator] ++
  fieldTokens "savemode" (.number (Nat.toDigits 10 (min config.savemode 2).toNat)) ++ [.endObject]

/-- Text without a control character other than the white space of JSON. -/
def Escapable (s : Str) : Prop := ∀ c ∈ s, Json.isRawControl c = false

instance (s : Str) : Decidable (Escapable s) :=
  List.decidableBAll (Json.isRawControl · = false) s

theorem run_escapeJsonString {value : Str} (h : Escapable value) :
    (Json.Lexer.string []).run (escapeJsonString value) =
      some (.string (value.map escapeItem), []) := by
  rw [escapeJsonString_eq_render]
  refine Json.Lexer.run_literal (fun i hi => ?_) []
  obtain ⟨c, hc, rfl⟩ := List.mem_map.mp hi
  exact escapeItem_valid (h c hc)

theorem tokens_strippedConfig {config : Config} (hversion : Escapable config.version)
    (hbindAddr : Escapable config.bindAddr) :
    Json.tokens (strippedConfig config) = some (configTokens config) := by
  have hopen : Json.Lexer.between.run "\x7b\n  \n  \"version\": \"".toList =
      some (.string [], [.beginObject, .scalar (.string (nameLiteral "version")),
        .nameSeparator]) := rfl
  have hprotocol (literal : Json.Literal) :
      (Json.Lexer.string literal).run "\",\n  \n  \"protocol\": ".toList =
        some (.between, [.scalar (.string literal), .valueSeparator,
          .scalar (.string (nameLiteral "protocol")), .nameSeparator]) := rfl
  have hport (n : ℕ) (text : Str) :
      (Json.Lexer.number (Json.intPhase n) text).run ",\n  \n  \"port\": ".toList =
        some (.between, [.scalar (.number text), .valueSeparator,
          .scalar (.string (nameLiteral "port")), .nameSeparator]) := by
    unfold Json.intPhase
    split <;> rfl
  have hbind (n : ℕ) (text : Str) :
      (Json.Lexer.number (Json.intPhase n) text).run ",\n  \n  \"bind_addr\": \"".toList =
        some (.string [], [.scalar (.number text), .valueSeparator,
          .scalar (.string (nameLiteral "bind_addr")), .nameSeparator]) := by
    unfold Json.intPhase
    split <;> rfl
  have hsavemode (literal : Json.Literal) :
      (Json.Lexer.string literal).run "\",\n  \n  \"savemode\": ".toList =
        some (.between, [.scalar (.string literal), .valueSeparator,
          .scalar (.string (nameLiteral "savemode")), .nameSeparator]) := rfl
  have hclose (n : ℕ) (text : Str) :
      (Json.Lexer.number (Json.intPhase n) text).run "\n\x7d\n".toList =
        some (.between, [.scalar (.number text), .endObject]) := by
    unfold Json.intPhase
    split <;> rfl
  have hmode := Json.Lexer.run_trans (Json.run_toDigits (min config.savemode 2).toNat)
    (hclose _ _)
  have haddr := Json.Lexer.run_trans (run_escapeJsonString hbindAddr)
    (Json.Lexer.run_trans (hsavemode _) hmode)
  have hnumber := Json.Lexer.run_trans (Json.run_toDigits config.port.toNat)
    (Json.Lexer.run_trans (hbind _ _) haddr)
  have hproto := Json.Lexer.run_trans (Json.run_toDigits config.protocol.toNat)
    (Json.Lexer.run_trans (hport _ _) hnumber)
  have hrun := Json.Lexer.run_trans hopen (Json.Lexer.run_trans (run_escapeJsonString hversion)
    (Json.Lexer.run_trans (hprotocol _) hproto))
  unfold Json.tokens
  have hs : Json.Lexer.between.run (strippedConfig config) = _ := hrun
  rw [hs]
  rfl

/-- The JSON value of the saved text. -/
def configValue (config : Config) : Json.Value :=
  .object [
    (nameLiteral "version", .scalar (.string (config.version.map escapeItem))),
    (nameLiteral "protocol", .scalar (.number (Nat.toDigits 10 config.protocol.toNat))),
    (nameLiteral "port", .scalar (.number (Nat.toDigits 10 config.port.toNat))),
    (nameLiteral "bind_addr", .scalar (.string (config.bindAddr.map escapeItem))),
    (nameLiteral "savemode", .scalar (.number (Nat.toDigits 10 (min config.savemode 2).toNat)))]

theorem parse_strippedConfig {config : Config} (hversion : Escapable config.version)
    (hbindAddr : Escapable config.bindAddr) :
    Json.parse (strippedConfig config) = some (configValue config) := by
  rw [Json.parse, tokens_strippedConfig hversion hbindAddr]
  rfl

theorem stringValue_map (value : Str) :
    Config.stringValue (.scalar (.string (value.map escapeItem))) = some value :=
  Json.decode_map fun c _ => escapeItem_denotes c

theorem unsignedValue_toDigits {n bound : ℕ} (h : n < bound) :
    Config.unsignedValue bound (.scalar (.number (Nat.toDigits 10 n))) = some n := by
  have hdigits : parseDigits (Nat.toDigits 10 n) = some n := by
    unfold parseDigits
    rw [if_neg (by simp [Nat.toDigits_ne_nil]), decimalValue_toDigits]
  rw [Config.unsignedValue, hdigits]
  exact Option.filter_some_pos (decide_eq_true h)

theorem u16Value_toDigits (n : UInt16) :
    Config.u16Value (.scalar (.number (Nat.toDigits 10 n.toNat))) = some n := by
  rw [Config.u16Value, unsignedValue_toDigits n.toNat_lt, Option.map_some, UInt16.ofNat_toNat]

theorem u8Value_toDigits (n : UInt8) :
    Config.u8Value (.scalar (.number (Nat.toDigits 10 n.toNat))) = some n := by
  rw [Config.u8Value, unsignedValue_toDigits n.toNat_lt, Option.map_some, UInt8.ofNat_toNat]

theorem decode_nameLiteral (name : String) : Json.decode (nameLiteral name) = some name.toList :=
  Json.decode_map fun _ _ => rfl

theorem ofJson_configValue (config : Config) :
    Config.ofJson (configValue config) =
      some { config with savemode := min config.savemode 2 } := by
  have hversion (seen : ConfigFields) (hnone : seen.version = none) :
      Config.visitMember seen (nameLiteral "version",
        .scalar (.string (config.version.map escapeItem))) =
        some { seen with version := some config.version } := by
    rw [Config.visitMember, decode_nameLiteral, stringValue_map, hnone]
    rfl
  have hprotocol (seen : ConfigFields) (hnone : seen.protocol = none) :
      Config.visitMember seen (nameLiteral "protocol",
        .scalar (.number (Nat.toDigits 10 config.protocol.toNat))) =
        some { seen with protocol := some config.protocol } := by
    rw [Config.visitMember, decode_nameLiteral, u16Value_toDigits, hnone]
    rfl
  have hport (seen : ConfigFields) (hnone : seen.port = none) :
      Config.visitMember seen (nameLiteral "port",
        .scalar (.number (Nat.toDigits 10 config.port.toNat))) =
        some { seen with port := some config.port } := by
    rw [Config.visitMember, decode_nameLiteral, u16Value_toDigits, hnone]
    rfl
  have hbindAddr (seen : ConfigFields) (hnone : seen.bindAddr = none) :
      Config.visitMember seen (nameLiteral "bind_addr",
        .scalar (.string (config.bindAddr.map escapeItem))) =
        some { seen with bindAddr := some config.bindAddr } := by
    rw [Config.visitMember, decode_nameLiteral, stringValue_map, hnone]
    rfl
  have hsavemode (seen : ConfigFields) (hnone : seen.savemode = none) :
      Config.visitMember seen (nameLiteral "savemode",
        .scalar (.number (Nat.toDigits 10 (min config.savemode 2).toNat))) =
        some { seen with savemode := some (min config.savemode 2) } := by
    rw [Config.visitMember, decode_nameLiteral, u8Value_toDigits, hnone]
    rfl
  rw [configValue, Config.ofJson, Config.visitMap]
  simp only [List.foldlM_cons, List.foldlM_nil, Option.bind_eq_bind, Option.bind_some, hversion,
    hprotocol, hport, hbindAddr, hsavemode]
  rfl

/-- A configuration whose saved text is JSON. -/
def Config.Saveable (config : Config) : Prop :=
  Escapable config.version ∧ Escapable config.bindAddr

theorem parse_saved {config : Config} (h : config.Saveable) :
    (Json.parse (stripJsonComments (formatConfigWithComments config))).bind Config.ofJson =
      some { config with savemode := min config.savemode 2 } := by
  rw [stripJsonComments_format, parse_strippedConfig h.1 h.2, Option.bind_some,
    ofJson_configValue]

/-- A raw control character in a text is one in the saved text, which is then no JSON. -/
theorem parse_saved_none {config : Config} (h : ¬ config.Saveable) :
    Json.parse (stripJsonComments (formatConfigWithComments config)) = none := by
  have hraw : ∃ c, Json.isRawControl c = true ∧ (c ∈ config.version ∨ c ∈ config.bindAddr) := by
    by_contra hno
    refine h ⟨fun c hc => ?_, fun c hc => ?_⟩
    · exact Bool.eq_false_iff.mpr fun hraw => hno ⟨c, hraw, .inl hc⟩
    · exact Bool.eq_false_iff.mpr fun hraw => hno ⟨c, hraw, .inr hc⟩
  obtain ⟨c, hraw, hc⟩ := hraw
  have hmem : c ∈ escapeJsonString config.version ∨ c ∈ escapeJsonString config.bindAddr :=
    hc.imp (mem_escapeJsonString hraw) (mem_escapeJsonString hraw)
  rw [stripJsonComments_format]
  refine Json.parse_isRawControl hraw ?_
  unfold strippedConfig
  simp only [List.mem_append]
  tauto

end SkinGetBE
