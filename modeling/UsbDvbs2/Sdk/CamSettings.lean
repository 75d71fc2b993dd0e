import Mathlib.Data.List.TakeDrop
import UsbDvbs2.Camd.DesKey
import UsbDvbs2.Daemon.CommandLines
import UsbDvbs2.Text.Fields

/-! # The card server settings on their way to the engine

The host keeps the settings in buffers and sends them as one command line; the daemon
scans the fields of that line and fills the configuration of the engine. A field that is
empty goes as a dash and stays one, and a line that does not fit `daemon_send` does not
go at all.
-/

namespace Sdk

open Camd Daemon Text

/-- `snprintf` of a text into a buffer of `size` bytes. -/
def buffered (size : Nat) (text : List UInt8) : List UInt8 := text.take (size - 1)

/-- The arguments of `usb_dvbs2_set_camd`, and what it keeps of them. -/
structure CamSettings where
  enabled : Bool
  proto : Int
  host : List UInt8
  port : UInt32
  user : List UInt8
  password : List UInt8
  desKey : List UInt8

/-- The `g_cam_` variables. -/
def CamSettings.kept (settings : CamSettings) : CamSettings where
  enabled := settings.enabled
  proto := if settings.proto = 1 then 1 else 0
  host := buffered 96 settings.host
  port := settings.port
  user := buffered 64 settings.user
  password := buffered 64 settings.password
  desKey := buffered 64 settings.desKey

def space : List UInt8 := [0x20]

def dash : List UInt8 := [0x2d]

def camdKeyword : List UInt8 := Verb.camd.keyword

def defaultDesKey : List UInt8 :=
  ascii ['0', '1', '0', '2', '0', '3', '0', '4', '0', '5', '0', '6', '0', '7', '0', '8', '0', '9',
    '1', '0', '1', '1', '1', '2', '1', '3', '1', '4']

/-- The fields of the command behind its keyword. -/
structure CamdFields where
  proto : List UInt8
  host : List UInt8
  port : UInt32
  user : List UInt8
  password : List UInt8
  desKey : List UInt8

/-- `"%s %s %u %s %s %s"`. -/
def CamdFields.text (fields : CamdFields) : List UInt8 :=
  fields.proto ++ (space ++ (fields.host ++ (space ++ (decimal fields.port.toNat ++ (space ++
    (fields.user ++ (space ++ (fields.password ++ (space ++ (fields.desKey ++ []))))))))))

/-- The protocol of the settings. -/
def CamSettings.kind (settings : CamSettings) : Proto :=
  if settings.proto = 1 then .cs378x else .newcamd

/-- What `send_camd_config` puts into the command. -/
def CamSettings.fields (cam : CamSettings) : CamdFields where
  proto := cam.kind.word
  host := cam.host
  port := cam.port
  user := if cam.user ≠ [] then cam.user else dash
  password := if cam.password ≠ [] then cam.password else dash
  desKey := if cam.desKey ≠ [] then cam.desKey else defaultDesKey

/-- The command of `send_camd_config`. -/
def sendCamdConfig (cam : CamSettings) : List UInt8 :=
  buffered 512 <|
    if cam.enabled = true ∧ cam.host ≠ [] ∧ cam.port ≠ 0 then camdKeyword ++ cam.fields.text
    else camdKeyword ++ ascii ['O', 'F', 'F']

/-- What `daemon_send` writes; a command that does not fit its buffer is dropped. -/
def daemonSend (command : List UInt8) : Option (List UInt8) :=
  if command.length + 1 < 256 then some (command ++ [lf]) else none

/-! ## The daemon -/

/-- `dtv_camd_config`. -/
structure CamdConfig where
  proto : Proto
  host : List UInt8
  port : UInt32
  user : List UInt8
  password : List UInt8
  desKey : DesKey

/-- The scan of the command, which needs all fields but the key. -/
def scanCamd (text : List UInt8) : Option CamdFields := do
  let (proto, text) ← scanString 15 text
  let (host, text) ← scanString 95 text
  let (port, text) ← scanUnsigned text
  let (user, text) ← scanString 63 text
  let (password, text) ← scanString 63 text
  pure ⟨proto, host, port, user, password, ((scanString 63 text).map Prod.fst).getD []⟩

inductive CamdAction where
  /-- `usb_dvbs2_engine_set_camd` -/
  | setCamd (config : Option CamdConfig)
  | report (line : List UInt8)
  | ignore

def camdFailed (reason : List Char) : List UInt8 :=
  ascii (['C', 'A', 'M', 'D', '|', '-', '1', '|'] ++ reason)

def unknownProtocol (proto : List UInt8) : List UInt8 :=
  camdFailed ['U', 'n', 'k', 'n', 'o', 'w', 'n', ' ', 'p', 'r', 'o', 't', 'o', 'c', 'o', 'l', ':',
    ' '] ++ proto

def wrongDesKey : List UInt8 :=
  camdFailed ['T', 'h', 'e', ' ', 'D', 'E', 'S', ' ', 'k', 'e', 'y', ' ', 'm', 'u', 's', 't', ' ',
    'b', 'e', ' ', '2', '8', ' ', 'h', 'e', 'x', 'a', 'd', 'e', 'c', 'i', 'm', 'a', 'l', ' ', 'd',
    'i', 'g', 'i', 't', 's']

/-- Only newcamd has a use for the key. -/
def CamdFields.key (fields : CamdFields) : Proto → Option DesKey
  | .newcamd => dtvCamdParseDesKey fields.desKey
  | .cs378x => some .zero

def CamdFields.config (fields : CamdFields) (proto : Proto) (key : DesKey) : CamdConfig where
  proto := proto
  host := buffered 96 fields.host
  port := fields.port
  user := buffered 64 fields.user
  password := buffered 64 fields.password
  desKey := key

def CamdFields.act (fields : CamdFields) : CamdAction :=
  match dtvCamdParseProto fields.proto with
  | none => .report (unknownProtocol fields.proto)
  | some proto =>
      match fields.key proto with
      | none => .report wrongDesKey
      | some key => .setCamd (some (fields.config proto key))

/-- `CAMD` in `handle_line`, behind the keyword. -/
def handleCamd (text : List UInt8) : CamdAction :=
  if (ascii ['O', 'F', 'F']).isPrefixOf text then .setCamd none
  else
    match scanCamd text with
    | none => .ignore
    | some fields => fields.act

/-- What `handle_line` does about the card server with a line. -/
def camdAction (line : List UInt8) : Option CamdAction :=
  if verbOf line = some .camd then some (handleCamd (line.drop camdKeyword.length)) else none

/-! ## The fields -/

/-- A C string without white space. -/
def Solid (text : List UInt8) : Prop := ∀ byte ∈ text, byte ≠ 0 ∧ isSpace byte = false

instance (text : List UInt8) : Decidable (Solid text) :=
  List.decidableBAll (fun byte => byte ≠ 0 ∧ isSpace byte = false) text

theorem Solid.word {text : List UInt8} (solid : Solid text) (some : text ≠ []) : Word text :=
  ⟨some, fun byte mem => (solid byte mem).2⟩

theorem Solid.take {text : List UInt8} (solid : Solid text) (count : Nat) :
    Solid (text.take count) := fun byte mem => solid byte (List.mem_of_mem_take mem)

theorem solid_dash : Solid dash := by decide

theorem solid_defaultDesKey : Solid defaultDesKey := by decide

theorem solid_word (proto : Proto) : Solid proto.word := by cases proto <;> decide

theorem proto_word (proto : Proto) : Word proto.word ∧ proto.word.length ≤ 15 := by
  refine ⟨(solid_word proto).word ?_, ?_⟩ <;> (cases proto <;> decide)

theorem solid_decimal (number : Nat) : Solid (decimal number) := by
  intro byte mem
  have digit := isDigit_of_mem_decimal mem
  refine ⟨?_, (digit_plain digit).1⟩
  rintro rfl
  exact absurd digit (by decide)

/-- Fields that fit where they are scanned to. -/
structure CamdFields.Scannable (fields : CamdFields) : Prop where
  proto : Word fields.proto ∧ fields.proto.length ≤ 15
  host : Word fields.host ∧ fields.host.length ≤ 95
  user : Word fields.user ∧ fields.user.length ≤ 63
  password : Word fields.password ∧ fields.password.length ≤ 63
  desKey : Word fields.desKey ∧ fields.desKey.length ≤ 63

/-- The scan finds the fields that were printed. -/
theorem scanCamd_text {fields : CamdFields} (scannable : fields.Scannable) :
    scanCamd fields.text = some fields := by
  have blank : ∀ byte ∈ space, isSpace byte = true := blank_space
  have ends : ∀ rest : List UInt8, (space ++ rest).takeWhile (!isSpace ·) = [] := fun _ => rfl
  have stops : ∀ rest : List UInt8, (space ++ rest).takeWhile isDigit = [] := fun _ => rfl
  have first := @scanString_word [] _ _ 15 scannable.proto.1 (List.forall_mem_nil _)
    scannable.proto.2 (ends (fields.host ++ (space ++ (decimal fields.port.toNat ++ (space ++
      (fields.user ++ (space ++ (fields.password ++ (space ++ (fields.desKey ++ []))))))))))
  rw [List.nil_append] at first
  simp only [scanCamd, CamdFields.text, first, Option.bind_eq_bind, Option.bind_some,
    scanString_word scannable.host.1 blank scannable.host.2 (ends _),
    scanUnsigned_decimal blank (stops _),
    scanString_word scannable.user.1 blank scannable.user.2 (ends _),
    scanString_word scannable.password.1 blank scannable.password.2 (ends _),
    scanString_word scannable.desKey.1 blank scannable.desKey.2 (List.takeWhile_nil),
    Option.map_some, Option.getD_some, Option.pure_def]

/-! ## The line -/

/-- Settings that `usb_dvbs2_set_camd` takes: a server, no white space, and a key that is
empty or can be read. -/
structure CamSettings.Accepted (settings : CamSettings) : Prop where
  enabled : settings.enabled = true
  server : settings.host ≠ [] ∧ settings.port ≠ 0
  host : Solid settings.host
  user : Solid settings.user
  password : Solid settings.password
  desKey : Solid settings.desKey
  key : settings.desKey = [] ∨ (dtvCamdParseDesKey settings.desKey).isSome = true

section Accepted

variable {settings : CamSettings}

theorem kept_kind (settings : CamSettings) : settings.kept.kind = settings.kind := by
  have zero : ¬ (0 : Int) = 1 := by decide
  unfold CamSettings.kind CamSettings.kept
  by_cases other : settings.proto = 1
  · rw [if_pos other, if_pos rfl, if_pos other]
  · rw [if_neg other, if_neg zero, if_neg other]

/-- A text or what stands for it when it is empty. -/
theorem word_or {text default : List UInt8} {count : Nat} (solid : Solid text)
    (other : Word default ∧ default.length ≤ count) (fits : text.length ≤ count) :
    Word (if text ≠ [] then text else default) ∧
      (if text ≠ [] then text else default).length ≤ count := by
  split
  · exact ⟨solid.word ‹_›, fits⟩
  · exact other

theorem CamSettings.Accepted.scannable (accepted : settings.Accepted) :
    settings.kept.fields.Scannable where
  proto := proto_word settings.kept.kind
  host := by
    refine ⟨(accepted.host.take 95).word fun none => ?_, List.length_take_le _ _⟩
    exact accepted.server.1 ((List.take_eq_nil_iff.1 none).resolve_left (by decide))
  user := word_or (accepted.user.take 63) ⟨solid_dash.word (by decide), by decide⟩
    (List.length_take_le _ _)
  password := word_or (accepted.password.take 63) ⟨solid_dash.word (by decide), by decide⟩
    (List.length_take_le _ _)
  desKey := word_or (accepted.desKey.take 63)
    ⟨solid_defaultDesKey.word (by decide), by decide⟩ (List.length_take_le _ _)

/-- The length of the text is that of its fields and of five spaces. -/
theorem length_text (fields : CamdFields) : fields.text.length =
    fields.proto.length + fields.host.length + (decimal fields.port.toNat).length +
      fields.user.length + fields.password.length + fields.desKey.length + 5 := by
  simp only [CamdFields.text, List.length_append, space, List.length_singleton, List.length_nil]
  omega

/-- The command never reaches the end of its own buffer. -/
theorem CamSettings.Accepted.command (accepted : settings.Accepted) :
    sendCamdConfig settings.kept = camdKeyword ++ settings.kept.fields.text := by
  have scannable := accepted.scannable
  have some : settings.kept.host ≠ [] := scannable.host.1.some
  have number : (decimal settings.kept.fields.port.toNat).length ≤ 10 :=
    decimal_length (by decide) (by have := settings.kept.fields.port.toNat_lt; omega)
  have short : (camdKeyword ++ settings.kept.fields.text).length ≤ 511 := by
    rw [List.length_append, length_text]
    have := scannable.proto.2
    have := scannable.host.2
    have := scannable.user.2
    have := scannable.password.2
    have := scannable.desKey.2
    have : camdKeyword.length = 5 := rfl
    omega
  rw [sendCamdConfig, if_pos ⟨accepted.enabled, some, accepted.server.2⟩, buffered,
    List.take_of_length_le short]

/-- Nothing in the command ends a line or a C string. -/
theorem clean_text {fields : CamdFields} (solid : ∀ text ∈ [fields.proto, fields.host, fields.user,
    fields.password, fields.desKey], Solid text) :
    ∀ byte ∈ camdKeyword ++ fields.text, byte ≠ 0 ∧ byte ≠ lf ∧ byte ≠ cr := by
  have plain : ∀ {text : List UInt8}, Solid text →
      ∀ byte ∈ text, byte ≠ 0 ∧ byte ≠ lf ∧ byte ≠ cr := fun solid byte mem => by
    obtain ⟨some, visible⟩ := solid byte mem
    refine ⟨some, ?_, ?_⟩ <;> (rintro rfl; exact absurd visible (by decide))
  have blank : ∀ byte ∈ space, byte ≠ 0 ∧ byte ≠ lf ∧ byte ≠ cr := all_bytes (by decide)
  have keyword : ∀ byte ∈ camdKeyword, byte ≠ 0 ∧ byte ≠ lf ∧ byte ≠ cr :=
    all_bytes (by decide)
  simp only [List.forall_mem_cons, List.not_mem_nil, false_imp_iff, implies_true, and_true] at solid
  obtain ⟨proto, host, user, password, desKey⟩ := solid
  simp only [CamdFields.text, List.forall_mem_append, List.append_nil]
  exact ⟨keyword, plain proto, blank, plain host, blank, plain (solid_decimal _), blank, plain user,
    blank, plain password, blank, plain desKey⟩

theorem CamSettings.Accepted.solid (accepted : settings.Accepted) :
    ∀ text ∈ [settings.kept.fields.proto, settings.kept.fields.host, settings.kept.fields.user,
      settings.kept.fields.password, settings.kept.fields.desKey], Solid text := by
  have or : ∀ {text default : List UInt8}, Solid text → Solid default →
      Solid (if text ≠ [] then text else default) := fun solid other => by
    split
    · exact solid
    · exact other
  simp only [List.forall_mem_cons, List.not_mem_nil, false_imp_iff, implies_true, and_true]
  exact ⟨solid_word _, accepted.host.take 95, or (accepted.user.take 63) solid_dash,
    or (accepted.password.take 63) solid_dash, or (accepted.desKey.take 63) solid_defaultDesKey⟩

/-! ## What arrives -/

/-- `handle_line` acts on the fields that were printed. -/
theorem CamSettings.Accepted.handled (accepted : settings.Accepted) :
    camdAction (sendCamdConfig settings.kept) = some settings.kept.fields.act := by
  have verb : ∀ text, verbOf (camdKeyword ++ text) = some .camd := fun _ => rfl
  have notOff : ∀ proto : Proto, ∀ text,
      (ascii ['O', 'F', 'F']).isPrefixOf (proto.word ++ text) = false := by
    intro proto text
    cases proto <;> rfl
  have on : (ascii ['O', 'F', 'F']).isPrefixOf settings.kept.fields.text = false :=
    notOff settings.kept.kind _
  rw [accepted.command, camdAction, verb, if_pos rfl, List.drop_left, handleCamd, on,
    if_neg (by decide), scanCamd_text accepted.scannable]

/-- A command that is written comes out of the read that begins with it. -/
theorem CamSettings.Accepted.arrives (accepted : settings.Accepted) {line : List UInt8}
    (sent : daemonSend (sendCamdConfig settings.kept) = some line) (rest : List UInt8) :
    ((readLines (line ++ rest)).map camdAction).head? = some (some settings.kept.fields.act) := by
  have clean := clean_text accepted.solid
  rw [← accepted.command] at clean
  rw [daemonSend, Option.ite_none_right_eq_some, Option.some.injEq] at sent
  have whole : line ++ rest = sendCamdConfig settings.kept ++ lf :: rest := by
    rw [← sent.2, List.append_assoc]
    rfl
  have text : untilCr (sendCamdConfig settings.kept) = sendCamdConfig settings.kept := by
    have all := untilCr_clear (fun mem => (clean cr mem).2.2 rfl) (List.forall_mem_nil _)
    rwa [List.append_nil] at all
  rw [whole, readLines_line (fun mem => (clean lf mem).2.1 rfl) (fun mem => (clean 0 mem).1 rfl),
    text, List.map_cons, List.head?_cons, accepted.handled]

/-- The key that the settings ask for. -/
def CamSettings.keyText (settings : CamSettings) : List UInt8 :=
  if settings.desKey ≠ [] then settings.desKey else defaultDesKey

/-- The configuration is what the settings ask for; only newcamd has a use for the key. -/
structure CamdConfig.Matches (config : CamdConfig) (settings : CamSettings) : Prop where
  proto : config.proto = settings.kind
  host : config.host = settings.host
  port : config.port = settings.port
  user : config.user = settings.user
  password : config.password = settings.password
  key : settings.kind = .newcamd → dtvCamdParseDesKey settings.keyText = some config.desKey

/-- The command goes out, and `handle_line` gives the engine a configuration that matches
the settings, whatever stands behind the line in the same read. -/
def CamSettings.Survives (settings : CamSettings) : Prop :=
  ∃ line config, daemonSend (sendCamdConfig settings.kept) = some line ∧
    (∀ rest, ((readLines (line ++ rest)).map camdAction).head? =
      some (some (.setCamd (some config)))) ∧ config.Matches settings

/-- The bytes of the key that go into the command. -/
def CamSettings.keyLength (settings : CamSettings) : Nat :=
  if settings.desKey ≠ [] then min 63 settings.desKey.length else defaultDesKey.length

/-- Neither name is empty, everything fits its buffer, and the fields together leave room
for the keyword and the spaces in a line of 254 bytes. -/
structure CamSettings.Fits (settings : CamSettings) : Prop where
  host : settings.host.length ≤ 95
  user : settings.user ≠ [] ∧ settings.user.length ≤ 63
  password : settings.password ≠ [] ∧ settings.password.length ≤ 63
  key : settings.kind = .newcamd → (settings.desKey.drop 63).all isSeparator = true
  line : settings.kind.word.length + settings.host.length +
    (decimal settings.port.toNat).length + settings.user.length + settings.password.length +
      settings.keyLength ≤ 244

theorem take_ne_nil {text : List UInt8} : text.take 63 ≠ [] ↔ text ≠ [] := by
  rw [ne_eq, List.take_eq_nil_iff, or_iff_right (by decide)]

/-- A name arrives as it is exactly when it is not empty and fits. -/
theorem name_iff (name : List UInt8) :
    buffered 64 (if name.take 63 ≠ [] then name.take 63 else dash) = name ↔
      name ≠ [] ∧ name.length ≤ 63 := by
  by_cases some : name ≠ []
  · rw [if_pos (take_ne_nil.2 some), buffered, List.take_take, List.take_eq_self_iff]
    exact ⟨fun fits => ⟨some, fits⟩, fun both => both.2⟩
  · rw [not_not] at some
    subst some
    exact ⟨fun same => (nomatch same), fun both => (both.1 rfl).elim⟩

/-- The key that arrives is the one asked for exactly when nothing but separators of it
is cut off. -/
theorem CamSettings.Accepted.key_iff (accepted : settings.Accepted) :
    (∃ key, dtvCamdParseDesKey settings.kept.fields.desKey = some key ∧
      dtvCamdParseDesKey settings.keyText = some key) ↔
        (settings.desKey.drop 63).all isSeparator = true := by
  change (∃ key, dtvCamdParseDesKey (if settings.desKey.take 63 ≠ [] then settings.desKey.take 63
    else defaultDesKey) = some key ∧ _) ↔ _
  rw [CamSettings.keyText]
  by_cases some : settings.desKey ≠ []
  · rw [if_pos (take_ne_nil.2 some), if_pos some]
    obtain ⟨read, key⟩ := Option.isSome_iff_exists.1 (accepted.key.resolve_left some)
    rw [key]
    by_cases short : settings.desKey.length ≤ 63
    · rw [List.take_of_length_le short, List.drop_of_length_le short, key]
      exact ⟨fun _ => rfl, fun _ => ⟨read, rfl, rfl⟩⟩
    · have two : 2 ≤ (settings.desKey.take 63).length := by
        rw [List.length_take]
        omega
      rw [← List.take_append_drop 63 settings.desKey] at key
      rw [← (parseDesKey_cut two key).1]
      refine ⟨fun ⟨other, cut, same⟩ => ?_, fun cut => ⟨read, cut, rfl⟩⟩
      rw [cut, same]
  · rw [not_not] at some
    rw [some]
    exact ⟨fun _ => rfl, fun _ => ⟨_, rfl, rfl⟩⟩

/-- With the names and the server as they should be, the line has room. -/
theorem line_iff {cam : CamSettings} :
    (daemonSend (camdKeyword ++ cam.fields.text)).isSome = true ↔
      cam.kind.word.length + cam.host.length + (decimal cam.port.toNat).length +
        cam.fields.user.length + cam.fields.password.length + cam.fields.desKey.length ≤ 244 := by
  have keyword : camdKeyword.length = 5 := rfl
  have text := length_text cam.fields
  have proto : cam.fields.proto = cam.kind.word := rfl
  have host : cam.fields.host = cam.host := rfl
  have port : cam.fields.port = cam.port := rfl
  rw [proto, host, port] at text
  rw [daemonSend, Option.isSome_ite, List.length_append]
  omega

/-- The length of the key in the command. -/
theorem length_keptKey (settings : CamSettings) :
    settings.kept.fields.desKey.length = settings.keyLength := by
  change (if settings.desKey.take 63 ≠ [] then settings.desKey.take 63
    else defaultDesKey).length = _
  rw [CamSettings.keyLength]
  by_cases some : settings.desKey ≠ []
  · rw [if_pos (take_ne_nil.2 some), if_pos some, List.length_take]
  · rw [if_neg (fun other => some (take_ne_nil.1 other)), if_neg some]

/-- Names and server are kept as they are. -/
theorem kept_fields (host : settings.host.length ≤ 95)
    (user : settings.user ≠ [] ∧ settings.user.length ≤ 63)
    (password : settings.password ≠ [] ∧ settings.password.length ≤ 63) :
    settings.kept.host = settings.host ∧ settings.kept.fields.user = settings.user ∧
      settings.kept.fields.password = settings.password := by
  have name : ∀ {text : List UInt8}, text ≠ [] ∧ text.length ≤ 63 →
      (if text.take 63 ≠ [] then text.take 63 else dash) = text := fun both => by
    rw [if_pos (take_ne_nil.2 both.1), List.take_of_length_le both.2]
  exact ⟨List.take_of_length_le host, name user, name password⟩

/-- The protocol is understood, so only the key can be refused. -/
theorem act_setCamd_iff {config : CamdConfig} :
    settings.kept.fields.act = .setCamd (some config) ↔
      ∃ key, settings.kept.fields.key settings.kind = some key ∧
        settings.kept.fields.config settings.kind key = config := by
  have proto : dtvCamdParseProto settings.kept.fields.proto = some settings.kind := by
    rw [← kept_kind]
    exact parseProto_word _
  have act : settings.kept.fields.act =
      match settings.kept.fields.key settings.kind with
      | none => .report wrongDesKey
      | some key => .setCamd (some (settings.kept.fields.config settings.kind key)) := by
    rw [CamdFields.act, proto]
  rw [act]
  cases settings.kept.fields.key settings.kind with
  | none => exact ⟨fun same => (nomatch same), fun ⟨_, same, _⟩ => (nomatch same)⟩
  | some key =>
      constructor
      · intro same
        exact ⟨key, rfl, Option.some.inj (CamdAction.setCamd.inj same)⟩
      · rintro ⟨other, same, rfl⟩
        rw [Option.some.inj same]

/-- The configuration of the fields matches exactly when the names, the server and the
key come through. -/
theorem CamSettings.Accepted.matches_iff (accepted : settings.Accepted) :
    (∃ config, settings.kept.fields.act = .setCamd (some config) ∧ config.Matches settings) ↔
      settings.host.length ≤ 95 ∧ (settings.user ≠ [] ∧ settings.user.length ≤ 63) ∧
        (settings.password ≠ [] ∧ settings.password.length ≤ 63) ∧
          (settings.kind = .newcamd → (settings.desKey.drop 63).all isSeparator = true) := by
  have host : buffered 96 settings.kept.host = settings.host ↔ settings.host.length ≤ 95 := by
    change (settings.host.take 95).take 95 = settings.host ↔ _
    rw [List.take_take, List.take_eq_self_iff]
    rfl
  have user := name_iff settings.user
  have password := name_iff settings.password
  constructor
  · rintro ⟨config, act, fits⟩
    obtain ⟨key, read, rfl⟩ := act_setCamd_iff.1 act
    refine ⟨host.1 fits.host, user.1 fits.user, password.1 fits.password, fun newcamd => ?_⟩
    rw [newcamd] at read
    exact accepted.key_iff.1 ⟨key, read, fits.key newcamd⟩
  · rintro ⟨hostFits, userFits, passwordFits, keyFits⟩
    obtain ⟨key, read, same⟩ : ∃ key, settings.kept.fields.key settings.kind = some key ∧
        (settings.kind = .newcamd → dtvCamdParseDesKey settings.keyText = some key) := by
      cases kind : settings.kind with
      | newcamd =>
          obtain ⟨key, read, same⟩ := accepted.key_iff.2 (keyFits kind)
          exact ⟨key, read, fun _ => same⟩
      | cs378x => exact ⟨.zero, rfl, nofun⟩
    exact ⟨_, act_setCamd_iff.2 ⟨key, read, rfl⟩, rfl, host.2 hostFits, rfl, user.2 userFits,
      password.2 passwordFits, same⟩

/-- What survives was sent, and its fields make the configuration. -/
theorem CamSettings.Accepted.survives_iff_sent (accepted : settings.Accepted) :
    settings.Survives ↔ (daemonSend (sendCamdConfig settings.kept)).isSome = true ∧
      ∃ config, settings.kept.fields.act = .setCamd (some config) ∧ config.Matches settings := by
  constructor
  · rintro ⟨line, config, sent, arrives, fits⟩
    have first := (accepted.arrives sent []).symm.trans (arrives [])
    exact ⟨Option.isSome_iff_exists.2 ⟨line, sent⟩, config,
      Option.some.inj (Option.some.inj first), fits⟩
  · rintro ⟨goes, config, act, fits⟩
    obtain ⟨line, sent⟩ := Option.isSome_iff_exists.1 goes
    exact ⟨line, config, sent, fun rest => act ▸ accepted.arrives sent rest, fits⟩

/-- **What becomes of the card server settings.** For every settings that are accepted,
the engine gets them as they are exactly when neither name is empty, every field fits its
buffers, and the line is short enough for `daemon_send`. -/
theorem camd_settings_survive_iff (accepted : settings.Accepted) :
    settings.Survives ↔ settings.Fits := by
  rw [accepted.survives_iff_sent, accepted.matches_iff, accepted.command, line_iff, kept_kind,
    length_keptKey]
  constructor
  · rintro ⟨line, host, user, password, key⟩
    obtain ⟨sameHost, sameUser, samePassword⟩ := kept_fields host user password
    rw [sameHost, sameUser, samePassword] at line
    exact ⟨host, user, password, key, line⟩
  · intro fits
    obtain ⟨sameHost, sameUser, samePassword⟩ := kept_fields fits.host fits.user fits.password
    rw [sameHost, sameUser, samePassword]
    exact ⟨fits.line, fits.host, fits.user, fits.password, fits.key⟩

end Accepted

/-! ### With names and without -/

def someHost : List UInt8 := ascii ['c', 'a', 'm', '.', 't', 'v']

/-- A newcamd server with the default key. -/
def serverFor (user password : List UInt8) : CamSettings where
  enabled := true
  proto := 0
  host := someHost
  port := 15000
  user := user
  password := password
  desKey := []

theorem accepted_serverFor {user password : List UInt8} (userSolid : Solid user)
    (passwordSolid : Solid password) : (serverFor user password).Accepted where
  enabled := rfl
  server := ⟨(by decide : someHost ≠ []), (by decide : (15000 : UInt32) ≠ 0)⟩
  host := (by decide : Solid someHost)
  user := userSolid
  password := passwordSolid
  desKey := nofun
  key := .inl rfl

theorem camd_settings_survive_iff_named :
    (serverFor someHost someHost).Survives ↔ (serverFor someHost someHost).Fits :=
  camd_settings_survive_iff (accepted_serverFor (by decide) (by decide))

/-- A server without user and password is asked with a dash for each. -/
theorem camd_names_changed : (serverFor [] []).Accepted ∧ ¬ (serverFor [] []).Survives := by
  have accepted := accepted_serverFor (by decide : Solid []) (by decide : Solid [])
  refine ⟨accepted, fun survives => ?_⟩
  have names := accepted.matches_iff.1 (accepted.survives_iff_sent.1 survives).2
  exact names.2.1.1 rfl

end Sdk
