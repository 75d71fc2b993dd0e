import UsbDvbs2.Camd.Client
import UsbDvbs2.Text.Lines

/-! # Protocol and key of a card server in text

What `dtv_camd_parse_proto` and `dtv_camd_parse_des_key` accept. A key is twenty-eight
hexadecimal digits with separators anywhere between them.
-/

namespace Camd

open Text

/-- `dtv_camd_proto_name`. -/
def Proto.word : Proto → List UInt8
  | .newcamd => ascii ['n', 'e', 'w', 'c', 'a', 'm', 'd']
  | .cs378x => ascii ['c', 's', '3', '7', '8', 'x']

def dtvCamdParseProto (text : List UInt8) : Option Proto :=
  if text = Proto.word .newcamd then some .newcamd
  else if text = Proto.word .cs378x ∨ text = ascii ['c', 'a', 'm', 'd', '3', '5'] then some .cs378x
  else none

theorem parseProto_word (proto : Proto) : dtvCamdParseProto proto.word = some proto := by
  cases proto <;> rfl

abbrev DesKey : Type := Vector UInt8 14

def DesKey.zero : DesKey := .replicate 14 0

def isSeparator (byte : UInt8) : Bool := byte == 0x20 || byte == 0x3a || byte == 0x2d

def hexValue (byte : UInt8) : Option UInt8 :=
  if 0x30 ≤ byte ∧ byte ≤ 0x39 then some (byte - 0x30)
  else if 0x61 ≤ byte ∧ byte ≤ 0x66 then some (byte - 0x61 + 10)
  else if 0x41 ≤ byte ∧ byte ≤ 0x46 then some (byte - 0x41 + 10)
  else none

/-- The upper digit of a byte replaces it, the lower one joins it. -/
def DesKey.put (key : DesKey) (digits : Nat) (value : UInt8) : DesKey :=
  key.mapIdx fun pos byte =>
    if pos ≠ digits / 2 then byte else if digits % 2 = 1 then byte ||| value else value <<< 4

/-- The loop of `dtv_camd_parse_des_key`, with the digits so far. -/
def readDesKey (digits : Nat) (key : DesKey) : List UInt8 → Option DesKey
  | [] => if digits = 28 then some key else none
  | byte :: more =>
      if isSeparator byte then readDesKey digits key more
      else
        match hexValue byte with
        | none => none
        | some value =>
            if 28 ≤ digits then none else readDesKey (digits + 1) (key.put digits value) more

def behindHexSign : List UInt8 → List UInt8
  | first :: second :: digits =>
      if first = 0x30 ∧ (second = 0x78 ∨ second = 0x58) then digits else first :: second :: digits
  | text => text

def dtvCamdParseDesKey (text : List UInt8) : Option DesKey :=
  readDesKey 0 .zero (behindHexSign text)

/-! ## A key that is cut short -/

variable {digits : Nat} {key read : DesKey} {front back : List UInt8}

/-- Behind the last digit nothing but separators is accepted. -/
theorem readDesKey_full (accepted : readDesKey 28 key back = some read) :
    back.all isSeparator = true ∧ read = key := by
  induction back with
  | nil => exact ⟨rfl, (Option.some.inj accepted).symm⟩
  | cons byte back ih =>
      rw [readDesKey] at accepted
      split at accepted
      · rename_i separator
        rw [List.all_cons, separator, Bool.true_and]
        exact ih accepted
      · split at accepted
        · exact nomatch accepted
        · exact nomatch accepted

/-- Separators do not complete a key. -/
theorem readDesKey_separators (only : back.all isSeparator = true) :
    readDesKey digits key back = if digits = 28 then some key else none := by
  induction back with
  | nil => rfl
  | cons byte back ih =>
      rw [List.all_cons, Bool.and_eq_true] at only
      rw [readDesKey, if_pos only.1, ih only.2]

/-- A key that was accepted is still accepted without its end exactly when that end holds
nothing but separators, and it is the same key then. -/
theorem readDesKey_cut (accepted : readDesKey digits key (front ++ back) = some read) :
    (readDesKey digits key front = some read ↔ back.all isSeparator = true) ∧
      (back.all isSeparator = false → readDesKey digits key front = none) := by
  induction front generalizing digits key with
  | nil =>
      rw [List.nil_append] at accepted
      by_cases full : digits = 28
      · subst full
        obtain ⟨only, rfl⟩ := readDesKey_full accepted
        exact ⟨⟨fun _ => only, fun _ => rfl⟩, fun other => nomatch only.symm.trans other⟩
      · refine ⟨⟨fun same => ?_, fun only => ?_⟩, fun _ => if_neg full⟩
        · rw [readDesKey, if_neg full] at same
          exact nomatch same
        · rw [readDesKey_separators only, if_neg full] at accepted
          exact nomatch accepted
  | cons byte front ih =>
      rw [List.cons_append, readDesKey] at accepted
      rw [readDesKey]
      by_cases separator : isSeparator byte = true
      · rw [if_pos separator] at accepted ⊢
        exact ih accepted
      · rw [if_neg separator] at accepted ⊢
        cases hex : hexValue byte with
        | none =>
            rw [hex] at accepted
            exact nomatch accepted
        | some value =>
            rw [hex] at accepted
            by_cases full : 28 ≤ digits
            · simp only [if_pos full] at accepted
              exact nomatch accepted
            · simp only [if_neg full] at accepted ⊢
              exact ih accepted

/-- The sign in front of the digits is within the first two bytes. -/
theorem behindHexSign_append (two : 2 ≤ front.length) :
    behindHexSign (front ++ back) = behindHexSign front ++ back := by
  match front, two with
  | first :: second :: front, _ =>
      rw [List.cons_append, List.cons_append, behindHexSign, behindHexSign]
      split
      · rfl
      · rfl

theorem parseDesKey_cut (two : 2 ≤ front.length)
    (accepted : dtvCamdParseDesKey (front ++ back) = some read) :
    (dtvCamdParseDesKey front = some read ↔ back.all isSeparator = true) ∧
      (back.all isSeparator = false → dtvCamdParseDesKey front = none) := by
  rw [dtvCamdParseDesKey, behindHexSign_append two] at accepted
  exact readDesKey_cut accepted

end Camd
