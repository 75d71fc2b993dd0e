import UsbDvbs2.Camd.Protocols
import UsbDvbs2.Concurrency.Walk

/-! # Which request a control word answers

A receive timeout leaves the connection open, so a late answer can be the next
thing read. newcamd reads past it by its message id; cs378x takes the first
message that is no EMM request.
-/

namespace Camd

open Bytes Concurrency

/-! ## Reading past messages -/

section ReadsPast

variable {α : Type} (skips wanted : α → Prop)

/-- A wanted message comes behind at most `limit` others that are read past. -/
def ReadsPast (limit : Nat) (incoming : List α) : Prop :=
  ∃ skipped found later, incoming = skipped ++ found :: later ∧ skipped.length ≤ limit ∧
    (∀ message ∈ skipped, skips message) ∧ wanted found

theorem not_readsPast_nil (limit : Nat) : ¬ ReadsPast skips wanted limit [] := by
  intro reads
  rcases reads with ⟨skipped, found, later, same, -⟩
  cases skipped <;> cases same

theorem readsPast_cons {limit : Nat} {message : α} {later : List α} :
    ReadsPast skips wanted limit (message :: later) ↔
      wanted message ∨ skips message ∧ 0 < limit ∧ ReadsPast skips wanted (limit - 1) later := by
  constructor
  · intro reads
    rcases reads with ⟨skipped, found, rest, same, few, all, is⟩
    cases skipped with
    | nil =>
        cases same
        exact .inl is
    | cons first skipped =>
        cases same
        rw [List.forall_mem_cons] at all
        rw [List.length_cons] at few
        exact .inr ⟨all.1, by omega, skipped, found, rest, rfl, by omega, all.2, is⟩
  · intro decided
    rcases decided with is | ⟨skip, room, skipped, found, rest, rfl, few, all, is⟩
    · exact ⟨[], message, later, rfl, Nat.zero_le _, nofun, is⟩
    · refine ⟨message :: skipped, found, rest, rfl, ?_, List.forall_mem_cons.mpr ⟨skip, all⟩, is⟩
      rw [List.length_cons]
      omega

end ReadsPast

/-! ## The message that decides -/

namespace Newcamd

/-- A message that `newcamd_recv_cw` reads past: a stale answer, or another table. -/
def Skips (msgId : UInt16) : Arrival → Prop
  | .message _ bytes =>
      be16 bytes 2 ≠ msgId ∨ payloadSize bytes ≤ bytes.length - 12 ∧
        isEcmTable ((bytes.drop 12).take (payloadSize bytes)) = false
  | _ => False

/-- A control word, with the id of the request it answers. -/
def IsWord (msgId : UInt16) (bytes : List UInt8) : Prop :=
  be16 bytes 2 = msgId ∧ payloadSize bytes = 19 ∧ 19 ≤ bytes.length - 12 ∧
    isEcmTable ((bytes.drop 12).take 19) = true

def Brings (msgId : UInt16) (source : Source) (arrival : Arrival) : Prop :=
  ∃ bytes, arrival = .message source bytes ∧ IsWord msgId bytes

theorem conclude_word_iff {source asked : Source} {payload : List UInt8} {error : String} :
    (∃ words, (conclude asked payload error).1 = .word source words) ↔
      asked = source ∧ payload.length = 19 := by
  unfold conclude
  by_cases word : payload.length = 19
  · rw [if_pos word]
    constructor
    · intro returned
      rcases returned with ⟨words, same⟩
      exact ⟨(Verdict.word.inj same).1, word⟩
    · intro word
      rcases word with ⟨rfl, _⟩
      exact ⟨_, rfl⟩
  · rw [if_neg word]
    split <;> exact iff_of_false (fun ⟨_, same⟩ => nomatch same) fun ⟨_, is⟩ => word is

section Message

variable {msgId : UInt16} (error : String) (source : Source) {bytes : List UInt8}

theorem brings_message {asked : Source} :
    Brings msgId source (.message asked bytes) ↔ asked = source ∧ IsWord msgId bytes := by
  constructor
  · intro brings
    rcases brings with ⟨_, same, is⟩
    cases same
    exact ⟨rfl, is⟩
  · intro brings
    rcases brings with ⟨rfl, is⟩
    exact ⟨bytes, rfl, is⟩

theorem recvMessage_stale (stale : be16 bytes 2 ≠ msgId) :
    recvMessage true msgId error (.message source bytes) = (.stale, error) := by
  rw [recvMessage, if_pos ⟨rfl, stale⟩]

theorem recvMessage_overflows (current : ¬ be16 bytes 2 ≠ msgId)
    (overflows : bytes.length - 12 < payloadSize bytes) :
    recvMessage true msgId error (.message source bytes) =
      (.fatal, "newcamd: reply overflows its buffer") := by
  rw [recvMessage, if_neg fun stale => current stale.2, if_pos overflows]

theorem recvMessage_payload (current : ¬ be16 bytes 2 ≠ msgId)
    (fits : ¬ bytes.length - 12 < payloadSize bytes) :
    recvMessage true msgId error (.message source bytes) =
      (.payload source ((bytes.drop 12).take (payloadSize bytes)), error) := by
  rw [recvMessage, if_neg fun stale => current stale.2, if_neg fits]

/-- A message that is read past leaves the decision to the next ones. -/
theorem skip_iff {attempts : Nat} {text : String} {later : List Arrival} {asked : Source}
    (few : attempts ≤ maxAttempts)
    (ih : ∀ {attempts : Nat} {error : String}, attempts ≤ maxAttempts →
      ((∃ words, (recvCw msgId attempts error later).1 = .word source words) ↔
        ReadsPast (Skips msgId) (Brings msgId source) (maxAttempts - attempts) later))
    (skips : Skips msgId (.message asked bytes)) (noWord : ¬ IsWord msgId bytes) :
    (∃ words, (if maxAttempts < attempts + 1 then (Verdict.fatal, text)
        else recvCw msgId (attempts + 1) error later).1 = .word source words) ↔
      (asked = source ∧ IsWord msgId bytes) ∨ Skips msgId (.message asked bytes) ∧
        0 < maxAttempts - attempts ∧
          ReadsPast (Skips msgId) (Brings msgId source) (maxAttempts - attempts - 1) later := by
  rw [or_iff_right fun brings => noWord brings.2]
  by_cases last : maxAttempts < attempts + 1
  · rw [if_pos last]
    refine iff_of_false (fun ⟨_, same⟩ => nomatch same) fun ⟨_, room, _⟩ => ?_
    omega
  · rw [if_neg last, ih (by omega), Nat.sub_add_eq]
    have room : 0 < maxAttempts - attempts := by omega
    exact ⟨fun rest => ⟨skips, room, rest⟩, fun rest => rest.2.2⟩

end Message

/-- A word is returned from the first message that is not read past. -/
theorem recvCw_word_iff {msgId : UInt16} {attempts : Nat} {error : String}
    {incoming : List Arrival} {source : Source} (few : attempts ≤ maxAttempts) :
    (∃ words, (recvCw msgId attempts error incoming).1 = .word source words) ↔
      ReadsPast (Skips msgId) (Brings msgId source) (maxAttempts - attempts) incoming := by
  induction incoming generalizing attempts error with
  | nil => exact iff_of_false (fun ⟨_, same⟩ => nomatch same) (not_readsPast_nil _ _ _)
  | cons arrival later ih =>
      rw [readsPast_cons]
      cases arrival with
      | silence | broken =>
          refine iff_of_false (fun ⟨_, same⟩ => nomatch same) ?_
          intro decided
          rcases decided with ⟨_, impossible, _⟩ | ⟨impossible, _⟩
          · cases impossible
          · exact impossible
      | message asked bytes =>
          rw [brings_message, recvCw]
          by_cases stale : be16 bytes 2 ≠ msgId
          · rw [recvMessage_stale error asked stale]
            exact skip_iff error source few ih (.inl stale) fun word => stale word.1
          by_cases overflows : bytes.length - 12 < payloadSize bytes
          · rw [recvMessage_overflows error asked stale overflows]
            refine iff_of_false (fun ⟨_, same⟩ => nomatch same) ?_
            intro decided
            rcases decided with ⟨_, _, size, room, _⟩ | ⟨skips | ⟨room, _⟩, _⟩
            · omega
            · exact stale skips
            · omega
          · rw [recvMessage_payload error asked stale overflows]
            have length :
                ((bytes.drop 12).take (payloadSize bytes)).length = payloadSize bytes := by
              rw [List.length_take, List.length_drop]
              omega
            by_cases table : isEcmTable ((bytes.drop 12).take (payloadSize bytes)) = true
            · simp only [if_pos table]
              rw [conclude_word_iff, length]
              have keeps : ¬ Skips msgId (.message asked bytes) := by
                intro skipped
                rcases skipped with skips | ⟨_, other⟩
                · exact stale skips
                · exact nomatch other.symm.trans table
              rw [or_iff_left fun skips => keeps skips.1]
              refine and_congr_right fun _ => ⟨fun size => ?_, fun word => word.2.1⟩
              exact ⟨not_not.mp stale, size, by omega, size ▸ table⟩
            · simp only [if_neg table]
              have skips : Skips msgId (.message asked bytes) :=
                .inr ⟨by omega, Bool.eq_false_iff.mpr table⟩
              refine skip_iff error source few ih skips fun word => ?_
              exact table (word.2.1 ▸ word.2.2.2)

end Newcamd

namespace Cs378x

/-- A message that `cs378x_recv_cw` reads past. -/
def Skips : Arrival → Prop
  | .message _ bytes => isEmmRequest bytes = true
  | _ => False

/-- A control word for whichever request. -/
def IsWord (bytes : List UInt8) : Prop :=
  octet bytes 0 = 0x01 ∧ 48 ≤ messageLength bytes ∧ 0x10 ≤ octet bytes 1

def Brings (source : Source) (arrival : Arrival) : Prop :=
  ∃ bytes, arrival = .message source bytes ∧ IsWord bytes

theorem conclude_word_iff {source asked : Source} {bytes : List UInt8} {error : String} :
    (∃ words, (conclude asked bytes error).1 = .word source words) ↔
      asked = source ∧ IsWord bytes := by
  unfold conclude IsWord
  by_cases command : octet bytes 0 = 0x01
  · by_cases short : messageLength bytes < 48 ∨ octet bytes 1 < 0x10
    · rw [if_neg (not_not.mpr command), if_pos short]
      refine iff_of_false (fun ⟨_, same⟩ => nomatch same) fun ⟨_, _, long, size⟩ => ?_
      omega
    · rw [if_neg (not_not.mpr command), if_neg short]
      constructor
      · intro returned
        rcases returned with ⟨words, same⟩
        exact ⟨(Verdict.word.inj same).1, command, by omega, by omega⟩
      · intro word
        rcases word with ⟨rfl, _⟩
        exact ⟨_, rfl⟩
  · rw [if_pos command]
    exact iff_of_false (fun ⟨_, same⟩ => nomatch same) fun ⟨_, is, _⟩ => command is

/-- A word is returned from the first message that is no EMM request. -/
theorem recvCw_word_iff {attempts : Nat} {error : String} {incoming : List Arrival}
    {source : Source} (few : attempts ≤ maxAttempts) :
    (∃ words, (recvCw attempts error incoming).1 = .word source words) ↔
      ReadsPast Skips (Brings source) (maxAttempts - attempts) incoming := by
  induction incoming generalizing attempts error with
  | nil => exact iff_of_false (fun ⟨_, same⟩ => nomatch same) (not_readsPast_nil _ _ _)
  | cons arrival later ih =>
      rw [readsPast_cons]
      cases arrival with
      | silence | broken =>
          refine iff_of_false (fun ⟨_, same⟩ => nomatch same) ?_
          intro decided
          rcases decided with ⟨_, impossible, _⟩ | ⟨impossible, _⟩
          · cases impossible
          · exact impossible
      | message asked bytes =>
          have brings : Brings source (.message asked bytes) ↔ asked = source ∧ IsWord bytes := by
            constructor
            · intro brought
              rcases brought with ⟨_, same, is⟩
              cases same
              exact ⟨rfl, is⟩
            · intro word
              rcases word with ⟨rfl, is⟩
              exact ⟨bytes, rfl, is⟩
          rw [brings, recvCw]
          by_cases emm : isEmmRequest bytes = true
          · have noWord : ¬ (asked = source ∧ IsWord bytes) := by
              intro word
              rcases word with ⟨_, command, _⟩
              rw [isEmmRequest, command] at emm
              cases emm
            rw [if_pos emm, or_iff_right noWord]
            by_cases last : maxAttempts < attempts + 1
            · rw [if_pos last]
              refine iff_of_false (fun ⟨_, same⟩ => nomatch same) fun ⟨_, room, _⟩ => ?_
              omega
            · rw [if_neg last, ih (by omega)]
              have room : 0 < maxAttempts - attempts := by omega
              rw [Nat.sub_add_eq]
              exact ⟨fun rest => ⟨emm, room, rest⟩, fun rest => rest.2.2⟩
          · rw [if_neg emm, conclude_word_iff]
            exact (or_iff_left fun skips => emm skips.1).symm

end Cs378x

/-! ## A whole connection -/

/-- The requests of one connection: the id of the latest and how many there were. -/
structure Link where
  msgId : UInt16
  sent : Nat

/-- A connection whose next request is the first to count; logging in may have
used up ids. -/
def Link.opened (base : UInt16) : Link := ⟨base, 0⟩

inductive Exchange where
  | send
  | recv (incoming : List Arrival) (error : String)

def Link.next (link : Link) : Exchange → Link
  | .send => ⟨link.msgId + 1, link.sent + 1⟩
  | .recv .. => link

/-- `recv_cw` of a protocol's ops table. -/
def recvCw (proto : Proto) (link : Link) (incoming : List Arrival) (error : String) : Verdict :=
  match proto with
  | .newcamd => (Newcamd.recvCw link.msgId 0 error incoming).1
  | .cs378x => (Cs378x.recvCw 0 error incoming).1

/-- The message that decides a call is a control word of this source. -/
def Decides (proto : Proto) (link : Link) (source : Source) (incoming : List Arrival) : Prop :=
  match proto with
  | .newcamd => ReadsPast (Newcamd.Skips link.msgId) (Newcamd.Brings link.msgId source)
      Newcamd.maxAttempts incoming
  | .cs378x => ReadsPast Cs378x.Skips (Cs378x.Brings source) Cs378x.maxAttempts incoming

theorem recvCw_word_iff {proto : Proto} {link : Link} {incoming : List Arrival} {error : String}
    {source : Source} :
    (∃ words, recvCw proto link incoming error = .word source words) ↔
      Decides proto link source incoming := by
  cases proto with
  | newcamd => exact Newcamd.recvCw_word_iff (Nat.zero_le _)
  | cs378x => exact Cs378x.recvCw_word_iff (Nat.zero_le _)

/-- The message id that a message carries. -/
def echoedId (proto : Proto) (bytes : List UInt8) : UInt16 :=
  match proto with
  | .newcamd => be16 bytes 2
  | .cs378x => be16 bytes 16

/-- The kind of message that answers an ECM. -/
def answersEcm (proto : Proto) (bytes : List UInt8) : Bool :=
  match proto with
  | .newcamd => Newcamd.isEcmTable (bytes.drop 12)
  | .cs378x => octet bytes 0 == 0x01

/-- What the server promises about one message: an answer follows its request
and echoes its id; what it sends on its own is not an answer. -/
def Honest (proto : Proto) (base : UInt16) (sent : Nat) : Source → List UInt8 → Prop
  | .answer request, bytes =>
      1 ≤ request ∧ request ≤ sent ∧ echoedId proto bytes = base + UInt16.ofNat request
  | .unsolicited, bytes => answersEcm proto bytes = false

/-- All messages of the transition are honest. -/
def Serves (proto : Proto) (base : UInt16) (moved : Moved Link Exchange) : Prop :=
  ∀ incoming error, moved.event = .recv incoming error →
    ∀ source bytes, .message source bytes ∈ incoming →
      Honest proto base moved.before.sent source bytes

/-- A word that is returned comes from the answer to the latest request. -/
def CreditsLatest (proto : Proto) (moved : Moved Link Exchange) : Prop :=
  ∀ incoming error, moved.event = .recv incoming error →
    ∀ source words, recvCw proto moved.before incoming error = .word source words →
      source = .answer moved.before.sent

/-- The message that decides the call is a control word for an earlier request. -/
def LateWord (proto : Proto) (moved : Moved Link Exchange) : Prop :=
  ∃ incoming error request, moved.event = .recv incoming error ∧
    request < moved.before.sent ∧ Decides proto moved.before (.answer request) incoming

/-- No answer comes 65536 requests late. -/
def Recent (moved : Moved Link Exchange) : Prop :=
  ∀ incoming error, moved.event = .recv incoming error →
    ∀ request bytes, .message (.answer request) bytes ∈ incoming →
      moved.before.sent < request + 65536

/-- The deciding message is among those that arrived, and answers an ECM. -/
theorem Decides.exists_message {proto : Proto} {link : Link} {source : Source}
    {incoming : List Arrival} (decides : Decides proto link source incoming) :
    ∃ bytes, .message source bytes ∈ incoming ∧ answersEcm proto bytes = true ∧
      (proto = .newcamd → echoedId proto bytes = link.msgId) := by
  cases proto with
  | newcamd =>
      obtain ⟨skipped, _, later, rfl, _, _, bytes, rfl, word⟩ := decides
      refine ⟨bytes, List.mem_append_right _ List.mem_cons_self, ?_, fun _ => word.1⟩
      have table := word.2.2.2
      rw [answersEcm]
      cases payload : bytes.drop 12 with
      | nil =>
          rw [payload] at table
          exact table
      | cons head tail =>
          rw [payload] at table
          exact table
  | cs378x =>
      obtain ⟨skipped, _, later, rfl, _, _, bytes, rfl, word⟩ := decides
      exact ⟨bytes, List.mem_append_right _ List.mem_cons_self, beq_iff_eq.mpr word.1, nofun⟩

section OneCall

variable {proto : Proto} {base : UInt16} {moved : Moved Link Exchange}

theorem creditsLatest_iff (serves : Serves proto base moved) :
    CreditsLatest proto moved ↔ ¬ LateWord proto moved := by
  constructor
  · intro credits late
    rcases late with ⟨incoming, error, request, event, earlier, decides⟩
    obtain ⟨words, returned⟩ := recvCw_word_iff.mpr decides
    cases credits incoming error event _ words returned
    exact absurd earlier (Nat.lt_irrefl _)
  · intro onTime incoming error event source words returned
    have decides := recvCw_word_iff.mp ⟨words, returned⟩
    obtain ⟨bytes, member, answers, _⟩ := decides.exists_message
    have honest := serves incoming error event source bytes member
    cases source with
    | unsolicited => exact nomatch honest.symm.trans answers
    | answer request =>
        by_contra other
        refine onTime ⟨incoming, error, request, event, ?_, decides⟩
        have different : request ≠ moved.before.sent := fun same => other (same ▸ rfl)
        exact Nat.lt_of_le_of_ne honest.2.1 different

/-- newcamd takes a late word only for one whose id has come round again. -/
theorem newcamd_onTime (serves : Serves .newcamd base moved) (recent : Recent moved)
    (numbered : moved.before.msgId = base + UInt16.ofNat moved.before.sent) :
    ¬ LateWord .newcamd moved := by
  intro late
  rcases late with ⟨incoming, error, request, event, earlier, decides⟩
  obtain ⟨bytes, member, _, echoes⟩ := decides.exists_message
  have honest := serves incoming error event _ bytes member
  have near := recent incoming error event request bytes member
  have sameId : UInt16.ofNat request = UInt16.ofNat moved.before.sent :=
    (UInt16.add_right_inj base).mp (honest.2.2.symm.trans ((echoes rfl).trans numbered))
  have sameMod := congrArg UInt16.toNat sameId
  simp only [UInt16.toNat_ofNat'] at sameMod
  omega

end OneCall

/-- The id of the latest request is its number past the base. -/
def Numbered (base : UInt16) (link : Link) : Prop := link.msgId = base + UInt16.ofNat link.sent

theorem Numbered.next {base : UInt16} {link : Link} (numbered : Numbered base link)
    (exchange : Exchange) : Numbered base (link.next exchange) := by
  cases exchange with
  | send =>
      change link.msgId + 1 = base + UInt16.ofNat (link.sent + 1)
      rw [numbered, UInt16.ofNat_add, UInt16.add_assoc]
      rfl
  | recv incoming error => exact numbered

/-- On every connection to an honest server: all words that `recv_cw` returns
come from the answer to the latest ECM exactly when no call is decided by the
word of an earlier one; and in newcamd that never happens while no answer is
65536 requests late. -/
theorem words_answer_latest {proto : Proto} {base : UInt16} {final : Link}
    {moves : List (Moved Link Exchange)}
    (walk : Walk (stepOf Link.next) (.opened base) moves final)
    (serves : ∀ moved ∈ moves, Serves proto base moved) :
    ((∀ moved ∈ moves, CreditsLatest proto moved) ↔ ∀ moved ∈ moves, ¬ LateWord proto moved) ∧
      (proto = .newcamd → (∀ moved ∈ moves, Recent moved) →
        ∀ moved ∈ moves, CreditsLatest proto moved) := by
  refine ⟨forall₂_congr fun moved member => creditsLatest_iff (serves moved member), ?_⟩
  rintro rfl recent
  refine walk.wanted_of_allowed (Numbered base)
    (fun moved => Serves .newcamd base moved ∧ Recent moved) _ ?_ ?_
    fun moved member => ⟨serves moved member, recent moved member⟩
  · rintro ⟨before, exchange, after⟩ step ⟨serve, near⟩ numbered
    obtain rfl : after = before.next exchange := step
    have credits := (creditsLatest_iff serve).mpr (newcamd_onTime serve near numbered)
    exact ⟨numbered.next exchange, credits⟩
  · exact (UInt16.add_zero base).symm

/-! ### A timeout and its late answer -/

/-- A cs378x control word for a request, both halves filled with one byte. -/
def answerTo (request : UInt8) (fill : UInt8) : Arrival :=
  .message (.answer request.toNat)
    ([0x01, 0x10, 0, 0, 0, 0, 0, 0, 0, 1, 0x05, 0x00, 0, 0, 0, 0, 0, request, 0x01, 0x00] ++
      List.replicate 28 fill)

/-- The second request is answered in time, behind an EMM request. -/
def onTime : List Exchange :=
  [.send, .recv [answerTo 1 0xaa] "", .send,
    .recv [.message .unsolicited [0x05, 0x00], answerTo 2 0xbb] ""]

/-- The first answer comes after its timeout, ahead of the second. -/
def lateAnswer : List Exchange :=
  [.send, .recv [.silence] "", .send, .recv [answerTo 1 0xaa, answerTo 2 0xbb] ""]

/-- The messages of a run with the number of requests before them. -/
def received (exchanges : List Exchange) : List (Nat × Source × List UInt8) :=
  (moves Link.next (.opened 0) exchanges).flatMap fun moved =>
    match moved.event with
    | .send => []
    | .recv incoming _ => incoming.filterMap fun
        | .message source bytes => some (moved.before.sent, source, bytes)
        | _ => none

instance (proto : Proto) (base : UInt16) (sent : Nat) :
    (source : Source) → (bytes : List UInt8) → Decidable (Honest proto base sent source bytes)
  | .answer request, bytes =>
      inferInstanceAs (Decidable (1 ≤ request ∧ request ≤ sent ∧
        echoedId proto bytes = base + UInt16.ofNat request))
  | .unsolicited, bytes => inferInstanceAs (Decidable (answersEcm proto bytes = false))

theorem serves_of_received {proto : Proto} {exchanges : List Exchange}
    (honest : ∀ message ∈ received exchanges,
      Honest proto 0 message.1 message.2.1 message.2.2) :
    ∀ moved ∈ moves Link.next (.opened 0) exchanges, Serves proto 0 moved := by
  intro moved member incoming error event source bytes inside
  refine honest (moved.before.sent, source, bytes) (List.mem_flatMap.mpr ⟨moved, member, ?_⟩)
  rw [event]
  exact List.mem_filterMap.mpr ⟨_, inside, rfl⟩

theorem words_answer_latest_onTime :
    (Cs378x.recvCw 0 "" [.message .unsolicited [0x05, 0x00], answerTo 2 0xbb]).1.rc = 1 ∧
    ((∀ moved ∈ moves Link.next (.opened 0) onTime, CreditsLatest .cs378x moved) ↔
      ∀ moved ∈ moves Link.next (.opened 0) onTime, ¬ LateWord .cs378x moved) ∧
    (Proto.cs378x = .newcamd → (∀ moved ∈ moves Link.next (.opened 0) onTime, Recent moved) →
      ∀ moved ∈ moves Link.next (.opened 0) onTime, CreditsLatest .cs378x moved) := by
  have honest : ∀ moved ∈ moves Link.next (.opened 0) onTime, Serves .cs378x 0 moved :=
    serves_of_received (by decide +kernel)
  exact ⟨by decide +kernel, words_answer_latest (walk_moves Link.next (.opened 0) onTime) honest⟩

/-- An honest server that answers every request once, and a word that is
credited to the second request while it answers the first. -/
theorem late_word_credited :
    (∀ moved ∈ moves Link.next (.opened 0) lateAnswer, Serves .cs378x 0 moved) ∧
      ((received lateAnswer).map fun message => message.2.1).Nodup ∧
      ∃ moved ∈ moves Link.next (.opened 0) lateAnswer, ¬ CreditsLatest .cs378x moved := by
  have honest : ∀ moved ∈ moves Link.next (.opened 0) lateAnswer, Serves .cs378x 0 moved :=
    serves_of_received (by decide +kernel)
  have once : ((received lateAnswer).map fun message => message.2.1).Nodup := by decide +kernel
  have returned : recvCw .cs378x ⟨2, 2⟩ [answerTo 1 0xaa, answerTo 2 0xbb] "" =
      .word (.answer 1) (wordsAt (List.replicate 20 0 ++ .replicate 28 0xaa) 20) := by
    decide +kernel
  refine ⟨honest, once, _, List.getElem_mem (n := 3) (by decide), fun credits => ?_⟩
  have latest := credits _ _ rfl _ _ returned
  cases latest

end Camd
