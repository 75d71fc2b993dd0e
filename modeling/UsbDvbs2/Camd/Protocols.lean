import UsbDvbs2.Bytes.Entries
import UsbDvbs2.Camd.Client

/-! # Receiving a control word

`newcamd_recv_cw` and `cs378x_recv_cw` over the messages that arrive on one
connection, already deciphered. Each message carries a mark saying which request
it answers; the code never looks at it. Nothing more to arrive is a timeout.
-/

namespace Camd

open Bytes

/-- What a message is to the server that sent it; requests count from one. -/
inductive Source where
  | answer (request : Nat)
  | unsolicited
  deriving DecidableEq

/-- One turn of reading: nothing came in time, the connection or the message is
spoiled, or a whole message. -/
inductive Arrival where
  | silence
  | broken (error : String)
  | message (source : Source) (bytes : List UInt8)
  deriving DecidableEq

/-- What `recv_cw` returns: 1 with the words, 0, or -1. -/
inductive Verdict where
  | word (source : Source) (words : Words)
  | refused
  | fatal
  deriving DecidableEq

def Verdict.rc : Verdict → Int
  | .word .. => 1
  | .refused => 0
  | .fatal => -1

def keyAt (bytes : List UInt8) (pos : Nat) : Key := .ofFn fun i : Fin 8 => bytes.getD (pos + i) 0

def wordsAt (bytes : List UInt8) (pos : Nat) : Words := ⟨keyAt bytes pos, keyAt bytes (pos + 8)⟩

def noAnswer : String := "The CAM server did not answer"

/-! ## newcamd -/

namespace Newcamd

/-- The answers of `recv_message`. -/
inductive Received where
  | timeout
  | fatal
  | stale
  | payload (source : Source) (bytes : List UInt8)
  deriving DecidableEq

/-- The length that the payload's own header gives. -/
def payloadSize (bytes : List UInt8) : Nat := be12 bytes 13 + 3

/-- `recv_message` on a deciphered message, its two length bytes included: the
message id stands at 2, the payload at 12. The text is the connection's error. -/
def recvMessage (useMsgId : Bool) (msgId : UInt16) (error : String) :
    Arrival → Received × String
  | .silence => (.timeout, noAnswer)
  | .broken text => (.fatal, text)
  | .message source bytes =>
      if useMsgId ∧ be16 bytes 2 ≠ msgId then (.stale, error)
      else if bytes.length - 12 < payloadSize bytes then
        (.fatal, "newcamd: reply overflows its buffer")
      else (.payload source ((bytes.drop 12).take (payloadSize bytes)), error)

/-- Table ids 0x80 and 0x81 are answers to an ECM. -/
def isEcmTable (payload : List UInt8) : Bool := payload.headD 0 == 0x80 || payload.headD 0 == 0x81

/-- The end of `newcamd_recv_cw`, by the length of the answer. -/
def conclude (source : Source) (payload : List UInt8) (error : String) : Verdict × String :=
  if payload.length = 19 then (.word source (wordsAt payload 3), error)
  else if payload.length = 3 then (.refused, "The card cannot decrypt this channel")
  else
    (.fatal,
      if error = "" then s!"newcamd: unexpected reply ({payload.length} bytes)" else error)

def maxAttempts : Nat := 64

/-- `newcamd_recv_cw`; stale answers and other tables are read past, up to 64. -/
def recvCw (msgId : UInt16) : Nat → String → List Arrival → Verdict × String
  | _, _, [] => (.refused, noAnswer)
  | attempts, error, arrival :: later =>
      let skip (error : String) : Verdict × String :=
        if maxAttempts < attempts + 1 then (.fatal, "newcamd: no answer to the ECM")
        else recvCw msgId (attempts + 1) error later
      match recvMessage true msgId error arrival with
      | (.timeout, error) => (.refused, error)
      | (.fatal, error) => (.fatal, error)
      | (.stale, error) => skip error
      | (.payload source payload, error) =>
          if isEcmTable payload then conclude source payload error else skip error

end Newcamd

/-! ## cs378x -/

namespace Cs378x

def roundToBlock (size : Nat) : Nat := (size + 15) / 16 * 16

/-- The length `cs378x_recv` returns for a message. -/
def messageLength (bytes : List UInt8) : Nat := roundToBlock (octet bytes 1 + 20)

/-- The server asking for EMMs. -/
def isEmmRequest (bytes : List UInt8) : Bool := octet bytes 0 == 0x05

def refusal (command : Nat) : String :=
  if command = 0x08 then "no card"
  else if command = 0x44 then "control word not found"
  else "unknown server reply"

def maxAttempts : Nat := 8

/-- What `cs378x_recv_cw` makes of a message that is no EMM request. -/
def conclude (source : Source) (bytes : List UInt8) (error : String) : Verdict × String :=
  if octet bytes 0 ≠ 0x01 then (.refused, s!"cs378x: {refusal (octet bytes 0)}")
  else if messageLength bytes < 48 ∨ octet bytes 1 < 0x10 then
    (.refused, s!"cs378x: control word packet incomplete ({messageLength bytes})")
  else (.word source (wordsAt bytes 20), error)

/-- `cs378x_recv_cw`; EMM requests are read past, up to 8. -/
def recvCw : Nat → String → List Arrival → Verdict × String
  | _, _, [] => (.refused, noAnswer)
  | _, _, .silence :: _ => (.refused, noAnswer)
  | _, _, .broken text :: _ => (.fatal, text)
  | attempts, error, .message source bytes :: later =>
      if isEmmRequest bytes then
        if maxAttempts < attempts + 1 then (.fatal, "cs378x: only EMM requests arrive")
        else recvCw (attempts + 1) error later
      else conclude source bytes error

end Cs378x
end Camd
