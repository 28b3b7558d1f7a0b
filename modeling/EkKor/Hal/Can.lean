import EkKor.Lib.Packed
import EkKor.Lib.Runs
import EkKor.Types

/-!
# The CAN bus (`ekk_hal_stm32g474.c`)

A message of up to eight bytes is one frame, a longer one is cut into fragments with a header byte.
The identifier of a frame has 11 bits: the type of the message and its sender.

* `canTransmit`, `canReceive`   the registers of a frame;
* `send`           the frames of a message;
* `recv`           a call, with the one buffer for the fragments of all senders;
* `receiver`       the machine of the calls, one for each frame on the bus.
-/

namespace EkKor
namespace Can
open Runs (Machine)

/-- `MSG_MAX_LEN` -/
abbrev msgMaxLen : Nat := 64

/-- `EKK_MSG_DISCOVERY` -/
abbrev msgDiscovery : UInt8 := 2

/-- `EKK_MSG_PROPOSAL` -/
abbrev msgProposal : UInt8 := 4

/-! ## identifiers -/

/-- `CAN_ID_ENCODE` -/
def canIdEncode (msgType : UInt8) (senderId : ModuleId) : UInt32 :=
  msgType.toUInt32 <<< 8 ||| senderId.toUInt32

/-- `CAN_ID_GET_TYPE` -/
def canIdGetType (canId : UInt32) : UInt8 := (canId >>> 8 &&& 7).toUInt8

/-- `CAN_ID_GET_SENDER` -/
def canIdGetSender (canId : UInt32) : ModuleId := (canId &&& 0xFF).toUInt8

/-! ## frames -/

/-- the registers of a mailbox: the identifier, the length and the data -/
structure Frame where
  ir : UInt32
  dtr : UInt32
  dlr : UInt32
  dhr : UInt32
  deriving DecidableEq

/-- `can_transmit`, with a free mailbox -/
def canTransmit (stdId : UInt32) (data : List UInt8) : Frame :=
  let data := data.take 8
  let byte (i : Nat) : UInt8 := data.getD i 0
  { ir := stdId <<< 21
    dtr := UInt32.ofNat data.length
    dlr := LittleEndian.word (byte 0) (byte 1) (byte 2) (byte 3)
    dhr := LittleEndian.word (byte 4) (byte 5) (byte 6) (byte 7) }

/-- `can_receive`, with a frame in the FIFO -/
def canReceive (frame : Frame) : UInt32 × List UInt8 :=
  (frame.ir >>> 21 &&& 0x7FF, (LittleEndian.bytes frame.dlr ++ LittleEndian.bytes frame.dhr).take
    (min (frame.dtr &&& 0x0F).toNat 8))

/-! ## sending -/

/-- the loop of `ekk_hal_send` -/
def fragments (canId : UInt32) (fragIdx : UInt8) (payload : List UInt8) : List Frame :=
  if 0 < payload.length then
    let more := decide (7 < payload.length)
    canTransmit canId ((fragIdx ||| if more = true then 0x80 else 0) :: payload.take 7) ::
      fragments canId (fragIdx + 1) (payload.drop 7)
  else []
termination_by payload.length
decreasing_by
  rw [List.length_drop]
  omega

/-- `ekk_hal_send` of a module: the frames that it transmits -/
def send (moduleId : ModuleId) (msgType : UInt8) (payload : List UInt8) : Except Err (List Frame) :=
  if msgMaxLen < payload.length then .error .invalidArg
  else
    let canId := canIdEncode msgType moduleId
    if payload.length ≤ 8 then .ok [canTransmit canId payload]
    else .ok (fragments canId 0 payload)

/-! ## receiving -/

/-- `g_reassembly`; the length is that of the data -/
structure Reassembly where
  data : List UInt8
  senderId : ModuleId
  msgType : UInt8
  expectedFrag : UInt8
  active : Bool
  deriving DecidableEq

/-- `g_reassembly` at the start -/
def Reassembly.zero : Reassembly := ⟨[], 0, 0, 0, false⟩

/-- a message that `ekk_hal_recv` returns, with the bytes that it copies and the length -/
structure Received where
  sender : ModuleId
  msgType : UInt8
  data : List UInt8
  len : Nat
  deriving DecidableEq

def isFragment (rxMsgType : UInt8) (canData : List UInt8) : Bool :=
  decide (1 < canData.length) && (rxMsgType == msgDiscovery || rxMsgType == msgProposal) &&
    decide (canData.getD 0 0 &&& 0x7F < 16)

def restart (g : Reassembly) (rxSender : ModuleId) (rxMsgType fragIdx : UInt8) : Reassembly :=
  if fragIdx = 0 then ⟨[], rxSender, rxMsgType, 0, true⟩ else g

def reassemble (g : Reassembly) (rxSender : ModuleId) (rxMsgType : UInt8) (canData : List UInt8)
    (len : Nat) : Except Err Received × Reassembly :=
  let fragInfo := canData.getD 0 0
  let fragIdx := fragInfo &&& 0x7F
  let g := restart g rxSender rxMsgType fragIdx
  if g.active = true ∧ g.senderId = rxSender ∧ g.msgType = rxMsgType ∧ fragIdx = g.expectedFrag then
    let chunk := canData.drop 1
    let data := if g.data.length + chunk.length ≤ msgMaxLen then g.data ++ chunk else g.data
    let g := { g with data := data, expectedFrag := g.expectedFrag + 1 }
    if fragInfo &&& 0x80 = 0 then
      (.ok ⟨g.senderId, g.msgType, g.data.take len, g.data.length⟩, { g with active := false })
    else (.error .notFound, g)
  else (.error .notFound, g)

/-- `ekk_hal_recv` with a buffer of `len` bytes -/
def recv (g : Reassembly) (len : Nat) (pending : Option Frame) : Except Err Received × Reassembly :=
  match pending with
  | none => (.error .notFound, g)
  | some frame =>
    let (canId, canData) := canReceive frame
    let rxMsgType := canIdGetType canId
    let rxSender := canIdGetSender canId
    if isFragment rxMsgType canData = true then reassemble g rxSender rxMsgType canData len
    else (.ok ⟨rxSender, rxMsgType, canData.take len, canData.length⟩, g)

/-- the calls of `ekk_hal_recv` with a buffer of 64 bytes, one for each frame: the outputs are the
messages -/
def receiver : Machine Reassembly Frame Received where
  start := .zero
  step g frame :=
    let (res, g) := recv g msgMaxLen (some frame)
    (g, match res with
      | .ok msg => [msg]
      | .error _ => [])

end Can
end EkKor
