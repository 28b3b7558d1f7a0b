import EkKor.Lib.Circular
import EkKor.Types
import EkKor.Lib.Runs

/-!
# The serial link

* `send`, `receive`   the driver;
* `serial_iff`   what arrives, and which writes are safe.
-/

/-!
# The serial link (`ekk_hal_efr32mg24.c`)

`EUSART0` carries frames of bytes, and the bytes that are received are parsed one by one.  Of
`rx_buf` the model has the first `rx_len` bytes, which are all that is ever read; every write into
an array is an output.

* `send`      the bytes of a frame;
* `receive`   the state machine of the receiver;
* `recv`      a call, which returns a queued message or lets the state machine look at a byte.
-/

namespace EkKor
open List
namespace Serial
open Circular (Marks)

/-- `MSG_QUEUE_SIZE` -/
abbrev msgQueueSize : Nat := 64

/-- `MSG_MAX_LEN` -/
abbrev msgMaxLen : Nat := 64

/-- `SERIAL_FRAME_START` -/
abbrev frameStart : UInt8 := 0x7E

/-- `SERIAL_FRAME_ESC` -/
abbrev frameEsc : UInt8 := 0x7D

/-- `SERIAL_FRAME_XOR` -/
abbrev frameXor : UInt8 := 0x20

/-! ## sending -/

def checksum (msgType : UInt8) (senderId destId : ModuleId) (data : List UInt8) : UInt8 :=
  data.foldl (fun crc b => crc ^^^ b)
    (msgType ^^^ senderId ^^^ destId ^^^ UInt8.ofNat data.length)

def escape (b : UInt8) : List UInt8 :=
  if b = frameStart ∨ b = frameEsc then [frameEsc, b ^^^ frameXor] else [b]

/-- `ekk_hal_send` of a module: the bytes that it sends -/
def send (moduleId destId : ModuleId) (msgType : UInt8) (payload : List UInt8) :
    Except Err (List UInt8) :=
  if msgMaxLen < payload.length then .error .invalidArg
  else
    .ok ([frameStart, UInt8.ofNat (payload.length + 3), msgType, moduleId, destId] ++
      payload.flatMap escape ++ [checksum msgType moduleId destId payload])

/-! ## receiving -/

/-- `hal_message_t`; the length is that of the data -/
structure Message where
  sender : ModuleId
  msgType : UInt8
  data : List UInt8
  valid : Bool
  deriving DecidableEq

/-- `rx_state` -/
inductive RxState where
  | start
  | length
  | data
  deriving DecidableEq

/-- the variables of the HAL -/
structure Hal where
  moduleId : ModuleId
  queue : Nat → Message
  marks : Marks
  rxState : RxState
  rxBuf : List UInt8
  rxExpected : UInt8

def Hal.init (moduleId : ModuleId) : Hal :=
  { moduleId := moduleId
    queue := fun _ => ⟨0, 0, [], false⟩
    marks := ⟨0, 0⟩
    rxState := .start
    rxBuf := []
    rxExpected := 0 }

/-- a write into `rx_buf`, or of some bytes into the data of a slot of the queue -/
inductive Write where
  | rxBuf (index : Nat)
  | data (slot len : Nat)
  deriving DecidableEq

def accepts (moduleId : ModuleId) (frame : List UInt8) : Bool :=
  let rxMsgType := frame.getD 0 0
  let rxSender := frame.getD 1 0
  let rxDest := frame.getD 2 0
  let rxCrc := frame.getD (frame.length - 1) 0
  let calcCrc := checksum rxMsgType rxSender rxDest ((frame.drop 3).take (frame.length - 4))
  (rxDest == moduleId || rxDest == broadcastId) && rxCrc == calcCrc

def parse (hal : Hal) : Hal × List Write :=
  if 4 ≤ hal.rxBuf.length ∧ accepts hal.moduleId hal.rxBuf = true then
    let nextHead := (hal.marks.head + 1) % msgQueueSize
    if nextHead ≠ hal.marks.tail then
      let msg : Message :=
        { sender := hal.rxBuf.getD 1 0
          msgType := hal.rxBuf.getD 0 0
          data := (hal.rxBuf.drop 3).take (hal.rxBuf.length - 4)
          valid := true }
      ({ hal with
          queue := Function.update hal.queue hal.marks.head msg
          marks := ⟨nextHead, hal.marks.tail⟩ },
        if 0 < hal.rxBuf.length - 4 then [.data hal.marks.head (hal.rxBuf.length - 4)] else [])
    else (hal, [])
  else (hal, [])

/-- the state machine of `ekk_hal_recv` -/
def receive (hal : Hal) (byte : UInt8) : Hal × List Write :=
  match hal.rxState with
  | .start =>
    if byte = frameStart then ({ hal with rxState := .length, rxBuf := [] }, []) else (hal, [])
  | .length =>
    let hal := { hal with rxExpected := byte }
    if msgMaxLen + 4 < byte.toNat then ({ hal with rxState := .start }, [])
    else ({ hal with rxState := .data }, [])
  | .data =>
    let index := hal.rxBuf.length
    let hal := { hal with rxBuf := hal.rxBuf ++ [byte] }
    if hal.rxExpected.toNat + 1 ≤ hal.rxBuf.length then
      let (hal, writes) := parse hal
      ({ hal with rxState := .start }, .rxBuf index :: writes)
    else (hal, [.rxBuf index])

/-- a message that `ekk_hal_recv` returns, with the bytes that it copies and the length -/
structure Received where
  sender : ModuleId
  msgType : UInt8
  data : List UInt8
  len : Nat
  deriving DecidableEq

/-- `ekk_hal_recv` with a buffer of `len` bytes; `byte` is in the receive FIFO -/
def recv (hal : Hal) (len : Nat) (byte : Option UInt8) : Except Err Received × Hal × List Write :=
  let msg := hal.queue hal.marks.tail
  if hal.marks.head ≠ hal.marks.tail ∧ msg.valid = true then
    (.ok ⟨msg.sender, msg.msgType, msg.data.take len, msg.data.length⟩,
      { hal with
        queue := Function.update hal.queue hal.marks.tail { msg with valid := false }
        marks := ⟨hal.marks.head, (hal.marks.tail + 1) % msgQueueSize⟩ }, [])
  else
    match byte with
    | none => (.error .notFound, hal, [])
    | some byte => (.error .notFound, receive hal byte)

end Serial
end EkKor

/-!
# Frames on the serial link

The receiver counts the bytes of a frame as they come, and never undoes the escapes.

* `feed_frame`     a frame of the announced length reaches the parser;
* `take_escaped_iff`   a payload is the start of its escaped bytes;
* `roundTrips_iff`     the messages that arrive;
* `receive_safe_iff`   the writes of one call;
* `serial_iff`     both.
-/

namespace EkKor
namespace Serial
open Runs List
open Circular (Marks contents Holds)

variable {hal : Hal} {payload data : List UInt8} {destId senderId : ModuleId} {msgType : UInt8}

/-! ## escapes -/

def Plain (payload : List UInt8) : Prop := ∀ b ∈ payload, b ≠ frameStart ∧ b ≠ frameEsc

instance instDecidablePlain (payload : List UInt8) : Decidable (Plain payload) :=
  decidableBAll _ payload

variable {b expected crc : UInt8} {frame : List UInt8} (moduleId : ModuleId)

theorem escape_plain (h : b ≠ frameStart ∧ b ≠ frameEsc) : escape b = [b] :=
  if_neg (not_or.mpr h)

theorem escape_special (h : b = frameStart ∨ b = frameEsc) :
    escape b = [frameEsc, b ^^^ frameXor] := if_pos h

theorem escaped_plain (h : Plain payload) : payload.flatMap escape = payload := by
  induction payload with
  | nil => rfl
  | cons b payload ih =>
    rw [flatMap_cons, escape_plain (h b mem_cons_self),
      ih fun c hc => h c (mem_cons_of_mem b hc)]
    rfl

theorem plain_cons : Plain (b :: payload) ↔
    (b ≠ frameStart ∧ b ≠ frameEsc) ∧ Plain payload := forall_mem_cons

theorem length_escaped (payload : List UInt8) :
    payload.length ≤ (payload.flatMap escape).length ∧
      (¬Plain payload → payload.length < (payload.flatMap escape).length) := by
  induction payload with
  | nil => exact ⟨Nat.le_refl _, fun h => absurd nofun h⟩
  | cons b payload ih =>
    rw [flatMap_cons, length_append, length_cons, plain_cons]
    by_cases hb : b = frameStart ∨ b = frameEsc
    · have hlen : (escape b).length = 2 := congrArg List.length (escape_special hb)
      omega
    · rw [not_or] at hb
      have hlen : (escape b).length = 1 := congrArg List.length (escape_plain hb)
      refine ⟨by omega, fun h => ?_⟩
      have := ih.2 fun hplain => h ⟨hb, hplain⟩
      omega

theorem start_not_mem (payload : List UInt8) : frameStart ∉ payload.flatMap escape := by
  rw [mem_flatMap]
  rintro ⟨b, -, hb⟩
  unfold escape at hb
  split_ifs at hb with hspecial
  · rcases hspecial with rfl | rfl <;> exact absurd hb (by decide)
  · rw [not_or] at hspecial
    exact hspecial.1 (mem_singleton.mp hb).symm

/-- an escaped escape byte: it stays in its place, and the byte after it comes from the escape -/
abbrev escapedEsc : UInt8 := frameEsc ^^^ frameXor

theorem take_shifted (payload : List UInt8) :
    (escapedEsc :: payload.flatMap escape).take payload.length = payload ↔
      payload = List.replicate payload.length escapedEsc := by
  induction payload with
  | nil => exact iff_of_true rfl rfl
  | cons c payload ih =>
    rw [length_cons, take_succ_cons, replicate_succ, List.cons.injEq,
      List.cons.injEq, eq_comm (a := escapedEsc)]
    refine and_congr_right fun hc => ?_
    rw [flatMap_cons, hc, escape_plain (by decide)]
    exact ih

/-- the payload is an escape byte and nothing but bytes of its escape, behind bytes that are not
escaped -/
def EndsInEscape (payload : List UInt8) : Prop :=
  ∃ p m, Plain p ∧ payload = p ++ frameEsc :: List.replicate m escapedEsc

theorem take_escaped_iff (payload : List UInt8) :
    (payload.flatMap escape).take payload.length = payload ↔
      Plain payload ∨ EndsInEscape payload := by
  induction payload with
  | nil => exact iff_of_true rfl (.inl nofun)
  | cons b payload ih =>
    by_cases hb : b ≠ frameStart ∧ b ≠ frameEsc
    · rw [flatMap_cons, escape_plain hb]
      show (b :: payload.flatMap escape).take (payload.length + 1) = _ ↔ _
      rw [take_succ_cons, List.cons.injEq, and_iff_right rfl, ih, plain_cons,
        and_iff_right hb]
      refine or_congr_right ?_
      constructor
      · rintro ⟨p, m, hp, rfl⟩
        exact ⟨b :: p, m, plain_cons.mpr ⟨hb, hp⟩, rfl⟩
      · rintro ⟨p, m, hp, heq⟩
        cases p with
        | nil => exact absurd (List.cons.inj heq).1 hb.2
        | cons c p =>
          obtain ⟨rfl, rfl⟩ := List.cons.inj heq
          exact ⟨p, m, (plain_cons.mp hp).2, rfl⟩
    · have hspecial : b = frameStart ∨ b = frameEsc := by
        rwa [← not_ne_iff, ← not_ne_iff, ← not_and_or]
      have hescape : (b :: payload).flatMap escape =
          frameEsc :: (b ^^^ frameXor) :: payload.flatMap escape := by
        rw [flatMap_cons, escape_special hspecial]
        rfl
      rw [hescape, length_cons, take_succ_cons, List.cons.injEq, plain_cons,
        or_iff_right fun h => hb h.1]
      rcases hspecial with rfl | rfl
      · refine iff_of_false (fun h => absurd h.1 (by decide)) ?_
        rintro ⟨p, m, hp, heq⟩
        cases p with
        | nil => exact absurd (List.cons.inj heq).1 (by decide)
        | cons c p =>
          obtain ⟨rfl, -⟩ := List.cons.inj heq
          exact hb (plain_cons.mp hp).1
      · rw [and_iff_right rfl, take_shifted]
        constructor
        · exact fun h => ⟨[], payload.length, nofun, congrArg _ h⟩
        · rintro ⟨p, m, hp, heq⟩
          cases p with
          | nil =>
            obtain ⟨-, rfl⟩ := List.cons.inj heq
            rw [length_replicate]
          | cons c p =>
            obtain ⟨rfl, -⟩ := List.cons.inj heq
            exact absurd (plain_cons.mp hp).1 hb

theorem escaped_endsInEscape (h : EndsInEscape payload) :
    payload.flatMap escape = payload ++ [escapedEsc] := by
  obtain ⟨p, m, hp, rfl⟩ := h
  have hplain : Plain (List.replicate m escapedEsc) := fun b hb => by
    rw [eq_of_mem_replicate hb]
    decide
  have hesc : escape frameEsc = [frameEsc, escapedEsc] := rfl
  rw [flatMap_append, flatMap_cons, escaped_plain hp, escaped_plain hplain, hesc,
    append_assoc]
  show p ++ frameEsc :: List.replicate (m + 1) escapedEsc =
    p ++ frameEsc :: (List.replicate m escapedEsc ++ [escapedEsc])
  rw [replicate_succ']

/-! ## frames -/

def feed (hal : Hal) (bytes : List UInt8) : Hal := bytes.foldl (fun hal b => (receive hal b).1) hal

theorem feed_append (hal : Hal) (l l' : List UInt8) : feed hal (l ++ l') = feed (feed hal l) l' :=
  foldl_append

def complete (hal : Hal) (frame : List UInt8) (expected : UInt8) : Hal :=
  { (parse { hal with rxState := .data, rxBuf := frame, rxExpected := expected }).1 with
    rxState := .start }

theorem feed_data {l : List UInt8} (h : frame.length + l.length ≤ expected.toNat) :
    feed { hal with rxState := .data, rxBuf := frame, rxExpected := expected } l =
      { hal with rxState := .data, rxBuf := frame ++ l, rxExpected := expected } := by
  induction l generalizing frame with
  | nil => rw [append_nil]; rfl
  | cons b l ih =>
    rw [length_cons] at h
    have hlen : (frame ++ [b]).length = frame.length + 1 := length_append
    have hmore : ¬expected.toNat + 1 ≤ (frame ++ [b]).length := by omega
    show feed (receive _ b).1 l = _
    unfold receive
    dsimp only
    rw [if_neg hmore, ih (by omega), append_assoc]
    rfl

/-- **Frames.** A frame of the announced length reaches the parser. -/
theorem feed_frame {rest : List UInt8} (hstart : hal.rxState = .start)
    (hexpected : expected.toNat ≤ msgMaxLen + 4) (hframe : frame.length = expected.toNat + 1) :
    feed hal (frameStart :: expected :: (frame ++ rest)) = feed (complete hal frame expected) rest := by
  have hbegin : feed hal [frameStart, expected] =
      { hal with rxState := .data, rxBuf := [], rxExpected := expected } := by
    show (receive (receive hal frameStart).1 expected).1 = _
    unfold receive
    rw [hstart]
    rw [if_pos rfl]
    rw [if_neg (Nat.not_lt.mpr hexpected)]
  obtain rfl | ⟨init, last, rfl⟩ := eq_nil_or_concat' frame
  · exact absurd hframe.symm (Nat.succ_ne_zero _)
  rw [length_append, length_singleton] at hframe
  rw [show frameStart :: expected :: (init ++ [last] ++ rest) =
    [frameStart, expected] ++ (init ++ ([last] ++ rest)) by simp, feed_append, hbegin, feed_append,
    feed_data (by rw [length_nil]; omega), feed_append, nil_append]
  congr 1
  show (receive _ last).1 = _
  unfold receive complete
  dsimp only
  rw [if_pos (by rw [length_append, length_singleton]; omega)]

/-! ## messages -/

def queued (hal : Hal) : List Message := contents msgQueueSize hal.queue hal.marks

/-- the receiver waits for a frame, and its queue has room -/
structure Ready (hal : Hal) : Prop where
  start : hal.rxState = .start
  head : hal.marks.head < msgQueueSize
  tail : hal.marks.tail < msgQueueSize
  room : (queued hal).length + 1 < msgQueueSize

def frameOf (msgType : UInt8) (senderId destId : ModuleId) (data : List UInt8) (crc : UInt8) :
    List UInt8 := msgType :: senderId :: destId :: (data ++ [crc])

theorem length_frameOf : (frameOf msgType senderId destId data crc).length = data.length + 4 := by
  unfold frameOf
  rw [length_cons, length_cons, length_cons, length_append,
    length_singleton]

theorem data_frameOf (n : Nat) (h : n = data.length) :
    ((frameOf msgType senderId destId data crc).drop 3).take n = data :=
  take_left' h.symm

theorem accepts_frameOf {moduleId : ModuleId} :
    accepts moduleId (frameOf msgType senderId destId data crc) = true ↔
      (destId = moduleId ∨ destId = broadcastId) ∧
        crc = checksum msgType senderId destId data := by
  have hlast : (frameOf msgType senderId destId data crc).getD (data.length + 3) 0 = crc := by
    show (data ++ [crc]).getD data.length 0 = crc
    simp
  unfold accepts
  rw [length_frameOf, Nat.add_sub_cancel, data_frameOf _ rfl, show data.length + 4 - 1 =
    data.length + 3 from rfl, hlast, Bool.and_eq_true, Bool.or_eq_true, beq_iff_eq, beq_iff_eq,
    beq_iff_eq]
  rfl

theorem complete_queued (h : Ready hal) (senderId destId : ModuleId) (msgType : UInt8)
    (data : List UInt8) (crc expected : UInt8) :
    (complete hal (frameOf msgType senderId destId data crc) expected).rxState = .start ∧
      queued (complete hal (frameOf msgType senderId destId data crc) expected) =
        if (destId = hal.moduleId ∨ destId = broadcastId) ∧
            crc = checksum msgType senderId destId data then
          queued hal ++ [⟨senderId, msgType, data, true⟩]
        else queued hal := by
  have hholds : Holds msgQueueSize hal.queue hal.marks (queued hal) :=
    Circular.holds_contents h.head h.tail
  have hroom : (hal.marks.head + 1) % msgQueueSize ≠ hal.marks.tail := fun hfull => by
    have := hholds.full_iff.mp hfull
    have := h.room
    omega
  refine ⟨rfl, ?_⟩
  unfold complete parse
  rw [length_frameOf, Nat.add_sub_cancel, data_frameOf _ rfl]
  by_cases haccept : (destId = hal.moduleId ∨ destId = broadcastId) ∧
      crc = checksum msgType senderId destId data
  · rw [if_pos haccept, if_pos ⟨Nat.le_add_left 4 _, accepts_frameOf.mpr haccept⟩, if_pos hroom]
    have hnew := (hholds.write ⟨senderId, msgType, data, true⟩).publish h.room
    rw [Function.update_self] at hnew
    exact hnew.contents_eq
  · rw [if_neg haccept, if_neg fun hboth => haccept (accepts_frameOf.mp hboth.2)]
    rfl

/-! ## round trips -/

/-- the bytes of a message arrive as this message, and the receiver waits for the next one -/
def RoundTrips (hal : Hal) (senderId destId : ModuleId) (msgType : UInt8) (payload : List UInt8) :
    Prop :=
  ∃ bytes, send senderId destId msgType payload = .ok bytes ∧ (feed hal bytes).rxState = .start ∧
    queued (feed hal bytes) = queued hal ++ [⟨senderId, msgType, payload, true⟩]

theorem feed_idle (hstart : hal.rxState = .start) {l : List UInt8} (hl : frameStart ∉ l)
    (b : UInt8) : queued (feed hal (l ++ [b])) = queued hal ∧
      ((feed hal (l ++ [b])).rxState = .start ↔ b ≠ frameStart) := by
  have hidle : feed hal l = hal := by
    induction l with
    | nil => rfl
    | cons c l ih =>
      rw [mem_cons, not_or] at hl
      have hskip : (receive hal c).1 = hal := by
        unfold receive
        rw [hstart]
        rw [if_neg (Ne.symm hl.1)]
      show feed (receive hal c).1 l = hal
      rw [hskip]
      exact ih hl.2
  rw [feed_append, hidle]
  show queued (receive hal b).1 = _ ∧ ((receive hal b).1.rxState = _ ↔ _)
  unfold receive
  rw [hstart]
  by_cases hb : b = frameStart
  · rw [if_pos hb]
    exact ⟨rfl, iff_of_false nofun (not_not.mpr hb)⟩
  · rw [if_neg hb]
    exact ⟨rfl, iff_of_true hstart hb⟩

theorem feed_send (hstart : hal.rxState = .start) (hlen : payload.length ≤ msgMaxLen)
    (data : List UInt8) (crc : UInt8) (rest : List UInt8) (hdata : data.length = payload.length)
    (hbytes : payload.flatMap escape ++ [checksum msgType senderId destId payload] =
      data ++ crc :: rest) :
    ∃ bytes, send senderId destId msgType payload = .ok bytes ∧
      feed hal bytes = feed (complete hal (frameOf msgType senderId destId data crc)
        (UInt8.ofNat (payload.length + 3))) rest := by
  have hexpected : (UInt8.ofNat (payload.length + 3)).toNat = payload.length + 3 :=
    UInt8.toNat_ofNat_of_lt' (Nat.lt_of_le_of_lt (Nat.add_le_add_right hlen 3) (by decide))
  refine ⟨_, if_neg (Nat.not_lt.mpr hlen), ?_⟩
  rw [← feed_frame hstart (by rw [hexpected]; omega) (by rw [length_frameOf, hexpected]; omega),
    append_assoc, hbytes]
  unfold frameOf
  simp

/-- **Messages.** A message arrives exactly when its escapes move no byte, and then the checksum is
the byte that they add. -/
theorem roundTrips_iff (h : Ready hal) (hdest : destId = hal.moduleId ∨ destId = broadcastId)
    (hlen : payload.length ≤ msgMaxLen) : RoundTrips hal senderId destId msgType payload ↔
      Plain payload ∨ EndsInEscape payload ∧
        checksum msgType senderId destId payload = escapedEsc := by
  generalize hcrc : checksum msgType senderId destId payload = crc
  by_cases hplain : Plain payload
  · refine iff_of_true ?_ (.inl hplain)
    obtain ⟨bytes, hsend, hfeed⟩ := feed_send h.start hlen payload crc [] rfl
      (by rw [escaped_plain hplain, hcrc])
    obtain ⟨hstart, hqueued⟩ := complete_queued h senderId destId msgType payload crc
      (UInt8.ofNat (payload.length + 3))
    rw [if_pos ⟨hdest, hcrc.symm⟩] at hqueued
    refine ⟨bytes, hsend, ?_⟩
    rw [hfeed]
    exact ⟨hstart, hqueued⟩
  rw [or_iff_right hplain]
  have hlonger := (length_escaped payload).2 hplain
  have hiff := take_escaped_iff payload
  rw [or_iff_right hplain] at hiff
  have hescaped := fun h : EndsInEscape payload => escaped_endsInEscape h
  have hnostart := start_not_mem payload
  generalize he : payload.flatMap escape = escaped at *
  cases hdrop : escaped.drop payload.length with
  | nil => exact absurd (drop_eq_nil_iff.mp hdrop) (Nat.not_le.mpr hlonger)
  | cons x rest =>
    have hsplit := take_append_drop payload.length escaped
    rw [hdrop] at hsplit
    have hrest : frameStart ∉ rest := fun hmem => hnostart (by
      rw [← hsplit]
      exact mem_append_right _ (mem_cons_of_mem x hmem))
    obtain ⟨bytes, hsend, hfeed⟩ := feed_send h.start hlen
      (escaped.take payload.length) x (rest ++ [crc]) (length_take_of_le (Nat.le_of_lt hlonger)) (by
        rw [he, hcrc, ← cons_append, ← append_assoc, hsplit])
    obtain ⟨hstart, hqueued⟩ := complete_queued h senderId destId msgType
      (escaped.take payload.length) x (UInt8.ofNat (payload.length + 3))
    obtain ⟨hidle, hend⟩ := feed_idle hstart hrest crc
    have hlast (hends : EndsInEscape payload) : x = escapedEsc := by
      rw [hescaped hends, drop_left] at hdrop
      exact (List.cons.inj hdrop).1.symm
    constructor
    · rintro ⟨bytes', hsend', -, hresult⟩
      obtain rfl := Except.ok.inj (hsend.symm.trans hsend')
      rw [hfeed, hidle, hqueued] at hresult
      split_ifs at hresult with haccept
      · have hdata := congrArg Message.data
          (singleton_inj.mp (append_cancel_left hresult))
        have hends := hiff.mp hdata
        rw [show escaped.take payload.length = payload from hdata, hcrc] at haccept
        exact ⟨hends, haccept.2.symm.trans (hlast hends)⟩
      · have := congrArg List.length hresult
        rw [length_append, length_singleton] at this
        omega
    · rintro ⟨hends, hesc⟩
      have hdata := hiff.mpr hends
      refine ⟨bytes, hsend, ?_, ?_⟩
      · rw [hfeed, hend, hesc]
        decide
      · have hx : x = crc := (hlast hends).trans hesc.symm
        rw [hfeed, hidle, hqueued, hdata, if_pos ⟨hdest, hx.trans hcrc.symm⟩]

/-! ## writes -/

/-- a write stays in `rx_buf`, or in the data of a slot of the queue -/
def Write.Inside : Write → Prop
  | .rxBuf index => index < msgMaxLen + 8
  | .data slot len => slot < msgQueueSize ∧ len ≤ msgMaxLen

/-- what holds between the calls -/
structure Bounded (hal : Hal) : Prop where
  head : hal.marks.head < msgQueueSize
  expected : hal.rxState = .data → hal.rxExpected.toNat ≤ msgMaxLen + 4
  length : hal.rxState = .data → hal.rxBuf.length ≤ hal.rxExpected.toNat
  fresh : hal.rxState = .length → hal.rxBuf = []

/-- a byte completes a frame with 65 bytes of data, for which there is room -/
structure Overlong (hal : Hal) (byte : UInt8) : Prop where
  data : hal.rxState = .data
  length : hal.rxBuf.length = msgMaxLen + 4
  accepts : accepts hal.moduleId (hal.rxBuf ++ [byte]) = true
  room : (hal.marks.head + 1) % msgQueueSize ≠ hal.marks.tail

theorem parse_writes (hal : Hal) (hhead : hal.marks.head < msgQueueSize) :
    (∀ w ∈ (parse hal).2, w.Inside) ↔ (4 ≤ hal.rxBuf.length → accepts hal.moduleId hal.rxBuf = true →
      (hal.marks.head + 1) % msgQueueSize ≠ hal.marks.tail →
        hal.rxBuf.length ≤ msgMaxLen + 4) := by
  unfold parse
  dsimp only
  split_ifs with haccept hroom hdata
  · rw [forall_mem_singleton]
    constructor
    · intro h _ _ _
      have := h.2
      omega
    · intro h
      have := h haccept.1 haccept.2 hroom
      exact ⟨hhead, by omega⟩
  · exact iff_of_true nofun fun _ _ _ => by omega
  · exact iff_of_true nofun fun _ _ hroom' => absurd hroom' hroom
  · exact iff_of_true nofun fun hlength haccepts => absurd ⟨hlength, haccepts⟩ haccept

theorem parse_head (h : hal.marks.head < msgQueueSize) :
    (parse hal).1.marks.head < msgQueueSize := by
  unfold parse
  dsimp only
  split_ifs
  · exact Nat.mod_lt _ (by decide)
  · exact Nat.mod_lt _ (by decide)
  · exact h
  · exact h

/-- **One byte.** -/
theorem receive_safe_iff (h : Bounded hal) (byte : UInt8) :
    Bounded (receive hal byte).1 ∧
      ((∀ w ∈ (receive hal byte).2, w.Inside) ↔ ¬Overlong hal byte) := by
  unfold receive
  cases hstate : hal.rxState with
  | start =>
    have hnot : ¬Overlong hal byte := fun ho => nomatch hstate.symm.trans ho.data
    dsimp only
    split_ifs
    · exact ⟨⟨h.head, nofun, nofun, fun _ => rfl⟩, iff_of_true nofun hnot⟩
    · exact ⟨h, iff_of_true nofun hnot⟩
  | length =>
    have hnot : ¬Overlong hal byte := fun ho => nomatch hstate.symm.trans ho.data
    have hempty := h.fresh hstate
    dsimp only
    split_ifs with hlong
    · exact ⟨⟨h.head, nofun, nofun, nofun⟩, iff_of_true nofun hnot⟩
    · refine ⟨⟨h.head, fun _ => Nat.not_lt.mp hlong, fun _ => ?_, nofun⟩, iff_of_true nofun hnot⟩
      rw [hempty]
      exact Nat.zero_le _
  | data =>
    have hexpected := h.expected hstate
    have hlength := h.length hstate
    have hlen : (hal.rxBuf ++ [byte]).length = hal.rxBuf.length + 1 := length_append
    have hinside : (Write.rxBuf hal.rxBuf.length).Inside := by
      show hal.rxBuf.length < msgMaxLen + 8
      omega
    dsimp only
    split_ifs with hend
    · have hwrites := parse_writes { hal with rxState := .data, rxBuf := hal.rxBuf ++ [byte] } h.head
      refine ⟨⟨parse_head h.head, nofun, nofun, nofun⟩, ?_⟩
      rw [forall_mem_cons, and_iff_right hinside, hwrites]
      dsimp only
      constructor
      · intro hfits ho
        have := ho.length
        have := hfits (by omega) ho.accepts ho.room
        omega
      · intro hnot _ haccepts hroom
        by_contra hlong
        exact hnot ⟨hstate, by omega, haccepts, hroom⟩
    · refine ⟨⟨h.head, fun _ => hexpected, fun _ => ?_, nofun⟩, iff_of_true ?_ fun ho => ?_⟩
      · show (hal.rxBuf ++ [byte]).length ≤ hal.rxExpected.toNat
        omega
      · exact forall_mem_singleton.mpr hinside
      · have := ho.length
        omega

/-! ## runs -/

/-- a call of `ekk_hal_recv`: the length of the buffer, and the byte in the receive FIFO -/
structure Call where
  len : Nat
  byte : Option UInt8

def receiver (moduleId : ModuleId) : Machine Hal Call Write :=
  ⟨.init moduleId, fun hal call => (recv hal call.len call.byte).2⟩

/-- the condition on a call: if no message is queued, the byte does not complete a frame that is too
long -/
def Careful (hal : Hal) (call : Call) : Prop :=
  ¬(hal.marks.head ≠ hal.marks.tail ∧ (hal.queue hal.marks.tail).valid = true) →
    ∀ byte ∈ call.byte, ¬Overlong hal byte

def Safe (moduleId : ModuleId) (pre : List Call) (call : Call) : Prop :=
  ∀ w ∈ (receiver moduleId).outs ((receiver moduleId).run pre) call, w.Inside

def CarefulBefore (moduleId : ModuleId) (pre : List Call) (call : Call) : Prop :=
  Careful ((receiver moduleId).run pre) call

theorem recv_byte
    (h : ¬(hal.marks.head ≠ hal.marks.tail ∧ (hal.queue hal.marks.tail).valid = true)) (len : Nat)
    (byte : UInt8) : recv hal len (some byte) = (.error .notFound, receive hal byte) := if_neg h

/-- **One call.** -/
theorem recv_safe_iff (h : Bounded hal) (len : Nat) (byte : Option UInt8) :
    Bounded (recv hal len byte).2.1 ∧
      ((∀ w ∈ (recv hal len byte).2.2, w.Inside) ↔ Careful hal ⟨len, byte⟩) := by
  unfold Careful
  by_cases hqueued : hal.marks.head ≠ hal.marks.tail ∧ (hal.queue hal.marks.tail).valid = true
  · unfold recv
    rw [if_pos hqueued]
    exact ⟨⟨h.head, h.expected, h.length, h.fresh⟩,
      iff_of_true nofun fun hnot => absurd hqueued hnot⟩
  · rw [imp_iff_right hqueued]
    cases byte with
    | none =>
      unfold recv
      rw [if_neg hqueued]
      exact ⟨h, iff_of_true nofun nofun⟩
    | some byte =>
      rw [recv_byte hqueued]
      obtain ⟨hnext, hiff⟩ := receive_safe_iff h byte
      refine ⟨hnext, hiff.trans ⟨fun hnot byte' hmem => ?_, fun hall => hall byte rfl⟩⟩
      obtain rfl := Option.some.inj hmem
      exact hnot

theorem bounded_run (calls : List Call) : Bounded ((receiver moduleId).run calls) := by
  refine (receiver moduleId).invariant (I := Bounded) ?_ (fun hal call h => (recv_safe_iff h call.len call.byte).1) calls
  exact ⟨Nat.succ_pos 63, nofun, nofun, nofun⟩

/-- **Main.** A message arrives exactly when its escapes move no byte (and then the checksum is the
byte that they add), and the writes of a run stay inside exactly when no call completes a frame with
65 bytes of data. -/
theorem serial_iff (hal : Hal) (senderId destId moduleId : ModuleId) (msgType : UInt8)
    (payload : List UInt8) (calls : List Call) (h : Ready hal)
    (hdest : destId = hal.moduleId ∨ destId = broadcastId) (hlen : payload.length ≤ msgMaxLen) :
    (RoundTrips hal senderId destId msgType payload ↔ Plain payload ∨ EndsInEscape payload ∧
        checksum msgType senderId destId payload = escapedEsc) ∧
      (EveryStep (Safe moduleId) calls ↔ EveryStep (CarefulBefore moduleId) calls) :=
  ⟨roundTrips_iff h hdest hlen,
    everyStep_congr (fun pre call _ =>
      (recv_safe_iff (bounded_run moduleId pre) call.len call.byte).2) calls⟩

theorem ready_init : Ready (.init moduleId) :=
  ⟨rfl, Nat.succ_pos 63, Nat.succ_pos 63, by
    have hempty : queued (.init moduleId) = [] :=
      Holds.contents_eq ⟨Nat.succ_pos 63, Nat.succ_pos 63, rfl, nofun⟩
    rw [hempty]
    decide⟩

theorem serial_sample : RoundTrips (.init 2) 1 2 0x80 [1, 2, 3] ∧
    EveryStep (Safe 2) [⟨64, some 0x7E⟩, ⟨64, some 3⟩] := by
  have hiff := serial_iff (.init 2) 1 2 2 0x80 [1, 2, 3] [⟨64, some 0x7E⟩, ⟨64, some 3⟩]
    (ready_init 2) (.inl rfl) (by decide)
  refine ⟨hiff.1.mpr (.inl (by decide)), hiff.2.mpr ?_⟩
  show EveryStep _ ([] ++ [Call.mk 64 (some 0x7E)] ++ [Call.mk 64 (some 3)])
  rw [everyStep_concat, everyStep_concat]
  exact ⟨⟨everyStep_nil _, fun _ byte _ ho => nomatch ho.data⟩, fun _ byte _ ho => nomatch ho.data⟩

def overlongFrame : List UInt8 := [0x7E, 68, 0x80, 1, 2] ++ List.replicate 65 0

/-- an escaped byte does not arrive, and a frame with 65 bytes of data writes one behind the data of
a slot -/
theorem not_serial : ¬RoundTrips (.init 2) 1 2 0x80 [0x7D] ∧
    ¬EveryStep (Safe 2) ((overlongFrame ++ [0x80 ^^^ 1 ^^^ 2 ^^^ 65]).map
      fun byte => ⟨64, some byte⟩) := by
  constructor
  · have hiff : RoundTrips (.init 2) 1 2 0x80 [0x7D] ↔ _ :=
      roundTrips_iff (ready_init 2) (.inl rfl) (by decide)
    rw [hiff]
    rintro (hplain | ⟨-, hcrc⟩)
    · exact absurd hplain (by decide)
    · exact absurd hcrc (by decide)
  · intro h
    rw [map_append, map_singleton, everyStep_concat] at h
    have hwrite : Write.data 0 65 ∈ (receiver 2).outs ((receiver 2).run
        (overlongFrame.map fun byte => ⟨64, some byte⟩)) ⟨64, some (0x80 ^^^ 1 ^^^ 2 ^^^ 65)⟩ := by
      decide +kernel
    exact absurd (h.2 _ hwrite).2 (by decide)

end Serial
end EkKor
