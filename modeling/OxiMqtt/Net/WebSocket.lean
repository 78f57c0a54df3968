import OxiMqtt.Net.Dispatcher

/-!
# MQTT over WebSocket

`WsStream` of `net/ws.rs` turns the messages of a WebSocket into a stream of bytes.  A message that
is longer than the buffer of the reader is kept, and an index says how much of it has been read.

The WebSocket is not here: what it gives to `poll_next` is a list of events, and `start_send` and
`into_data` are parameters.  Whoever reads from the stream takes a read of nothing for its end.

* `pollRead_spec`: what one read does.
* `websocket_reads_in_order`: whatever the sizes of the buffers, no byte is lost, read twice or
  moved, and what is there before a failure has been read when the failure is seen.
* `mqtt_over_websocket`: what a client sends over a WebSocket is received as over TCP.
-/

namespace OxiMqtt.Net

open Wire Wire.Outcome OxiMqtt.Codec

/-- `tungstenite::Message` -/
inductive Message : Type
  | text (data : Bytes)
  | binary (data : Bytes)
  | ping (data : Bytes)
  | pong (data : Bytes)
  | close (reason : Bytes)
  | frame (payload : Bytes)
  deriving DecidableEq, Repr

section

-- `Message::into_data`
variable {ε : Type} (intoData : Message → Bytes)

/-- `tungstenite::Error`; its other variants differ in their text. -/
inductive WSError (ε : Type) : Type
  | connectionClosed
  | alreadyClosed
  | io (error : ε)
  | other (text : String)
  deriving DecidableEq, Repr

/-- `io::Error`, with the kinds that are made here. -/
inductive IoError (ε : Type) : Type
  | connectionAborted
  | notConnected
  | unexpectedEof
  | io (error : ε)
  | other (text : String)
  deriving DecidableEq, Repr

/-- `to_error` -/
def toError : WSError ε → IoError ε
  | .connectionClosed => .connectionAborted
  | .alreadyClosed => .notConnected
  | .io error => .io error
  | .other text => .other text

/-- What `poll_next` of the WebSocket gives; behind the last event it gives `None`. -/
inductive Event (ε : Type) : Type
  | pending
  | item (msg : Except (WSError ε) Message)

/-- `WsStream`, without the WebSocket. -/
structure WsStream : Type where
  cachedData : Option Bytes
  idx : Nat
  deriving DecidableEq, Repr

namespace WsStream

/-- `WsStream::new` -/
def new : WsStream where
  cachedData := none
  idx := 0

/-- `poll_read` into a buffer with room for `remaining` bytes: what is put there, or nothing where
the WebSocket is not ready. -/
def pollRead (ws : WsStream) (inner : List (Event ε)) (remaining : Nat) :
    Outcome (IoError ε) (Option Bytes) × WsStream × List (Event ε) :=
  match ws.cachedData with
  | some cachedData =>
      if cachedData.length < ws.idx then (fault .shortRead, ws, inner)
      else
        let cachedBuf := cachedData.drop ws.idx
        if cachedBuf.length ≤ remaining then (ok (some cachedBuf), ⟨none, 0⟩, inner)
        else
          let cachedBuf := cachedBuf.take remaining
          (ok (some cachedBuf), { ws with idx := ws.idx + cachedBuf.length }, inner)
  | none =>
      match inner with
      | .pending :: inner => (ok none, ws, inner)
      | .item (.ok msg) :: inner =>
          let data := intoData msg
          if data.length ≤ remaining then (ok (some data), ws, inner)
          else
            let cachedBuf := data.take remaining
            (ok (some cachedBuf), ⟨some data, cachedBuf.length⟩, inner)
      | .item (.error e) :: inner => (err (toError e), ws, inner)
      | [] => (err .unexpectedEof, ws, [])

/-! ## One read -/

/-- The index is inside of the message that is kept. -/
def Valid (ws : WsStream) : Prop := ∀ data ∈ ws.cachedData, ws.idx < data.length

/-- What is kept and has not been read. -/
def rest (ws : WsStream) : Bytes :=
  match ws.cachedData with
  | some data => data.drop ws.idx
  | none => []

end WsStream

/-- The messages before the first failure. -/
def delivered : List (Event ε) → List Message
  | [] => []
  | .pending :: inner => delivered inner
  | .item (.ok msg) :: inner => msg :: delivered inner
  | .item (.error _) :: _ => []

/-- Their data. -/
def payload (inner : List (Event ε)) : Bytes := (delivered inner).flatMap intoData

/-- Each of them has data. -/
def NonEmpty (inner : List (Event ε)) : Prop := ∀ msg ∈ delivered inner, intoData msg ≠ []

namespace WsStream

variable {intoData} {ws : WsStream} {inner : List (Event ε)} {remaining : Nat}

theorem valid_new : new.Valid := fun _ none => by cases none

/-- A read takes bytes from the front of what is kept and what is to come; where it takes none,
nothing is kept. -/
theorem pollRead_spec (valid : ws.Valid) (room : 0 < remaining)
    (nonempty : NonEmpty intoData inner) :
    match ws.pollRead intoData inner remaining with
    | (ok (some bytes), ws', inner') =>
        ws'.Valid ∧ NonEmpty intoData inner' ∧ bytes ≠ [] ∧ inner'.length ≤ inner.length ∧
          ws.rest ++ payload intoData inner = bytes ++ (ws'.rest ++ payload intoData inner')
    | (ok none, ws', inner') =>
        ws' = ws ∧ NonEmpty intoData inner' ∧ payload intoData inner' = payload intoData inner ∧
          inner'.length < inner.length
    | (err _, _, _) => ws.rest ++ payload intoData inner = []
    | (fault _, _, _) => False := by
  rcases ws with ⟨_ | cached, idx⟩
  · match inner, nonempty with
    | [], _ => rfl
    | .pending :: inner, nonempty => exact ⟨rfl, nonempty, rfl, Nat.lt_succ_self _⟩
    | .item (.error e) :: inner, _ => rfl
    | .item (.ok msg) :: inner, nonempty =>
        have here : intoData msg ≠ [] := nonempty msg List.mem_cons_self
        have later : NonEmpty intoData inner := fun m hm => nonempty m (List.mem_cons_of_mem msg hm)
        by_cases fits : (intoData msg).length ≤ remaining
        · simp only [pollRead, if_pos fits]
          exact ⟨(fun _ none => nomatch none), later, here, Nat.le_succ _, rfl⟩
        · simp only [pollRead, if_neg fits]
          have length : ((intoData msg).take remaining).length = remaining := by
            rw [List.length_take]
            omega
          refine ⟨fun data kept => ?_, later, fun none => ?_, Nat.le_succ _, ?_⟩
          · cases kept
            dsimp only
            omega
          · rw [none, List.length_nil] at length
            omega
          · simp only [rest, payload, delivered, length, List.nil_append, List.flatMap_cons]
            rw [← List.append_assoc, List.take_append_drop]
  · have inside : idx < cached.length := valid cached rfl
    have kept : (cached.drop idx).length = cached.length - idx := List.length_drop
    by_cases fits : (cached.drop idx).length ≤ remaining
    · simp only [pollRead, if_neg (Nat.not_lt.mpr (Nat.le_of_lt inside)), if_pos fits]
      refine ⟨(fun _ none => nomatch none), nonempty, fun none => ?_, Nat.le_refl _, rfl⟩
      rw [none, List.length_nil] at kept
      omega
    · simp only [pollRead, if_neg (Nat.not_lt.mpr (Nat.le_of_lt inside)), if_neg fits]
      have length : ((cached.drop idx).take remaining).length = remaining := by
        rw [List.length_take]
        omega
      refine ⟨fun data same => ?_, nonempty, fun none => ?_, Nat.le_refl _, ?_⟩
      · cases same
        dsimp only
        omega
      · rw [none, List.length_nil] at length
        omega
      · simp only [rest, length]
        rw [← List.append_assoc, ← List.drop_drop, List.take_append_drop]

/-! ## Reading on -/

/-- How a row of reads stops. -/
inductive Ending (ε : Type) : Type
  | waiting
  | eof
  | failed (error : IoError ε)
  | fault (f : Fault)
  deriving DecidableEq, Repr

variable (intoData) in
/-- Reads with this room each, until one fails or puts nothing into its buffer: the chunks. -/
def reads (ws : WsStream) (inner : List (Event ε)) : List Nat → List Bytes × Ending ε
  | [] => ([], .waiting)
  | remaining :: rooms =>
      match ws.pollRead intoData inner remaining with
      | (ok (some bytes), ws, inner) =>
          if bytes.isEmpty then ([], .eof)
          else
            let (chunks, ending) := ws.reads inner rooms
            (bytes :: chunks, ending)
      | (ok none, ws, inner) => ws.reads inner rooms
      | (err e, _, _) => ([], .failed e)
      | (fault f, _, _) => ([], .fault f)

/-- What is known of the chunks and the ending of a row of `n` reads of these bytes, where the
WebSocket has this many events. -/
structure InOrder (bytes : Bytes) (events n : Nat) (chunks : List Bytes) (ending : Ending ε) :
    Prop where
  front : chunks.flatten <+: bytes
  failed : ∀ e, ending = .failed e → chunks.flatten = bytes
  alive : ending = .waiting ∨ ∃ e, ending = .failed e
  enough : bytes.length + events < n → ending ≠ .waiting

theorem reads_inOrder (rooms : List Nat) (room : ∀ remaining ∈ rooms, 0 < remaining)
    (valid : ws.Valid) (nonempty : NonEmpty intoData inner) :
    InOrder (ws.rest ++ payload intoData inner) inner.length rooms.length
      (ws.reads intoData inner rooms).1 (ws.reads intoData inner rooms).2 := by
  induction rooms generalizing ws inner with
  | nil =>
      exact ⟨List.nil_prefix, (fun e failed => nomatch failed), .inl rfl,
        fun more => absurd more (Nat.not_lt_zero _)⟩
  | cons remaining rooms ih =>
      have one := pollRead_spec valid (room remaining List.mem_cons_self) nonempty
      have later : ∀ r ∈ rooms, 0 < r := fun r hr => room r (List.mem_cons_of_mem remaining hr)
      rw [reads]
      rcases run : ws.pollRead intoData inner remaining with ⟨(_ | bytes) | e | f, ws', inner'⟩
      · rw [run] at one
        obtain ⟨rfl, nonempty', same, fewer⟩ := one
        have rest := ih later valid nonempty'
        rw [same] at rest
        refine ⟨rest.front, rest.failed, rest.alive, fun more => rest.enough ?_⟩
        rw [List.length_cons] at more
        omega
      · rw [run] at one
        obtain ⟨valid', nonempty', some, fewer, split⟩ := one
        have rest := ih later valid' nonempty'
        have positive := List.length_pos_iff.mpr some
        have notEmpty : bytes.isEmpty = false := by
          rw [List.isEmpty_eq_false_iff]
          exact some
        dsimp only
        rw [notEmpty, split]
        refine ⟨?_, fun e failed => ?_, rest.alive, fun more => rest.enough ?_⟩
        · exact (List.prefix_append_right_inj bytes).mpr rest.front
        · exact congrArg (bytes ++ ·) (rest.failed e failed)
        · rw [List.length_append, List.length_cons] at more
          omega
      · rw [run] at one
        refine ⟨List.nil_prefix, fun _ _ => one.symm, .inr ⟨e, rfl⟩, fun _ waiting => ?_⟩
        cases waiting
      · rw [run] at one
        exact one.elim

end WsStream

variable {intoData}

/-- Whatever room each read has, the chunks that are read are the data of the messages, of any kind,
in order: nothing is lost, read twice or moved.  No read is outside of a message that is kept, none
is taken for the end of the stream, and when the failure of the WebSocket is seen, all the data
before it has been read; enough reads come that far. -/
theorem websocket_reads_in_order {inner : List (Event ε)} {rooms : List Nat}
    (room : ∀ remaining ∈ rooms, 0 < remaining)
    (nonempty : ∀ msg ∈ delivered inner, intoData msg ≠ []) :
    (WsStream.new.reads intoData inner rooms).1.flatten <+: (delivered inner).flatMap intoData ∧
      ((WsStream.new.reads intoData inner rooms).2 = .waiting ∨
        ∃ e, (WsStream.new.reads intoData inner rooms).2 = .failed e ∧
          (WsStream.new.reads intoData inner rooms).1.flatten =
            (delivered inner).flatMap intoData) ∧
      (((delivered inner).flatMap intoData).length + inner.length < rooms.length →
        ∃ e, (WsStream.new.reads intoData inner rooms).2 = .failed e) := by
  have run := WsStream.reads_inOrder rooms room WsStream.valid_new nonempty
  refine ⟨run.front, ?_, fun more => ?_⟩
  · rcases run.alive with waiting | ⟨e, failed⟩
    · exact .inl waiting
    · exact .inr ⟨e, failed, run.failed e failed⟩
  · rcases run.alive with waiting | failed
    · exact absurd waiting (run.enough more)
    · exact failed

/-- The data of a message, whatever its kind. -/
def Message.bytes : Message → Bytes
  | .text data => data
  | .binary data => data
  | .ping data => data
  | .pong data => data
  | .close reason => reason
  | .frame payload => payload

/-- A CONNECT that is cut into two messages, with a pause between them, read in pieces of three
bytes. -/
theorem websocket_reads_in_order_two :
    let inner : List (Event Unit) :=
      [.item (.ok (.binary [0x10, 0x0C, 0x00, 0x04])), .pending, .item (.ok (.binary [0x4D]))]
    (WsStream.new.reads Message.bytes inner [3, 3, 3, 3]).1.flatten <+:
        (delivered inner).flatMap Message.bytes ∧
      ((WsStream.new.reads Message.bytes inner [3, 3, 3, 3]).2 = .waiting ∨
        ∃ e, (WsStream.new.reads Message.bytes inner [3, 3, 3, 3]).2 = .failed e ∧
          (WsStream.new.reads Message.bytes inner [3, 3, 3, 3]).1.flatten =
            (delivered inner).flatMap Message.bytes) ∧
      (((delivered inner).flatMap Message.bytes).length + inner.length < 4 →
        ∃ e, (WsStream.new.reads Message.bytes inner [3, 3, 3, 3]).2 = .failed e) :=
  websocket_reads_in_order (by decide) (by decide)

/-! ## Writing -/

section Writing

variable {σ : Type} (startSend : σ → Message → Except (WSError ε) Unit × σ)

/-- `poll_write`, which sends the buffer as one message. -/
def pollWrite (inner : σ) (buf : Bytes) : Except (IoError ε) Nat × σ :=
  match startSend inner (.binary buf) with
  | (.error e, inner) => (.error (toError e), inner)
  | (.ok (), inner) => (.ok buf.length, inner)

/-- The buffers are written one after the other, as long as none fails. -/
def writes (inner : σ) : List Bytes → Except (IoError ε) Unit × σ
  | [] => (.ok (), inner)
  | buf :: bufs =>
      match pollWrite startSend inner buf with
      | (.error e, inner) => (.error e, inner)
      -- the length that is returned is that of the whole buffer
      | (.ok _, inner) => writes inner bufs

variable {startSend}

/-- Where `start_send` queues what it takes, each buffer is a message. -/
theorem writes_queue {queue : σ → List Message}
    (queues : ∀ s msg s', startSend s msg = (.ok (), s') → queue s' = queue s ++ [msg])
    {s s' : σ} {bufs : List Bytes} (sent : writes startSend s bufs = (.ok (), s')) :
    queue s' = queue s ++ bufs.map Message.binary := by
  induction bufs generalizing s with
  | nil =>
      cases sent
      rw [List.map_nil, List.append_nil]
  | cons buf bufs ih =>
      rw [writes, pollWrite] at sent
      rcases taken : startSend s (.binary buf) with ⟨_ | _, mid⟩
      · rw [taken] at sent
        cases sent
      · rw [taken] at sent
        rw [ih sent, queues s (.binary buf) mid taken, List.map_cons, List.append_assoc]
        rfl

end Writing

theorem flatMap_binary (binary : ∀ data, intoData (.binary data) = data) (bufs : List Bytes) :
    (bufs.map Message.binary).flatMap intoData = bufs.flatten := by
  rw [List.flatMap_map]
  simp only [binary]
  exact List.flatMap_id'

/-- MQTT over WebSocket is MQTT over TCP: the codec of a client writes its packets, a CONNECT first,
and the bytes are written to the WebSocket in any buffers that are not empty.  Where the messages
arrive in order, and the data of a binary message are its bytes, the connection of the broker,
whatever the sizes of its buffers, receives the version and these packets. -/
theorem mqtt_over_websocket (binary : ∀ data, intoData (.binary data) = data) {σ : Type}
    {startSend : σ → Message → Except (WSError ε) Unit × σ}
    {queue : σ → List Message}
    (queues : ∀ s msg s', startSend s msg = (.ok (), s') → queue s' = queue s ++ [msg])
    {maxPacketSize : UInt32} {ver : ProtocolVersion} {connect : MqttPacket}
    {packets : List MqttPacket} (first : connect.isConnect = true)
    (right : ∀ p ∈ connect :: packets, p.isOf ver = true)
    (sendable : ∀ p ∈ connect :: packets, p.Sendable maxPacketSize) {bufs : List Bytes}
    (written : ByteWriter.forEach (newCodec 0 ver).encode (connect :: packets) [] =
      (ok (), bufs.flatten))
    (nonempty : ∀ buf ∈ bufs, buf ≠ []) {s s' : σ} (start : queue s = [])
    (sent : writes startSend s bufs = (.ok (), s')) {inner : List (Event ε)}
    (arrives : delivered inner = queue s') {rooms : List Nat}
    (room : ∀ remaining ∈ rooms, 0 < remaining)
    (enough : bufs.flatten.length + inner.length < rooms.length) :
    Connection.receive maxPacketSize (WsStream.new.reads intoData inner rooms).1 =
      ((.version ver, 0) :: (connect :: packets).map MqttPacket.received, ok ()) := by
  have messages : delivered inner = bufs.map Message.binary := by
    rw [arrives, writes_queue queues sent, start, List.nil_append]
  have data : payload intoData inner = bufs.flatten := by
    rw [payload, messages, flatMap_binary binary]
  have some : NonEmpty intoData inner := by
    intro msg hmsg
    rw [messages] at hmsg
    obtain ⟨buf, hbuf, rfl⟩ := List.mem_map.mp hmsg
    rw [binary]
    exact nonempty buf hbuf
  have run := WsStream.reads_inOrder rooms room WsStream.valid_new some
  change WsStream.InOrder (payload intoData inner) _ _ _ _ at run
  rw [data] at run
  have read : (WsStream.new.reads intoData inner rooms).1.flatten = bufs.flatten := by
    rcases run.alive with waiting | ⟨e, failed⟩
    · exact absurd waiting (run.enough enough)
    · exact run.failed e failed
  have frames := ByteWriter.Writes.forEach (connect :: packets)
    (fun p hp => MqttPacket.writes (sendable p hp) (right p hp)) []
  rw [written, List.nil_append] at frames
  exact Connection.receive_frames first right sendable (read.trans (Prod.mk.inj frames).2)

/-- The frames of a client that resumes its session, cut behind the fifth byte. -/
def resumedBuffers : List Bytes :=
  [(resumed.flatMap MqttPacket.frame).take 5, (resumed.flatMap MqttPacket.frame).drop 5]

/-- A `start_send` that queues every message. -/
def queued (sent : List Message) (msg : Message) : Except (WSError Unit) Unit × List Message :=
  (.ok (), sent ++ [msg])

/-- These frames, behind a pause, are read with room for eight bytes. -/
theorem mqtt_over_websocket_resumed :
    let inner : List (Event Unit) :=
      .pending :: resumedBuffers.map fun buf => .item (.ok (.binary buf))
    Connection.receive 1024 (WsStream.new.reads Message.bytes inner (List.replicate 64 8)).1 =
      ((.version .MQTT3, 0) :: resumed.map MqttPacket.received, ok ()) := by
  have frames := ByteWriter.Writes.forEach resumed
    (fun p hp => MqttPacket.writes (resumed_sendable p hp).2 (resumed_sendable p hp).1) []
  have queues : ∀ s msg s', queued s msg = (.ok (), s') → id s' = id s ++ [msg] := by
    intro s msg s' taken
    cases taken
    rfl
  have sent : writes queued [] resumedBuffers =
      (.ok (), resumedBuffers.map Message.binary) := rfl
  exact mqtt_over_websocket (fun _ => rfl) queues rfl (fun p hp => (resumed_sendable p hp).1)
    (fun p hp => (resumed_sendable p hp).2) (frames.trans (by simp [resumedBuffers]))
    (by decide) rfl sent rfl (fun r hr => by rw [List.eq_of_mem_replicate hr]; decide) (by decide)

end

end OxiMqtt.Net
