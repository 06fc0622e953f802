import GroupProtocol.Base.Frame
import GroupProtocol.Lib.Streams

/-!
# Transport framing over TCP and QUIC

Both transports carry a blob as its length in four little-endian bytes and then its content,
and both refuse blobs over one megabyte in either direction. What the sockets do is a
parameter: a receiving end yields its bytes in any segments and reports an error of its own
at the end, a sending end may break after any number of bytes.
-/

namespace GroupProtocol

open Streams

/-- Maximum size of a single on-the-wire message (1 MiB). -/
def maxFrame : ℕ := 1 <<< 20

theorem maxFrame_lt : maxFrame < 2 ^ 32 := by decide

/-- Errors raised by the transport layer; `I` is the type of I/O errors. -/
inductive WireError (I : Type)
  | io (error : I)
  | codec (error : CodecError)
  | tooLarge (size max : ℕ)
  | quic (reason : String)
  deriving DecidableEq, Repr

/-- The error for a message of `n` bytes. -/
def WireError.ofSize {I : Type} (n : ℕ) : WireError I := .tooLarge n maxFrame

/-- A TCP connection. -/
structure TcpStream (I : Type) where
  input : Source UInt8 I
  output : Sink UInt8 I

namespace TcpStream

variable {I : Type}

/-- The receiving end of the connection. -/
def inputPart : Part (TcpStream I) (Source UInt8 I) where
  get := input
  set input stream := { stream with input := input }
  get_set _ _ := rfl
  set_get _ := rfl
  set_set _ _ _ := rfl

/-- The sending end of the connection. -/
def outputPart : Part (TcpStream I) (Sink UInt8 I) where
  get := output
  set output stream := { stream with output := output }
  get_set _ _ := rfl
  set_get _ := rfl
  set_set _ _ _ := rfl

/-- `write_all` on the socket. -/
def writeAll (data : Bytes) : EStateM (WireError I) (TcpStream I) Unit :=
  outputPart.lift .io (Sink.writeAll data)

/-- `read_exact` on the socket. -/
def readExact (n : ℕ) : EStateM (WireError I) (TcpStream I) Bytes :=
  inputPart.lift .io (Source.readExact n)

/-- `flush` on the socket, which holds nothing back. -/
def flush : EStateM (WireError I) (TcpStream I) Unit := pure ()

/-- Writes an opaque length-prefixed blob. -/
def writeBlob (data : Bytes) : EStateM (WireError I) (TcpStream I) Unit := do
  if data.length > maxFrame then throw (.ofSize data.length)
  let len := leBytes 4 data.length
  writeAll len
  writeAll data
  flush

/-- Reads an opaque length-prefixed blob. -/
def readBlob : EStateM (WireError I) (TcpStream I) Bytes := do
  let lenBuf ← readExact 4
  let len := leNat lenBuf
  if len > maxFrame then throw (.ofSize len)
  readExact len

/-- Writes a frame. -/
def writeFrame [Ciborium] (frame : GbpFrame) : EStateM (WireError I) (TcpStream I) Unit :=
  writeBlob frame.toCbor

/-- Reads a frame. -/
def readFrame [Ciborium] : EStateM (WireError I) (TcpStream I) GbpFrame := do
  let buf ← readBlob
  match GbpFrame.fromCbor buf with
  | .ok f => return f
  | .error e => throw (.codec e)

end TcpStream

/-- A bidirectional QUIC stream; `W` and `R` are the types of write and read errors. -/
structure QuicStream (W R : Type) where
  send : Sink UInt8 W
  recv : Source UInt8 R

namespace QuicStream

variable {I W R : Type} [ToString W] [ToString R]

/-- The receiving end of the stream. -/
def recvPart : Part (QuicStream W R) (Source UInt8 R) where
  get := recv
  set recv stream := { stream with recv := recv }
  get_set _ _ := rfl
  set_get _ := rfl
  set_set _ _ _ := rfl

/-- The sending end of the stream. -/
def sendPart : Part (QuicStream W R) (Sink UInt8 W) where
  get := send
  set send stream := { stream with send := send }
  get_set _ _ := rfl
  set_get _ := rfl
  set_set _ _ _ := rfl

/-- `write_all` on the sending end. -/
def writeAll (data : Bytes) : EStateM (WireError I) (QuicStream W R) Unit :=
  sendPart.lift (fun e => .quic (toString e)) (Sink.writeAll data)

/-- `read_exact` on the receiving end. -/
def readExact (n : ℕ) : EStateM (WireError I) (QuicStream W R) Bytes :=
  recvPart.lift (fun e => .quic (toString e)) (Source.readExact n)

/-- Writes an opaque length-prefixed blob. -/
def writeBlob (data : Bytes) : EStateM (WireError I) (QuicStream W R) Unit := do
  if data.length > maxFrame then throw (.tooLarge data.length maxFrame)
  let len := leBytes 4 data.length
  writeAll len
  writeAll data

/-- Reads an opaque length-prefixed blob. -/
def readBlob : EStateM (WireError I) (QuicStream W R) Bytes := do
  let lenBuf ← readExact 4
  let len := leNat lenBuf
  if len > maxFrame then throw (.tooLarge len maxFrame)
  readExact len

/-- Writes a frame. -/
def writeFrame [Ciborium] (frame : GbpFrame) : EStateM (WireError I) (QuicStream W R) Unit :=
  writeBlob frame.toCbor

/-- Reads a frame. -/
def readFrame [Ciborium] : EStateM (WireError I) (QuicStream W R) GbpFrame := do
  let buf ← readBlob
  match GbpFrame.fromCbor buf with
  | .ok f => return f
  | .error e => throw (.codec e)

end QuicStream

/-! ## Both transports frame alike -/

section Agreement

variable {I W R : Type}

/-- The TCP reader is a framed reader of the receiving end. -/
theorem TcpStream.readBlob_eq :
    (readBlob : EStateM (WireError I) (TcpStream I) Bytes) =
      readFramed maxFrame .ofSize (readLifted inputPart .io) := rfl

/-- The QUIC reader is a framed reader of the receiving end. -/
theorem QuicStream.readBlob_eq [ToString R] :
    (readBlob : EStateM (WireError I) (QuicStream W R) Bytes) =
      readFramed maxFrame .ofSize (readLifted recvPart fun e => .quic (toString e)) := rfl

/-- The flush at the end changes nothing: the TCP writer is a framed writer of the sending end. -/
theorem TcpStream.writeBlob_eq :
    (writeBlob : Bytes → EStateM (WireError I) (TcpStream I) Unit) =
      writeFramed maxFrame .ofSize fun data => outputPart.lift .io (Sink.writeAll data) := by
  funext data
  simp only [writeBlob, flush, writeFramed, writeAll, bind_pure_unit, gt_iff_lt]

/-- The QUIC writer is a framed writer of the sending end. -/
theorem QuicStream.writeBlob_eq [ToString W] :
    (writeBlob : Bytes → EStateM (WireError I) (QuicStream W R) Unit) =
      writeFramed maxFrame .ofSize fun data =>
        sendPart.lift (fun e => .quic (toString e)) (Sink.writeAll data) := rfl

/-- Blobs that fit are written to TCP as the concatenation of their sections. -/
theorem TcpStream.forM_writeBlob {blobs : List Bytes}
    (hfit : ∀ blob ∈ blobs, blob.length ≤ maxFrame) :
    (forM blobs writeBlob : EStateM (WireError I) (TcpStream I) Unit) =
      writeAll (blobs.flatMap Prefixed.put) := by
  rw [TcpStream.writeBlob_eq, forM_writeFramed _ _ _ hfit, writeAll]

/-- Blobs that fit are written to QUIC as the concatenation of their sections. -/
theorem QuicStream.forM_writeBlob [ToString W] {blobs : List Bytes}
    (hfit : ∀ blob ∈ blobs, blob.length ≤ maxFrame) :
    (forM blobs writeBlob : EStateM (WireError I) (QuicStream W R) Unit) =
      writeAll (blobs.flatMap Prefixed.put) := by
  rw [QuicStream.writeBlob_eq, forM_writeFramed _ _ _ hfit, writeAll]

/-- An intact connection takes all that is written to it. -/
theorem TcpStream.writeAll_of_intact {s : TcpStream I} (h : s.output.breaks = none) (data : Bytes) :
    writeAll data s =
      .ok () { s with output := { s.output with sent := s.output.sent ++ data } } := by
  have hsink : Sink.writeAll data (outputPart.get s) = _ := Sink.writeAll_of_intact h data
  rw [writeAll, Part.lift, hsink]
  rfl

/-- An intact stream takes all that is written to it. -/
theorem QuicStream.writeAll_of_intact [ToString W] {s : QuicStream W R}
    (h : s.send.breaks = none) (data : Bytes) :
    (writeAll data : EStateM (WireError I) _ _) s =
      .ok () { s with send := { s.send with sent := s.send.sent ++ data } } := by
  have hsink : Sink.writeAll data (sendPart.get s) = _ := Sink.writeAll_of_intact h data
  rw [writeAll, Part.lift, hsink]
  rfl

/-- Length-prefixed framing is exact. Both writers append the same bytes; either reader returns
the blobs in order from any segments that hold these bytes, and leaves what follows; a blob over
the limit is refused with nothing written; a header over the limit is refused with nothing read
behind it; and a stream that was cut yields its complete blobs and then the error of its end. -/
theorem framing_exact [ToString W] [ToString R] (blobs : List Bytes)
    (hfit : ∀ blob ∈ blobs, blob.length ≤ maxFrame) :
    let wire := blobs.flatMap Prefixed.put
    (∀ s : TcpStream I, s.output.breaks = none →
      forM blobs TcpStream.writeBlob s =
        .ok () { s with output := { s.output with sent := s.output.sent ++ wire } }) ∧
    (∀ s : QuicStream W R, s.send.breaks = none →
      (forM blobs QuicStream.writeBlob : EStateM (WireError I) _ _) s =
        .ok () { s with send := { s.send with sent := s.send.sent ++ wire } }) ∧
    (∀ (s : TcpStream I) (tail : Bytes), s.input.segments.flatten = wire ++ tail →
      ∃ s', readMany TcpStream.readBlob blobs.length s = .ok blobs s' ∧
        s'.input.segments.flatten = tail) ∧
    (∀ (s : QuicStream W R) (tail : Bytes), s.recv.segments.flatten = wire ++ tail →
      ∃ s', readMany (QuicStream.readBlob : EStateM (WireError I) _ _) blobs.length s =
          .ok blobs s' ∧
        s'.recv.segments.flatten = tail) ∧
    (∀ (data : Bytes) (s : TcpStream I), maxFrame < data.length →
      TcpStream.writeBlob data s = .error (.tooLarge data.length maxFrame) s) ∧
    (∀ (data : Bytes) (s : QuicStream W R), maxFrame < data.length →
      (QuicStream.writeBlob data : EStateM (WireError I) _ _) s =
        .error (.tooLarge data.length maxFrame) s) ∧
    (∀ (header body : Bytes) (s : TcpStream I), header.length = 4 → maxFrame < leNat header →
      s.input.segments.flatten = header ++ body →
      ∃ s', TcpStream.readBlob s = .error (.tooLarge (leNat header) maxFrame) s' ∧
        s'.input.segments.flatten = body) ∧
    (∀ (header body : Bytes) (s : QuicStream W R), header.length = 4 → maxFrame < leNat header →
      s.recv.segments.flatten = header ++ body →
      ∃ s', (QuicStream.readBlob : EStateM (WireError I) _ _) s =
          .error (.tooLarge (leNat header) maxFrame) s' ∧
        s'.recv.segments.flatten = body) ∧
    (∀ s : TcpStream I, s.input.segments.flatten <+: wire →
      ∃ k, CompleteIn blobs s.input.segments.flatten k ∧ ∃ s₁ s₂ got,
        readMany TcpStream.readBlob k s = .ok (blobs.take k) s₁ ∧
        TcpStream.readBlob s₁ = .error (.io (s.input.ended got)) s₂) ∧
    ∀ s : QuicStream W R, s.recv.segments.flatten <+: wire →
      ∃ k, CompleteIn blobs s.recv.segments.flatten k ∧ ∃ s₁ s₂ got,
        readMany (QuicStream.readBlob : EStateM (WireError I) _ _) k s =
          .ok (blobs.take k) s₁ ∧
        (QuicStream.readBlob : EStateM (WireError I) _ _) s₁ =
          .error (.quic (toString (s.recv.ended got))) s₂ := by
  intro wire
  let wrap : R → WireError I := fun e => .quic (toString e)
  refine ⟨fun s hs => ?_, fun s hs => ?_, fun s tail hs => ?_, fun s tail hs => ?_,
    fun data s hdata => ?_, fun data s hdata => ?_, fun header body s hlen hlimit hs => ?_,
    fun header body s hlen hlimit hs => ?_, fun s hs => ?_, fun s hs => ?_⟩
  · rw [TcpStream.forM_writeBlob hfit]
    exact TcpStream.writeAll_of_intact hs wire
  · rw [QuicStream.forM_writeBlob hfit]
    exact QuicStream.writeAll_of_intact hs wire
  · obtain ⟨s', hread, hrest, -⟩ :=
      readMany_put WireError.ofSize TcpStream.inputPart WireError.io maxFrame_lt hfit hs
    exact ⟨s', hread, hrest⟩
  · obtain ⟨s', hread, hrest, -⟩ :=
      readMany_put WireError.ofSize QuicStream.recvPart wrap maxFrame_lt hfit hs
    exact ⟨s', hread, hrest⟩
  · rw [TcpStream.writeBlob_eq]
    exact writeFramed_of_lt WireError.ofSize hdata _ s
  · rw [QuicStream.writeBlob_eq]
    exact writeFramed_of_lt WireError.ofSize hdata _ s
  · exact readFramed_of_lt WireError.ofSize TcpStream.inputPart WireError.io hlen hlimit hs
  · exact readFramed_of_lt WireError.ofSize QuicStream.recvPart wrap hlen hlimit hs
  · exact readMany_cut WireError.ofSize TcpStream.inputPart WireError.io maxFrame_lt hfit hs
  · exact readMany_cut WireError.ofSize QuicStream.recvPart wrap maxFrame_lt hfit hs

/-- A connection that breaks under the writer leaves a cut of the stream and nothing else, so
that the other side gets complete blobs only. -/
theorem broken_writer_leaves_cut [ToString W] {blobs : List Bytes} {room : ℕ}
    (hfit : ∀ blob ∈ blobs, blob.length ≤ maxFrame)
    (hroom : room < (blobs.flatMap Prefixed.put).length) :
    (∀ (s : TcpStream I) (fault : I), s.output.breaks = some (room, fault) →
      ∃ s', forM blobs TcpStream.writeBlob s = .error (.io fault) s' ∧
        s'.output.sent = s.output.sent ++ (blobs.flatMap Prefixed.put).take room) ∧
    ∀ (s : QuicStream W R) (fault : W), s.send.breaks = some (room, fault) →
      ∃ s', (forM blobs QuicStream.writeBlob : EStateM (WireError I) _ _) s =
          .error (.quic (toString fault)) s' ∧
        s'.send.sent = s.send.sent ++ (blobs.flatMap Prefixed.put).take room := by
  constructor
  · intro s fault hs
    have hsink : Sink.writeAll _ (TcpStream.outputPart.get s) = _ :=
      Sink.writeAll_of_break hs hroom
    rw [TcpStream.forM_writeBlob hfit, TcpStream.writeAll, Part.lift, hsink]
    exact ⟨_, rfl, rfl⟩
  · intro s fault hs
    have hsink : Sink.writeAll _ (QuicStream.sendPart.get s) = _ :=
      Sink.writeAll_of_break hs hroom
    rw [QuicStream.forM_writeBlob hfit, QuicStream.writeAll, Part.lift, hsink]
    exact ⟨_, rfl, rfl⟩

/-- A frame that fits and declares its payload truthfully is read back over both transports. -/
theorem readFrame_put [Ciborium] [ToString R] {frame : GbpFrame} (hbytes : frame.byteSize < 2 ^ 64)
    (hsize : frame.validatePayloadSize = .ok ()) (hfit : frame.toCbor.length ≤ maxFrame) :
    (∀ (s : TcpStream I) (tail : Bytes),
      s.input.segments.flatten = Prefixed.put frame.toCbor ++ tail →
      ∃ s', TcpStream.readFrame s = .ok frame s' ∧ s'.input.segments.flatten = tail) ∧
    ∀ (s : QuicStream W R) (tail : Bytes),
      s.recv.segments.flatten = Prefixed.put frame.toCbor ++ tail →
      ∃ s', (QuicStream.readFrame : EStateM (WireError I) _ _) s = .ok frame s' ∧
        s'.recv.segments.flatten = tail := by
  have hcbor := GbpFrame.fromCbor_toCbor hbytes hsize
  constructor
  · intro s tail hs
    obtain ⟨s', hread, hrest, -⟩ :=
      readFramed_put WireError.ofSize TcpStream.inputPart WireError.io maxFrame_lt hfit hs
    rw [← TcpStream.readBlob_eq] at hread
    refine ⟨s', ?_, hrest⟩
    simp only [TcpStream.readFrame, bind, EStateM.bind, hread, hcbor]
    rfl
  · intro s tail hs
    obtain ⟨s', hread, hrest, -⟩ := readFramed_put WireError.ofSize QuicStream.recvPart
      (fun e => (WireError.quic (toString e) : WireError I)) maxFrame_lt hfit hs
    rw [← QuicStream.readBlob_eq] at hread
    refine ⟨s', ?_, hrest⟩
    simp only [QuicStream.readFrame, bind, EStateM.bind, hread, hcbor]
    rfl

end Agreement

/-- An empty blob and one of two bytes, read from segments that split both headers. -/
theorem framing_exact_split :
    ∃ s', readMany TcpStream.readBlob 2
        (⟨⟨[[0], [0, 0, 0, 2, 0], [0, 0, 7], [8]], fun _ => ()⟩, ⟨[], none⟩⟩ : TcpStream Unit) =
          .ok [[], [7, 8]] s' ∧
      s'.input.segments.flatten = [] := by
  have h := framing_exact (I := Unit) (W := String) (R := String) [[], [7, 8]] (by decide)
  exact h.2.2.1 _ [] (by decide)

end GroupProtocol
