import GroupProtocol.Channel.Texts
import GroupProtocol.Transport.Framing

/-!
# Texts over one connection

The frames of any number of members go over one TCP connection or one QUIC stream, which may break
under the writer, be cut on its way and arrive in any segments. The receiver reads blobs until the
connection reports its end, and hands them to its node.
-/

namespace GroupProtocol

open Streams

/-- What a writer leaves in its connection is a cut of the sections it was to write. -/
theorem TcpStream.sent_leaves {I : Type} {blobs : List Bytes}
    (hfit : ∀ blob ∈ blobs, blob.length ≤ maxFrame) {s : TcpStream I} (hs : s.output.sent = []) :
    (leaves (forM blobs TcpStream.writeBlob) s).output.sent <+: blobs.flatMap Prefixed.put := by
  rw [TcpStream.forM_writeBlob hfit]
  have hcut := sent_leaves_lift (TcpStream.outputPart (I := I)) WireError.io
    (blobs.flatMap Prefixed.put) s
  rwa [show (TcpStream.outputPart.get s).sent = [] from hs, List.nil_append] at hcut

/-- What a writer leaves in its stream is a cut of the sections it was to write. -/
theorem QuicStream.sent_leaves {I W R : Type} [ToString W] {blobs : List Bytes}
    (hfit : ∀ blob ∈ blobs, blob.length ≤ maxFrame) {s : QuicStream W R} (hs : s.send.sent = []) :
    (leaves (forM blobs QuicStream.writeBlob : EStateM (WireError I) _ _) s).send.sent <+:
      blobs.flatMap Prefixed.put := by
  rw [QuicStream.forM_writeBlob hfit]
  have hcut := sent_leaves_lift (QuicStream.sendPart (W := W) (R := R))
    (fun e => (WireError.quic (toString e) : WireError I)) (blobs.flatMap Prefixed.put) s
  rwa [show (QuicStream.sendPart.get s).sent = [] from hs, List.nil_append] at hcut

/-- A map that is injective on the elements of two lists has different images of them. -/
theorem eq_of_map_eq {α β : Type} {f : α → β} {xs ys : List α} (h : xs.map f = ys.map f)
    (hinj : ∀ x ∈ xs, ∀ y ∈ ys, f x = f y → x = y) : xs = ys := by
  induction xs generalizing ys with
  | nil => exact (List.map_eq_nil_iff.mp h.symm).symm
  | cons x xs ih =>
      obtain ⟨y, ys, rfl, hxy, hrest⟩ := List.map_eq_cons_iff.mp h.symm
      rw [hinj x (List.mem_cons_self ..) y (List.mem_cons_self ..) hxy.symm,
        ih hrest.symm fun a ha b hb =>
          hinj a (List.mem_cons_of_mem x ha) b (List.mem_cons_of_mem y hb)]

namespace Delivering

variable {ι : Type} [DecidableEq ι] [Ciborium] [CborReader GtpMessage]
  [Prost GbpProto.GtpMessage] [PlanusBuilder GbpFlat.GtpMessage] [ReadAsRoot GbpFlat.GtpMessageRef]
  [Codegen GapPayload] [Codegen GspSignal] {S : Type} [Sealer S]

/-- The wire bytes of the frames sent. -/
def wires (members : ι → Member) (xs : List (ClientSend ι S)) : List Bytes :=
  (sent members xs).map SentFrame.wire

/-- Reading a connection to its end yields the wire bytes of the first frames sent, as many as
are complete. A receiver on the network that is handed these, one after the other, reports the
texts in these frames and no others. -/
def YieldsTexts (members : ι → Member) (xs : List (ClientSend ι S)) {ε σ : Type}
    (read : EStateM ε σ Bytes) (s : σ) (carried : Bytes) : Prop :=
  ∃ k s₁ s₂ e, CompleteIn (wires members xs) carried k ∧
    readMany read k s = .ok ((wires members xs).take k) s₁ ∧ read s₁ = .error e s₂ ∧
    ∀ (R : GroupNode) (turns : List (Turn ι S)), OnNetwork R members xs turns →
      (Turn.arrived turns).map SentFrame.wire = (wires members xs).take k → ∀ i,
        ((GtpClient.news (GtpClient.client.replies R GtpClient.new turns)).filter fun m =>
            m.senderId = (members i).node.memberId) =
          (((sent members xs).take k).filter fun f => f.origin = (i, .text)).filterMap fun f =>
            GtpClient.read f.payload

variable {R : GroupNode} {members : ι → Member} {xs : List (ClientSend ι S)}
  {turns : List (Turn ι S)}

/-- A receiver that is handed the wire bytes of the first frames reports the texts in these. -/
theorem news_of_wires (h : OnNetwork R members xs turns) (hcodecs : TextCodecs)
    (hfits : ∀ x ∈ xs, x.Fits)
    (hdistinct : ∀ i, (((xs.filter fun x => x.sender = i).filterMap
      (ClientSend.text members)).map GtpMessage.messageId).Nodup) {k : ℕ}
    (hwires : (Turn.arrived turns).map SentFrame.wire = (wires members xs).take k) (i : ι) :
    ((GtpClient.news (GtpClient.client.replies R GtpClient.new turns)).filter fun m =>
        m.senderId = (members i).node.memberId) =
      (((sent members xs).take k).filter fun f => f.origin = (i, .text)).filterMap fun f =>
        GtpClient.read f.payload := by
  rw [wires, ← List.map_take] at hwires
  have harrived : Turn.arrived turns = (sent members xs).take k :=
    eq_of_map_eq hwires fun f hf g hg heq =>
      h.wire_inj (h.genuine f hf) ((List.take_sublist k _).subset hg) heq
  rw [h.news_eq hcodecs hfits hdistinct, h.delivered_eq_arrived
    (harrived ▸ List.take_sublist k _), harrived]

/-- Texts over one connection. Whatever a broken writer leaves, a cut on the way and the segments
at the reader do, reading a TCP connection or a QUIC stream to its end yields the complete frames
among the first ones, and a receiver that is handed them reports their texts, in the order of
sending and each once. -/
theorem texts_over_connections {I W V : Type} [ToString W] [ToString V] (hcodecs : TextCodecs)
    (hfits : ∀ x ∈ xs, x.Fits)
    (hdistinct : ∀ i, (((xs.filter fun x => x.sender = i).filterMap
      (ClientSend.text members)).map GtpMessage.messageId).Nodup)
    (hsize : ∀ f ∈ sent members xs, f.wire.length ≤ maxFrame) :
    (∀ writer reader : TcpStream I, writer.output.sent = [] →
      reader.input.rest <+: (leaves (forM (wires members xs) TcpStream.writeBlob) writer).output.sent →
      YieldsTexts members xs TcpStream.readBlob reader reader.input.rest) ∧
    ∀ writer reader : QuicStream W V, writer.send.sent = [] →
      reader.recv.rest <+: (leaves (forM (wires members xs) QuicStream.writeBlob :
        EStateM (WireError I) _ _) writer).send.sent →
      YieldsTexts members xs (QuicStream.readBlob : EStateM (WireError I) _ _) reader
        reader.recv.rest := by
  have hfit : ∀ blob ∈ wires members xs, blob.length ≤ maxFrame := by
    intro blob hblob
    obtain ⟨f, hf, rfl⟩ := List.mem_map.mp hblob
    exact hsize f hf
  have hnews {k : ℕ} (R : GroupNode) (turns : List (Turn ι S))
      (h : OnNetwork R members xs turns) :=
    news_of_wires (k := k) h hcodecs hfits hdistinct
  constructor
  · intro writer reader hnew hcarried
    obtain ⟨k, hk, s₁, s₂, got, hreads, hlast⟩ := readMany_cut WireError.ofSize
      TcpStream.inputPart WireError.io maxFrame_lt hfit
      (hcarried.trans (TcpStream.sent_leaves hfit hnew))
    exact ⟨k, s₁, s₂, _, hk, hreads, hlast, hnews⟩
  · intro writer reader hnew hcarried
    obtain ⟨k, hk, s₁, s₂, got, hreads, hlast⟩ := readMany_cut WireError.ofSize
      QuicStream.recvPart (fun e => (WireError.quic (toString e) : WireError I)) maxFrame_lt hfit
      (hcarried.trans (QuicStream.sent_leaves hfit hnew))
    exact ⟨k, s₁, s₂, _, hk, hreads, hlast, hnews⟩

end Delivering

namespace Delivering

/-- A writer of `mixedSends` whose connection breaks after a number of bytes. -/
def breakingWriter (room : ℕ) : TcpStream Unit := ⟨⟨[], fun _ => ()⟩, ⟨[], some (room, ())⟩⟩

/-- A reader of what that writer leaves, in two segments. -/
def splitReader (room cut : ℕ) : TcpStream Unit :=
  let left := (leaves (forM (wires twoSenders mixedSends) TcpStream.writeBlob)
    (breakingWriter room)).output.sent
  ⟨⟨[left.take cut, left.drop cut], fun _ => ()⟩, ⟨[], none⟩⟩

/-- A connection that breaks inside the third frame and splits the first one. -/
theorem texts_over_connections_broken :
    YieldsTexts twoSenders mixedSends TcpStream.readBlob (splitReader 250 7)
      (splitReader 250 7).input.rest := by
  have hrest : (splitReader 250 7).input.rest =
      (leaves (forM (wires twoSenders mixedSends) TcpStream.writeBlob)
        (breakingWriter 250)).output.sent := by
    simp [splitReader, Source.rest]
  refine (texts_over_connections (I := Unit) (W := String) (V := String) textCodecs mixed_fits
    (fun i => ?_) (by decide +kernel)).1 (breakingWriter 250) (splitReader 250 7) rfl ?_
  · cases i <;> decide +kernel
  · rw [hrest]

end Delivering

end GroupProtocol
