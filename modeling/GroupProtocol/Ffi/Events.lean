import Mathlib.Algebra.Order.Floor.Div
import GroupProtocol.Lib.Base64
import GroupProtocol.Node.State

/-!
# Events of the foreign interface

The events of a node leave the library as records of numbers and texts, with plaintexts and
control arguments in base64. The encoder of `gbp-stack-ffi/src/lib.rs` works on groups of
three bytes with shifts and a table, and has a tail for each remainder. Its text is the
standard encoding of the bytes, so the records tell an application all that the events say.
-/

namespace GroupProtocol.Ffi

/-- The table of the encoder. -/
def alphabet : Vector Char 64 :=
  ⟨"ABCDEFGHIJKLMNOPQRSTUVWXYZabcdefghijklmnopqrstuvwxyz0123456789+/".toList.toArray, by decide⟩

theorem mask_lt (n : UInt32) : (n &&& 0x3F).toNat < 64 := by
  rw [UInt32.toNat_and]
  exact Nat.and_lt_two_pow _ (n := 6) (by decide)

/-- The character for the low six bits of a number. -/
def letter (n : UInt32) : Char := alphabet.get ⟨(n &&& 0x3F).toNat, mask_lt n⟩

/-- The loop over full groups, with the text so far and the bytes it leaves. -/
def b64Loop (out : String) : Bytes → String × Bytes
  | x :: y :: z :: rest =>
    let n := x.toUInt32 <<< 16 ||| y.toUInt32 <<< 8 ||| z.toUInt32
    let out := out.push (letter (n >>> 18))
    let out := out.push (letter (n >>> 12))
    let out := out.push (letter (n >>> 6))
    let out := out.push (letter n)
    b64Loop out rest
  | rest => (out, rest)

/-- The tail with its padding. -/
def b64Tail (out : String) : Bytes → String
  | [x] =>
    let n := x.toUInt32 <<< 16
    let out := out.push (letter (n >>> 18))
    let out := out.push (letter (n >>> 12))
    (out.push '=').push '='
  | [x, y] =>
    let n := x.toUInt32 <<< 16 ||| y.toUInt32 <<< 8
    let out := out.push (letter (n >>> 18))
    let out := out.push (letter (n >>> 12))
    let out := out.push (letter (n >>> 6))
    out.push '='
  | _ => out

/-- `b64`: the text of a byte string. -/
def b64 (bytes : Bytes) : String :=
  let (out, rest) := b64Loop "" bytes
  b64Tail out rest

/-- The table has the standard order. -/
theorem alphabet_get (i : Fin 64) : alphabet.get i = Base64.charOf i := by
  revert i
  decide

theorem letter_eq (n : UInt32) : letter n = Base64.charOf (n.toNat % 64) := by
  have hmask : (n &&& 0x3F).toNat = n.toNat % 64 := by
    rw [UInt32.toNat_and]
    exact Nat.and_two_pow_sub_one_eq_mod n.toNat 6
  rw [letter, alphabet_get]
  simp only [hmask]

/-- The shifted bytes do not overlap. -/
theorem toNat_group (x y z : UInt8) :
    (x.toUInt32 <<< 16 ||| y.toUInt32 <<< 8 ||| z.toUInt32).toNat = Base64.word x y z := by
  have hx := x.toNat_lt
  have hy := y.toNat_lt
  have hz := z.toNat_lt
  have hhigh : (x.toUInt32 <<< 16).toNat = x.toNat <<< 16 := by
    simp only [UInt32.toNat_shiftLeft, UInt8.toNat_toUInt32, UInt32.reduceToNat, Nat.reduceMod]
    rw [Nat.shiftLeft_eq]
    omega
  have hmid : (y.toUInt32 <<< 8).toNat = y.toNat <<< 8 := by
    simp only [UInt32.toNat_shiftLeft, UInt8.toNat_toUInt32, UInt32.reduceToNat, Nat.reduceMod]
    rw [Nat.shiftLeft_eq]
    omega
  rw [UInt32.toNat_or, UInt32.toNat_or, hhigh, hmid, UInt8.toNat_toUInt32, Nat.or_assoc,
    ← Nat.shiftLeft_add_eq_or_of_lt hz, ← Nat.shiftLeft_add_eq_or_of_lt (by omega)]
  simp only [Base64.word, Nat.shiftLeft_eq]
  omega

theorem toNat_group_two (x y : UInt8) :
    (x.toUInt32 <<< 16 ||| y.toUInt32 <<< 8).toNat = Base64.word x y 0 := by
  have hgroup := toNat_group x y 0
  have hzero : (0 : UInt8).toUInt32 = 0 := rfl
  rw [hzero, UInt32.or_zero] at hgroup
  exact hgroup

theorem toNat_group_one (x : UInt8) : (x.toUInt32 <<< 16).toNat = Base64.word x 0 0 := by
  have hgroup := toNat_group_two x 0
  have hzero : (0 : UInt8).toUInt32 = 0 := rfl
  rw [hzero, UInt32.zero_shiftLeft, UInt32.or_zero] at hgroup
  exact hgroup

/-- The four characters of a group are the digits of its number. -/
theorem letter_shiftRight {n : UInt32} {w : ℕ} (hn : n.toNat = w) (hw : w < 2 ^ 24) :
    letter (n >>> 18) = Base64.charOf (w / 2 ^ 18) ∧
      letter (n >>> 12) = Base64.charOf (w / 2 ^ 12 % 64) ∧
      letter (n >>> 6) = Base64.charOf (w / 2 ^ 6 % 64) ∧
      letter n = Base64.charOf (w % 64) := by
  have hlead : w / 2 ^ 18 % 64 = w / 2 ^ 18 := Nat.mod_eq_of_lt (by omega)
  simp only [letter_eq, UInt32.toNat_shiftRight, hn, UInt32.reduceToNat, Nat.reduceMod,
    Nat.shiftRight_eq_div_pow, hlead, true_and]

/-- The tail adds the encoding of what the loop leaves. -/
theorem toList_b64Tail (out : String) {rest : Bytes} (h : rest.length < 3) :
    (b64Tail out rest).toList = out.toList ++ Base64.encode rest := by
  match rest with
  | [] => simp [b64Tail, Base64.encode]
  | [x] =>
    obtain ⟨h18, h12, -, -⟩ := letter_shiftRight (toNat_group_one x) (Base64.word_lt x 0 0)
    simp [b64Tail, Base64.encode, String.toList_push, h18, h12, Base64.pad]
  | [x, y] =>
    obtain ⟨h18, h12, h6, -⟩ := letter_shiftRight (toNat_group_two x y) (Base64.word_lt x y 0)
    simp [b64Tail, Base64.encode, String.toList_push, h18, h12, h6, Base64.pad]
  | _ :: _ :: _ :: _ =>
    simp only [List.length_cons] at h
    omega

/-- The loop and the tail add the encoding of the bytes to any text. -/
theorem toList_b64Loop (out : String) (bytes : Bytes) :
    (b64Tail (b64Loop out bytes).1 (b64Loop out bytes).2).toList
      = out.toList ++ Base64.encode bytes := by
  fun_induction b64Loop out bytes with
  | case1 out x y z rest n out₁ out₂ out₃ out₄ ih =>
    obtain ⟨h18, h12, h6, h0⟩ := letter_shiftRight (toNat_group x y z) (Base64.word_lt x y z)
    rw [ih]
    simp [out₄, out₃, out₂, out₁, n, Base64.encode, String.toList_push, h18, h12, h6, h0]
  | case2 out rest hshort =>
    apply toList_b64Tail
    match rest with
    | [] => simp
    | [_] => simp
    | [_, _] => simp
    | x :: y :: z :: rest => exact absurd rfl (hshort x y z rest)

/-- The text of a byte string is its standard encoding. -/
theorem toList_b64 (bytes : Bytes) : (b64 bytes).toList = Base64.encode bytes :=
  toList_b64Loop "" bytes

theorem length_b64 (bytes : Bytes) : (b64 bytes).length = 4 * (bytes.length ⌈/⌉ 3) := by
  rw [← String.length_toList, toList_b64, Base64.length_encode, Nat.ceilDiv_eq_add_pred_div]
  omega

/-- Every character of the text takes one byte. -/
theorem utf8ByteSize_b64 (bytes : Bytes) : (b64 bytes).utf8ByteSize = (b64 bytes).length := by
  apply Base64.utf8ByteSize_eq_length
  rw [toList_b64]
  exact Base64.utf8Size_encode bytes

/-- The text of a byte string has four characters for every three bytes begun, is made of
characters of the alphabet with the padding behind them, and is read back by the decoder. -/
theorem b64_standard (bytes : Bytes) :
    ((b64 bytes).length = 4 * (bytes.length ⌈/⌉ 3) ∧
      (b64 bytes).utf8ByteSize = 4 * (bytes.length ⌈/⌉ 3)) ∧
    (∃ digits : List Char,
      (b64 bytes).toList = digits ++ List.replicate ((3 - bytes.length % 3) % 3) '=' ∧
        ∀ c ∈ digits, (Base64.valueOf c).isSome) ∧
    Base64.decode (b64 bytes).toList = some bytes := by
  refine ⟨⟨length_b64 bytes, ?_⟩, ?_, ?_⟩
  · rw [utf8ByteSize_b64, length_b64]
  · obtain ⟨digits, htext, halphabet⟩ := Base64.encode_eq_append_padding bytes
    refine ⟨digits, by rw [toList_b64, htext]; rfl, ?_⟩
    intro c hc
    obtain ⟨v, hv, rfl⟩ := halphabet c hc
    rw [Base64.valueOf_charOf hv]
    rfl
  · rw [toList_b64, Base64.decode_encode]

example : b64 "fooba".toUTF8.toList = "Zm9vYmE=" := by decide +kernel

theorem b64_injective : Function.Injective b64 := by
  intro x y h
  have hx := Base64.decode_encode x
  rw [← toList_b64, h, toList_b64, Base64.decode_encode] at hx
  exact (Option.some.inj hx).symm

/-- An event as the foreign interface shows it. -/
inductive EventDto
  | stateChanged (source target : String)
  | payloadReceived (streamType : String) (streamTypeCode : UInt32) (streamId sequenceNo : UInt32)
      (flags : UInt16) (codec : UInt8) (plaintextB64 : String)
  | control (source : UInt32) (opcode : String) (opcodeCode : UInt16)
      (transitionId requestId : UInt32) (argsB64 : String)
  | error (code : UInt16) (codeHex : String) (errorClass : UInt8) (retryable fatal : Bool)
      (reason : String)
  | epochAdvanced (epoch : UInt64) (transitionId : UInt32)
  | coordinatorElectionNeeded
  | becameCoordinator
  | coordinatorClaim (claimant : UInt32)
  deriving DecidableEq, Repr

/-- An error code with four upper-case digits. -/
def codeHex (code : UInt16) : String :=
  "0x" ++ String.ofList (((Nat.toDigits 16 code.toNat).map Char.toUpper).leftpad 4 '0')

/-- The record of an event. -/
def dto : Event → EventDto
  | .stateChanged source target => .stateChanged source.display target.display
  | .payloadReceived p =>
    .payloadReceived p.streamType.display p.streamType.asU8.toUInt32 p.streamId p.sequenceNo
      p.flags p.codec.asU8 (b64 p.plaintext)
  | .control source opcode transitionId requestId args =>
    .control source opcode.name opcode.asU16 transitionId requestId (b64 args)
  | .error code errorClass retryable fatal reason =>
    .error code (codeHex code) errorClass.asU8 retryable fatal reason
  | .epochAdvanced epoch transitionId => .epochAdvanced epoch transitionId
  | .coordinatorElectionNeeded => .coordinatorElectionNeeded
  | .becameCoordinator => .becameCoordinator
  | .coordinatorClaim claimant => .coordinatorClaim claimant

theorem streamTypeCode_injective : Function.Injective fun st : StreamType => st.asU8.toUInt32 := by
  intro st st' h
  have hread := StreamType.tryFrom_asU8 st
  rw [show st.asU8.toUInt32 = st'.asU8.toUInt32 from h, StreamType.tryFrom_asU8] at hread
  exact (Except.ok.inj hread).symm

/-- The record of a payload determines it. -/
theorem payload_of_dto {p q : DeliveredPayload}
    (h : dto (.payloadReceived p) = dto (.payloadReceived q)) : p = q := by
  obtain ⟨pType, pId, pSeq, pFlags, pPlain, pCodec⟩ := p
  obtain ⟨qType, qId, qSeq, qFlags, qPlain, qCodec⟩ := q
  obtain ⟨-, htype, hid, hseq, hflags, hcodec, hplain⟩ := EventDto.payloadReceived.inj h
  obtain rfl : pId = qId := hid
  obtain rfl : pSeq = qSeq := hseq
  obtain rfl : pFlags = qFlags := hflags
  obtain rfl : pType = qType := streamTypeCode_injective htype
  obtain rfl : pCodec = qCodec := PayloadCodec.asU8_injective hcodec
  obtain rfl : pPlain = qPlain := b64_injective hplain
  rfl

/-- The record of an event determines the event. -/
theorem dto_injective : Function.Injective dto := by
  intro e e' h
  cases e with
  | stateChanged source target =>
      cases e' with
      | stateChanged source' target' =>
          obtain ⟨hsource, htarget⟩ := EventDto.stateChanged.inj h
          rw [NodeState.display_injective hsource, NodeState.display_injective htarget]
      | _ => cases h
  | payloadReceived p =>
      cases e' with
      | payloadReceived q => rw [payload_of_dto h]
      | _ => cases h
  | control source opcode transitionId requestId args =>
      cases e' with
      | control source' opcode' transitionId' requestId' args' =>
          obtain ⟨rfl, -, hop, rfl, rfl, hargs⟩ := EventDto.control.inj h
          rw [ControlOpcode.asU16_injective hop, b64_injective hargs]
      | _ => cases h
  | error code errorClass retryable fatal reason =>
      cases e' with
      | error code' errorClass' retryable' fatal' reason' =>
          obtain ⟨rfl, -, hclass, rfl, rfl, rfl⟩ := EventDto.error.inj h
          rw [ErrorClass.asU8_injective hclass]
      | _ => cases h
  | epochAdvanced epoch transitionId =>
      cases e' with
      | epochAdvanced epoch' transitionId' =>
          obtain ⟨rfl, rfl⟩ := EventDto.epochAdvanced.inj h
          rfl
      | _ => cases h
  | coordinatorElectionNeeded =>
      cases e' with
      | coordinatorElectionNeeded => rfl
      | _ => cases h
  | becameCoordinator =>
      cases e' with
      | becameCoordinator => rfl
      | _ => cases h
  | coordinatorClaim claimant =>
      cases e' with
      | coordinatorClaim claimant' =>
          obtain rfl := EventDto.coordinatorClaim.inj h
          rfl
      | _ => cases h

/-- Equal lists of records come from equal lists of events: draining shows an application
all that was queued. -/
theorem dtos_injective : Function.Injective (List.map dto) :=
  List.map_injective_iff.mpr dto_injective

end GroupProtocol.Ffi
